import CratonBolt.Plan.Types

/-!
# Static types of expressions and output schemas of plans

`Expr.dtypeDepth` and `LogicalPlan.schemaDepth` follow the type checker of
`plan/logical_plan.rs` clause by clause, with its recursion limit and its messages. A `Join`
is typed by its two inputs alone: its key pairs and its filter are not checked.
-/

namespace CratonBolt

open DataType (debugTz)

/-! ### Typing rules of the operators -/

/-- The wider of two numeric types: float beats integer, 64 bits beat 32. -/
def unifyNumeric (a b : DataType) : BoltResult DataType :=
  if !a.isNumeric || !b.isNumeric then
    .error (.type s!"cannot unify non-numeric types {a.debug} and {b.debug}")
  else
    let eitherFloat := a.isFloat || b.isFloat
    let either64 := a == .int64 || a == .float64 || b == .int64 || b == .float64
    .ok <| match eitherFloat, either64 with
      | true, true => .float64
      | true, false => .float32
      | false, true => .int64
      | false, false => .int32

/-- Two types may be compared: they are equal, or both are primitive numeric types. -/
def comparable (a b : DataType) : Bool := a == b || (a.isNumeric && b.isNumeric)

/-- The result of arithmetic on dates and timestamps; `none` when neither operand is one. -/
def dateOrTimestampArithResult (op : BinaryOp) (l r : DataType) :
    Option (BoltResult DataType) :=
  if !l.isTemporal && !r.isTemporal then none
  else match op, l, r with
    | .sub, .date32, .date32 => some (.ok .int32)
    | .add, .date32, .int32 | .add, .date32, .int64
    | .add, .int32, .date32 | .add, .int64, .date32
    | .sub, .date32, .int32 | .sub, .date32, .int64 => some (.ok .date32)
    | .sub, .timestamp lu ltz, .timestamp ru rtz =>
      if lu ≠ ru then
        some (.error (.type <| "Timestamp subtraction requires matching TimeUnit, got " ++
          s!"{lu.debug} and {ru.debug}"))
      else if ltz ≠ rtz then
        some (.error (.type <| "Timestamp subtraction requires matching time zones, got " ++
          s!"{debugTz ltz} and {debugTz rtz}"))
      else some (.ok .int64)
    | op, l, r =>
      some (.error (.type <| s!"arithmetic {op.debug} on Date/Timestamp operands " ++
        s!"({l.debug}, {r.debug}) is not supported; only Date32 - Date32, Date32 +/- integer " ++
        "days and Timestamp - Timestamp (matching unit and tz) are"))

/-- The decimal type an operand of decimal arithmetic is read at. -/
def intAsDecimal : DataType → Option (UInt8 × Int8)
  | .decimal128 p s => some (p, s)
  | .int32 | .date32 => some (10, 0)
  | .int64 => some (19, 0)
  | _ => none

def mixedDecimalError (op : BinaryOp) (t : DataType) : BoltError :=
  .type <| s!"arithmetic {op.debug} on mixed Decimal128 / {t.debug} is not supported; only " ++
    s!"integer peers are auto-coerced — CAST the {t.debug} side to Decimal128(p, s) first"

/-- The result of decimal arithmetic; `none` when neither operand is a decimal. -/
def decimal128ArithResult (op : BinaryOp) (l r : DataType) : Option (BoltResult DataType) :=
  if !l.isDecimal && !r.isDecimal then none
  else match intAsDecimal l, intAsDecimal r with
    | none, _ => some (.error (mixedDecimalError op l))
    | some _, none => some (.error (mixedDecimalError op r))
    | some (p₁, s₁), some (p₂, s₂) =>
      match op with
      | .add | .sub =>
        let p := UInt8.ofNat (min (max p₁.toNat p₂.toNat + 1) 38)
        some (.ok (.decimal128 p (if s₁.toInt ≤ s₂.toInt then s₂ else s₁)))
      | .mul =>
        let s := s₁.toInt + s₂.toInt
        if -128 ≤ s ∧ s ≤ 127 then
          some (.ok (.decimal128 (UInt8.ofNat (min (p₁.toNat + p₂.toNat) 38)) (Int8.ofInt s)))
        else
          some (.error (.type s!"Decimal128 Mul scale overflow: {s₁} + {s₂} does not fit in i8"))
      | .div =>
        let p := UInt8.ofNat (min (max p₁.toNat 1) 38)
        some (.ok (.decimal128 p (if s₁.toInt ≤ 6 then 6 else s₁)))
      | other =>
        some (.error (.type
          s!"arithmetic {other.debug} on Decimal128 operands is not supported"))

/-- The type of a binary expression from the types of its operands. -/
def binaryDtype (op : BinaryOp) (l r : DataType) : BoltResult DataType :=
  if op.isArithmetic then
    match dateOrTimestampArithResult op l r with
    | some result => result
    | none =>
      match decimal128ArithResult op l r with
      | some result => result
      | none =>
        if !l.isNumeric || !r.isNumeric then
          .error (.type <| s!"arithmetic {op.debug} requires numeric operands, " ++
            s!"got {l.debug} and {r.debug}")
        else unifyNumeric l r
  else if op.isComparison then
    if comparable l r then .ok .bool
    else .error (.type s!"cannot compare {l.debug} with {r.debug}")
  else if op.isLogical then
    if l == .bool && r == .bool then .ok .bool
    else .error (.type <| s!"logical {op.debug} requires Bool operands, " ++
      s!"got {l.debug} and {r.debug}")
  else if op.isString then
    if l == .utf8 && r == .utf8 then .ok .utf8
    else .error (.type <| s!"string {op.debug} requires Utf8 operands, " ++
      s!"got {l.debug} and {r.debug}")
  else
    if !l.isInt || !r.isInt then
      .error (.type <| s!"operator {op.integerOpSymbol} requires integer (Int32/Int64) " ++
        s!"operands, got {l.debug} and {r.debug}")
    else if op.isShift then .ok l
    else unifyNumeric l r

/--
The type of an operand of a binary expression: a bare `NULL` takes the type of its peer when
the peer has one.
-/
def peerTypedDtype (isNull : Bool) (own peer : BoltResult DataType) : BoltResult DataType :=
  if isNull then
    match peer with
    | .ok t => .ok t
    | .error _ => own
  else own

/-- The type of a `CASE` arm, `none` for a bare `NULL`. -/
def caseArmDtype (isNull : Bool) (own : BoltResult DataType) : BoltResult (Option DataType) :=
  if isNull then .ok none else own.map some

/-- The common type of two `CASE` arms. -/
def unifyCaseDtypes (a b : DataType) : Option DataType :=
  if a == b then some a
  else if a.isNumeric && b.isNumeric then (unifyNumeric a b).toOption
  else none

/-- A `CASE` arm's label in error messages; the arm after the last branch is the `ELSE`. -/
def caseArmLabel (thens i : Nat) : String := if i < thens then s!"THEN {i}" else "ELSE"

/--
The result type of a `CASE` from the types of its arms (`none` for a bare `NULL`), folded from
the left. `thens` is the number of `THEN` arms and `i` the position of the next arm.
-/
def foldCaseDtypes (thens : Nat) :
    List (Option DataType) → Nat → Option DataType → BoltResult DataType
  | [], _, some t => .ok t
  | [], _, none =>
    .error (.type <| "CASE expression: every THEN/ELSE arm is an untyped NULL — " ++
      "cannot infer a result dtype")
  | none :: arms, i, acc => foldCaseDtypes thens arms (i + 1) acc
  | some t :: arms, i, none => foldCaseDtypes thens arms (i + 1) (some t)
  | some t :: arms, i, some prev =>
    match unifyCaseDtypes prev t with
    | some u => foldCaseDtypes thens arms (i + 1) (some u)
    | none =>
      .error (.type <| s!"CASE {caseArmLabel thens i} has incompatible dtype {t.debug} " ++
        s!"with previous arms ({prev.debug})")

/-- The conversions a plain `CAST` accepts. -/
def castIsSupported (src target : DataType) : Bool :=
  if src == target then true
  else match src, target with
    | .int32, .int64 | .int64, .int32 => true
    | .int32, .float32 | .int32, .float64 | .int64, .float32 | .int64, .float64 => true
    | .float32, .float64 | .float64, .float32 => true
    | .bool, .int32 | .bool, .int64 | .int32, .bool | .int64, .bool => true
    | .float32, .decimal128 _ _ | .float64, .decimal128 _ _ => true
    | .decimal128 _ _, .float32 | .decimal128 _ _, .float64 => true
    | _, _ => false

/-- The conversions `TRY_CAST` accepts: also parses of text, but no float/decimal pair. -/
def safeCastIsSupported (src target : DataType) : Bool :=
  match src, target with
  | .float32, .decimal128 _ _ | .float64, .decimal128 _ _ => false
  | .decimal128 _ _, .float32 | .decimal128 _ _, .float64 => false
  | .utf8, .int32 | .utf8, .int64 | .utf8, .float32 | .utf8, .float64 | .utf8, .bool => true
  | src, target => castIsSupported src target

/-- The type of a cast from the type of its operand. -/
def castDtype (safe : Bool) (target src : DataType) : BoltResult DataType :=
  let supported := if safe then safeCastIsSupported src target else castIsSupported src target
  if supported then .ok target
  else
    let what := if safe then "TRY_CAST" else "CAST"
    .error (.type s!"unsupported {what} from {src.debug} to {target.debug}")

/-- The type of a `CAST ... FORMAT` from the type of its operand. -/
def castFormatDtype (target : DataType) (pattern : List FormatToken) (toText : Bool)
    (src : DataType) : BoltResult DataType :=
  let intraday := pattern.find? FormatToken.isIntraday
  if toText then
    match src, intraday with
    | .date32, some tok =>
      .error (.type <| "CAST(... FORMAT ...): pattern uses a time-of-day token " ++
        s!"{tok.debug} but the operand is Date32 (no time component); use a Timestamp operand")
    | .date32, none | .timestamp _ _, _ =>
      if target ≠ .utf8 then
        .error (.type <| "CAST(... FORMAT ...) temporal→string must target Utf8, " ++
          s!"got {target.debug}")
      else .ok .utf8
    | other, _ =>
      .error (.type <| "CAST(... AS VARCHAR FORMAT ...) requires a Date32 or Timestamp " ++
        s!"operand, got {other.debug}")
  else if src ≠ .utf8 then
    .error (.type <| "CAST(... AS DATE/TIMESTAMP FORMAT ...) requires a Utf8 operand, " ++
      s!"got {src.debug}")
  else
    match target, intraday with
    | .date32, some tok =>
      .error (.type <| "CAST(... AS DATE FORMAT ...): pattern uses a time-of-day token " ++
        s!"{tok.debug} but the target Date32 has no time component; target TIMESTAMP instead")
    | .date32, none => .ok .date32
    | .timestamp u tz, _ => .ok (.timestamp u tz)
    | other, _ =>
      .error (.type <| "CAST(... FORMAT ...) string→temporal must target Date32 or Timestamp, " ++
        s!"got {other.debug}")

/-- The type of `EXTRACT(field FROM src)`. -/
def extractOutputDtype (field : DateField) : DataType → BoltResult DataType
  | .date32 =>
    if field.isIntraday then
      .error (.type <| s!"EXTRACT({field.sqlName} FROM <Date32>) is undefined — a Date32 has " ++
        "no time-of-day component; cast to Timestamp first")
    else .ok .int64
  | .timestamp _ _ => .ok .int64
  | other =>
    .error (.type <| s!"EXTRACT({field.sqlName} FROM ...) requires a Date32 or Timestamp " ++
      s!"operand, got {other.debug}")

/-- The type of `DATE_TRUNC(unit, src)`. -/
def dateTruncOutputDtype (unit : DateTruncUnit) : DataType → BoltResult DataType
  | .date32 =>
    if unit.isIntraday then
      .error (.type <| s!"DATE_TRUNC('{unit.sqlName}', <Date32>) is undefined — a Date32 has " ++
        "no sub-day component; cast to Timestamp first")
    else .ok .date32
  | .timestamp u tz => .ok (.timestamp u tz)
  | other =>
    .error (.type <| s!"DATE_TRUNC('{unit.sqlName}', ...) requires a Date32 or Timestamp " ++
      s!"operand, got {other.debug}")

/-- Every argument has type `Utf8`; `i` is the position of the first one. -/
def requireUtf8Args (name : String) : Nat → List DataType → BoltResult Unit
  | _, [] => .ok ()
  | i, t :: ts =>
    if t = .utf8 then requireUtf8Args name (i + 1) ts
    else .error (.type s!"{name} argument {i} must be Utf8, got {t.debug}")

/-- A function of one `Utf8` argument. -/
def unaryUtf8Dtype (name : String) (out : DataType) : List DataType → BoltResult DataType
  | [t] =>
    if t = .utf8 then .ok out
    else .error (.type s!"{name} requires a Utf8 argument, got {t.debug}")
  | ts => .error (.type s!"{name} expects exactly 1 argument, got {ts.length}")

/-- A function whose arguments are all `Utf8`, as many of them as `arity` admits. -/
def allUtf8Dtype (name expects : String) (arity : Nat → Bool) (out : DataType)
    (ts : List DataType) : BoltResult DataType :=
  if arity ts.length then (requireUtf8Args name 1 ts).map (fun _ => out)
  else .error (.type s!"{name} expects {expects}, got {ts.length}")

/-- The start and length of a `SUBSTRING` have type `Int64`. -/
def requireInt64Args (name : String) : Nat → List DataType → BoltResult Unit
  | _, [] => .ok ()
  | i, t :: ts =>
    if t = .int64 then requireInt64Args name (i + 1) ts
    else .error (.type s!"{name} argument {i} must be Int64, got {t.debug}")

def substringDtype (name : String) (ts : List DataType) : BoltResult DataType :=
  match ts with
  | [t, _] | [t, _, _] =>
    if t = .utf8 then (requireInt64Args name 2 ts.tail).map (fun _ => .utf8)
    else .error (.type s!"{name} first argument must be Utf8, got {t.debug}")
  | ts =>
    .error (.type <| s!"{name} expects 2 or 3 arguments (string, start [, length]), " ++
      s!"got {ts.length}")

/-- `LEFT` and `RIGHT`. -/
def leftRightDtype (name : String) : List DataType → BoltResult DataType
  | [t, n] =>
    if t ≠ .utf8 then .error (.type s!"{name} first argument must be Utf8, got {t.debug}")
    else if n ≠ .int64 then
      .error (.type s!"{name} second argument must be Int64, got {n.debug}")
    else .ok .utf8
  | ts => .error (.type s!"{name} expects exactly 2 arguments (string, count), got {ts.length}")

/-- `LPAD` and `RPAD`. -/
def padDtype (name : String) : List DataType → BoltResult DataType
  | [t, n, p] =>
    if t ≠ .utf8 then .error (.type s!"{name} first argument must be Utf8, got {t.debug}")
    else if n ≠ .int64 then
      .error (.type s!"{name} second argument (length) must be Int64, got {n.debug}")
    else if p ≠ .utf8 then
      .error (.type s!"{name} third argument (pad) must be Utf8, got {p.debug}")
    else .ok .utf8
  | ts =>
    .error (.type <| s!"{name} expects exactly 3 arguments (string, length, pad), " ++
      s!"got {ts.length}")

/-- The type of a string function from the types of its arguments. -/
def scalarFnDtype (kind : ScalarFnKind) (ts : List DataType) : BoltResult DataType :=
  let name := kind.sqlName
  match kind with
  | .upper | .lower | .reverse | .initcap => unaryUtf8Dtype name .utf8 ts
  | .length | .octetLength => unaryUtf8Dtype name .int64 ts
  | .substring => substringDtype name ts
  | .concat => allUtf8Dtype name "at least 2 arguments" (fun n => decide (2 ≤ n)) .utf8 ts
  | .trimBoth | .trimLeading | .trimTrailing =>
    allUtf8Dtype name "1 or 2 Utf8 arguments (string [, trim chars])"
      (fun n => n == 1 || n == 2) .utf8 ts
  | .position =>
    allUtf8Dtype name "exactly 2 arguments (string, substring)" (fun n => n == 2) .int64 ts
  | .replace =>
    allUtf8Dtype name "exactly 3 arguments (string, from, to)" (fun n => n == 3) .utf8 ts
  | .left | .right => leftRightDtype name ts
  | .lpad | .rpad => padDtype name ts

/-- The type of a scalar subquery from its schema. -/
def scalarSubqueryDtype (s : Schema) : BoltResult DataType :=
  match s.fields with
  | [f] => .ok f.dtype
  | fields =>
    .error (.type s!"scalar subquery must return exactly one column, got {fields.length}")

/-- The type of the column an `IN` subquery supplies. -/
def inSubqueryColumn (s : Schema) : BoltResult DataType :=
  match s.fields with
  | [f] => .ok f.dtype
  | fields => .error (.type s!"IN subquery must return exactly one column, got {fields.length}")

/-- The type of `probe [NOT] IN (subquery)` from the two column types. -/
def inSubqueryDtype (column probe : DataType) : BoltResult DataType :=
  if comparable probe column then .ok .bool
  else .error (.type <| s!"IN subquery: cannot compare {probe.debug} with subquery column " ++
    s!"type {column.debug}")

/-- The operand of a `NOT` has type `Bool`. -/
def notDtype (t : DataType) : BoltResult DataType :=
  if t = .bool then .ok .bool
  else .error (.type s!"logical NOT requires a Bool operand, got {t.debug}")

/-- The operand of a `LIKE` has type `Utf8`. -/
def likeDtype (t : DataType) : BoltResult DataType :=
  if t = .utf8 then .ok .bool
  else .error (.type s!"LIKE requires a Utf8 operand, got {t.debug}")

/-! ### Expressions -/

section Expressions

variable {Q : Type}

mutual

/--
The static type of an expression. `sub q d` is the schema of the subquery `q` checked from
depth `d`. The operands of a binary operator are checked from depth `0` again.
-/
@[grind =]
def Expr.dtypeDepth (sub : Q → Nat → BoltResult Schema) (s : Schema) (e : Expr Q)
    (depth : Nat) : BoltResult DataType :=
  if depth > maxRecursionDepth then
    .error (.type s!"expression nesting exceeds depth limit ({maxRecursionDepth})")
  else match e with
    | .column name => (s.field name).map Field.dtype
    | .literal lit =>
      match lit.dtype with
      | some t => .ok t
      | none => .error (.type "untyped NULL literal")
    | .binary op left right => do
      let l := left.dtypeDepth sub s 0
      let r := right.dtypeDepth sub s 0
      let lt ← peerTypedDtype left.isNullLit l r
      let rt ← peerTypedDtype right.isNullLit r l
      binaryDtype op lt rt
    | .unary .isNull operand | .unary .isNotNull operand =>
      if operand.isNullLit then .ok .bool
      else (operand.dtypeDepth sub s (depth + 1)).map (fun _ => .bool)
    | .unary .not operand =>
      if operand.isNullLit then .ok .bool
      else do notDtype (← operand.dtypeDepth sub s (depth + 1))
    | .case branches elseBranch => do
      if branches.isEmpty then
        .error (.type "CASE expression requires at least one WHEN/THEN branch")
      else
        checkWhens sub s (depth + 1) branches 0
        let thens ← thenDtypes sub s (depth + 1) branches
        let els ← elseDtypes sub s (depth + 1) elseBranch
        foldCaseDtypes thens.length (thens ++ els) 0 none
    | .like expr _ _ _ _ => do likeDtype (← expr.dtypeDepth sub s (depth + 1))
    | .cast expr target safe =>
      if expr.isNullLit then .ok target
      else do castDtype safe target (← expr.dtypeDepth sub s (depth + 1))
    | .castFormat expr target pattern toText =>
      if expr.isNullLit then .ok target
      else do castFormatDtype target pattern toText (← expr.dtypeDepth sub s (depth + 1))
    | .scalarFn kind args => do scalarFnDtype kind (← argDtypes sub s (depth + 1) args)
    | .extract field expr => do extractOutputDtype field (← expr.dtypeDepth sub s (depth + 1))
    | .dateTrunc unit expr => do dateTruncOutputDtype unit (← expr.dtypeDepth sub s (depth + 1))
    | .aliased expr _ => expr.dtypeDepth sub s (depth + 1)
    | .scalarSubquery plan => do scalarSubqueryDtype (← sub plan (depth + 1))
    | .inSubquery expr subquery _ => do
      let column ← inSubqueryColumn (← sub subquery (depth + 1))
      if expr.isNullLit then .ok .bool
      else inSubqueryDtype column (← expr.dtypeDepth sub s (depth + 1))

/-- Every `WHEN` condition has type `Bool`; `i` is the position of the first branch. -/
def checkWhens (sub : Q → Nat → BoltResult Schema) (s : Schema) (depth : Nat) :
    List (Expr Q × Expr Q) → Nat → BoltResult Unit
  | [], _ => .ok ()
  | (w, _) :: branches, i => do
    let t ← w.dtypeDepth sub s depth
    if t = .bool then checkWhens sub s depth branches (i + 1)
    else .error (.type s!"CASE WHEN condition {i} must be Bool, got {t.debug}")

/-- The types of the `THEN` arms, `none` for a bare `NULL`. -/
def thenDtypes (sub : Q → Nat → BoltResult Schema) (s : Schema) (depth : Nat) :
    List (Expr Q × Expr Q) → BoltResult (List (Option DataType))
  | [] => .ok []
  | (_, t) :: branches => do
    let arm ← caseArmDtype t.isNullLit (t.dtypeDepth sub s depth)
    let arms ← thenDtypes sub s depth branches
    .ok (arm :: arms)

/-- The type of the `ELSE` arm, if there is one. -/
def elseDtypes (sub : Q → Nat → BoltResult Schema) (s : Schema) (depth : Nat) :
    Option (Expr Q) → BoltResult (List (Option DataType))
  | none => .ok []
  | some e => (caseArmDtype e.isNullLit (e.dtypeDepth sub s depth)).map (fun arm => [arm])

/-- The types of the arguments of a function. -/
def argDtypes (sub : Q → Nat → BoltResult Schema) (s : Schema) (depth : Nat) :
    List (Expr Q) → BoltResult (List DataType)
  | [] => .ok []
  | a :: args => do
    let t ← a.dtypeDepth sub s depth
    let ts ← argDtypes sub s depth args
    .ok (t :: ts)

end

/-- The static type of an expression. -/
def Expr.dtype (sub : Q → Nat → BoltResult Schema) (s : Schema) (e : Expr Q) :
    BoltResult DataType :=
  e.dtypeDepth sub s 0

end Expressions

end CratonBolt
