import CratonBolt.Library.Outcome
import CratonBolt.Plan.PlanSchema
import CratonBolt.Semantics.Value

/-!
# The meaning of expressions

`Expr.eval` gives the value of an expression on one row, where a column is looked up by name in
the schema of the row as `Schema.position?` does. A `CASE` delivers its chosen arm at the static
type of the whole expression. An expression that does not type-check, or that holds a scalar
subquery with more than one row, has no meaning: `Expr.checked` is then `none`.
-/

namespace CratonBolt

/-- The window functions, without their arguments. -/
inductive WindowKind where
  | rowNumber | rank | denseRank | sum | avg | min | max | count
deriving DecidableEq, Repr

def WindowFunc.kind {Q : Type} : WindowFunc Q → WindowKind
  | rowNumber => .rowNumber
  | rank => .rank
  | denseRank => .denseRank
  | sum _ => .sum
  | avg _ => .avg
  | min _ => .min
  | max _ => .max
  | count _ => .count

/-- What a window function sees of a row. -/
structure WindowInput where
  partition : Row
  order : Row
  arg : Value

/--
The functions whose results the meaning of a plan is built from. They are applied to cells that
are not `NULL`; `aggregate` gets the non-`NULL` values of its argument over a group, and
`window kind frame order inputs i` is the value of a window function at the `i`-th of the rows
described by `inputs`, where `order` holds the directions of the ordering keys. A text that does not
fit its format has no `parseFormat`: the evaluator raises an error. `nanDiffers` says whether `<>`
is true of a NaN: it is for the host evaluator, which compares with `!=`, and is not in a fused
kernel, whose `setp.ne` is false on unordered operands.
-/
structure Builtins where
  nanDiffers : Bool
  like : String → Option Char → Bool → String → Bool
  scalarFn : ScalarFnKind → List Value → Value
  extract : DateField → Value → Value
  dateTrunc : DateTruncUnit → Value → Value
  format : List FormatToken → Value → Value
  parseFormat : DataType → List FormatToken → Value → Option Value
  parse : DataType → String → Value
  decimal : BinaryOp → Value → Value → Value
  decimalCast : DataType → Value → Value
  aggregate : AggregateFn → List Value → Value
  window : WindowKind → Option WindowFrame → List (Bool × Bool) → List WindowInput → Nat → Value

/-- What is known of the subqueries of an expression: their schemas and the rows they return. -/
structure Subqueries (Q : Type) where
  schema : Q → Nat → BoltResult Schema
  rows : Q → Option (List Row)

namespace Value

/-- A comparison, where `<>` is true of a NaN only if `nanDiffers` is set. -/
def compareOn (nanDiffers : Bool) (op : BinaryOp) (a b : Value) : Value :=
  if op = .notEq ∧ nanDiffers = false ∧ (a.isNan || b.isNan) = true then .bool false
  else compare op a b

/-- The meaning of a binary operator. -/
def binary (B : Builtins) (op : BinaryOp) (a b : Value) : Value :=
  match op with
  | .and => ofTruth (Kleene.and a.truth b.truth)
  | .or => ofTruth (Kleene.or a.truth b.truth)
  | _ =>
    if a.isNull || b.isNull then .null
    else if op.isComparison then compareOn B.nanDiffers op a b
    else if op.isIntegerOp then integerOp op a b
    else match op, a, b with
      | .concat, .utf8 x, .utf8 y => .utf8 (x ++ y)
      | .concat, _, _ => .null
      | op, a, b =>
        match commonType a b with
        | some t => arithSame op (a.convert t) (b.convert t)
        | none =>
          match a, b with
          | .decimal128 _ _ _, _ | _, .decimal128 _ _ _ => B.decimal op a b
          | a, b => arithTemporal op a b

/-- The meaning of a unary operator. -/
def unary (op : UnaryOp) (a : Value) : Value :=
  match op with
  | .isNull => .bool a.isNull
  | .isNotNull => .bool (!a.isNull)
  | .not => ofTruth (Kleene.not a.truth)

/-- A 64-bit integer at 32 bits, or `NULL` when it does not fit. -/
def narrowSafe (n : Int64) : Value := if n.toInt32.toInt64 = n then .int32 n.toInt32 else .null

/-- The meaning of a cast. A `TRY_CAST` is `NULL` where the conversion fails. -/
def cast (B : Builtins) (safe : Bool) (t : DataType) (v : Value) : Value :=
  if v.isNull then .null
  else if v.dtype = some t then v
  else match safe, v, t with
    | true, .utf8 s, t => B.parse t s
    | true, .int64 n, .int32 => narrowSafe n
    | _, .decimal128 raw p s, t => B.decimalCast t (.decimal128 raw p s)
    | _, v, .decimal128 p s => B.decimalCast (.decimal128 p s) v
    | _, v, t => v.convert t

/-- The meaning of `LIKE`. -/
def like (B : Builtins) (pattern : String) (escape : Option Char)
    (negated caseInsensitive : Bool) : Value → Value
  | .utf8 s => .bool (B.like pattern escape caseInsensitive s != negated)
  | _ => .null

/-- A function applied to a cell, which leaves `NULL` alone. -/
def strict (f : Value → Value) (v : Value) : Value := if v.isNull then .null else f v

/-- A function applied to cells none of which may be `NULL`. -/
def strictAll (f : List Value → Value) (vs : List Value) : Value :=
  if vs.any isNull then .null else f vs

/-- Whether a value is among others: unknown when it equals none of them but may equal one. -/
def isIn (v : Value) : List Value → Option Bool
  | [] => some false
  | x :: xs => Kleene.or (compare .eq v x).truth (isIn v xs)

/-- A cell at the type of the `CASE` it was chosen for. -/
def atType (t : Option DataType) (v : Value) : Value :=
  match t with
  | some t => v.convert t
  | none => .null

end Value

/-- The cell a name denotes in a row. -/
def Schema.cell (s : Schema) (row : Row) (name : String) : Value :=
  ((s.position? name).bind (fun i => row[i]?)).getD .null

namespace Subqueries

variable {Q : Type} (S : Subqueries Q)

/-- The single value of a scalar subquery, `NULL` when it returns no row. -/
def scalar (q : Q) : Value :=
  match S.rows q with
  | some (row :: _) => row.headD .null
  | _ => .null

/-- The values a subquery supplies to `IN`. -/
def column (q : Q) : List Value := ((S.rows q).getD []).map (fun row => row.headD .null)

end Subqueries

section Eval

variable {Q : Type}

mutual

/-- The value of an expression on a row of the given schema. -/
@[grind =]
def Expr.eval (B : Builtins) (S : Subqueries Q) (s : Schema) (row : Row) : Expr Q → Value
  | .column name => s.cell row name
  | .literal lit => lit
  | .binary op left right => Value.binary B op (left.eval B S s row) (right.eval B S s row)
  | .unary op operand => Value.unary op (operand.eval B S s row)
  | .case branches elseBranch =>
    Value.atType ((Expr.case branches elseBranch).dtype S.schema s).toOption
      (evalBranches B S s row (evalElse B S s row elseBranch) branches)
  | .like expr pattern escape negated caseInsensitive =>
    Value.like B pattern escape negated caseInsensitive (expr.eval B S s row)
  | .cast expr target safe => Value.cast B safe target (expr.eval B S s row)
  | .castFormat expr target pattern toText =>
    Value.strict
      (if toText then B.format pattern else fun v => (B.parseFormat target pattern v).getD .null)
      (expr.eval B S s row)
  | .scalarFn kind args => Value.strictAll (B.scalarFn kind) (evalArgs B S s row args)
  | .extract field expr => Value.strict (B.extract field) (expr.eval B S s row)
  | .dateTrunc unit expr => Value.strict (B.dateTrunc unit) (expr.eval B S s row)
  | .aliased expr _ => expr.eval B S s row
  | .scalarSubquery plan => S.scalar plan
  | .inSubquery expr subquery negated =>
    let isIn := (expr.eval B S s row).isIn (S.column subquery)
    Value.ofTruth (if negated then Kleene.not isIn else isIn)

/-- The arm of the first branch whose condition is true, or the default. -/
def evalBranches (B : Builtins) (S : Subqueries Q) (s : Schema) (row : Row) (default : Value) :
    List (Expr Q × Expr Q) → Value
  | [] => default
  | (w, t) :: branches =>
    if (w.eval B S s row).isTrue then t.eval B S s row
    else evalBranches B S s row default branches

/-- The `ELSE` arm, `NULL` when there is none. -/
def evalElse (B : Builtins) (S : Subqueries Q) (s : Schema) (row : Row) :
    Option (Expr Q) → Value
  | none => .null
  | some e => e.eval B S s row

def evalArgs (B : Builtins) (S : Subqueries Q) (s : Schema) (row : Row) :
    List (Expr Q) → List Value
  | [] => []
  | a :: args => a.eval B S s row :: evalArgs B S s row args

end

mutual

/-- Every subquery returns a result, and every scalar subquery at most one row. -/
@[grind =]
def Expr.defined (S : Subqueries Q) : Expr Q → Bool
  | .column _ => true
  | .literal _ => true
  | .binary _ left right => left.defined S && right.defined S
  | .unary _ operand => operand.defined S
  | .case branches elseBranch => definedBranches S branches && definedElse S elseBranch
  | .like expr _ _ _ _ => expr.defined S
  | .cast expr _ _ => expr.defined S
  | .castFormat expr _ _ _ => expr.defined S
  | .scalarFn _ args => definedArgs S args
  | .extract _ expr => expr.defined S
  | .dateTrunc _ expr => expr.defined S
  | .aliased expr _ => expr.defined S
  | .scalarSubquery plan =>
    match S.rows plan with
    | some rows => decide (rows.length ≤ 1)
    | none => false
  | .inSubquery expr subquery _ => expr.defined S && (S.rows subquery).isSome

def definedBranches (S : Subqueries Q) : List (Expr Q × Expr Q) → Bool
  | [] => true
  | (w, t) :: branches => w.defined S && t.defined S && definedBranches S branches

def definedElse (S : Subqueries Q) : Option (Expr Q) → Bool
  | none => true
  | some e => e.defined S

def definedArgs (S : Subqueries Q) : List (Expr Q) → Bool
  | [] => true
  | a :: args => a.defined S && definedArgs S args

end

/-- The type of an expression that has a meaning over a schema. -/
def Expr.checked (S : Subqueries Q) (s : Schema) (e : Expr Q) : Option DataType :=
  if e.defined S then (e.dtype S.schema s).toOption else none

theorem Expr.checked_eq_some {S : Subqueries Q} {s : Schema} {e : Expr Q} {t : DataType} :
  e.checked S s = some t ↔ e.defined S = true ∧ e.dtype S.schema s = .ok t
  := by
  unfold checked
  split
  · next h => simp [h, Outcome.toOption_eq_some]
  · next h => simp [h]

end Eval

end CratonBolt
