import Mathlib.Algebra.GroupWithZero.Nat
import Mathlib.Data.List.Basic

/-!
# Types, schemas, expressions and logical plans

The logical plane of the engine: column types, schemas with their name lookup, scalar
constants, expressions and relational plans, as `plan/logical_plan.rs` declares them.

An expression may hold uncorrelated subqueries. `Expr Q` and `LogicalPlan Q` take the type
`Q` of those subqueries as a parameter, so that a plan is an ordinary (non-mutual) tree and
what a subquery types as or evaluates to is supplied from outside. Plans whose subqueries are
nested to depth `n` are the type `Query n`.
-/

namespace CratonBolt

/-- The errors the planner returns, each with its message. -/
inductive BoltError where
  | type (msg : String)
  | plan (msg : String)
  | other (msg : String)
deriving DecidableEq, Repr

/-- The result of a fallible planner function. -/
abbrev BoltResult := Except BoltError

/-- The depth at which type-checking gives up on a nested expression or plan. -/
def maxRecursionDepth : Nat := 256

/-! ### Column types -/

inductive TimeUnit where
  | second | millisecond | microsecond | nanosecond
deriving DecidableEq, Repr

/-- `TimeUnit` as it is printed in error messages. -/
def TimeUnit.debug : TimeUnit → String
  | .second => "Second"
  | .millisecond => "Millisecond"
  | .microsecond => "Microsecond"
  | .nanosecond => "Nanosecond"

inductive DataType where
  | bool
  | int32
  | int64
  | float32
  | float64
  | utf8
  | decimal128 (precision : UInt8) (scale : Int8)
  | date32
  | timestamp (unit : TimeUnit) (tz : Option String)
deriving DecidableEq, Repr

namespace DataType

/-- A time zone as it is printed in error messages. -/
def debugTz : Option String → String
  | none => "None"
  | some tz => "Some(\"" ++ tz ++ "\")"

/-- A type as it is printed in error messages. -/
def debug : DataType → String
  | bool => "Bool"
  | int32 => "Int32"
  | int64 => "Int64"
  | float32 => "Float32"
  | float64 => "Float64"
  | utf8 => "Utf8"
  | decimal128 p s => s!"Decimal128({p}, {s})"
  | date32 => "Date32"
  | timestamp u tz => s!"Timestamp({u.debug}, {debugTz tz})"

def isFloat : DataType → Bool
  | float32 | float64 => true
  | _ => false

def isInt : DataType → Bool
  | int32 | int64 => true
  | _ => false

/-- The primitive numeric types; `Decimal128` is not one of them. -/
def isNumeric (t : DataType) : Bool := t.isInt || t.isFloat

def isDecimal : DataType → Bool
  | decimal128 _ _ => true
  | _ => false

def isTemporal : DataType → Bool
  | date32 | timestamp _ _ => true
  | _ => false

end DataType

/-! ### Schemas and name lookup -/

/-- A named, typed column slot of a schema. -/
structure Field where
  name : String
  dtype : DataType
  nullable : Bool
deriving DecidableEq, Repr

/-- An ordered list of fields. Names may repeat. -/
structure Schema where
  fields : List Field
deriving DecidableEq, Repr

/-- Two names are equal up to the case of ASCII letters. -/
def eqIgnoreAsciiCase (a b : String) : Bool :=
  a.toList.map Char.toLower == b.toList.map Char.toLower

/-- A name has no ASCII uppercase letter, so that it may be looked up without regard to case. -/
def isFolded (name : String) : Bool := !name.toList.any Char.isUpper

/--
Position of the column a name denotes: the first column of exactly that name and, when there
is none and the name has no uppercase letter, the first column equal to it up to case.
-/
def resolve (names : List String) (name : String) : Option Nat :=
  match names.findIdx? (fun n => n == name) with
  | some i => some i
  | none => if isFolded name then names.findIdx? (fun n => eqIgnoreAsciiCase n name) else none

namespace Schema

variable (s : Schema)

/-- The field names in order. -/
def names : List String := s.fields.map Field.name

/-- The field types in order. -/
def dtypes : List DataType := s.fields.map Field.dtype

/-- Position of the field a name denotes. -/
def position? (name : String) : Option Nat := resolve s.names name

/-- `position?` with the planner's error. The "did you mean" hint of the text is left out. -/
def indexOf (name : String) : BoltResult Nat :=
  match s.position? name with
  | some i => .ok i
  | none => .error (.plan s!"column '{name}' not found in schema")

/-- The field a name denotes. -/
def field (name : String) : BoltResult Field := do
  let i ← s.indexOf name
  match s.fields[i]? with
  | some f => .ok f
  | none => .error (.plan s!"column '{name}' not found in schema")

end Schema

/-! ### Constants and operators -/

/-- A 32-bit float as its bit pattern, so that constants and cells have decidable equality. -/
structure F32 where
  bits : UInt32
deriving DecidableEq, Repr

/-- A 64-bit float as its bit pattern. -/
structure F64 where
  bits : UInt64
deriving DecidableEq, Repr

/-- Scalar constants. `null` has no static type. -/
inductive Literal where
  | null
  | bool (b : Bool)
  | int32 (n : Int32)
  | int64 (n : Int64)
  | float32 (x : F32)
  | float64 (x : F64)
  | utf8 (s : String)
  | decimal128 (raw : BitVec 128) (precision : UInt8) (scale : Int8)
  | date32 (days : Int32)
  | timestamp (ticks : Int64) (unit : TimeUnit) (tz : Option String)
deriving DecidableEq, Repr

/-- The static type of a constant. -/
def Literal.dtype : Literal → Option DataType
  | null => none
  | bool _ => some .bool
  | int32 _ => some .int32
  | int64 _ => some .int64
  | float32 _ => some .float32
  | float64 _ => some .float64
  | utf8 _ => some .utf8
  | decimal128 _ p s => some (.decimal128 p s)
  | date32 _ => some .date32
  | timestamp _ u tz => some (.timestamp u tz)

inductive BinaryOp where
  | add | sub | mul | div
  | eq | notEq | lt | ltEq | gt | gtEq
  | and | or
  | concat
  | mod | bitAnd | bitOr | bitXor | shl | shr
deriving DecidableEq, Repr

namespace BinaryOp

def isArithmetic : BinaryOp → Bool
  | add | sub | mul | div => true
  | _ => false

def isComparison : BinaryOp → Bool
  | eq | notEq | lt | ltEq | gt | gtEq => true
  | _ => false

def isLogical : BinaryOp → Bool
  | and | or => true
  | _ => false

def isString : BinaryOp → Bool
  | concat => true
  | _ => false

def isIntegerOp : BinaryOp → Bool
  | mod | bitAnd | bitOr | bitXor | shl | shr => true
  | _ => false

def isShift : BinaryOp → Bool
  | shl | shr => true
  | _ => false

/-- The SQL spelling of an integer operator. -/
def integerOpSymbol : BinaryOp → String
  | mod => "%"
  | bitAnd => "&"
  | bitOr => "|"
  | bitXor => "^"
  | shl => "<<"
  | shr => ">>"
  | _ => "?"

/-- An operator as it is printed in error messages. -/
def debug : BinaryOp → String
  | add => "Add" | sub => "Sub" | mul => "Mul" | div => "Div"
  | eq => "Eq" | notEq => "NotEq" | lt => "Lt" | ltEq => "LtEq" | gt => "Gt" | gtEq => "GtEq"
  | and => "And" | or => "Or" | concat => "Concat"
  | mod => "Mod" | bitAnd => "BitAnd" | bitOr => "BitOr" | bitXor => "BitXor"
  | shl => "Shl" | shr => "Shr"

end BinaryOp

inductive UnaryOp where
  | isNull | isNotNull | not
deriving DecidableEq, Repr

inductive ScalarFnKind where
  | upper | lower | length | substring | concat | trimBoth | trimLeading | trimTrailing
  | octetLength | position | replace | left | right | lpad | rpad | reverse | initcap
deriving DecidableEq, Repr

def ScalarFnKind.sqlName : ScalarFnKind → String
  | upper => "UPPER"
  | lower => "LOWER"
  | length => "LENGTH"
  | substring => "SUBSTRING"
  | concat => "CONCAT"
  | trimBoth | trimLeading | trimTrailing => "TRIM"
  | octetLength => "OCTET_LENGTH"
  | position => "POSITION"
  | replace => "REPLACE"
  | left => "LEFT"
  | right => "RIGHT"
  | lpad => "LPAD"
  | rpad => "RPAD"
  | reverse => "REVERSE"
  | initcap => "INITCAP"

/-- The component an `EXTRACT` takes out of a temporal value. -/
inductive DateField where
  | year | month | day | hour | minute | second
deriving DecidableEq, Repr

def DateField.sqlName : DateField → String
  | year => "YEAR" | month => "MONTH" | day => "DAY"
  | hour => "HOUR" | minute => "MINUTE" | second => "SECOND"

def DateField.isIntraday : DateField → Bool
  | hour | minute | second => true
  | _ => false

/-- The granularity of a `DATE_TRUNC`. -/
inductive DateTruncUnit where
  | year | month | day | hour | minute | second
deriving DecidableEq, Repr

def DateTruncUnit.sqlName : DateTruncUnit → String
  | year => "year" | month => "month" | day => "day"
  | hour => "hour" | minute => "minute" | second => "second"

def DateTruncUnit.isIntraday : DateTruncUnit → Bool
  | hour | minute | second => true
  | _ => false

/-- A token of a `CAST ... FORMAT` pattern. -/
inductive FormatToken where
  | year4 | month | day | hour24 | minute | second
  | literal (c : Char)
deriving DecidableEq, Repr

def FormatToken.isIntraday : FormatToken → Bool
  | hour24 | minute | second => true
  | _ => false

/-- A format token as it is printed in error messages. -/
def FormatToken.debug : FormatToken → String
  | year4 => "Year4" | month => "Month" | day => "Day"
  | hour24 => "Hour24" | minute => "Minute" | second => "Second"
  | literal c => "Literal('" ++ c.toString ++ "')"

/-! ### Expressions -/

/-- Scalar expressions over columns, with uncorrelated subqueries of type `Q`. -/
inductive Expr (Q : Type) where
  | column (name : String)
  | literal (lit : Literal)
  | binary (op : BinaryOp) (left right : Expr Q)
  | unary (op : UnaryOp) (operand : Expr Q)
  | case (branches : List (Expr Q × Expr Q)) (elseBranch : Option (Expr Q))
  | like (expr : Expr Q) (pattern : String) (escape : Option Char)
      (negated caseInsensitive : Bool)
  | cast (expr : Expr Q) (target : DataType) (safe : Bool)
  | castFormat (expr : Expr Q) (target : DataType) (pattern : List FormatToken) (toText : Bool)
  | scalarFn (kind : ScalarFnKind) (args : List (Expr Q))
  | extract (field : DateField) (expr : Expr Q)
  | dateTrunc (unit : DateTruncUnit) (expr : Expr Q)
  | aliased (expr : Expr Q) (name : String)
  | scalarSubquery (plan : Q)
  | inSubquery (expr : Expr Q) (subquery : Q) (negated : Bool)

namespace Expr

variable {Q : Type}

/-- The expression is a bare `NULL` constant, which has no type of its own. -/
def isNullLit : Expr Q → Bool
  | literal .null => true
  | _ => false

/--
Induction over expressions, where the hypotheses for the branches of a `CASE` and for the
arguments of a function are about the members of those lists.
-/
@[elab_as_elim, induction_eliminator]
theorem induct {motive : Expr Q → Prop}
    (column : ∀ name, motive (column name))
    (literal : ∀ lit, motive (literal lit))
    (binary : ∀ op left right, motive left → motive right → motive (binary op left right))
    (unary : ∀ op operand, motive operand → motive (unary op operand))
    (case : ∀ branches elseBranch, (∀ b ∈ branches, motive b.1 ∧ motive b.2) →
      (∀ e ∈ elseBranch, motive e) → motive (case branches elseBranch))
    (like : ∀ expr pattern escape negated caseInsensitive, motive expr →
      motive (like expr pattern escape negated caseInsensitive))
    (cast : ∀ expr target safe, motive expr → motive (cast expr target safe))
    (castFormat : ∀ expr target pattern toText, motive expr →
      motive (castFormat expr target pattern toText))
    (scalarFn : ∀ kind args, (∀ a ∈ args, motive a) → motive (scalarFn kind args))
    (extract : ∀ field expr, motive expr → motive (extract field expr))
    (dateTrunc : ∀ unit expr, motive expr → motive (dateTrunc unit expr))
    (aliased : ∀ expr name, motive expr → motive (aliased expr name))
    (scalarSubquery : ∀ plan, motive (scalarSubquery plan))
    (inSubquery : ∀ expr subquery negated, motive expr →
      motive (inSubquery expr subquery negated))
    (e : Expr Q) : motive e
  := by
  refine @Expr.rec Q motive
    (fun branches => ∀ b ∈ branches, motive b.1 ∧ motive b.2)
    (fun elseBranch => ∀ x ∈ elseBranch, motive x)
    (fun args => ∀ a ∈ args, motive a)
    (fun b => motive b.1 ∧ motive b.2)
    column literal binary unary case like cast castFormat scalarFn extract dateTrunc aliased
    scalarSubquery inSubquery ?_ ?_ ?_ ?_ ?_ ?_ ?_ e
  · simp
  · intro b bs hb hbs x hx
    cases hx with
    | head => apply hb
    | tail _ hx => apply hbs x hx
  · simp
  · intro x hx y hy
    cases hy
    apply hx
  · simp
  · intro a as ha has x hx
    cases hx with
    | head => apply ha
    | tail _ hx => apply has x hx
  · intro w t hw ht
    apply And.intro hw ht

end Expr

/-! ### Aggregates, window functions and sort keys -/

inductive AggregateFn where
  | count | sum | min | max | avg | varPop | varSamp | stddevPop | stddevSamp
deriving DecidableEq, Repr

/-- An aggregate function applied to an expression. -/
structure AggregateExpr (Q : Type) where
  fn : AggregateFn
  arg : Expr Q

inductive WindowFunc (Q : Type) where
  | rowNumber
  | rank
  | denseRank
  | sum (e : Expr Q)
  | avg (e : Expr Q)
  | min (e : Expr Q)
  | max (e : Expr Q)
  | count (e : Expr Q)

/-- The argument of a window function; the ranking functions have none. -/
def WindowFunc.arg {Q : Type} : WindowFunc Q → Option (Expr Q)
  | rowNumber | rank | denseRank => none
  | sum e | avg e | min e | max e | count e => some e

inductive FrameUnits where
  | rows | range | groups
deriving DecidableEq, Repr

inductive RangeOffset where
  | number (x : F64)
  | interval (micros : Int64)
deriving DecidableEq, Repr

inductive FrameBound where
  | unboundedPreceding
  | preceding (n : UInt64)
  | currentRow
  | following (n : UInt64)
  | precedingValue (offset : RangeOffset)
  | followingValue (offset : RangeOffset)
  | unboundedFollowing
deriving DecidableEq, Repr

structure WindowFrame where
  units : FrameUnits
  start : FrameBound
  stop : FrameBound
deriving DecidableEq, Repr

structure WindowExpr (Q : Type) where
  func : WindowFunc Q
  outputName : String
  frame : Option WindowFrame

structure SortExpr (Q : Type) where
  expr : Expr Q
  descending : Bool
  nullsFirst : Bool

inductive JoinType where
  | inner | leftOuter | rightOuter | fullOuter | cross
deriving DecidableEq, Repr

inductive SetOpKind where
  | except | intersect
deriving DecidableEq, Repr

def SetOpKind.keyword : SetOpKind → String
  | except => "EXCEPT"
  | intersect => "INTERSECT"

/-! ### Logical plans -/

/-- Relational plans. A `scan` carries the full schema of its table beside its projection. -/
inductive LogicalPlan (Q : Type) where
  | scan (table : String) (projection : Option (List String)) (schema : Schema)
  | filter (input : LogicalPlan Q) (predicate : Expr Q)
  | project (input : LogicalPlan Q) (exprs : List (Expr Q))
  | aggregate (input : LogicalPlan Q) (groupBy : List (Expr Q))
      (aggregates : List (AggregateExpr Q))
  | distinct (input : LogicalPlan Q)
  | limit (input : LogicalPlan Q) (limit offset : Nat)
  | sort (input : LogicalPlan Q) (sortExprs : List (SortExpr Q))
  | window (input : LogicalPlan Q) (windowExprs : List (WindowExpr Q))
      (partitionBy : List (Expr Q)) (orderBy : List (SortExpr Q))
  | union (inputs : List (LogicalPlan Q))
  | setOp (left right : LogicalPlan Q) (op : SetOpKind) (all : Bool)
  | join (left right : LogicalPlan Q) (joinType : JoinType) (on : List (Expr Q × Expr Q))
      (filter : Option (Expr Q))

/-- Plans whose subqueries are nested at most `n` deep. -/
def Query : Nat → Type
  | 0 => LogicalPlan Empty
  | n + 1 => LogicalPlan (Query n)

namespace LogicalPlan

variable {Q : Type}

/-- Induction over plans, with a hypothesis for every branch of a `UNION`. -/
@[elab_as_elim, induction_eliminator]
theorem induct {motive : LogicalPlan Q → Prop}
    (scan : ∀ table projection schema, motive (scan table projection schema))
    (filter : ∀ input predicate, motive input → motive (filter input predicate))
    (project : ∀ input exprs, motive input → motive (project input exprs))
    (aggregate : ∀ input groupBy aggregates, motive input →
      motive (aggregate input groupBy aggregates))
    (distinct : ∀ input, motive input → motive (distinct input))
    (limit : ∀ input lim offset, motive input → motive (limit input lim offset))
    (sort : ∀ input sortExprs, motive input → motive (sort input sortExprs))
    (window : ∀ input windowExprs partitionBy orderBy, motive input →
      motive (window input windowExprs partitionBy orderBy))
    (union : ∀ inputs, (∀ p ∈ inputs, motive p) → motive (union inputs))
    (setOp : ∀ left right op all, motive left → motive right →
      motive (setOp left right op all))
    (join : ∀ left right joinType on filter, motive left → motive right →
      motive (join left right joinType on filter))
    (p : LogicalPlan Q) : motive p
  := by
  refine @LogicalPlan.rec Q motive (fun inputs => ∀ p ∈ inputs, motive p)
    scan filter project aggregate distinct limit sort window union setOp join ?_ ?_ p
  · simp
  · intro p ps hp hps q hq
    cases hq with
    | head => apply hp
    | tail _ hq => apply hps q hq

end LogicalPlan

end CratonBolt
