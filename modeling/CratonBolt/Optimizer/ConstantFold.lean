import CratonBolt.Semantics.FloatArith

/-!
# Constant folding

`ConstantFold` of `plan/optimizer/const_fold.rs`: every expression of a plan is folded from its
leaves up. Operators on constants of one type are computed where that cannot raise an error,
`AND` and `OR` with a constant are simplified, double negations are dropped and lossless casts of
constants are made.
-/

namespace CratonBolt

variable {Q : Type}

/-! ### Logical operators -/

/-- The expression is the given truth value. -/
def isBoolLiteral (value : Bool) : Expr Q → Bool
  | .literal (.bool b) => b == value
  | _ => false

/-- Evaluating the expression can raise no error, so that it may be dropped. -/
def isErrorFree : Expr Q → Bool
  | .column _ => true
  | .literal _ => true
  | .aliased inner _ => isErrorFree inner
  | _ => false

/--
`AND` and `OR` with a constant: the operand `unit` leaves the other one, its opposite is the
result if the other operand can be dropped.
-/
def simplifyLogical (unit : Bool) (left right : Expr Q) : Option (Expr Q) :=
  if isBoolLiteral unit left then some right
  else if isBoolLiteral unit right then some left
  else if isBoolLiteral (!unit) left && isErrorFree right then some (.literal (.bool (!unit)))
  else if isBoolLiteral (!unit) right && isErrorFree left then some (.literal (.bool (!unit)))
  else none

def simplifyAnd (left right : Expr Q) : Option (Expr Q) := simplifyLogical true left right

def simplifyOr (left right : Expr Q) : Option (Expr Q) := simplifyLogical false left right

/-! ### Operators on constants -/

/-- The result of an integer operator: an integer or a truth value. -/
inductive FoldVal where
  | int (n : Int64)
  | bool (b : Bool)
deriving DecidableEq, Repr

/-- A 64-bit integer, unless the exact result is out of range. -/
def checked64 (n : Int) : Option Int64 :=
  if -2 ^ 63 ≤ n ∧ n < 2 ^ 63 then some (Int64.ofInt n) else none

section

variable (op : BinaryOp)

/-- Operators on integers; none for a division by zero and on overflow. -/
def foldInt (a b : Int64) : Option FoldVal :=
  match op with
  | .add => (checked64 (a.toInt + b.toInt)).map .int
  | .sub => (checked64 (a.toInt - b.toInt)).map .int
  | .mul => (checked64 (a.toInt * b.toInt)).map .int
  | .div => if b = 0 then none else (checked64 (a.toInt.tdiv b.toInt)).map .int
  | .eq => some (.bool (decide (a = b)))
  | .notEq => some (.bool (decide (a ≠ b)))
  | .lt => some (.bool (decide (a < b)))
  | .ltEq => some (.bool (decide (a ≤ b)))
  | .gt => some (.bool (decide (b < a)))
  | .gtEq => some (.bool (decide (b ≤ a)))
  | .mod | .bitAnd | .bitOr | .bitXor | .shl | .shr | .and | .or | .concat => none

/-- An integer of 64 bits is one of 32 bits. -/
def fitsInt32 (n : Int64) : Bool := decide (-2 ^ 31 ≤ n.toInt ∧ n.toInt < 2 ^ 31)

/-- Operators on 64-bit floats, by IEEE 754. -/
def foldFloat (a b : F64) : Option Literal :=
  if op.isArithmetic then some (Value.arithF64 op a b)
  else if op.isComparison then
    some (.bool (Value.compareFloat op (Value.nan64 a.bits || Value.nan64 b.bits)
      (Value.floatOrder 64 a.bits.toNat) (Value.floatOrder 64 b.bits.toNat)))
  else none

/-- A float as a 32-bit one; what is not a float stays as it is. -/
def narrowFloat : Literal → Literal
  | .float64 v => .float32 v.toF32
  | other => other

/-- Operators on two constants of the same type. -/
def foldLiteralBinary (l r : Literal) : Option Literal :=
  match l, r with
  | .int32 a, .int32 b =>
    match foldInt op a.toInt64 b.toInt64 with
    | some (.int n) => if fitsInt32 n then some (.int32 n.toInt32) else none
    | some (.bool x) => some (.bool x)
    | none => none
  | .int64 a, .int64 b =>
    match foldInt op a b with
    | some (.int n) => some (.int64 n)
    | some (.bool x) => some (.bool x)
    | none => none
  | .float64 a, .float64 b => foldFloat op a b
  | .float32 a, .float32 b => (foldFloat op a.toF64 b.toF64).map narrowFloat
  | .bool a, .bool b =>
    match op with
    | .and => some (.bool (a && b))
    | .or => some (.bool (a || b))
    | .eq => some (.bool (a == b))
    | .notEq => some (.bool (a != b))
    | _ => none
  | _, _ => none

/-- The simplification of `AND` and `OR`; none for another operator. -/
def simplifyBinary (left right : Expr Q) : Option (Expr Q) :=
  match op with
  | .and => simplifyAnd left right
  | .or => simplifyOr left right
  | _ => none

/-- The operator computed on two constants; none if one is no constant. -/
def foldConstants : Expr Q → Expr Q → Option Literal
  | .literal l, .literal r => foldLiteralBinary op l r
  | _, _ => none

/-- An operator on folded operands. -/
def foldBinary (left right : Expr Q) : Expr Q :=
  match simplifyBinary op left right with
  | some simplified => simplified
  | none =>
    match foldConstants op left right with
    | some folded => .literal folded
    | none => .binary op left right

end

/-- An operator on a folded operand. -/
def foldUnary (op : UnaryOp) (operand : Expr Q) : Expr Q :=
  match op, operand with
  | .not, .unary .not inner => inner
  | .not, .literal (.bool b) => .literal (.bool !b)
  | .isNull, .literal lit => .literal (.bool (Value.isNull lit))
  | .isNotNull, .literal lit => .literal (.bool !(Value.isNull lit))
  | op, operand => .unary op operand

/-- A lossless cast of a constant. -/
def foldLiteralCast (lit : Literal) (target : DataType) : Option Literal :=
  if lit.dtype = some target then some lit
  else match lit, target with
    | .int32 v, .int64 => some (.int64 v.toInt64)
    | .int64 v, .int32 => if fitsInt32 v then some (.int32 v.toInt32) else none
    | .float32 v, .float64 => some (.float64 v.toF64)
    | _, _ => none

/-- The cast of a constant; none if it is no constant. -/
def foldConstantCast (target : DataType) : Expr Q → Option Literal
  | .literal lit => foldLiteralCast lit target
  | _ => none

/-- A cast of a folded operand. -/
def foldCast (expr : Expr Q) (target : DataType) (safe : Bool) : Expr Q :=
  match foldConstantCast target expr with
  | some folded => .literal folded
  | none => .cast expr target safe

/-! ### Expressions and plans -/

mutual

/-- `fold_expr`. Subqueries, `EXTRACT`, `DATE_TRUNC` and formatted casts are left alone. -/
@[grind =]
def foldExpr : Expr Q → Expr Q
  | .binary op left right => foldBinary op (foldExpr left) (foldExpr right)
  | .unary op operand => foldUnary op (foldExpr operand)
  | .case branches elseBranch => .case (foldBranches branches) (foldElse elseBranch)
  | .like expr pattern escape negated caseInsensitive =>
    .like (foldExpr expr) pattern escape negated caseInsensitive
  | .cast expr target safe => foldCast (foldExpr expr) target safe
  | .scalarFn kind args => .scalarFn kind (foldArgs args)
  | .aliased expr name => .aliased (foldExpr expr) name
  | .column name => .column name
  | .literal lit => .literal lit
  | .extract field expr => .extract field expr
  | .dateTrunc unit expr => .dateTrunc unit expr
  | .scalarSubquery plan => .scalarSubquery plan
  | .inSubquery expr subquery negated => .inSubquery expr subquery negated
  | .castFormat expr target pattern toText => .castFormat expr target pattern toText

def foldBranches : List (Expr Q × Expr Q) → List (Expr Q × Expr Q)
  | [] => []
  | (w, t) :: branches => (foldExpr w, foldExpr t) :: foldBranches branches

def foldElse : Option (Expr Q) → Option (Expr Q)
  | none => none
  | some e => some (foldExpr e)

def foldArgs : List (Expr Q) → List (Expr Q)
  | [] => []
  | a :: args => foldExpr a :: foldArgs args

end

/-- `fold_agg`. -/
def foldAgg (agg : AggregateExpr Q) : AggregateExpr Q := { agg with arg := foldExpr agg.arg }

mutual

/--
`map_plan_exprs`: the expressions and aggregates of a plan are mapped. The window functions and
the order of a window are not.
-/
@[grind =]
def mapPlanExprs (mapExpr : Expr Q → Expr Q) (mapAgg : AggregateExpr Q → AggregateExpr Q) :
    LogicalPlan Q → LogicalPlan Q
  | .window input windowExprs partitionBy orderBy =>
    .window (mapPlanExprs mapExpr mapAgg input) windowExprs (partitionBy.map mapExpr) orderBy
  | .scan table projection schema => .scan table projection schema
  | .filter input predicate => .filter (mapPlanExprs mapExpr mapAgg input) (mapExpr predicate)
  | .project input exprs => .project (mapPlanExprs mapExpr mapAgg input) (exprs.map mapExpr)
  | .aggregate input groupBy aggregates =>
    .aggregate (mapPlanExprs mapExpr mapAgg input) (groupBy.map mapExpr) (aggregates.map mapAgg)
  | .distinct input => .distinct (mapPlanExprs mapExpr mapAgg input)
  | .limit input limit offset => .limit (mapPlanExprs mapExpr mapAgg input) limit offset
  | .sort input sortExprs =>
    .sort (mapPlanExprs mapExpr mapAgg input)
      (sortExprs.map (fun se => { se with expr := mapExpr se.expr }))
  | .union inputs => .union (mapAllPlanExprs mapExpr mapAgg inputs)
  | .join left right joinType on filter =>
    .join (mapPlanExprs mapExpr mapAgg left) (mapPlanExprs mapExpr mapAgg right) joinType
      (on.map (fun pair => (mapExpr pair.1, mapExpr pair.2))) (filter.map mapExpr)
  | .setOp left right op all =>
    .setOp (mapPlanExprs mapExpr mapAgg left) (mapPlanExprs mapExpr mapAgg right) op all

/-- The expressions of every branch are mapped. -/
def mapAllPlanExprs (mapExpr : Expr Q → Expr Q) (mapAgg : AggregateExpr Q → AggregateExpr Q) :
    List (LogicalPlan Q) → List (LogicalPlan Q)
  | [] => []
  | input :: inputs => mapPlanExprs mapExpr mapAgg input :: mapAllPlanExprs mapExpr mapAgg inputs

end

/-- `fold_plan`. -/
def foldPlan (plan : LogicalPlan Q) : LogicalPlan Q := mapPlanExprs foldExpr foldAgg plan

end CratonBolt
