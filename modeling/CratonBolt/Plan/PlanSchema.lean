import CratonBolt.Plan.Typing

/-!
# Output schemas of plans

`LogicalPlan.schemaDepth` computes the columns a plan returns, as `plan/logical_plan.rs` does.
The columns of a join are those of its left input under their own names, followed by those of
its right input, where a name already in use is renamed by `joinRename`.
-/

namespace CratonBolt

variable {Q : Type}

/-! ### Column names of computed outputs -/

/-- The output name of the `i`-th expression of a projection. -/
def projectName (i : Nat) : Expr Q → String
  | .column n => n
  | .aliased _ n => n
  | _ => s!"__expr_{i}"

/-- The output name of the `i`-th key of a `GROUP BY`. -/
def groupKeyOutputName (i : Nat) : Expr Q → String
  | .column n => n
  | .aliased _ n => n
  | _ => s!"__group_{i}"

/-- The part of an aggregate's name that comes from its argument. -/
def aggregateSuffix : Expr Q → String
  | .column n => s!"_{n}"
  | .aliased _ n => s!"_{n}"
  | _ => ""

def AggregateFn.baseName : AggregateFn → String
  | count => "count"
  | sum => "sum"
  | min => "min"
  | max => "max"
  | avg => "avg"
  | varPop => "var_pop"
  | varSamp => "var_samp"
  | stddevPop => "stddev_pop"
  | stddevSamp => "stddev_samp"

/-- The output name of an aggregate. -/
def AggregateExpr.outputName (a : AggregateExpr Q) : String :=
  a.fn.baseName ++ aggregateSuffix a.arg

/-! ### Types of aggregates and window functions -/

/-- The type of a sum: 32-bit integers widen and decimals take the maximal precision. -/
def sumOutputDtype : DataType → DataType
  | .int32 => .int64
  | .decimal128 _ s => .decimal128 38 s
  | t => t

section

variable (sub : Q → Nat → BoltResult Schema)

/-- The output type of an aggregate. The argument of a `COUNT` is not checked. -/
def AggregateExpr.outputDtype (s : Schema)
    (a : AggregateExpr Q) : BoltResult DataType :=
  match a.fn with
  | .count => .ok .int64
  | .sum => do
    let t ← a.arg.dtype sub s
    if t.isTemporal then
      .error (.type <| "SUM over a temporal type is undefined in SQL — there is no value to " ++
        s!"return for the sum of {t.debug} instants (rejected by design, not an unimplemented " ++
        "feature)")
    else .ok (sumOutputDtype t)
  | .min | .max => a.arg.dtype sub s
  | .avg => do
    let t ← a.arg.dtype sub s
    if t.isTemporal then
      .error (.type s!"AVG over Date/Timestamp is non-standard SQL (got {t.debug})")
    else .ok .float64
  | .varPop | .varSamp => (a.arg.dtype sub s).map (fun _ => .float64)
  | .stddevPop | .stddevSamp => do
    let t ← a.arg.dtype sub s
    if t.isNumeric then .ok .float64
    else .error (.type s!"STDDEV requires a numeric operand, got {t.debug}")

/-- The output type of a window function. The argument of a `COUNT` is not checked. -/
def WindowFunc.outputDtype (s : Schema) :
    WindowFunc Q → BoltResult DataType
  | rowNumber | rank | denseRank => .ok .int64
  | count _ => .ok .int64
  | avg e => (e.dtype sub s).map (fun _ => .float64)
  | sum e => (e.dtype sub s).map sumOutputDtype
  | min e | max e => e.dtype sub s

/-! ### Joined schemas -/

/-- The first of `base__i`, `base__(i+1)`, … that is not taken, trying at most `fuel` of them. -/
def freshSuffix (base : String) (taken : List String) : Nat → Nat → String
  | 0, i => s!"{base}__{i}"
  | fuel + 1, i =>
    let candidate := s!"{base}__{i}"
    if taken.contains candidate then freshSuffix base taken fuel (i + 1) else candidate

/--
The name a right column takes in a join whose names so far are `taken`: its own if that is
free, else prefixed by `right.`, else with the first free numeric suffix. Among
`taken.length + 1` candidates one is free, so the search needs no more fuel than that.
-/
def joinRename (name : String) (taken : List String) : String :=
  let outName := if taken.contains name then s!"right.{name}" else name
  if taken.contains outName then freshSuffix outName taken taken.length 2 else outName

/-- The right columns of a join under their new names. -/
def joinRightFields (mayNull : Bool) : List Field → List String → List Field
  | [], _ => []
  | f :: fs, taken =>
    let name := joinRename f.name taken
    ⟨name, f.dtype, f.nullable || mayNull⟩ :: joinRightFields mayNull fs (name :: taken)

def JoinType.leftMayNull : JoinType → Bool
  | rightOuter | fullOuter => true
  | _ => false

def JoinType.rightMayNull : JoinType → Bool
  | leftOuter | fullOuter => true
  | _ => false

/-- The columns of a join. -/
def joinCombinedSchema (left right : Schema) (joinType : JoinType) : Schema :=
  ⟨left.fields.map (fun f => { f with nullable := f.nullable || joinType.leftMayNull }) ++
    joinRightFields joinType.rightMayNull right.fields left.names⟩

/-! ### Plans -/

/-- Two schemas have as many columns, of the same types. Names need not agree. -/
def schemasCompatible (a b : Schema) : Bool := a.dtypes == b.dtypes

/-- A schema as it is printed in error messages. -/
def schemaSummary (s : Schema) : String :=
  String.intercalate ", " (s.fields.map (fun f => s!"{f.name}: {f.dtype.debug}"))

/-- The columns of a projection, from its `i`-th expression on. -/
def projectFields (sub : Q → Nat → BoltResult Schema) (s : Schema) :
    Nat → List (Expr Q) → BoltResult (List Field)
  | _, [] => .ok []
  | i, e :: exprs => do
    let t ← e.dtype sub s
    let fields ← projectFields sub s (i + 1) exprs
    .ok (⟨projectName i e, t, true⟩ :: fields)

/-- The columns of the keys of a `GROUP BY`, from the `i`-th key on. -/
def groupFields (sub : Q → Nat → BoltResult Schema) (s : Schema) :
    Nat → List (Expr Q) → BoltResult (List Field)
  | _, [] => .ok []
  | i, e :: groupBy => do
    let t ← e.dtype sub s
    let fields ← groupFields sub s (i + 1) groupBy
    .ok (⟨groupKeyOutputName i e, t, true⟩ :: fields)

/-- The columns of a list of aggregates. -/
def aggregateFields (sub : Q → Nat → BoltResult Schema) (s : Schema) :
    List (AggregateExpr Q) → BoltResult (List Field)
  | [] => .ok []
  | a :: aggregates => do
    let t ← a.outputDtype sub s
    let fields ← aggregateFields sub s aggregates
    .ok (⟨a.outputName, t, true⟩ :: fields)

/-- The columns a list of window expressions appends. -/
def windowFields (sub : Q → Nat → BoltResult Schema) (s : Schema) :
    List (WindowExpr Q) → BoltResult (List Field)
  | [] => .ok []
  | w :: windowExprs => do
    let t ← w.func.outputDtype sub s
    let fields ← windowFields sub s windowExprs
    .ok (⟨w.outputName, t, true⟩ :: fields)

/-- Every expression of a list has a type. -/
def checkExprs (sub : Q → Nat → BoltResult Schema) (s : Schema) :
    List (Expr Q) → BoltResult Unit
  | [] => .ok ()
  | e :: exprs => do
    let _ ← e.dtype sub s
    checkExprs sub s exprs

/-- The fields a scan's projection names, in its order. -/
def projectedFields (s : Schema) : List String → BoltResult (List Field)
  | [] => .ok []
  | c :: cols => do
    let f ← s.field c
    let fields ← projectedFields s cols
    .ok (f :: fields)

/-- The columns of a scan. -/
def scanSchema (schema : Schema) : Option (List String) → BoltResult Schema
  | none => .ok schema
  | some cols => (projectedFields schema cols).map Schema.mk

/-- The predicate of a filter has type `Bool`. -/
def checkPredicate (s : Schema) (predicate : Expr Q) :
    BoltResult Unit := do
  let t ← predicate.dtype sub s
  if t = .bool then .ok () else .error (.type s!"filter predicate must be Bool, got {t.debug}")

end

def unionMismatch (i : Nat) (first other : Schema) : BoltError :=
  .plan <| s!"UNION branch {i} schema does not match branch 0: expected " ++
    s!"{first.fields.length} fields ({schemaSummary first}), got " ++
    s!"{other.fields.length} fields ({schemaSummary other})"

def setOpMismatch (op : SetOpKind) (l r : Schema) : BoltError :=
  .plan <| s!"{op.keyword} inputs have incompatible schemas: left has " ++
    s!"{l.fields.length} fields ({schemaSummary l}), right has " ++
    s!"{r.fields.length} fields ({schemaSummary r})"

mutual

/-- The output schema of a plan, checked from the given depth. -/
@[grind =]
def LogicalPlan.schemaDepth (sub : Q → Nat → BoltResult Schema) (p : LogicalPlan Q)
    (depth : Nat) : BoltResult Schema :=
  if depth > maxRecursionDepth then
    .error (.plan s!"plan nesting exceeds depth limit ({maxRecursionDepth})")
  else match p with
    | .scan _ projection schema => scanSchema schema projection
    | .filter input predicate => do
      let s ← input.schemaDepth sub (depth + 1)
      checkPredicate sub s predicate
      .ok s
    | .project input exprs => do
      let s ← input.schemaDepth sub (depth + 1)
      (projectFields sub s 0 exprs).map Schema.mk
    | .aggregate input groupBy aggregates => do
      let s ← input.schemaDepth sub (depth + 1)
      let keys ← groupFields sub s 0 groupBy
      let aggs ← aggregateFields sub s aggregates
      .ok ⟨keys ++ aggs⟩
    | .distinct input => input.schemaDepth sub (depth + 1)
    | .limit input _ _ => input.schemaDepth sub (depth + 1)
    | .sort input sortExprs => do
      let s ← input.schemaDepth sub (depth + 1)
      checkExprs sub s (sortExprs.map SortExpr.expr)
      .ok s
    | .window input windowExprs partitionBy orderBy => do
      let s ← input.schemaDepth sub (depth + 1)
      checkExprs sub s partitionBy
      checkExprs sub s (orderBy.map SortExpr.expr)
      let appended ← windowFields sub s windowExprs
      .ok ⟨s.fields ++ appended⟩
    | .union inputs =>
      match inputs with
      | [] => .error (.plan "UNION requires at least one input")
      | input :: inputs => do
        let first ← input.schemaDepth sub (depth + 1)
        checkBranches sub first (depth + 1) 1 inputs
        .ok first
    | .setOp left right op _ => do
      let l ← left.schemaDepth sub (depth + 1)
      let r ← right.schemaDepth sub (depth + 1)
      if schemasCompatible l r then .ok l else .error (setOpMismatch op l r)
    | .join left right joinType _ _ => do
      let l ← left.schemaDepth sub (depth + 1)
      let r ← right.schemaDepth sub (depth + 1)
      .ok (joinCombinedSchema l r joinType)

/-- Every further branch of a `UNION` has the column types of the first. -/
def checkBranches (sub : Q → Nat → BoltResult Schema) (first : Schema) (depth : Nat) :
    Nat → List (LogicalPlan Q) → BoltResult Unit
  | _, [] => .ok ()
  | i, branch :: inputs => do
    let other ← branch.schemaDepth sub depth
    if schemasCompatible first other then checkBranches sub first depth (i + 1) inputs
    else .error (unionMismatch i first other)

end

/-- The output schema of a plan. -/
def LogicalPlan.schema (sub : Q → Nat → BoltResult Schema) (p : LogicalPlan Q) :
    BoltResult Schema :=
  p.schemaDepth sub 0

/-- The output schema of a plan with nested subqueries. -/
def Query.schemaDepth : {n : Nat} → Query n → Nat → BoltResult Schema
  | 0, p, depth => LogicalPlan.schemaDepth (fun q _ => Empty.elim q) p depth
  | n + 1, p, depth => LogicalPlan.schemaDepth (fun q d => Query.schemaDepth (n := n) q d) p depth

end CratonBolt
