import CratonBolt.Joins.EquiJoin

/-!
# The nested-loop join

The executor of a join with a condition beyond its keys: the larger side is cut into blocks, each
block is crossed with the other side, and the rows on which the condition is true are kept. The
key pairs are folded into the condition as equations between the columns of the joined row.

The condition is evaluated by the host expression evaluator. Of that evaluator the model has what
the folded equations use, `AND` and `=` between columns; how it evaluates any other expression on
a batch is a parameter.
-/

namespace CratonBolt.Joins

/-! ### Rows of a batch -/

/-- The rows of a batch at some positions. -/
def Batch.pick (b : Batch) (idx : List Nat) : Batch where
  columns := b.columns.map (fun c => (c.1, c.2.take (idx.map some)))
  numRows := idx.length
  lengths := by
    intro c hc
    obtain ⟨d, -, rfl⟩ := List.mem_map.mp hc
    simp

/-- `RecordBatch::slice`. -/
def Batch.slice (b : Batch) (start len : Nat) : Batch := b.pick (List.range' start len)

/-! ### Cross joins -/

/-- `MAX_CROSS_ROWS`. -/
def maxCrossRows : Nat := 2 ^ 32 - 1

/-- The products that are offered to the device. -/
def crossOnDevice (total : Nat) : Bool :=
  decide (crossJoinGpuMinCells ≤ total ∧ total < crossJoinGpuCellCap)

/-- All pairs of positions, left-major. -/
def crossPairs (lefts rights : Nat) : List Pair :=
  (List.range lefts ×ˢ List.range rights).map (Prod.map some some)

/-- `execute_cross_join`. The positions are below the limit, so that they all fit. -/
def executeCrossJoin (device : Device) (lhs rhs : Batch) (schema : Schema) : BoltResult Batch := do
  planSchemaToArrowSchema schema
  let total := lhs.numRows * rhs.numRows
  if lhs.numRows = 0 ∨ rhs.numRows = 0 then emptyOutput schema
  else if 2 ^ 64 ≤ total then
    .error (.plan
      s!"CROSS JOIN cartesian product overflows u64: {lhs.numRows} × {rhs.numRows}")
  else if maxCrossRows < total then
    .error (.plan (s!"CROSS JOIN cartesian product is too large: {lhs.numRows} × {rhs.numRows} " ++
      s!"= {total} rows exceeds the {maxCrossRows}-row limit (arrow take-indices use u32). " ++
      "Rewrite the query to add a join predicate or filter."))
  else
    match if crossOnDevice total then executeCrossJoinOnGpu device.kernels lhs rhs schema
      else none with
    | some out => .ok out
    | none => materialise lhs rhs (crossPairs lhs.numRows rhs.numRows) schema

/-! ### The host evaluator -/

section Evaluator

variable {Q : Type}

/-- The truth values of a condition on the rows of a batch. -/
abbrev Truths := List (Option Bool)

/-- `arrow_array_to_host_column` accepts the column. -/
def toHostColumn (c : Column) : BoltResult Unit :=
  match c.dtype with
  | .plain (.decimal128 _ _) | .dictionary _ =>
    .error (.type s!"PhysicalPlan::Filter: unsupported Arrow dtype {c.dtype.debug}")
  | .plain _ => .ok ()

/-- The column a name denotes in the evaluator: of several of one name, the last. -/
def hostColumn (b : Batch) (name : String) : BoltResult Column :=
  match b.columns.reverse.find? (fun c => c.1 == name) with
  | some c => .ok c.2
  | none => .error (.plan s!"expr_agg: column '{name}' not found in evaluator env")

/-- The type of a column in the evaluator, where dates are days and timestamps are ticks. -/
def hostType (c : Column) : DataType :=
  match c.dtype.valueType with
  | .date32 => .int32
  | .timestamp _ _ => .int64
  | t => t

/-- The value of a cell in the evaluator. -/
def hostValue : Value → Value
  | .date32 days => .int32 days
  | .timestamp ticks _ _ => .int64 ticks
  | v => v

/-- `=` between two columns, as `eval_comparison` evaluates it. -/
def evalEq (b : Batch) (left right : String) : BoltResult Truths := do
  let l ← hostColumn b left
  let r ← hostColumn b right
  if (hostType l).isNumeric && (hostType r).isNumeric || hostType l == hostType r then
    .ok ((List.range b.numRows).map (fun i =>
      (Value.compare .eq (hostValue (l.cell i)) (hostValue (r.cell i))).truth))
  else
    .error (.other s!"expr_agg: cannot compare {(hostType l).debug} with {(hostType r).debug}")

/-- The evaluation of a condition; `other` evaluates what is neither `AND` nor such an `=`. -/
def evalPredicate (other : Batch → Expr Q → BoltResult Truths) (b : Batch) :
    Expr Q → BoltResult Truths
  | .binary .and l r => do
    let ls ← evalPredicate other b l
    let rs ← evalPredicate other b r
    .ok (List.zipWith Kleene.and ls rs)
  | .binary .eq (.column l) (.column r) => evalEq b l r
  | e => other b e

/-- `execute_filter`: the rows on which the condition is true. -/
def executeFilter (other : Batch → Expr Q → BoltResult Truths) (b : Batch) (predicate : Expr Q) :
    BoltResult Batch :=
  if b.numRows = 0 then .ok b
  else do
    b.columns.forM (fun c => toHostColumn c.2)
    let mask ← evalPredicate other b predicate
    .ok (b.pick ((List.range b.numRows).filter (fun i => mask.getD i none == some true)))

/-! ### Key pairs as equations -/

/-- The column of the joined row that a key is. -/
def outputColumn (side : Batch) (offset : Nat) (schema : Schema) (which : String) (e : Expr Q) :
    BoltResult (Expr Q) := do
  let name ← columnName which e
  match side.indexOf name with
  | none => .error (.plan s!"join key '{name}' is not a {which} input column")
  | some i =>
    match schema.fields[offset + i]? with
    | none => .error (.plan "join output schema is narrower than its inputs")
    | some f => .ok (.column f.name)

/-- `fold_equi_into_predicate`: the key pairs as equations before the condition. -/
def foldEquiIntoPredicate (lhs rhs : Batch) (schema : Schema) :
    List (Expr Q × Expr Q) → Expr Q → BoltResult (Expr Q)
  | [], acc => .ok acc
  | (l, r) :: on, acc => do
    let left ← outputColumn lhs 0 schema "left" l
    let right ← outputColumn rhs lhs.columns.length schema "right" r
    foldEquiIntoPredicate lhs rhs schema on (.binary .and (.binary .eq left right) acc)

/-! ### The loop -/

/-- `MAX_NESTED_LOOP_INNER_ROWS`. -/
def maxNestedLoopInnerRows : Nat := 1024

/-- `NESTED_LOOP_CHUNK_CELLS`. -/
def nestedLoopChunkCells : Nat := 2 ^ 20

/-- The sides of the block that starts at a row of the larger side. -/
def blockSides (lhs rhs : Batch) (chunkLeft : Bool) (start len : Nat) : Batch × Batch :=
  if chunkLeft then (lhs.slice start len, rhs) else (lhs, rhs.slice start len)

/--
The blocks from a row of the larger side on: each is crossed and filtered. A block has at least
one row, so that there are no more blocks than rows left, which `fuel` counts.
-/
def nestedLoopBlocks (device : Device) (other : Batch → Expr Q → BoltResult Truths)
    (lhs rhs : Batch) (predicate : Expr Q) (schema : Schema) (chunkLeft : Bool)
    (chunkRows outerRows : Nat) : Nat → Nat → BoltResult (List Row)
  | 0, _ => .ok []
  | fuel + 1, start =>
    if start < outerRows then do
      let len := min chunkRows (outerRows - start)
      let block := blockSides lhs rhs chunkLeft start len
      let cross ← executeCrossJoin device block.1 block.2 schema
      let filtered ← executeFilter other cross predicate
      let rest ← nestedLoopBlocks device other lhs rhs predicate schema chunkLeft chunkRows
        outerRows fuel (start + len)
      .ok (filtered.rows ++ rest)
    else .ok []

/-- The text of a join type in error messages. -/
def joinTypeDebug : JoinType → String
  | .inner => "Inner"
  | .leftOuter => "LeftOuter"
  | .rightOuter => "RightOuter"
  | .fullOuter => "FullOuter"
  | .cross => "Cross"

/-- `execute_nested_loop_join_chunked`: the rows of the matched blocks, one after the other. -/
def nestedLoopJoinChunked (device : Device) (other : Batch → Expr Q → BoltResult Truths)
    (lhs rhs : Batch) (joinType : JoinType) (on : List (Expr Q × Expr Q)) (predicate : Expr Q)
    (schema : Schema) (chunkCells : Nat) : BoltResult (List Row) :=
  let innerRows := min lhs.numRows rhs.numRows
  if preserveProbe joinType then
    .error (.plan (s!"{joinTypeDebug joinType} JOIN with a non-equi ON predicate is not yet " ++
      "supported in the nested-loop executor (v0.6 ships INNER non-equi only); " ++
      "rewrite the predicate as an equi-join or use INNER + WHERE"))
  else if maxNestedLoopInnerRows < innerRows then
    .error (.plan (s!"non-equi join inner side > {maxNestedLoopInnerRows} rows; " ++
      s!"rewrite as equi if possible (got smaller-side row count = {innerRows})"))
  else do
    planSchemaToArrowSchema schema
    if lhs.numRows = 0 ∨ rhs.numRows = 0 then
      let empty ← emptyOutput schema
      .ok empty.rows
    else
      let composite ← foldEquiIntoPredicate lhs rhs schema on predicate
      let outerRows := max lhs.numRows rhs.numRows
      nestedLoopBlocks device other lhs rhs composite schema (decide (rhs.numRows ≤ lhs.numRows))
        (max (chunkCells / innerRows) 1) outerRows outerRows 0

/-- `execute_nested_loop_join`. -/
def executeNestedLoopJoin (device : Device) (other : Batch → Expr Q → BoltResult Truths)
    (lhs rhs : Batch) (joinType : JoinType) (on : List (Expr Q × Expr Q)) (predicate : Expr Q)
    (schema : Schema) : BoltResult (List Row) :=
  nestedLoopJoinChunked device other lhs rhs joinType on predicate schema nestedLoopChunkCells

end Evaluator

end CratonBolt.Joins
