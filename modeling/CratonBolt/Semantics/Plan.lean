import CratonBolt.Library.ListJoin
import CratonBolt.Semantics.Expr
import CratonBolt.Semantics.OutputSchema

/-!
# The meaning of plans

`LogicalPlan.eval` gives the rows of a plan on a database, in the order the host executors
produce them: a join is left-major, `DISTINCT` and the set operators keep first occurrences,
sorting is stable. A plan in which some expression has no meaning has no result (`none`).

The key pairs of a join are symmetric equations, so a pair is read in whichever orientation its
two sides resolve, the written one first.
-/

namespace CratonBolt

/-- A stored table: a number of rows, and the cell at each row and column. -/
structure Table where
  rows : Nat
  cell : Nat → Nat → Value

/-- The stored tables by name. -/
abbrev Database := String → Table

variable {Q : Type} (B : Builtins) (S : Subqueries Q)

/-! ### Operators on rows -/

/-- The table columns that the names of a projection denote. -/
def projectedColumns (s : Schema) : List String → Option (List Nat)
  | [] => some []
  | c :: cols => do
    let i ← s.position? c
    let columns ← projectedColumns s cols
    some (i :: columns)

/-- The table columns a scan delivers. -/
def scanColumns (schema : Schema) : Option (List String) → Option (List Nat)
  | none => some (List.range schema.fields.length)
  | some cols => projectedColumns schema cols

/-- The rows of a table, restricted to some of its columns. -/
def Table.select (t : Table) (columns : List Nat) : List Row :=
  (List.range t.rows).map (fun i => columns.map (t.cell i))

section

variable (s : Schema)

/-- The test of a filter. -/
def Expr.holds (predicate : Expr Q) (row : Row) : Bool :=
  (predicate.eval B S s row).isTrue

def filterRows (predicate : Expr Q) (rows : List Row) : Option (List Row) :=
  if predicate.checked S s = some .bool then some (rows.filter (predicate.holds B S s)) else none

variable (exprs : List (Expr Q))

/-- Every expression of a list has a meaning. -/
def allChecked : Bool :=
  exprs.all (fun e => (e.checked S s).isSome)

/-- The values of a list of expressions on a row. -/
def evalAll (row : Row) : Row :=
  exprs.map (fun e => e.eval B S s row)

def projectRows (rows : List Row) : Option (List Row) :=
  if allChecked S s exprs then some (rows.map (evalAll B S s exprs)) else none

/-- The key by which whole rows are compared. -/
def rowKey (row : Row) : Row := row.map Value.key

/-- The value of an aggregate over the rows of a group. -/
def AggregateExpr.value (a : AggregateExpr Q) (group : List Row) : Value :=
  let present := (group.map (a.arg.eval B S s)).filter (fun v => !v.isNull)
  match a.fn with
  | .count => .int64 (Int64.ofNat present.length)
  | fn => B.aggregate fn present

variable (groupBy : List (Expr Q))

/-- The groups of rows that agree on the keys, in the order of their first rows. -/
def groupRows (rows : List Row) : List (List Row) :=
  let key := fun row => rowKey (evalAll B S s groupBy row)
  (KeyedList.distinctBy key [] rows).map (fun row => rows.filter (fun r => key r = key row))

/-- One row for a group: the keys of its first row, then the aggregates. -/
def groupRow (aggregates : List (AggregateExpr Q))
    (group : List Row) : Row :=
  evalAll B S s groupBy (group.headD []) ++ aggregates.map (fun a => a.value B S s group)

/-- Aggregation. Without keys there is one group, even over no rows. -/
def aggregateRows (aggregates : List (AggregateExpr Q))
    (rows : List Row) : Option (List Row) :=
  if allChecked S s groupBy && allChecked S s (aggregates.map AggregateExpr.arg) then
    let groups := if groupBy.isEmpty then [rows] else groupRows B S s groupBy rows
    some (groups.map (groupRow B S s groupBy aggregates))
  else none

/-- Stable sorting by one key. -/
def sortBy (se : SortExpr Q) (rows : List Row) : List Row :=
  rows.insertionSort (fun a b => Value.sortsBefore se.descending se.nullsFirst
    (se.expr.eval B S s a) (se.expr.eval B S s b) = true)

/-- Sorting by several keys is stable sorting by each of them, from the last to the first. -/
def sortRows (sortExprs : List (SortExpr Q)) (rows : List Row) :
    Option (List Row) :=
  if allChecked S s (sortExprs.map SortExpr.expr) then
    some (sortExprs.foldr (sortBy B S s) rows)
  else none

/-- What the window function `f` sees of a row. -/
def windowInput (f : WindowFunc Q) (partitionBy : List (Expr Q))
    (orderBy : List (SortExpr Q)) (row : Row) : WindowInput where
  partition := evalAll B S s partitionBy row
  order := evalAll B S s (orderBy.map SortExpr.expr) row
  arg := match f.arg with
    | some e => e.eval B S s row
    | none => .null

/-- The value of a window function at the `i`-th row. -/
def windowValue (partitionBy : List (Expr Q)) (orderBy : List (SortExpr Q))
    (rows : List Row) (i : Nat) (w : WindowExpr Q) : Value :=
  B.window w.func.kind w.frame (orderBy.map (fun se => (se.descending, se.nullsFirst)))
    (rows.map (windowInput B S s w.func partitionBy orderBy)) i

/-- The arguments of the window functions that have one. -/
def windowArgs (windowExprs : List (WindowExpr Q)) : List (Expr Q) :=
  windowExprs.filterMap (fun w => w.func.arg)

def windowRows (windowExprs : List (WindowExpr Q)) (partitionBy : List (Expr Q))
    (orderBy : List (SortExpr Q)) (rows : List Row) : Option (List Row) :=
  if allChecked S s partitionBy && allChecked S s (orderBy.map SortExpr.expr) &&
      allChecked S s (windowArgs windowExprs) then
    some (rows.mapIdx (fun i row =>
      row ++ windowExprs.map (windowValue B S s partitionBy orderBy rows i)))
  else none

end

/-- `EXCEPT` and `INTERSECT`, with or without `ALL`. -/
def setOpRows (op : SetOpKind) (all : Bool) (ls rs : List Row) : List Row :=
  let keys := rs.map rowKey
  match op, all with
  | .except, true => KeyedList.exceptAll rowKey keys ls
  | .intersect, true => KeyedList.intersectAll rowKey keys ls
  | .except, false =>
    KeyedList.distinctBy rowKey [] (ls.filter (fun row => decide (rowKey row ∉ keys)))
  | .intersect, false =>
    KeyedList.distinctBy rowKey [] (ls.filter (fun row => decide (rowKey row ∈ keys)))

/-! ### Joins -/

/-- Two key expressions of comparable types are equal on a pair of rows. -/
def keysEqual (ls rs : Schema) (l r : Expr Q) (a b : Row) : Bool :=
  (Value.compare .eq (l.eval B S ls a) (r.eval B S rs b)).isTrue

/-- The test of one key pair. -/
def pairCondition (ls rs : Schema) (pair : Expr Q × Expr Q) : Option (Row → Row → Bool) :=
  match pair.1.checked S ls, pair.2.checked S rs with
  | some t, some u => if comparable t u then some (keysEqual B S ls rs pair.1 pair.2) else none
  | _, _ =>
    match pair.2.checked S ls, pair.1.checked S rs with
    | some t, some u => if comparable t u then some (keysEqual B S ls rs pair.2 pair.1) else none
    | _, _ => none

/-- The test of all key pairs. -/
def onCondition (ls rs : Schema) : List (Expr Q × Expr Q) → Option (Row → Row → Bool)
  | [] => some (fun _ _ => true)
  | pair :: on => do
    let p ← pairCondition B S ls rs pair
    let q ← onCondition ls rs on
    some (fun a b => p a b && q a b)

/-- The test of the additional filter of a join, over its combined columns. -/
def joinFilterCondition (combined : Schema) : Option (Expr Q) → Option (Row → Row → Bool)
  | none => some (fun _ _ => true)
  | some f =>
    if f.checked S combined = some .bool then some (fun a b => f.holds B S combined (a ++ b))
    else none

/-- The condition under which two rows join. -/
def joinCondition (ls rs : Schema) (joinType : JoinType) (on : List (Expr Q × Expr Q))
    (filter : Option (Expr Q)) : Option (Row → Row → Bool) := do
  let p ← onCondition B S ls rs on
  let q ← joinFilterCondition B S (joinCombinedSchema ls rs joinType) filter
  some (fun a b => p a b && q a b)

/-- The joined row of a pair, with `NULL` in place of a missing side. -/
def joinedRow (leftWidth rightWidth : Nat) (pair : Option Row × Option Row) : Row :=
  pair.1.getD (List.replicate leftWidth .null) ++ pair.2.getD (List.replicate rightWidth .null)

/-- The rows of a join whose condition is `m`. -/
def joinRows (leftWidth rightWidth : Nat) (joinType : JoinType) (m : Row → Row → Bool)
    (ls rs : List Row) : List Row :=
  (ListJoin.outerJoin joinType.rightMayNull joinType.leftMayNull m ls rs).map
    (joinedRow leftWidth rightWidth)

/-! ### Plans -/

mutual

/-- The rows a plan returns on a database. -/
@[grind =]
def LogicalPlan.eval (db : Database) : LogicalPlan Q → Option (List Row)
  | .scan table projection schema => do
    let columns ← scanColumns schema projection
    some ((db table).select columns)
  | .filter input predicate => do
    let rows ← input.eval db
    let s ← input.outputSchema S.schema
    filterRows B S s predicate rows
  | .project input exprs => do
    let rows ← input.eval db
    let s ← input.outputSchema S.schema
    projectRows B S s exprs rows
  | .aggregate input groupBy aggregates => do
    let rows ← input.eval db
    let s ← input.outputSchema S.schema
    aggregateRows B S s groupBy aggregates rows
  | .distinct input => do
    let rows ← input.eval db
    some (KeyedList.distinctBy rowKey [] rows)
  | .limit input limit offset => do
    let rows ← input.eval db
    some ((rows.drop offset).take limit)
  | .sort input sortExprs => do
    let rows ← input.eval db
    let s ← input.outputSchema S.schema
    sortRows B S s sortExprs rows
  | .window input windowExprs partitionBy orderBy => do
    let rows ← input.eval db
    let s ← input.outputSchema S.schema
    windowRows B S s windowExprs partitionBy orderBy rows
  | .union inputs => evalUnion db inputs
  | .setOp left right op all => do
    let ls ← left.eval db
    let rs ← right.eval db
    some (setOpRows op all ls rs)
  | .join left right joinType on filter => do
    let ls ← left.eval db
    let rs ← right.eval db
    let sl ← left.outputSchema S.schema
    let sr ← right.outputSchema S.schema
    let m ← joinCondition B S sl sr joinType on filter
    some (joinRows sl.fields.length sr.fields.length joinType m ls rs)

/-- The rows of the branches of a `UNION`, one branch after the other. -/
def evalUnion (db : Database) : List (LogicalPlan Q) → Option (List Row)
  | [] => some []
  | input :: inputs => do
    let rows ← input.eval db
    let rest ← evalUnion db inputs
    some (rows ++ rest)

end

/-- Built-in functions that are `NULL` everywhere, for plans that call none. -/
def noBuiltins : Builtins where
  nanDiffers := true
  like _ _ _ _ := false
  scalarFn _ _ := .null
  extract _ _ := .null
  dateTrunc _ _ := .null
  format _ _ := .null
  parseFormat _ _ _ := none
  parse _ _ := .null
  decimal _ _ _ := .null
  decimalCast _ _ := .null
  aggregate _ _ := .null
  window _ _ _ _ _ := .null

/-- A plan without subqueries. -/
def noSubqueries : Subqueries Empty := ⟨fun q _ => q.elim, fun q => q.elim⟩

/-- The scan of a table of integer columns. -/
def intScan (table : String) (columns : List String) : LogicalPlan Empty :=
  .scan table none ⟨columns.map (fun c => ⟨c, .int64, true⟩)⟩

/-- What is known on a database of the queries nested at most `n` deep. -/
def Query.subqueries (db : Database) : (n : Nat) → Subqueries (Query n)
  | 0 => ⟨Query.schemaDepth, fun p => LogicalPlan.eval B noSubqueries db p⟩
  | n + 1 => ⟨Query.schemaDepth, fun p => LogicalPlan.eval B (Query.subqueries db n) db p⟩

end CratonBolt
