import CratonBolt.Semantics.Plan

/-!
# Row-wise plans

A chain of filters and projections over one table treats every row on its own. So running it on the
groups of rows into which a table is divided, each of them installed as a table of its own, gives
the rows of the whole table, group after group.
-/

namespace CratonBolt.OutOfCore

open List

variable {Q : Type} (B : Builtins) (S : Subqueries Q)

/-- A stored row: its cells by column. -/
abbrev RawRow := Nat → Value

/-- The stored rows of a table. -/
def rawRows (t : Table) : List RawRow := (List.range t.rows).map t.cell

/-- The table that some stored rows are. -/
def tableOf (rows : List RawRow) : Table where
  rows := rows.length
  cell i := rows.getD i (fun _ => .null)

/-- A stored row with one integer. -/
def intRow (n : Int64) : RawRow := fun _ => .int64 n

@[simp]
theorem rawRows_tableOf (rows : List RawRow) :
  rawRows (tableOf rows) = rows
  := by
  apply ext_getElem
  · simp [rawRows, tableOf]
  · intro i h₁ h₂
    simp [rawRows, tableOf, h₂]

/-- A database with one table installed under a name. -/
def install (db : Database) (name : String) (rows : List RawRow) : Database :=
  fun t => if t = name then tableOf rows else db t

@[simp]
theorem install_self (db : Database) (name : String) (rows : List RawRow) :
  install db name rows name = tableOf rows
  := if_pos rfl

/-! ### Plans over one table -/

/-- The table under a chain of filters and projections. -/
def singleBaseTable : LogicalPlan Q → Option String
  | .scan table _ _ => some table
  | .filter input _ => singleBaseTable input
  | .project input _ => singleBaseTable input
  | _ => none

mutual

/-- Scans of a table become scans of another one with the given schema. -/
@[grind =]
def renameScans (source target : String) (base : Schema) : LogicalPlan Q → LogicalPlan Q
  | .scan table projection schema =>
    if table = source then .scan target projection base else .scan table projection schema
  | .filter input predicate => .filter (renameScans source target base input) predicate
  | .project input exprs => .project (renameScans source target base input) exprs
  | .aggregate input groupBy aggregates =>
    .aggregate (renameScans source target base input) groupBy aggregates
  | .distinct input => .distinct (renameScans source target base input)
  | .limit input limit offset => .limit (renameScans source target base input) limit offset
  | .sort input sortExprs => .sort (renameScans source target base input) sortExprs
  | .window input windowExprs partitionBy orderBy =>
    .window (renameScans source target base input) windowExprs partitionBy orderBy
  | .union inputs => .union (renameAllScans source target base inputs)
  | .setOp left right op all =>
    .setOp (renameScans source target base left) (renameScans source target base right) op all
  | .join left right joinType on filter =>
    .join (renameScans source target base left) (renameScans source target base right) joinType on
      filter

/-- Scans are renamed in every branch. -/
def renameAllScans (source target : String) (base : Schema) :
    List (LogicalPlan Q) → List (LogicalPlan Q)
  | [] => []
  | input :: inputs =>
    renameScans source target base input :: renameAllScans source target base inputs

end

/-- The plan is a chain over a table that has the given schema. -/
def ReadsTable (table : String) (base : Schema) : LogicalPlan Q → Prop
  | .scan t _ s => t = table ∧ s = base
  | .filter input _ => ReadsTable table base input
  | .project input _ => ReadsTable table base input
  | _ => False

variable {table target : String} {base : Schema} {plan : LogicalPlan Q}

/-- A chain over another table is a chain. -/
theorem ReadsTable.renameScans (h : ReadsTable table base plan) (target : String) :
  ReadsTable target base (OutOfCore.renameScans table target base plan)
  := by
  induction plan with
  | scan t projection schema =>
    obtain ⟨rfl, rfl⟩ := h
    simp [OutOfCore.renameScans, ReadsTable]
  | filter _ _ ih | project _ _ ih =>
    rw [OutOfCore.renameScans]
    exact ih h
  | _ => exact h.elim

theorem ReadsTable.outputSchema_renameScans (h : ReadsTable table base plan) (target : String) :
  (OutOfCore.renameScans table target base plan).outputSchema S.schema =
    plan.outputSchema S.schema
  := by
  induction plan with
  | scan t projection schema =>
    obtain ⟨rfl, rfl⟩ := h
    simp [OutOfCore.renameScans, LogicalPlan.outputSchema]
  | filter _ _ ih | project _ _ ih =>
    rw [OutOfCore.renameScans, LogicalPlan.outputSchema, LogicalPlan.outputSchema, ih h]
  | _ => exact h.elim

/-! ### One row -/

/-- What a chain does with one stored row; none for a chain that has no meaning. -/
def rowStep : LogicalPlan Q → Option (RawRow → Option Row)
  | .scan _ projection schema =>
    (scanColumns schema projection).map (fun columns raw => some (columns.map raw))
  | .filter input predicate => do
    let f ← rowStep input
    let s ← input.outputSchema S.schema
    if predicate.checked S s = some .bool then
      some (fun raw => (f raw).filter (predicate.holds B S s))
    else none
  | .project input exprs => do
    let f ← rowStep input
    let s ← input.outputSchema S.schema
    if allChecked S s exprs then some (fun raw => (f raw).map (evalAll B S s exprs)) else none
  | _ => none

section

variable (h : ReadsTable table base plan)
include h

/-- A chain returns what it makes of each row of its table. -/
theorem ReadsTable.eval (db : Database) :
  plan.eval B S db = (rowStep B S plan).map (fun f => (rawRows (db table)).filterMap f)
  := by
  induction plan with
  | scan t projection schema =>
    obtain ⟨rfl, rfl⟩ := h
    rw [LogicalPlan.eval, rowStep]
    cases scanColumns schema projection with
    | none => rfl
    | some columns => simp [Table.select, rawRows]
  | filter input predicate ih =>
    rw [LogicalPlan.eval, rowStep, ih h]
    cases rowStep B S input with
    | none => rfl
    | some f =>
      cases input.outputSchema S.schema with
      | none => rfl
      | some s =>
        by_cases hp : predicate.checked S s = some .bool
        · simp [filterRows, hp, filter_filterMap]
        · simp [filterRows, hp]
  | project input exprs ih =>
    rw [LogicalPlan.eval, rowStep, ih h]
    cases rowStep B S input with
    | none => rfl
    | some f =>
      cases input.outputSchema S.schema with
      | none => rfl
      | some s =>
        by_cases hp : allChecked S s exprs = true
        · simp [projectRows, hp, map_filterMap]
        · simp [projectRows, hp]
  | _ => exact h.elim

theorem ReadsTable.rowStep_renameScans :
  rowStep B S (OutOfCore.renameScans table target base plan) = rowStep B S plan
  := by
  induction plan with
  | scan t projection schema =>
    obtain ⟨rfl, rfl⟩ := h
    simp [OutOfCore.renameScans, rowStep]
  | filter input _ ih | project input _ ih =>
    have hinput : ReadsTable table base input := h
    have hs := hinput.outputSchema_renameScans S target
    rw [OutOfCore.renameScans, rowStep, rowStep, ih h, hs]
  | _ => exact h.elim

theorem ReadsTable.eval_install (db : Database) (rows : List RawRow) :
  plan.eval B S (install db table rows) = (rowStep B S plan).map (fun f => rows.filterMap f)
  := by
  rw [h.eval, install_self, rawRows_tableOf]

/-- Running a chain on a group of rows, installed under another name. -/
theorem ReadsTable.eval_group (db : Database) (target : String) (rows : List RawRow) :
  (OutOfCore.renameScans table target base plan).eval B S (install db target rows) =
    (rowStep B S plan).map (fun f => rows.filterMap f)
  := by
  rw [(h.renameScans target).eval_install, h.rowStep_renameScans]

end

/-! ### Groups of rows -/

/--
The groups into which the batches of a table are collected: a group ends with the batch with which
it has enough rows. The batches in `pending` are those of the group that is being collected.
-/
def runGroups (runRows : Nat) : List (List RawRow) → List (List RawRow) → List (List RawRow)
  | [], pending => if pending.isEmpty then [] else [pending.flatten]
  | batch :: batches, pending =>
    if runRows ≤ (pending ++ [batch]).flatten.length then
      (pending ++ [batch]).flatten :: runGroups runRows batches []
    else runGroups runRows batches (pending ++ [batch])

/-- The groups have the rows of the batches, in their order. -/
theorem runGroups_flatten (runRows : Nat) (batches pending : List (List RawRow)) :
  (runGroups runRows batches pending).flatten = pending.flatten ++ batches.flatten
  := by
  induction batches generalizing pending with
  | nil =>
    cases pending with
    | nil => rfl
    | cons b bs => simp [runGroups]
  | cons batch batches ih =>
    rw [runGroups]
    split
    · rw [flatten_cons, ih]
      simp
    · rw [ih]
      simp

end CratonBolt.OutOfCore
