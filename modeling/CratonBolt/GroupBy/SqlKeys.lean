import CratonBolt.GroupBy.Executors
import CratonBolt.Library.Outcome

/-!
# The keys of a `GROUP BY` in SQL

What the rows of the key columns are grouped by: the tuple of their values, in which `NULL` is a
value like any other, all NaNs are one value and so are the two zeros.
-/

namespace CratonBolt.GroupBy

open Grouping List Option

namespace KeyArray

/-- The type of a key column, for the columns that can be one. -/
def keyDtype : KeyArray → Option DataType
  | int32 _ => some .int32
  | int64 _ => some .int64
  | float32 _ => some .float32
  | float64 _ => some .float64
  | utf8 _ | dictionary _ _ => some .utf8
  | other _ _ => none

/-- The key of a row. -/
def keyAt (arr : KeyArray) (row : Nat) : Literal :=
  match arr.asStringArray with
  | some strings => (strings.getD row none).elim .null .utf8
  | none => if arr.isNullAt row then .null else keyValueAt arr row

end KeyArray

/-- The key of a row in several columns. -/
def sqlKey (cols : List KeyArray) (row : Nat) : List Literal := cols.map (fun c => c.keyAt row)

/-- The rows of a batch, each with its key. -/
def sqlRows (cols : List KeyArray) (numRows : Nat) : List (Nat × List Literal) :=
  (range numRows).map (fun row => (row, sqlKey cols row))

/-- The inputs and columns that the keys of an aggregate denote. -/
def keyColumns (aggregate : AggregateSpec) (batch : RecordBatch) :
    Option (List (ColumnIo × KeyArray)) :=
  aggregate.groupBy.mapM (fun ord => do
    let io ← aggregate.inputs[ord]?
    let arr ← batch.column? io.name
    return (io, arr))

/--
The executors accept the plan: its keys denote columns of the batch of the types it says, and its
output schema has the key columns first, nullable where there are `NULL`s. Every fast path misses,
both on the plan and on the plan with its string keys turned into codes.
-/
structure Accepts (kernels : Kernels) (plan : AggregatePlan) (batch : RecordBatch)
    (cols : List (ColumnIo × KeyArray)) : Prop where
  pre : plan.pre = false
  nonempty : cols ≠ []
  columns : keyColumns plan.aggregate batch = some cols
  dtypes : ∀ c ∈ cols, c.2.keyDtype = some c.1.dtype
  fields : (plan.aggregate.outputSchema.fields.take cols.length).map Field.dtype
    = cols.map (fun c => c.1.dtype)
  nullable : ∀ p ∈ plan.aggregate.outputSchema.fields.zip cols, p.2.2.hasNulls → p.1.nullable
  misses : kernels.fastPath plan batch = none
  missesCoded : ∀ keys dicts coded, stringKeys plan.aggregate batch = some keys →
    buildDicts keys = some dicts →
    rewriteBatch batch (codeColumns plan.aggregate keys dicts) = .ok coded →
    kernels.fastPath ⟨false, rewriteAggregate plan.aggregate dicts⟩ coded = none

/-- A computation reports the groups of SQL. -/
def Reports (cols : List (ColumnIo × KeyArray)) (numRows : Nat) (x : BoltResult Grouped) : Prop :=
  ∃ out, x = .ok out ∧ IsGrouping (sqlRows (cols.map Prod.snd) numRows) out.groups

/-! ### Columns row by row -/

/-- A mapped list, position by position. -/
theorem map_eq_map_range {α β : Type} (l : List α) (f : α → β) (d : β) :
  l.map f = (range l.length).map (fun i => (l[i]?).elim d f)
  := by
  apply ext_getElem
  · simp
  · intro i hi _
    rw [length_map] at hi
    simp [getElem?_eq_getElem hi]

variable {κ : Type} {arr : KeyArray} {row : Nat}

theorem rowsOf_map_range (n : Nat) (f : Nat → κ) :
  rowsOf ((range n).map f) = (range n).map (fun i => (i, f i))
  := by
  apply ext_getElem
  · simp [rowsOf]
  · intro i hi _
    simp [rowsOf]

theorem keepValid_map_range (n : Nat) (f : Nat → Nat × κ) (keep : Nat → Bool) :
  keepValid (some ((range n).map keep)) ((range n).map f)
    = ((range n).filter keep).map f
  := by
  simp only [keepValid, zip_map', filterMap_map]
  rw [← filterMap_eq_filter, map_filterMap]
  apply filterMap_congr
  intro i _
  by_cases h : keep i <;> simp [Option.guard, h]

namespace KeyArray

theorem nulls_eq (arr : KeyArray) :
  arr.nulls = (range arr.length).map arr.isNullAt
  := by
  apply ext_getElem
  · simp [length]
  · intro i hi _
    simp [isNullAt, hi]

theorem hasNulls_eq (arr : KeyArray) :
  arr.hasNulls = (range arr.length).any arr.isNullAt
  := by
  rw [hasNulls, nulls_eq, List.any_map]
  rfl

theorem hasNulls_iff :
  arr.hasNulls = true ↔ ∃ row < arr.length, arr.isNullAt row = true
  := by
  simp [hasNulls_eq]

/-- A row is `NULL` in a column exactly when its key there is. -/
theorem keyAt_eq_null_iff {d : DataType} (hd : arr.keyDtype = some d) (hrow : row < arr.length) :
  arr.keyAt row = .null ↔ arr.isNullAt row = true
  := by
  cases arr with
  | int32 cells | int64 cells | float32 cells | float64 cells =>
    simp only [length, nulls, length_map] at hrow
    simp only [keyAt, asStringArray, isNullAt, nulls, keyValueAt, getD_eq_getElem?_getD,
      getElem?_map, getElem?_eq_getElem hrow, elim_some, map_some,
      getD_some]
    split <;> simp_all
  | utf8 cells =>
    simp only [length, nulls, length_map] at hrow
    simp only [keyAt, asStringArray, isNullAt, nulls, getD_eq_getElem?_getD,
      getElem?_map, getElem?_eq_getElem hrow, map_some, getD_some]
    cases cells[row] <;> simp
  | dictionary values codes =>
    simp only [length, nulls, length_map] at hrow
    simp only [keyAt, asStringArray, isNullAt, nulls, getD_eq_getElem?_getD,
      getElem?_map, getElem?_eq_getElem hrow, map_some, getD_some]
    cases codes[row].bind values.get <;> simp
  | other dtype nulls => cases hd

end KeyArray

/-- A row of key columns with a `NULL` is a key with a `NULL`. -/
theorem null_mem_sqlKey {cols : List KeyArray} {n : Nat} (hd : ∀ c ∈ cols, c.keyDtype.isSome)
    (hn : ∀ c ∈ cols, c.length = n) (hrow : row < n) :
  Literal.null ∈ sqlKey cols row ↔ cols.any (fun c => c.isNullAt row) = true
  := by
  simp only [sqlKey, List.mem_map, List.any_eq_true]
  apply exists_congr
  intro c
  apply and_congr_right
  intro hc
  obtain ⟨d, hd⟩ := isSome_iff_exists.mp (hd c hc)
  exact KeyArray.keyAt_eq_null_iff hd (hn c hc ▸ hrow)

end CratonBolt.GroupBy
