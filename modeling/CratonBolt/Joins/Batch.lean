import CratonBolt.Semantics.Plan

/-!
# Record batches of a join

The batches a join reads and the batch it builds: named Arrow arrays of one length. The join
picks rows of its inputs by position with `arrow::compute::take`, where a missing position
picks a `NULL`, and puts the picked columns side by side under the output schema.
-/

namespace CratonBolt.Joins

open List
open Prod (fst snd)

variable {schema : Schema} {out : Batch}

/-! ### Arrays -/

/-- The type of the positions in a dictionary array. -/
inductive IndexType where
  | int32
  | int64
  | other (name : String)
deriving DecidableEq, Repr

def IndexType.debug : IndexType → String
  | int32 => "Int32"
  | int64 => "Int64"
  | other name => name

/-- The type of an array: one of the plan's types, or strings behind a dictionary. -/
inductive ArrowType where
  | plain (dtype : DataType)
  | dictionary (key : IndexType)
deriving DecidableEq, Repr

/-- A type as it is printed in error messages. -/
def ArrowType.debug : ArrowType → String
  | plain .bool => "Boolean"
  | plain dtype => dtype.debug
  | dictionary key => s!"Dictionary({key.debug}, Utf8)"

/-- The type of the values of an array. -/
def ArrowType.valueType : ArrowType → DataType
  | plain dtype => dtype
  | dictionary _ => .utf8

/-- An array that holds its values itself. -/
structure FlatArray where
  dtype : DataType
  cells : List Value
  typed : ∀ v ∈ cells, v = .null ∨ v.dtype = some dtype

/-- An Arrow array. A dictionary array holds positions of its own values, which may be `NULL`. -/
inductive Column where
  | flat (arr : FlatArray)
  | dictionary (key : IndexType) (values : List (Option String))
      (codes : List (Option (Fin values.length)))

/-- The value at a position of a dictionary. -/
def decode (values : List (Option String)) : Option (Fin values.length) → Value
  | some code => (values.get code).elim .null .utf8
  | none => .null

namespace Column

/-- `Array::data_type`. -/
def dtype : Column → ArrowType
  | flat arr => .plain arr.dtype
  | dictionary key _ _ => .dictionary key

/-- The values of the slots. -/
def cells : Column → List Value
  | flat arr => arr.cells
  | dictionary _ values codes => codes.map (decode values)

/-- `Array::len`. -/
def length (c : Column) : Nat := c.cells.length

/-- The value of a slot. -/
def cell (c : Column) (row : Nat) : Value := c.cells.getD row .null

variable (idx : List (Option Nat))

/-- The slots at some positions; a missing position is a `NULL` slot. -/
def take : Column → Column
  | flat arr => .flat {
      dtype := arr.dtype
      cells := idx.map (fun i => i.elim .null (arr.cells.getD · .null))
      typed := by
        intro v hv
        obtain ⟨i, -, rfl⟩ := mem_map.mp hv
        cases i with
        | none => exact .inl rfl
        | some i =>
          rw [Option.elim_some, getD_eq_getElem?_getD]
          cases h : arr.cells[i]? with
          | none => exact .inl rfl
          | some v => exact arr.typed v (mem_of_getElem? h) }
  | dictionary key values codes =>
    .dictionary key values (idx.map (fun i => i.bind (codes.getD · none)))

/-- `Array::null_count() > 0`; a dictionary array counts its missing positions alone. -/
def hasNulls : Column → Bool
  | flat arr => arr.cells.any Value.isNull
  | dictionary _ _ codes => codes.any Option.isNone

/-- The array holds its values itself. -/
def isFlat : Column → Bool
  | flat _ => true
  | dictionary _ _ _ => false

variable (c : Column)

theorem isFlat_of_dtype {t : DataType} (h : c.dtype = .plain t) :
  c.isFlat = true
  := by
  cases c with
  | flat arr => rfl
  | dictionary key values codes => cases h

theorem hasNulls_of_isFlat (h : c.isFlat = true) :
  c.hasNulls = c.cells.any Value.isNull
  := by
  cases c with
  | flat arr => rfl
  | dictionary key values codes => cases h

@[simp]
theorem dtype_take :
  (c.take idx).dtype = c.dtype
  := by
  cases c <;> rfl

theorem cells_take :
  (c.take idx).cells = idx.map (fun i => i.elim .null c.cell)
  := by
  cases c with
  | flat arr => rfl
  | dictionary key values codes =>
    simp only [take, cells, map_map]
    apply map_congr_left
    intro i hi
    cases i with
    | none => rfl
    | some i =>
      simp only [Function.comp_apply, Option.bind_some, Option.elim_some, cell, cells,
        getD_eq_getElem?_getD, getElem?_map]
      cases codes[i]? with
      | none => rfl
      | some code => rfl

@[simp]
theorem length_take :
  (c.take idx).length = idx.length
  := by
  rw [length, cells_take, length_map]

theorem cell_take (row : Nat) (h : row < idx.length) :
  (c.take idx).cell row = idx[row].elim .null c.cell
  := by
  rw [cell, cells_take, getD_eq_getElem?_getD, getElem?_map, getElem?_eq_getElem h]
  rfl

/-- A slot holds a `NULL` or a value of the type of the array. -/
theorem typed_cell (row : Nat) :
  c.cell row = .null ∨ (c.cell row).dtype = some c.dtype.valueType
  := by
  cases c with
  | flat arr =>
    simp only [cell, cells, getD_eq_getElem?_getD]
    cases hv : arr.cells[row]? with
    | none => exact .inl rfl
    | some v => exact arr.typed v (mem_of_getElem? hv)
  | dictionary key values codes =>
    simp only [cell, cells, getD_eq_getElem?_getD, getElem?_map]
    cases codes[row]? with
    | none => exact .inl rfl
    | some code =>
      cases code with
      | none => exact .inl rfl
      | some code =>
        simp only [Option.map_some, Option.getD_some, decode]
        cases values.get code with
        | none => exact .inl rfl
        | some s => exact .inr rfl

end Column

/-! ### Batches -/

/-- Named columns of one length. -/
structure Batch where
  columns : List (String × Column)
  numRows : Nat
  lengths : ∀ c ∈ columns, c.2.length = numRows

variable {b : Batch} {i : Nat} {columns : List Column}

namespace Batch

section

variable (b : Batch)

/-- The names of the columns in order. -/
def names : List String := b.columns.map fst

/-- `RecordBatch::column`; positions always come from a lookup. -/
def column (i : Nat) : Column :=
  match b.columns[i]? with
  | some c => c.2
  | none => .flat ⟨.bool, [], by simp⟩

/-- The row at a position. -/
def row (i : Nat) : Row := b.columns.map (fun c => c.2.cell i)

/-- The rows in order. -/
def rows : List Row := (range b.numRows).map b.row

/-- `Schema::index_of`: the first column of a name. -/
def indexOf (name : String) : Option Nat := b.names.findIdx? (fun n => n == name)

theorem length_row (i : Nat) :
  (b.row i).length = b.columns.length
  := by
  rw [row, length_map]

theorem length_rows :
  b.rows.length = b.numRows
  := by
  rw [rows, length_map, length_range]

end

/-- The cells of a row are those of the columns. -/
theorem getD_row (hi : i < b.columns.length) (row : Nat) :
  (b.row row).getD i .null = (b.column i).cell row
  := by
  rw [Batch.row, getD_eq_getElem?_getD, getElem?_map, column, getElem?_eq_getElem hi]
  rfl

theorem lt_of_indexOf {name : String} (h : b.indexOf name = some i) :
  i < b.columns.length
  := by
  obtain ⟨hi, -⟩ := findIdx?_eq_some_iff_getElem.mp h
  simpa [names] using hi

theorem length_column (hi : i < b.columns.length) :
  (b.column i).length = b.numRows
  := by
  rw [column, getElem?_eq_getElem hi]
  exact b.lengths _ (getElem_mem hi)

end Batch

/-! ### The output batch -/

/-- A column may stand under a field: it has its type, and no `NULL` where the field has none. -/
def fits (f : Field) (c : Column) : Bool :=
  decide (c.dtype = .plain f.dtype) && (f.nullable || !c.hasNulls)

/--
`RecordBatch::try_new`: there is a column, each field has its column, and all have the length
of the first. Arrow's own texts for columns that do not fit are left out.
-/
def tryNew (schema : Schema) (columns : List Column) : BoltResult Batch :=
  match columns with
  | [] => .error (.other ("arrow: Invalid argument error: must either specify a row count or at " ++
      "least one column"))
  | c :: rest =>
    if h : (c :: rest).length = schema.fields.length ∧
        (schema.fields.zip (c :: rest)).all (fun fc => fits fc.1 fc.2) ∧
        ∀ d ∈ c :: rest, d.length = c.length then
      .ok ⟨schema.names.zip (c :: rest), c.length,
        fun d hd => h.2.2 d.2 (of_mem_zip hd).2⟩
    else .error (.other "arrow: the columns do not fit the schema")

/-- `plan_schema_to_arrow_schema_no_temporal` for the output of a join. -/
def planSchemaToArrowSchema (schema : Schema) : BoltResult Unit :=
  schema.fields.forM (fun f =>
    if f.dtype.isTemporal then
      .error (.type s!"Date/Timestamp not yet supported in join output path: {f.dtype.debug}")
    else .ok ())

/-- `empty_array_for_dtype`. -/
def emptyArrayForDtype : DataType → BoltResult Column
  | .int32 => .ok (.flat ⟨.int32, [], by simp⟩)
  | .int64 => .ok (.flat ⟨.int64, [], by simp⟩)
  | .float32 => .ok (.flat ⟨.float32, [], by simp⟩)
  | .float64 => .ok (.flat ⟨.float64, [], by simp⟩)
  | .bool => .ok (.flat ⟨.bool, [], by simp⟩)
  | .utf8 => .ok (.flat ⟨.utf8, [], by simp⟩)
  | other => .error (.type s!"JOIN: unsupported output dtype {other.debug}")

/-- `empty_output`: a batch of the output schema without rows. -/
def emptyOutput (schema : Schema) : BoltResult Batch := do
  let columns ← schema.fields.mapM (fun f => emptyArrayForDtype f.dtype)
  tryNew schema columns

/-- Positions of a row of each side, where a side may be missing. -/
abbrev Pair := Option Nat × Option Nat

/-- `materialise`: the picked rows of both sides next to each other. -/
def materialise (lhs rhs : Batch) (pairs : List Pair) (schema : Schema) : BoltResult Batch :=
  tryNew schema (lhs.columns.map (fun c => c.2.take (pairs.map fst)) ++
    rhs.columns.map (fun c => c.2.take (pairs.map snd)))

/-- The row of a pair of positions. -/
def joinedAt (lhs rhs : Batch) (pair : Pair) : Row :=
  joinedRow lhs.columns.length rhs.columns.length (pair.1.map lhs.row, pair.2.map rhs.row)

theorem tryNew_eq_ok (h : tryNew schema columns = .ok out) :
  out.columns = schema.names.zip columns ∧ columns.length = schema.fields.length ∧
    ∀ fc ∈ schema.fields.zip columns, fits fc.1 fc.2 = true
  := by
  cases columns with
  | nil => cases h
  | cons c rest =>
    simp only [tryNew] at h
    split at h
    · rename_i hc
      injection h with h
      subst h
      exact ⟨rfl, hc.1, all_eq_true.mp hc.2.1⟩
    · cases h

/-- A batch that is built holds the columns it is built from. -/
theorem tryNew_spec {n : Nat} (hlen : ∀ c ∈ columns, c.length = n)
    (h : tryNew schema columns = .ok out) :
  out.columns.map snd = columns ∧ out.numRows = n
  := by
  cases columns with
  | nil => cases h
  | cons c rest =>
    simp only [tryNew] at h
    split at h
    · rename_i hc
      injection h with h
      subst h
      constructor
      · apply map_snd_zip
        rw [Schema.names, length_map]
        exact le_of_eq hc.1
      · exact hlen c mem_cons_self
    · cases h

theorem emptyArrayForDtype_length {t : DataType} {c : Column} (h : emptyArrayForDtype t = .ok c) :
  c.length = 0
  := by
  cases t <;> simp only [emptyArrayForDtype, Except.ok.injEq, reduceCtorEq] at h
  all_goals
    subst h
    rfl

theorem emptyOutput_rows (h : emptyOutput schema = .ok out) :
  out.rows = []
  := by
  obtain ⟨columns, hcols, hnew⟩ := Outcome.bind_eq_ok.mp h
  have hlen : ∀ c ∈ columns, c.length = 0 := by
    intro c hc
    obtain ⟨f, -, hf⟩ := Outcome.exists_of_mem_mapM hcols hc
    exact emptyArrayForDtype_length hf
  rw [Batch.rows, (tryNew_spec hlen hnew).2]
  rfl

/-- The picked columns, side by side, are the rows of the picked pairs. -/
theorem materialise_rows {lhs rhs : Batch} {pairs : List Pair}
    (h : materialise lhs rhs pairs schema = .ok out) :
  out.rows = pairs.map (joinedAt lhs rhs)
  := by
  obtain ⟨hcols, hrows⟩ := tryNew_spec (n := pairs.length) (by
    intro c hc
    obtain hc | hc := mem_append.mp hc
    all_goals
      obtain ⟨d, -, rfl⟩ := mem_map.mp hc
      simp) h
  apply ext_getElem
  · rw [Batch.length_rows, hrows, length_map]
  · intro k hk hk'
    rw [length_map] at hk'
    have hrow : out.row k = (out.columns.map snd).map (fun c => c.cell k) := by
      rw [Batch.row, map_map]
      rfl
    have hside : ∀ (b : Batch) (side : Pair → Option Nat),
        b.columns.map (fun c => (c.2.take (pairs.map side)).cell k) =
          ((side pairs[k]).map b.row).getD (replicate b.columns.length .null) := by
      intro b side
      have hcell : ∀ c : Column, (c.take (pairs.map side)).cell k =
          (side pairs[k]).elim .null c.cell := by
        intro c
        rw [Column.cell_take _ _ _ (by rwa [length_map]), getElem_map]
      simp only [hcell]
      cases side pairs[k] with
      | none => simp
      | some i => rfl
    simp only [Batch.rows, getElem_map, getElem_range, hrow, hcols, map_append,
      map_map]
    exact congrArg₂ (· ++ ·) (hside lhs fst) (hside rhs snd)

end CratonBolt.Joins
