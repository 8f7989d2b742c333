import CratonBolt.Joins.Relational

/-!
# When a hash join returns

The contract of the planner for an equi-join: the key columns are there, the output schema is that
of the columns of both sides, and a column that may be padded is nullable. Under it the host part
of a hash join fails on keys that it cannot read and on types that it cannot put out, and on
nothing else.
-/

namespace CratonBolt.Joins

open Outcome List

variable {mayNull : Bool} {idx : List (Option Nat)} {fields : List Field} {pairs : List Pair}

/-! ### The contract -/

/-- The fields of one side of the output stand over the columns of that side. -/
def FieldsFit (mayNull : Bool) (fields : List Field) (b : Batch) : Prop :=
  Forall₂ (fun f c => c.2.dtype = .plain f.dtype ∧
    (f.nullable = true ∨ (c.2.hasNulls = false ∧ mayNull = false))) fields b.columns

/-- The fields of the output are those of the left and then of the right side. -/
structure OutputFits (lhs rhs : Batch) (joinType : JoinType) (schema : Schema) : Prop where
  columns : lhs.columns ≠ []
  fields : ∃ leftFields rightFields, schema.fields = leftFields ++ rightFields ∧
    FieldsFit joinType.leftMayNull leftFields lhs ∧ FieldsFit joinType.rightMayNull rightFields rhs

/-- What the planner grants a join by the columns `lefts` and `rights`. -/
structure Planned (lhs rhs : Batch) (joinType : JoinType) (lefts rights : List String)
    (schema : Schema) : Prop where
  keys : lefts ≠ []
  leftFound : ∀ name ∈ lefts, (lhs.indexOf name).isSome = true
  rightFound : ∀ name ∈ rights, (rhs.indexOf name).isSome = true
  output : OutputFits lhs rhs joinType schema
  leftRows : lhs.numRows < 2 ^ 32
  rightRows : rhs.numRows < 2 ^ 32

/-- `empty_array_for_dtype` knows every type of the schema. -/
def HasEmptyArrays (schema : Schema) : Prop :=
  ∀ f ∈ schema.fields, isKeyType (.plain f.dtype) = true

/-- The schema has no date and no timestamp, which a join does not put out. -/
def NoTemporal (schema : Schema) : Prop := ∀ f ∈ schema.fields, f.dtype.isTemporal = false

/-! ### The output batch -/

/-- A position of a row of a side, or none if the side may be missing. -/
def Within (n : Nat) (mayNull : Bool) : Option Nat → Prop
  | some i => i < n
  | none => mayNull = true

variable {c : Column} {f : Field} {m : Row → Row → Bool}

theorem hasNulls_take (htype : c.dtype = .plain f.dtype) (hnulls : c.hasNulls = false)
    (hmay : mayNull = false) (hidx : ∀ i ∈ idx, Within c.length mayNull i) :
  (c.take idx).hasNulls = false
  := by
  rw [Column.hasNulls_of_isFlat _ (Column.isFlat_of_dtype _ ((c.dtype_take idx).trans htype)),
    Column.cells_take, any_map, any_eq_false]
  intro i hi
  cases i with
  | none =>
    have := hidx none hi
    rw [hmay] at this
    cases this
  | some i =>
    have hlt : i < c.cells.length := hidx _ hi
    rw [c.hasNulls_of_isFlat (c.isFlat_of_dtype htype), any_eq_false] at hnulls
    rw [Function.comp_apply, Option.elim_some, Column.cell, getD_eq_getElem _ _ hlt]
    exact hnulls _ (getElem_mem hlt)

theorem fits_take (htype : c.dtype = .plain f.dtype)
    (hnulls : f.nullable = true ∨ (c.hasNulls = false ∧ mayNull = false))
    (hidx : ∀ i ∈ idx, Within c.length mayNull i) :
  fits f (c.take idx) = true
  := by
  rw [fits, Column.dtype_take, htype, decide_eq_true rfl, Bool.true_and, Bool.or_eq_true,
    Bool.not_eq_true']
  obtain hnull | ⟨hnull, hmay⟩ := hnulls
  · exact .inl hnull
  · exact .inr (hasNulls_take htype hnull hmay hidx)

theorem FieldsFit.take {b : Batch} (h : FieldsFit mayNull fields b)
    (hidx : ∀ i ∈ idx, Within b.numRows mayNull i) :
  Forall₂ (fun f c => fits f c = true) fields (b.columns.map (fun c => c.2.take idx))
  := by
  rw [forall₂_map_right_iff]
  have hlen := b.lengths
  unfold FieldsFit at h
  generalize b.columns = columns at h hlen
  induction h with
  | nil => exact .nil
  | @cons f c fields columns hfc _ ih =>
    rw [forall_mem_cons] at hlen
    apply Forall₂.cons _ (ih hlen.2)
    apply fits_take hfc.1 hfc.2
    rwa [hlen.1]

theorem tryNew_ok {schema : Schema} {columns : List Column} {n : Nat} (hne : columns ≠ [])
    (hfits : Forall₂ (fun f c => fits f c = true) schema.fields columns)
    (hlen : ∀ c ∈ columns, c.length = n) :
  ∃ out, tryNew schema columns = .ok out
  := by
  cases columns with
  | nil => exact absurd rfl hne
  | cons c rest =>
    rw [forall₂_iff_zip] at hfits
    have hall : (c :: rest).length = schema.fields.length ∧
        (schema.fields.zip (c :: rest)).all (fun fc => fits fc.1 fc.2) ∧
        ∀ d ∈ c :: rest, d.length = c.length := by
      refine ⟨hfits.1.symm, ?_, ?_⟩
      · rw [all_eq_true]
        rintro ⟨f, d⟩ hfd
        exact hfits.2 hfd
      · intro d hd
        rw [hlen d hd, hlen c mem_cons_self]
    rw [tryNew, dif_pos hall]
    exact ⟨_, rfl⟩

section Output

variable {lhs rhs : Batch} {joinType : JoinType} {schema : Schema}

theorem OutputFits.materialise_ok (h : OutputFits lhs rhs joinType schema)
    (hpairs : ∀ pair ∈ pairs, Within lhs.numRows joinType.leftMayNull pair.1 ∧
      Within rhs.numRows joinType.rightMayNull pair.2) :
  ∃ out, materialise lhs rhs pairs schema = .ok out
  := by
  obtain ⟨leftFields, rightFields, hfields, hleft, hright⟩ := h.fields
  apply tryNew_ok (n := pairs.length)
  · rw [Ne, append_eq_nil_iff, map_eq_nil_iff]
    exact fun hnil => h.columns hnil.1
  · rw [hfields]
    apply rel_append
    · apply hleft.take
      intro i hi
      obtain ⟨pair, hpair, rfl⟩ := mem_map.mp hi
      exact (hpairs pair hpair).1
    · apply hright.take
      intro i hi
      obtain ⟨pair, hpair, rfl⟩ := mem_map.mp hi
      exact (hpairs pair hpair).2
  · intro c hc
    obtain hc | hc := mem_append.mp hc
    all_goals
      obtain ⟨d, -, rfl⟩ := mem_map.mp hc
      simp

theorem JoinPairs.within (h : JoinPairs lhs rhs joinType m pairs)
    {pair : Pair} (hpair : pair ∈ pairs) :
  Within lhs.numRows joinType.leftMayNull pair.1 ∧ Within rhs.numRows joinType.rightMayNull pair.2
  := by
  obtain ⟨a, b⟩ := pair
  rw [h.mem_iff] at hpair
  obtain ⟨hls, hrs, hleft, hright⟩ := ListJoin.sides_of_mem_outerJoin hpair
  constructor
  · cases a with
    | none => exact hleft rfl
    | some l => exact mem_range.mp (hls l rfl)
  · cases b with
    | none => exact hright rfl
    | some r => exact mem_range.mp (hrs r rfl)

theorem emptyArrayForDtype_ok (h : isKeyType (.plain f.dtype) = true) :
  ∃ c, emptyArrayForDtype f.dtype = .ok c ∧ fits f c = true
  := by
  cases ht : f.dtype <;> rw [ht] at h <;>
    first | exact ⟨_, rfl, by simp [fits, ht, Column.dtype, Column.hasNulls]⟩ | cases h

theorem emptyArrays_ok (h : ∀ f ∈ fields, isKeyType (.plain f.dtype) = true) :
  ∃ columns, fields.mapM (fun f => emptyArrayForDtype f.dtype) = .ok columns ∧
    Forall₂ (fun f c => fits f c = true) fields columns
  := by
  induction fields with
  | nil => exact ⟨[], rfl, .nil⟩
  | cons f fields ih =>
    rw [forall_mem_cons] at h
    obtain ⟨c, hc, hfit⟩ := emptyArrayForDtype_ok h.1
    obtain ⟨columns, hcols, hfits⟩ := ih h.2
    refine ⟨c :: columns, ?_, .cons hfit hfits⟩
    rw [mapM_eq_ok_iff] at hcols ⊢
    exact .cons hc hcols

theorem emptyArrayForDtype_eq_ok (h : emptyArrayForDtype f.dtype = .ok c) :
  isKeyType (.plain f.dtype) = true
  := by
  cases ht : f.dtype <;> rw [ht] at h <;> first | rfl | cases h

theorem planSchemaToArrowSchema_eq_ok :
  planSchemaToArrowSchema schema = .ok () ↔ NoTemporal schema
  := by
  rw [planSchemaToArrowSchema, forM_eq_ok_iff]
  apply forall₂_congr
  intro f hf
  cases f.dtype.isTemporal <;> simp

theorem FieldsFit.isFlat {b : Batch} (h : FieldsFit mayNull fields b) {i : Nat}
    (hi : i < b.columns.length) :
  (b.column i).isFlat = true
  := by
  obtain ⟨hlen, hall⟩ := forall₂_iff_get.mp h
  rw [Batch.column, getElem?_eq_getElem hi]
  exact Column.isFlat_of_dtype _ (hall i (by rwa [hlen]) hi).1

section

variable (h : OutputFits lhs rhs joinType schema)
include h

theorem OutputFits.isFlat :
  (∀ i < lhs.columns.length, (lhs.column i).isFlat = true) ∧
    ∀ i < rhs.columns.length, (rhs.column i).isFlat = true
  := by
  obtain ⟨leftFields, rightFields, -, hleft, hright⟩ := h.fields
  exact ⟨fun i hi => hleft.isFlat hi, fun i hi => hright.isFlat hi⟩

/-- Key columns of the sides of a join, from their positions. -/
theorem OutputFits.keysIn {buildIsLeft : Bool} {buildIdx probeIdx : List Nat}
    (hbuild : ∀ i ∈ buildIdx, i < (sides buildIsLeft lhs rhs).1.columns.length)
    (hprobe : ∀ i ∈ probeIdx, i < (sides buildIsLeft lhs rhs).2.columns.length) :
  KeysIn (sides buildIsLeft lhs rhs) buildIdx probeIdx
  := by
  obtain ⟨hleft, hright⟩ := h.isFlat
  cases buildIsLeft with
  | true =>
    exact ⟨fun i hi => ⟨hbuild i hi, hleft i (hbuild i hi)⟩,
      fun i hi => ⟨hprobe i hi, hright i (hprobe i hi)⟩⟩
  | false =>
    exact ⟨fun i hi => ⟨hbuild i hi, hright i (hbuild i hi)⟩,
      fun i hi => ⟨hprobe i hi, hleft i (hprobe i hi)⟩⟩

/-- The batch without rows is built exactly when there is an empty array of every type. -/
theorem OutputFits.emptyOutput_ok_iff :
  (∃ out, emptyOutput schema = .ok out) ↔ HasEmptyArrays schema
  := by
  constructor
  · rintro ⟨out, hout⟩ f hf
    obtain ⟨columns, hcols, -⟩ := bind_eq_ok.mp hout
    obtain ⟨c, -, hc⟩ := exists_of_forall₂ (mapM_eq_ok_iff.mp hcols) hf
    exact emptyArrayForDtype_eq_ok hc
  · intro hempty
    obtain ⟨columns, hcols, hfits⟩ := emptyArrays_ok hempty
    have hne : columns ≠ [] := by
      rintro rfl
      obtain ⟨leftFields, rightFields, hfields, hleft, -⟩ := h.fields
      have hnil := forall₂_nil_right_iff.mp hfits
      rw [hfields, append_eq_nil_iff] at hnil
      rw [hnil.1, FieldsFit, forall₂_nil_left_iff] at hleft
      exact h.columns hleft
    have hlen : ∀ c ∈ columns, c.length = 0 := by
      intro c hc
      obtain ⟨f, -, hf⟩ := exists_of_mem_mapM hcols hc
      exact emptyArrayForDtype_length hf
    obtain ⟨out, hout⟩ := tryNew_ok hne hfits hlen
    exact ⟨out, bind_eq_ok.mpr ⟨columns, hcols, hout⟩⟩

theorem OutputFits.pairOutput_ok_iff {buildIsLeft : Bool}
    (hpairs : JoinPairs lhs rhs joinType m (pairs.map (orient buildIsLeft))) :
  (∃ out, pairOutput lhs rhs buildIsLeft pairs schema = .ok out) ↔
    (pairs = [] → HasEmptyArrays schema)
  := by
  unfold pairOutput
  split
  · rename_i hnil
    rw [h.emptyOutput_ok_iff]
    exact ⟨fun hempty _ => hempty, fun hempty => hempty (List.isEmpty_iff.mp hnil)⟩
  · rename_i hne
    rw [List.isEmpty_iff] at hne
    exact iff_of_true (h.materialise_ok (fun pair hpair => hpairs.within hpair))
      (fun hnil => absurd hnil hne)

end

end Output

/-! ### The passes over the rows -/

section Passes

variable {b : Batch} {indices : List Nat}

theorem rowToU32_ok {row : Nat} (h : row < 2 ^ 32) :
  rowToU32 row = .ok row
  := if_pos h

/-- The key of every row can be read. -/
def Reads (b : Batch) (indices : List Nat) : Prop :=
  ∀ row < b.numRows, ∃ o, extractKey b indices row = .ok o

theorem reads_of_keyTypes (h : ∀ i ∈ indices, isKeyType (b.column i).dtype = true) :
  Reads b indices
  := fun row _ => extractKey_ok h row

section

variable {rows : List Nat} (hkey : ∀ row ∈ rows, ∃ o, extractKey b indices row = .ok o)
  (hrows : ∀ row ∈ rows, row < 2 ^ 32)
include hkey hrows

theorem buildRows_ok (map : KeyMap) :
  ∃ map', buildRows b indices rows map = .ok map'
  := by
  induction rows generalizing map with
  | nil => exact ⟨map, rfl⟩
  | cons row rows ih =>
    rw [forall_mem_cons] at hrows hkey
    obtain ⟨o, ho⟩ := hkey.1
    cases o with
    | none =>
      obtain ⟨map', hmap⟩ := ih hkey.2 hrows.2 map
      exact ⟨map', bind_eq_ok.mpr ⟨none, ho, hmap⟩⟩
    | some key =>
      obtain ⟨map', hmap⟩ := ih hkey.2 hrows.2 (map.insert key row)
      exact ⟨map', bind_eq_ok.mpr ⟨some key, ho,
        bind_eq_ok.mpr ⟨row, rowToU32_ok hrows.1, hmap⟩⟩⟩

theorem probeInner_ok (map : KeyMap) :
  ∃ pairs, probeInner map b indices rows = .ok pairs
  := by
  induction rows with
  | nil => exact ⟨[], rfl⟩
  | cons row rows ih =>
    rw [forall_mem_cons] at hrows hkey
    obtain ⟨o, ho⟩ := hkey.1
    obtain ⟨pairs, hpairs⟩ := ih hkey.2 hrows.2
    rw [probeInner, ho]
    cases o with
    | none => exact ⟨pairs, hpairs⟩
    | some key =>
      simp only [bind, Except.bind]
      cases map.get key with
      | none => exact ⟨pairs, hpairs⟩
      | some slot =>
        rw [rowToU32_ok hrows.1, hpairs]
        exact ⟨_, rfl⟩

theorem probeOuter_ok (map : KeyMap) (joinType : JoinType) (marks : List Bool) :
  ∃ pairs marks', probeOuter map b indices joinType rows marks = .ok (pairs, marks')
  := by
  induction rows generalizing marks with
  | nil => exact ⟨[], marks, rfl⟩
  | cons row rows ih =>
    rw [forall_mem_cons] at hrows hkey
    obtain ⟨o, ho⟩ := hkey.1
    rw [probeOuter, rowToU32_ok hrows.1, ho]
    simp only [bind, Except.bind]
    split
    · obtain ⟨pairs, marks', h⟩ := ih hkey.2 hrows.2 marks
      rw [h]
      exact ⟨_, _, rfl⟩
    · obtain ⟨pairs, marks', h⟩ := ih hkey.2 hrows.2
        (if preserveBuild joinType then mark marks (hitsOf map o) else marks)
      rw [h]
      exact ⟨_, _, rfl⟩

end

/-- Every row of the probe side was read when the first pass returns. -/
theorem probeOuter_read {map : KeyMap} {joinType : JoinType} {rows : List Nat}
    {marks marks' : List Bool}
    (h : probeOuter map b indices joinType rows marks = .ok (pairs, marks')) :
  ∀ row ∈ rows, ∃ o, extractKey b indices row = .ok o
  := by
  induction rows generalizing marks pairs with
  | nil => simp
  | cons row rows ih =>
    obtain ⟨p, -, h⟩ := bind_eq_ok.mp h
    obtain ⟨o, ho, h⟩ := bind_eq_ok.mp h
    rw [forall_mem_cons]
    refine ⟨⟨o, ho⟩, ?_⟩
    dsimp only at h
    split at h
    · obtain ⟨⟨rest, matched⟩, hrest, h⟩ := bind_eq_ok.mp h
      injection h with h
      injection h with _ hmarks
      subst hmarks
      exact ih hrest
    · obtain ⟨⟨rest, matched⟩, hrest, h⟩ := bind_eq_ok.mp h
      injection h with h
      injection h with _ hmarks
      subst hmarks
      exact ih hrest

/-- A table that is not empty holds the row of some key. -/
theorem exists_key_of_buildRows {rows : List Nat} {map map' : KeyMap}
    (h : buildRows b indices rows map = .ok map') (hne : map' ≠ map) :
  ∃ row key, extractKey b indices row = .ok (some key)
  := by
  induction rows generalizing map with
  | nil =>
    injection h with h
    exact absurd h.symm hne
  | cons row rows ih =>
    obtain ⟨o, ho, h⟩ := bind_eq_ok.mp h
    cases o with
    | none => exact ih h hne
    | some key => exact ⟨row, key, ho⟩

theorem unmatchedBuild_ok {marks : List Bool} (row : Nat) (h : row + marks.length ≤ 2 ^ 32) :
  ∃ pairs, unmatchedBuild row marks = .ok pairs
  := by
  induction marks generalizing row with
  | nil => exact ⟨[], rfl⟩
  | cons found marks ih =>
    rw [length_cons] at h
    obtain ⟨pairs, hpairs⟩ := ih (row + 1) (by omega)
    rw [unmatchedBuild]
    split
    · exact ⟨pairs, hpairs⟩
    · rw [rowToU32_ok (by omega), hpairs]
      exact ⟨_, rfl⟩

end Passes

/-! ### The host joins -/

section Host

variable {lhs rhs build probe : Batch} {joinType : JoinType} {schema : Schema} {buildIsLeft : Bool}
  {buildIdx probeIdx : List Nat}

/-- A column with a value that may be a key is of a type that may be a key. -/
theorem isKeyType_of_keyValue {c : Column} (hflat : c.isFlat = true) {row : Nat} {k : JoinKeyValue}
    (h : keyValue? (c.cell row) = some k) :
  isKeyType c.dtype = true
  := by
  have htyped := c.typed_cell row
  cases c with
  | dictionary key values codes => cases hflat
  | flat arr =>
    simp only [Column.dtype, ArrowType.valueType] at htyped ⊢
    cases hv : Column.cell (.flat arr) row <;> rw [hv] at h htyped <;>
      simp only [keyValue?, reduceCtorEq] at h <;>
      simp only [Literal.dtype, reduceCtorEq, false_or, Option.some.injEq] at htyped <;>
      rw [← htyped] <;> rfl

/-- A side with the key of one row has key columns of key types, and so has the other side. -/
theorem reads_probe (hidx : KeysIn (build, probe) buildIdx probeIdx)
    (htypes : SameTypes build probe buildIdx probeIdx) {row : Nat} {key : JoinKey}
    (h : extractKey build buildIdx row = .ok (some key)) :
  Reads probe probeIdx
  := by
  have hkey := (extractKey_spec hidx.build h).1
  rw [Option.map_some, rowKey] at hkey
  have hall := mapM_eq_some_iff.mp hkey.symm
  apply reads_of_keyTypes
  intro j hj
  obtain ⟨i, hi, hij⟩ := exists_of_forall₂ htypes.symm hj
  obtain ⟨v, -, hv⟩ := exists_of_forall₂ hall hi
  rw [hij]
  obtain ⟨hlt, hflat⟩ := hidx.build i hi
  rw [Batch.getD_row hlt] at hv
  exact isKeyType_of_keyValue hflat hv

theorem sides_numRows (hleft : lhs.numRows ≤ 2 ^ 32) (hright : rhs.numRows ≤ 2 ^ 32)
    (buildIsLeft : Bool) :
  (∀ row ∈ range (sides buildIsLeft lhs rhs).1.numRows, row < 2 ^ 32) ∧
    ∀ row ∈ range (sides buildIsLeft lhs rhs).2.numRows, row < 2 ^ 32
  := by
  have hrange : ∀ {n row : Nat}, n ≤ 2 ^ 32 → row ∈ range n → row < 2 ^ 32 :=
    fun hn hrow => lt_of_lt_of_le (mem_range.mp hrow) hn
  cases buildIsLeft with
  | true => exact ⟨fun row hrow => hrange hleft hrow, fun row hrow => hrange hright hrow⟩
  | false => exact ⟨fun row hrow => hrange hright hrow, fun row hrow => hrange hleft hrow⟩

/-- An inner join has no rows exactly when its test is true of no two. -/
theorem joinRows_inner_eq_nil_iff {leftCols rightCols : Nat} {ls rs : List Row} :
  joinRows leftCols rightCols .inner m ls rs = [] ↔ ∀ l ∈ ls, ∀ r ∈ rs, m l r = false
  := by
  have hparts := ListJoin.outerJoin_parts false false m ls rs
  rw [ListJoin.keptLeft, ListJoin.keptRight, if_neg Bool.false_ne_true,
    if_neg Bool.false_ne_true, append_nil, append_nil] at hparts
  have hnil : joinRows leftCols rightCols .inner m ls rs = [] ↔ ListJoin.matched m ls rs = [] := by
    rw [joinRows, map_eq_nil_iff, ← length_eq_zero_iff, ← length_eq_zero_iff]
    exact Eq.congr_left (hparts.length_eq.trans (length_map _))
  rw [hnil, eq_nil_iff_forall_not_mem]
  constructor
  · intro hno l hl r hr
    rw [Bool.eq_false_iff]
    exact fun hlr => hno (l, r) (ListJoin.mem_matched.mpr ⟨hl, hr, hlr⟩)
  · rintro hno ⟨l, r⟩ hlr
    obtain ⟨hl, hr, hm⟩ := ListJoin.mem_matched.mp hlr
    rw [hno l hl r hr] at hm
    cases hm

theorem JoinPairs.eq_nil_iff (h : JoinPairs lhs rhs joinType m (pairs.map (orient buildIsLeft))) :
  pairs = [] ↔
    joinRows lhs.columns.length rhs.columns.length joinType m lhs.rows rhs.rows = []
  := by
  rw [← length_eq_zero_iff, ← length_eq_zero_iff, ← h.rows.length_eq, length_map, length_map]

/-- An inner join that returns no rows has an empty array of every type. -/
theorem OutputFits.hasEmptyArrays_of_hostInnerJoin {out : Batch}
    (h : OutputFits lhs rhs .inner schema)
    (hidx : KeysIn (sides buildIsLeft lhs rhs) buildIdx probeIdx)
    (hout : hostInnerJoin lhs rhs buildIsLeft buildIdx probeIdx schema = .ok out)
    (hnil : joinRows lhs.columns.length rhs.columns.length .inner
      (keyMatch buildIsLeft buildIdx probeIdx) lhs.rows rhs.rows = []) :
  HasEmptyArrays schema
  := by
  obtain ⟨map, hmap, hout⟩ := bind_eq_ok.mp hout
  split at hout
  · exact h.emptyOutput_ok_iff.mp ⟨out, hout⟩
  · obtain ⟨pairs, hpairs, hout⟩ := bind_eq_ok.mp hout
    have hperm := innerPairs_perm (probeInner_eq hidx hmap hpairs)
    exact (h.pairOutput_ok_iff hperm).mp ⟨out, hout⟩ (hperm.eq_nil_iff.mpr hnil)

/-- The host part of an inner join returns exactly when the keys of its build side can be read and,
where no rows have the same key, there is an empty array of every type. -/
theorem OutputFits.hostInnerJoin_ok_iff (h : OutputFits lhs rhs .inner schema)
    (hleft : lhs.numRows ≤ 2 ^ 32) (hright : rhs.numRows ≤ 2 ^ 32)
    (hidx : KeysIn (sides buildIsLeft lhs rhs) buildIdx probeIdx)
    (htypes : SameTypes (sides buildIsLeft lhs rhs).1 (sides buildIsLeft lhs rhs).2 buildIdx
      probeIdx) :
  (∃ out, hostInnerJoin lhs rhs buildIsLeft buildIdx probeIdx schema = .ok out) ↔
    Reads (sides buildIsLeft lhs rhs).1 buildIdx ∧
      (joinRows lhs.columns.length rhs.columns.length .inner
        (keyMatch buildIsLeft buildIdx probeIdx) lhs.rows rhs.rows = [] → HasEmptyArrays schema)
  := by
  obtain ⟨hbuildRows, hprobeRows⟩ := sides_numRows hleft hright buildIsLeft
  by_cases hreads : Reads (sides buildIsLeft lhs rhs).1 buildIdx
  · rw [and_iff_right hreads]
    obtain ⟨map, hmap⟩ := buildRows_ok (fun row hrow => hreads row (mem_range.mp hrow))
      hbuildRows []
    have hjoin : hostInnerJoin lhs rhs buildIsLeft buildIdx probeIdx schema =
        if map.isEmpty then emptyOutput schema
        else probeInner map (sides buildIsLeft lhs rhs).2 probeIdx
          (range (sides buildIsLeft lhs rhs).2.numRows) >>= fun pairs =>
            pairOutput lhs rhs buildIsLeft pairs schema := by
      rw [hostInnerJoin, buildHashMap, hmap]
      rfl
    rw [hjoin]
    cases map with
    | nil =>
      have hnone : ([] : List Pair) = (range (sides buildIsLeft lhs rhs).2.numRows).flatMap
          (fun p => (partners (sides buildIsLeft lhs rhs).1 (sides buildIsLeft lhs rhs).2 buildIdx
            probeIdx p).map (fun b => (some b, some p))) := by
        simp [partners_eq_nil hidx.build hmap]
      rw [if_pos isEmpty_nil, h.emptyOutput_ok_iff, ← (innerPairs_perm hnone).eq_nil_iff]
      exact ⟨fun hempty _ => hempty, fun hempty => hempty rfl⟩
    | cons entry map =>
      obtain ⟨row, key, hkey⟩ := exists_key_of_buildRows hmap (cons_ne_nil entry map)
      have hprobe : Reads (sides buildIsLeft lhs rhs).2 probeIdx := reads_probe hidx htypes hkey
      obtain ⟨pairs, hpairs⟩ := probeInner_ok (fun row hrow => hprobe row (mem_range.mp hrow))
        hprobeRows (entry :: map)
      have hperm := innerPairs_perm (probeInner_eq hidx hmap hpairs)
      rw [if_neg (by simp), ← hperm.eq_nil_iff, ← h.pairOutput_ok_iff hperm, hpairs]
      exact Iff.rfl
  · apply iff_of_false
    · rintro ⟨out, hout⟩
      obtain ⟨map, hmap, -⟩ := bind_eq_ok.mp hout
      exact hreads (fun row hrow => buildRows_read hmap row (mem_range.mpr hrow))
    · exact fun hboth => hreads hboth.1

theorem probeOuter_ne_nil {map : KeyMap} {marks marks' : List Bool}
    (hjoin : preserveProbe joinType = true) (hidx : KeysIn (build, probe) buildIdx probeIdx)
    (hmap : buildHashMap build buildIdx = .ok map) (hrows : probe.numRows ≠ 0)
    (h : probeOuter map probe probeIdx joinType (range probe.numRows) marks = .ok (pairs, marks')) :
  pairs ≠ []
  := by
  rw [(probeOuter_eq hidx hmap h).1, Ne, flatMap_eq_nil_iff]
  intro hnil
  have hfirst := hnil 0 (mem_range.mpr (Nat.pos_of_ne_zero hrows))
  rw [hjoin, if_pos rfl] at hfirst
  split at hfirst
  · cases hfirst
  · rename_i hne
    rw [map_eq_nil_iff] at hfirst
    exact hne (List.isEmpty_iff.mpr hfirst)

/-- The host part of an outer join of a probe side with rows returns exactly when the keys of both
sides can be read. -/
theorem OutputFits.hostOuterJoin_ok_iff (h : OutputFits lhs rhs joinType schema)
    (hleft : lhs.numRows ≤ 2 ^ 32) (hright : rhs.numRows ≤ 2 ^ 32)
    (hjoin : preserveProbe joinType = true) (hside : buildIsLeft = decide (joinType = .rightOuter))
    (hidx : KeysIn (sides buildIsLeft lhs rhs) buildIdx probeIdx)
    (hrows : (sides buildIsLeft lhs rhs).2.numRows ≠ 0) :
  (∃ out, hostOuterJoin lhs rhs joinType buildIsLeft buildIdx probeIdx schema = .ok out) ↔
    Reads (sides buildIsLeft lhs rhs).1 buildIdx ∧ Reads (sides buildIsLeft lhs rhs).2 probeIdx
  := by
  obtain ⟨hbuildRows, hprobeRows⟩ := sides_numRows hleft hright buildIsLeft
  constructor
  · rintro ⟨out, hout⟩
    obtain ⟨map, hmap, hout⟩ := bind_eq_ok.mp hout
    obtain ⟨⟨first, marks⟩, hfirst, -⟩ := bind_eq_ok.mp hout
    exact ⟨fun row hrow => buildRows_read hmap row (mem_range.mpr hrow),
      fun row hrow => probeOuter_read hfirst row (mem_range.mpr hrow)⟩
  · rintro ⟨hbuild, hprobe⟩
    obtain ⟨map, hmap⟩ := buildRows_ok (fun row hrow => hbuild row (mem_range.mp hrow))
      hbuildRows []
    obtain ⟨first, marks, hfirst⟩ := probeOuter_ok
      (fun row hrow => hprobe row (mem_range.mp hrow)) hprobeRows map joinType
      (unmarked joinType (sides buildIsLeft lhs rhs).1.numRows)
    have hlen : marks.length ≤ 2 ^ 32 := by
      have hn : (sides buildIsLeft lhs rhs).1.numRows ≤ 2 ^ 32 := by
        cases buildIsLeft with
        | true => exact hleft
        | false => exact hright
      rw [(probeOuter_eq hidx hmap hfirst).2.1, unmarked]
      split
      · rwa [length_replicate]
      · exact Nat.zero_le _
    have hsecond : ∃ second, secondPass joinType marks = .ok second := by
      unfold secondPass
      split
      · exact unmatchedBuild_ok 0 (by omega)
      · exact ⟨[], rfl⟩
    obtain ⟨second, hsecond⟩ := hsecond
    have hne := probeOuter_ne_nil hjoin hidx hmap hrows hfirst
    obtain ⟨out, hout⟩ := (h.pairOutput_ok_iff
      (outerPairs_perm hjoin hside hidx hmap hfirst hsecond)).mpr
      (fun hnil => absurd (append_eq_nil_iff.mp hnil).1 hne)
    exact ⟨out, bind_eq_ok.mpr ⟨map, hmap, bind_eq_ok.mpr ⟨(first, marks), hfirst,
      bind_eq_ok.mpr ⟨second, hsecond, hout⟩⟩⟩⟩

end Host

end CratonBolt.Joins
