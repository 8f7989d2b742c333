import CratonBolt.Joins.DeviceStrings
import CratonBolt.Joins.Returns

/-!
# The rows the device answers with

The rows of an answer of the device, from the pairs it found, against those of the host hash join
on the same batches. They differ where keys differ in the bits of their NaNs alone, and where an
inner join by strings keeps one build row of several.
-/

namespace CratonBolt.Joins

open List Option
open Batch (getD_row length_column)

variable {leftIdx rightIdx : List Nat} {pairs : List RowPair} {build probe : Batch}
variable {indices : List Nat}

/-! ### Keys of rows with one NaN -/

/-- The key of a row with one NaN of each width. -/
def canonKey (indices : List Nat) (r : Row) : Option (List JoinKeyValue) :=
  (rowKey indices r).map (map nanKey)

/-- Two rows have the same key up to the NaNs. -/
def canonMatch (leftIdx rightIdx : List Nat) (l r : Row) : Bool :=
  decide (canonKey leftIdx l = canonKey rightIdx r)

/-- A row of each side with different keys that are equal up to their NaNs. -/
def SplitNan (leftIdx rightIdx : List Nat) (ls rs : List Row) : Prop :=
  ∃ l ∈ ls, ∃ r ∈ rs, ∃ k k', rowKey leftIdx l = some k ∧ rowKey rightIdx r = some k' ∧
    k ≠ k' ∧ k.map nanKey = k'.map nanKey

variable {b : Batch} {r : Row}

theorem canonKey_row (h : KeyColumns b indices) (row : Nat) :
  canonKey indices (b.row row) = canonCellsKey (cellsAt (keyColumnsOf b indices) row)
  := by
  have hcells : indices.map (fun i => (b.row row).getD i .null) =
      cellsAt (keyColumnsOf b indices) row := by
    rw [cellsAt, keyColumnsOf, List.map_map]
    apply map_congr_left
    intro i hi
    exact getD_row (h i hi).1 row
  rw [canonKey, rowKey_eq, hcells, canonCellsKey]

/-- The two tests agree exactly when no keys differ in the bits of their NaNs alone. -/
theorem canonMatch_agree_iff {ls rs : List Row} (hl : ∀ l ∈ ls, ∃ k, rowKey leftIdx l = some k)
    (hr : ∀ r ∈ rs, ∃ k, rowKey rightIdx r = some k) :
  (∀ l ∈ ls, ∀ r ∈ rs, canonMatch leftIdx rightIdx l r = hashMatch leftIdx rightIdx l r) ↔
    ¬ SplitNan leftIdx rightIdx ls rs
  := by
  constructor
  · rintro hagree ⟨l, hlm, r, hrm, k, k', hk, hk', hne, heq⟩
    have h := hagree l hlm r hrm
    rw [canonMatch, canonKey, canonKey, hk, hk', map_some, map_some, heq,
      decide_eq_true rfl] at h
    obtain ⟨k₁, hk₁, hk₂⟩ := hashMatch_iff.mp h.symm
    rw [hk, some.injEq] at hk₁
    rw [hk', some.injEq] at hk₂
    exact hne (hk₁.trans hk₂.symm)
  · intro hno l hlm r hrm
    obtain ⟨k, hk⟩ := hl l hlm
    obtain ⟨k', hk'⟩ := hr r hrm
    rw [Bool.eq_iff_iff, hashMatch_iff, canonMatch, decide_eq_true_eq, canonKey, canonKey, hk, hk']
    simp only [map_some, some.injEq]
    constructor
    · intro heq
      refine ⟨k, rfl, ?_⟩
      by_contra hne
      exact hno ⟨l, hlm, r, hrm, k, k', hk, hk', fun h => hne h.symm, heq⟩
    · rintro ⟨_, rfl, rfl⟩
      rfl

theorem hashMatch_imp_canonMatch {l r : Row} (h : hashMatch leftIdx rightIdx l r = true) :
  canonMatch leftIdx rightIdx l r = true
  := by
  obtain ⟨k, hl, hr⟩ := hashMatch_iff.mp h
  rw [canonMatch, canonKey, canonKey, hl, hr]
  exact decide_eq_true rfl

/-! ### Pairs of the device as pairs of the join -/

section Oriented

variable {lhs rhs : Batch} {buildIsLeft : Bool} {buildIdx probeIdx : List Nat}

/-- The key columns of the left and the right side. -/
def deviceMatch (buildIsLeft : Bool) (buildIdx probeIdx : List Nat) : Row → Row → Bool :=
  canonMatch (sides buildIsLeft buildIdx probeIdx).1 (sides buildIsLeft buildIdx probeIdx).2

theorem sameCells_eq (hidx : KeysIn (sides buildIsLeft lhs rhs) buildIdx probeIdx) (p b : Nat) :
  sameCells (keyColumnsOf (sides buildIsLeft lhs rhs).1 buildIdx)
      (keyColumnsOf (sides buildIsLeft lhs rhs).2 probeIdx) b p =
    deviceMatch buildIsLeft buildIdx probeIdx (lhs.row (sides buildIsLeft b p).1)
      (rhs.row (sides buildIsLeft b p).2)
  := by
  rw [sameCells, ← canonKey_row hidx.build, ← canonKey_row hidx.probe, deviceMatch, canonMatch,
    decide_eq_decide]
  cases buildIsLeft with
  | true => rfl
  | false => exact eq_comm

theorem innerDevice_pairs (hidx : KeysIn (sides buildIsLeft lhs rhs) buildIdx probeIdx)
    (h : pairs.Perm (samePairs (keyColumnsOf (sides buildIsLeft lhs rhs).1 buildIdx)
      (keyColumnsOf (sides buildIsLeft lhs rhs).2 probeIdx) (sides buildIsLeft lhs rhs).1.numRows
      (sides buildIsLeft lhs rhs).2.numRows)) :
  JoinPairs lhs rhs .inner (deviceMatch buildIsLeft buildIdx probeIdx)
    ((pairs.map bothSides).map (orient buildIsLeft))
  := by
  apply oriented_perm false false _ (sameCells_eq hidx)
  · cases buildIsLeft <;> rfl
  · cases buildIsLeft <;> rfl
  · apply Perm.trans _ (ListJoin.outerJoin_parts _ _ _ _ _).symm
    rw [ListJoin.keptLeft, ListJoin.keptRight, if_neg Bool.false_ne_true,
      if_neg Bool.false_ne_true, append_nil, append_nil]
    exact swapped_perm h

end Oriented

/-! ### The answers of the device -/

theorem sameDtypes_forall₂ {buildIdx probeIdx : List Nat} (hlen : buildIdx.length = probeIdx.length)
    (h : sameDtypes build probe buildIdx probeIdx = true) :
  Forall₂ (fun b p => b.dtype = p.dtype) (keyColumnsOf build buildIdx)
    (keyColumnsOf probe probeIdx)
  := by
  rw [keyColumnsOf, keyColumnsOf, forall₂_map_left_iff, forall₂_map_right_iff,
    forall₂_iff_zip]
  refine ⟨hlen, ?_⟩
  intro b p hbp
  exact of_decide_eq_true (all_eq_true.mp h (b, p) hbp)

/-- What the first gates let through. -/
structure Gated (build probe : Batch) (buildIdx probeIdx : List Nat) : Prop where
  length : buildIdx.length = probeIdx.length
  nonempty : buildIdx ≠ []
  probeRows : probe.numRows ≠ 0
  buildNulls : ∀ b ∈ buildIdx, (build.column b).hasNulls = false
  probeNulls : ∀ p ∈ probeIdx, (probe.column p).hasNulls = false

theorem gated_of_passesGates {buildIdx probeIdx : List Nat}
    (h : passesGates build probe buildIdx probeIdx = true) :
  Gated build probe buildIdx probeIdx
  := by
  simp only [passesGates, Bool.and_eq_true, decide_eq_true_eq, Bool.not_eq_true',
    List.all_eq_true, isEmpty_eq_false_iff] at h
  obtain ⟨⟨⟨⟨⟨hlen, hne⟩, -⟩, hrows⟩, hbuild⟩, hprobe⟩ := h
  unfold gpuJoinMinRows at hrows
  exact ⟨hlen, hne, by omega, hbuild, hprobe⟩

/-- An array of integers. -/
def isIntType (t : ArrowType) : Prop := t = .plain .int32 ∨ t = .plain .int64

/-- What an answer tells of the sides: they passed the gates, and their key columns are of the same
types, which may be keys; several of them are integers. -/
structure Answerable (build probe : Batch) (buildIdx probeIdx : List Nat) : Prop where
  gates : passesGates build probe buildIdx probeIdx = true
  same : SameTypes build probe buildIdx probeIdx
  types : ∀ i ∈ buildIdx, isKeyType (build.column i).dtype = true
  ints : buildIdx.length ≠ 1 → ∀ i ∈ buildIdx, isIntType (build.column i).dtype

theorem Answerable.probeTypes {buildIdx probeIdx : List Nat}
    (h : Answerable build probe buildIdx probeIdx) :
  ∀ i ∈ probeIdx, isKeyType (probe.column i).dtype = true
  := by
  intro p hp
  obtain ⟨b, hb, hbp⟩ := exists_of_forall₂ h.same.symm hp
  rw [hbp]
  exact h.types b hb

theorem sameTypes_iff {buildIdx probeIdx : List Nat} :
  SameTypes build probe buildIdx probeIdx ↔
    Forall₂ (fun b p => b.dtype = p.dtype) (keyColumnsOf build buildIdx)
      (keyColumnsOf probe probeIdx)
  := by
  rw [keyColumnsOf, keyColumnsOf, forall₂_map_left_iff, forall₂_map_right_iff]
  rfl

/-- The types of the columns of a key of some shape. -/
theorem types_of_shape {buildIdx : List Nat} {shape : KeyShape}
    (h : gpuKeyShapeFor build buildIdx = some shape) :
  (∀ i ∈ buildIdx, isKeyType (build.column i).dtype = true) ∧
    (buildIdx.length ≠ 1 → ∀ i ∈ buildIdx, isIntType (build.column i).dtype)
  := by
  have hall : ∀ t ∈ buildIdx.map (fun i => (build.column i).dtype), isKeyType t = true ∧
      ((buildIdx.map (fun i => (build.column i).dtype)).length ≠ 1 → isIntType t) := by
    unfold gpuKeyShapeFor at h
    generalize buildIdx.map (fun i => (build.column i).dtype) = dtypes at h
    split at h
    case h_9 =>
      split at h
      · rename_i hint
        intro t ht
        rw [of_decide_eq_true (all_eq_true.mp hint.2.2 t ht)]
        exact ⟨rfl, fun _ => .inl rfl⟩
      · cases h
    all_goals simp [isKeyType, isIntType]
  rw [length_map] at hall
  exact ⟨fun i hi => (hall _ (mem_map_of_mem hi)).1,
    fun hlen i hi => (hall _ (mem_map_of_mem hi)).2 hlen⟩

/-- The key columns are strings. -/
def StringKeys (build : Batch) (buildIdx : List Nat) : Prop :=
  ∃ b, buildIdx = [b] ∧ (build.column b).dtype = .plain .utf8

section Inner

variable {kernels : Kernels} {streaming : Bool} {lhs rhs : Batch} {buildIsLeft : Bool}
  {buildIdx probeIdx : List Nat} {schema : Schema} {out : Batch}

theorem gpuKeyShapeFor_utf8 {build : Batch} (h : gpuKeyShapeFor build buildIdx = some .singleUtf8) :
  StringKeys build buildIdx
  := by
  unfold gpuKeyShapeFor at h
  split at h <;> try (cases h; done)
  · rename_i hmap
    obtain ⟨b, rfl, hb⟩ := map_eq_singleton_iff.mp hmap
    exact ⟨b, rfl, hb⟩
  · split at h <;> cases h

theorem orElse_eq_some {α : Type} {x y : Option α} {a : α} (h : (x <|> y) = some a) :
  x = some a ∨ y = some a
  := by
  cases x with
  | none => exact .inr h
  | some b => exact .inl h

theorem not_stringKeys_of_int {build : Batch} {b : Nat} {dtype : DataType}
    (hd : (build.column b).dtype = .plain dtype) (hint : dtype = .int32 ∨ dtype = .int64) :
  ¬ StringKeys build [b]
  := by
  rintro ⟨b', hb', hutf8⟩
  rw [singleton_inj] at hb'
  subst hb'
  rw [hd, ArrowType.plain.injEq] at hutf8
  subst hutf8
  obtain h | h := hint <;> cases h

theorem gpuKeyShapeFor_of_stringKeys {build : Batch} (h : StringKeys build buildIdx) :
  gpuKeyShapeFor build buildIdx = some .singleUtf8
  := by
  obtain ⟨b, rfl, hb⟩ := h
  rw [gpuKeyShapeFor, map_singleton, hb]

theorem not_stringKeys_of_unique {kernel : List Int64 → List Int64 → Option (List RowPair)}
    {pairs : List RowPair} (h : uniqueIntJoin kernel build probe buildIdx probeIdx = some pairs) :
  ¬ StringKeys build buildIdx
  := by
  obtain ⟨b, p, dtype, rfl, -, hdtype, hint, -, -⟩ := uniqueIntJoin_eq_some h
  exact not_stringKeys_of_int hdtype hint

/-- A join by one integer key has it on both sides, since the keys of the probe side are encoded
by the type of the build side. -/
theorem sameTypes_of_unique {kernel : List Int64 → List Int64 → Option (List RowPair)}
    {pairs : List RowPair} (hidx : KeysIn (build, probe) buildIdx probeIdx)
    (hrows : probe.numRows ≠ 0)
    (h : uniqueIntJoin kernel build probe buildIdx probeIdx = some pairs) :
  SameTypes build probe buildIdx probeIdx ∧
    (∀ i ∈ buildIdx, isKeyType (build.column i).dtype = true) ∧ buildIdx.length = 1
  := by
  obtain ⟨b, p, dtype, rfl, rfl, hdtype, hint, -, h⟩ := uniqueIntJoin_eq_some h
  obtain ⟨⟨⟩, -, h⟩ := bind_eq_some_iff.mp h
  obtain ⟨buildKeys, -, h⟩ := bind_eq_some_iff.mp h
  obtain ⟨probeKeys, hkeys, -⟩ := bind_eq_some_iff.mp h
  clear h
  obtain ⟨hp, hflat⟩ := hidx.probe p mem_cons_self
  have hcell : ∃ e, encodeI64 dtype ((probe.column p).cell 0) = some e := by
    have hlen : 0 < (probe.column p).cells.length := by
      have hcol : (probe.column p).length = probe.numRows := length_column hp
      rw [Column.length] at hcol
      omega
    obtain ⟨e, -, he⟩ := exists_of_forall₂ (Outcome.mapM_eq_some_iff.mp hkeys) (getElem_mem hlen)
    refine ⟨e, ?_⟩
    rw [Column.cell, getD_eq_getElem _ _ hlen]
    exact he
  obtain ⟨e, he⟩ := hcell
  have htyped := (probe.column p).typed_cell 0
  have hprobe : (probe.column p).dtype = .plain dtype := by
    cases hc : probe.column p with
    | dictionary key values codes =>
      rw [hc] at hflat
      cases hflat
    | flat arr =>
      rw [hc] at he htyped
      obtain ⟨n, rfl, hv, -⟩ | ⟨rfl, hv⟩ := encodeI64_eq_some he <;> rw [hv] at htyped <;>
        simpa [Column.dtype, ArrowType.valueType, Literal.dtype, eq_comm] using htyped
  refine ⟨.cons (hdtype.trans hprobe.symm) .nil, ?_, rfl⟩
  intro i hi
  rw [mem_singleton] at hi
  subst hi
  rw [hdtype]
  obtain rfl | rfl := hint <;> rfl

/-- The pairs the device finds for keys that are no strings. -/
def FoundPairs (build probe : Batch) (buildIdx probeIdx : List Nat) (pairs : List RowPair) : Prop :=
  pairs.Perm (samePairs (keyColumnsOf build buildIdx) (keyColumnsOf probe probeIdx) build.numRows
    probe.numRows) ∧ build.numRows < 2 ^ 32 ∧ probe.numRows < 2 ^ 32

/-- The rows of an answer, and where its pairs come from. -/
theorem tryGpuInnerJoin_answer (hk : kernels.Contract)
    (hidx : KeysIn (sides buildIsLeft lhs rhs) buildIdx probeIdx)
    (h : tryGpuInnerJoin kernels streaming lhs rhs buildIsLeft buildIdx probeIdx schema =
      some out) :
  Answerable (sides buildIsLeft lhs rhs).1 (sides buildIsLeft lhs rhs).2 buildIdx probeIdx ∧
  ∃ pairs, deviceOutput lhs rhs buildIsLeft (pairs.map bothSides) schema = some out ∧
    (¬ StringKeys (sides buildIsLeft lhs rhs).1 buildIdx ∧
        FoundPairs (sides buildIsLeft lhs rhs).1 (sides buildIsLeft lhs rhs).2 buildIdx probeIdx
          pairs ∨
      StringKeys (sides buildIsLeft lhs rhs).1 buildIdx ∧
        utf8Join kernels streaming (sides buildIsLeft lhs rhs).1 (sides buildIsLeft lhs rhs).2
          buildIdx probeIdx = some pairs)
  := by
  unfold tryGpuInnerJoin at h
  dsimp only at h
  split at h
  · rename_i hgates
    have hgated := gated_of_passesGates hgates
    obtain h | h := orElse_eq_some h
    · obtain ⟨pairs, hpairs, hout⟩ := bind_eq_some_iff.mp h
      obtain ⟨hsame, htypes, hone⟩ := sameTypes_of_unique hidx hgated.probeRows hpairs
      exact ⟨⟨hgates, hsame, htypes, fun hlen => absurd hone hlen⟩, pairs, hout,
        .inl ⟨not_stringKeys_of_unique hpairs, uniqueIntJoin_perm hk.unique hidx hpairs⟩⟩
    · unfold laterStages at h
      dsimp only at h
      split at h
      · cases h
      · rename_i shape hshape
        split at h
        · cases h
        · rename_i hdtypes
          rw [Bool.not_eq_false] at hdtypes
          have hsame := sameDtypes_forall₂ hgated.length hdtypes
          obtain ⟨htypes, hints⟩ := types_of_shape hshape
          refine ⟨⟨hgates, sameTypes_iff.mpr hsame, htypes, hints⟩, ?_⟩
          split at h
          · rename_i hutf8
            subst hutf8
            obtain ⟨pairs, hpairs, hout⟩ := bind_eq_some_iff.mp h
            exact ⟨pairs, hout, .inr ⟨gpuKeyShapeFor_utf8 hshape, hpairs⟩⟩
          · rename_i hutf8
            obtain h | h := orElse_eq_some h
            · split at h
              · obtain ⟨pairs, hpairs, hout⟩ := bind_eq_some_iff.mp h
                exact ⟨pairs, hout, .inl ⟨not_stringKeys_of_unique hpairs,
                  uniqueIntJoin_perm hk.uniqueAos hidx hpairs⟩⟩
              · cases h
            · obtain ⟨pairs, hpairs, hout⟩ := bind_eq_some_iff.mp h
              refine ⟨pairs, hout, .inl ⟨?_, hashJoinIndicesWithShape_perm hk hsame hpairs⟩⟩
              intro hstring
              rw [gpuKeyShapeFor_of_stringKeys hstring, some.injEq] at hshape
              exact hutf8 hshape.symm
  · cases h

end Inner

/-! ### The rows of both joins -/

section Compare

variable {lhs rhs : Batch} {buildIsLeft : Bool} {buildIdx probeIdx : List Nat} {schema : Schema}
  {out : Batch} {joinType : JoinType}

theorem deviceOutput_rows {pairs : List Pair}
    (h : deviceOutput lhs rhs buildIsLeft pairs schema = some out) :
  out.rows = (pairs.map (orient buildIsLeft)).map (joinedAt lhs rhs)
  := materialise_rows (Outcome.toOption_eq_some.mp h)

/-- A side of a join whose rows all have keys. -/
structure Keyed (b : Batch) (indices : List Nat) : Prop where
  nonempty : indices ≠ []
  columns : KeyColumns b indices
  nulls : ∀ i ∈ indices, (b.column i).hasNulls = false
  types : ∀ i ∈ indices, isKeyType (b.column i).dtype = true

theorem Keyed.cell (h : Keyed b indices) {i : Nat} (hi : i ∈ indices) (hr : r ∈ b.rows) :
  r.getD i .null ≠ .null
  := by
  obtain ⟨row, hrow, rfl⟩ := mem_map.mp hr
  obtain ⟨hlt, hflat⟩ := h.columns i hi
  rw [getD_row hlt]
  apply cell_ne_null hflat (h.nulls i hi)
  rw [length_column hlt]
  exact mem_range.mp hrow

theorem Keyed.rowKey (h : Keyed b indices) (hr : r ∈ b.rows) :
  ∃ k, rowKey indices r = some k
  := by
  obtain ⟨row, hrow, rfl⟩ := mem_map.mp hr
  obtain ⟨o, ho⟩ := extractKey_ok h.types row
  obtain ⟨hkey, hnull⟩ := extractKey_spec h.columns ho
  cases o with
  | none =>
    obtain ⟨i, hi, hcell⟩ := hnull rfl
    exact absurd hcell (h.cell hi hr)
  | some key => exact ⟨_, hkey.symm⟩

theorem isNull_eq_false {v : Value} (h : v ≠ .null) :
  v.isNull = false
  := by
  cases v <;> first | rfl | exact absurd rfl h

/-- The left and the right side of a join that is answered have keys. -/
theorem Answerable.keyed
    (h : Answerable (sides buildIsLeft lhs rhs).1 (sides buildIsLeft lhs rhs).2 buildIdx probeIdx)
    (hidx : KeysIn (sides buildIsLeft lhs rhs) buildIdx probeIdx) :
  Keyed lhs (sides buildIsLeft buildIdx probeIdx).1 ∧
    Keyed rhs (sides buildIsLeft buildIdx probeIdx).2
  := by
  have hgated := gated_of_passesGates h.gates
  have hprobeNonempty : probeIdx ≠ [] := by
    rintro rfl
    exact hgated.nonempty (length_eq_zero_iff.mp hgated.length)
  have hbuild : Keyed (sides buildIsLeft lhs rhs).1 buildIdx :=
    ⟨hgated.nonempty, hidx.build, hgated.buildNulls, h.types⟩
  have hprobe : Keyed (sides buildIsLeft lhs rhs).2 probeIdx :=
    ⟨hprobeNonempty, hidx.probe, hgated.probeNulls, h.probeTypes⟩
  cases buildIsLeft with
  | true => exact ⟨hbuild, hprobe⟩
  | false => exact ⟨hprobe, hbuild⟩

/-- The join of the device is that of the host exactly when no keys differ in NaNs alone. -/
theorem deviceRows_perm_iff (hleft : Keyed lhs (sides buildIsLeft buildIdx probeIdx).1)
    (hright : Keyed rhs (sides buildIsLeft buildIdx probeIdx).2) (joinType : JoinType) :
  (joinRows lhs.columns.length rhs.columns.length joinType
      (deviceMatch buildIsLeft buildIdx probeIdx) lhs.rows rhs.rows).Perm
    (joinRows lhs.columns.length rhs.columns.length joinType
      (keyMatch buildIsLeft buildIdx probeIdx) lhs.rows rhs.rows) ↔
    ¬ SplitNan (sides buildIsLeft buildIdx probeIdx).1 (sides buildIsLeft buildIdx probeIdx).2
      lhs.rows rhs.rows
  := by
  obtain ⟨i, hi⟩ := exists_mem_of_ne_nil _ hleft.nonempty
  obtain ⟨j, hj⟩ := exists_mem_of_ne_nil _ hright.nonempty
  have himp : ∀ l ∈ lhs.rows, ∀ r ∈ rhs.rows, keyMatch buildIsLeft buildIdx probeIdx l r = true →
      deviceMatch buildIsLeft buildIdx probeIdx l r = true :=
    fun l hl r hr hlr => hashMatch_imp_canonMatch hlr
  rw [joinRows_perm_iff_agree (hleft.columns i hi).1 himp
    (fun l hl r hr _ => ⟨isNull_eq_false (hleft.cell hi hl), isNull_eq_false (hright.cell hj hr)⟩)]
  exact canonMatch_agree_iff (fun l hl => hleft.rowKey hl) (fun r hr => hright.rowKey hr)

/-! ### Inner joins -/

variable {kernels : Kernels} {streaming : Bool}

/-- The key of a row with one string. -/
theorem rowKey_of_text {b : Batch} {i : Nat} (hi : i < b.columns.length)
    (htext : IsText (b.column i)) {r : Row} (hr : r ∈ b.rows) :
  ∃ s, rowKey [i] r = some [.utf8 s]
  := by
  obtain ⟨row, hrow, rfl⟩ := mem_map.mp hr
  obtain ⟨s, hs⟩ := htext row (by
    rw [length_column hi]
    exact mem_range.mp hrow)
  refine ⟨s, ?_⟩
  rw [rowKey_eq, map_singleton, getD_row hi, hs]
  rfl

/-- Keys of strings differ in no NaN. -/
theorem not_splitNan_of_text {i j : Nat} (hi : i < lhs.columns.length) (hj : j < rhs.columns.length)
    (hltext : IsText (lhs.column i)) (hrtext : IsText (rhs.column j)) :
  ¬ SplitNan [i] [j] lhs.rows rhs.rows
  := by
  rintro ⟨l, hl, r, hr, k, k', hk, hk', hne, heq⟩
  obtain ⟨s, hs⟩ := rowKey_of_text hi hltext hl
  obtain ⟨t, ht⟩ := rowKey_of_text hj hrtext hr
  rw [hk, some.injEq] at hs
  rw [hk', some.injEq] at ht
  subst hs ht
  exact hne heq

/-- The string keys of a join that is answered. -/
theorem Answerable.text {buildIdx probeIdx : List Nat}
    (h : Answerable build probe buildIdx probeIdx) (hstring : StringKeys build buildIdx) :
  ∃ b p, buildIdx = [b] ∧ probeIdx = [p] ∧ (build.column b).dtype = .plain .utf8 ∧
    (build.column b).dtype = (probe.column p).dtype ∧ IsText (build.column b) ∧
    IsText (probe.column p)
  := by
  have hgated := gated_of_passesGates h.gates
  obtain ⟨b, rfl, hb⟩ := hstring
  obtain ⟨p, rest, hbp, hrest, rfl⟩ := forall₂_cons_left_iff.mp h.same
  obtain rfl := forall₂_nil_left_iff.mp hrest
  exact ⟨b, p, rfl, rfl, hb, hbp,
    isText_of_noNulls hb (hgated.buildNulls b mem_cons_self),
    isText_of_noNulls (hbp ▸ hb) (hgated.probeNulls p mem_cons_self)⟩

/-- Each probe row with a partner has no other build row of its number. -/
def SoleBuildRows (streaming : Bool) (build probe : Batch) (buildIdx probeIdx : List Nat) : Prop :=
  ∀ b p, buildIdx = [b] → probeIdx = [p] → (build.column b).dtype = .plain .utf8 →
    SoleBuildRow streaming (build.column b) (probe.column p)

/-- The rows of an answer whose pairs are those of equal keys. -/
theorem answer_perm (hidx : KeysIn (sides buildIsLeft lhs rhs) buildIdx probeIdx)
    (hpairs : pairs.Perm (samePairs (keyColumnsOf (sides buildIsLeft lhs rhs).1 buildIdx)
      (keyColumnsOf (sides buildIsLeft lhs rhs).2 probeIdx) (sides buildIsLeft lhs rhs).1.numRows
      (sides buildIsLeft lhs rhs).2.numRows))
    (hout : deviceOutput lhs rhs buildIsLeft (pairs.map bothSides) schema = some out) :
  out.rows.Perm (joinRows lhs.columns.length rhs.columns.length .inner
    (deviceMatch buildIsLeft buildIdx probeIdx) lhs.rows rhs.rows)
  := by
  rw [deviceOutput_rows hout]
  exact (innerDevice_pairs hidx hpairs).rows

theorem sides_numRows_left (hbuild : (sides buildIsLeft lhs rhs).1.numRows < 2 ^ 32)
    (hprobe : (sides buildIsLeft lhs rhs).2.numRows < 2 ^ 32) :
  lhs.numRows ≤ 2 ^ 32 ∧ rhs.numRows ≤ 2 ^ 32
  := by
  cases buildIsLeft with
  | true => exact ⟨hbuild.le, hprobe.le⟩
  | false => exact ⟨hprobe.le, hbuild.le⟩

/-- An answer has the rows of the host join where no keys differ in NaNs alone and each build row
with a partner is the only one of its number. -/
theorem innerAnswer_perm (hk : kernels.Contract) (hfits : OutputFits lhs rhs .inner schema)
    (hidx : KeysIn (sides buildIsLeft lhs rhs) buildIdx probeIdx)
    (h : tryGpuInnerJoin kernels streaming lhs rhs buildIsLeft buildIdx probeIdx schema = some out)
    (hnan : ¬ SplitNan (sides buildIsLeft buildIdx probeIdx).1
      (sides buildIsLeft buildIdx probeIdx).2 lhs.rows rhs.rows)
    (hsole : SoleBuildRows streaming (sides buildIsLeft lhs rhs).1 (sides buildIsLeft lhs rhs).2
      buildIdx probeIdx)
    (hempty : joinRows lhs.columns.length rhs.columns.length .inner
      (keyMatch buildIsLeft buildIdx probeIdx) lhs.rows rhs.rows = [] → HasEmptyArrays schema) :
  ∃ host, hostInnerJoin lhs rhs buildIsLeft buildIdx probeIdx schema = .ok host ∧
    out.rows.Perm host.rows
  := by
  obtain ⟨hanswer, pairs, hout, hroute⟩ := tryGpuInnerJoin_answer hk hidx h
  obtain ⟨hleft, hright⟩ := hanswer.keyed hidx
  have hfound : FoundPairs (sides buildIsLeft lhs rhs).1 (sides buildIsLeft lhs rhs).2 buildIdx
      probeIdx pairs := by
    obtain ⟨-, hfound⟩ | ⟨hstring, hutf8⟩ := hroute
    · exact hfound
    · obtain ⟨b, p, rfl, rfl, hb, hd, hbtext, hptext⟩ := hanswer.text hstring
      have hbl := length_column (hidx.build b mem_cons_self).1
      have hpl := length_column (hidx.probe p mem_cons_self).1
      obtain ⟨interned, hinterned, hfit⟩ := utf8Pairs_eq_some hutf8 hbtext hptext
      rw [utf8Join, utf8Pairs_eq hk hd hb hbtext hptext hinterned hfit] at hutf8
      obtain ⟨chosen, hchosen, rfl⟩ := map_eq_some_iff.mp hutf8
      have hperm := (chosen_of_pairsOnce hinterned hbtext hptext (hk.unique hchosen)).perm_of_sole
        hbtext hptext (hsole b p rfl rfl hb)
      rw [hbl, hpl] at hperm
      rw [hbl, hpl] at hfit
      exact ⟨hperm, rowsFitU32_eq_some hfit⟩
  obtain ⟨hl, hr⟩ := sides_numRows_left hfound.2.1 hfound.2.2
  obtain ⟨host, hhost⟩ := (hfits.hostInnerJoin_ok_iff hl hr hidx hanswer.same).mpr
    ⟨reads_of_keyTypes hanswer.types, hempty⟩
  refine ⟨host, hhost, ?_⟩
  apply (answer_perm hidx hfound.1 hout).trans
  apply ((deviceRows_perm_iff hleft hright .inner).mpr hnan).trans
  exact (hostInnerJoin_rows hidx hhost).symm

/-- Whatever the kernels do under their contracts, an answer has the rows of the host join. -/
def InnerAgrees (streaming : Bool) (lhs rhs : Batch) (buildIsLeft : Bool)
    (buildIdx probeIdx : List Nat) (schema : Schema) : Prop :=
  ∀ kernels : Kernels, kernels.Contract → ∀ out,
    tryGpuInnerJoin kernels streaming lhs rhs buildIsLeft buildIdx probeIdx schema = some out →
    ∃ host, hostInnerJoin lhs rhs buildIsLeft buildIdx probeIdx schema = .ok host ∧
      out.rows.Perm host.rows

theorem uniqueIntJoin_text {kernel : List Int64 → List Int64 → Option (List RowPair)} {b p : Nat}
    (hb : (build.column b).dtype = .plain .utf8) :
  uniqueIntJoin kernel build probe [b] [p] = none
  := by
  rw [uniqueIntJoin]
  split
  · rename_i dtype hd
    rw [hb, ArrowType.plain.injEq] at hd
    subst hd
    rfl
  · rfl

/-- Kernels that never refuse answer a join by strings that can be numbered. -/
theorem preferring_answers {b p : Nat} (hfits : OutputFits lhs rhs .inner schema)
    (hgates : passesGates (sides buildIsLeft lhs rhs).1 (sides buildIsLeft lhs rhs).2 [b] [p] =
      true) (hidx : KeysIn (sides buildIsLeft lhs rhs) [b] [p])
    (hb : ((sides buildIsLeft lhs rhs).1.column b).dtype = .plain .utf8)
    (hd : ((sides buildIsLeft lhs rhs).1.column b).dtype =
      ((sides buildIsLeft lhs rhs).2.column p).dtype)
    (hpairs : utf8Pairs kernels streaming ((sides buildIsLeft lhs rhs).1.column b)
      ((sides buildIsLeft lhs rhs).2.column p) = some pairs)
    (hsub : pairs ⊆ samePairs (keyColumnsOf (sides buildIsLeft lhs rhs).1 [b])
      (keyColumnsOf (sides buildIsLeft lhs rhs).2 [p]) (sides buildIsLeft lhs rhs).1.numRows
      (sides buildIsLeft lhs rhs).2.numRows) :
  ∃ out, tryGpuInnerJoin kernels streaming lhs rhs buildIsLeft [b] [p] schema = some out ∧
    deviceOutput lhs rhs buildIsLeft (pairs.map bothSides) schema = some out
  := by
  have hwithin : ∀ pair ∈ (pairs.map bothSides).map (orient buildIsLeft),
      Within lhs.numRows JoinType.inner.leftMayNull pair.1 ∧
        Within rhs.numRows JoinType.inner.rightMayNull pair.2 := by
    intro pair hpair
    apply (innerDevice_pairs hidx (Perm.refl _)).within
    exact map_subset _ (map_subset _ hsub) hpair
  obtain ⟨out, hout⟩ := hfits.materialise_ok hwithin
  have hdevice : deviceOutput lhs rhs buildIsLeft (pairs.map bothSides) schema = some out :=
    Outcome.toOption_eq_some.mpr hout
  refine ⟨out, ?_, hdevice⟩
  have hstring : StringKeys (sides buildIsLeft lhs rhs).1 [b] := ⟨b, rfl, hb⟩
  have hshape := gpuKeyShapeFor_of_stringKeys hstring
  have hdtypes : sameDtypes (sides buildIsLeft lhs rhs).1 (sides buildIsLeft lhs rhs).2 [b] [p] =
      true := by
    rw [sameDtypes, zip_cons_cons, zip_nil_left, all_cons, all_nil, Bool.and_true,
      decide_eq_true_eq]
    exact hd
  simp only [tryGpuInnerJoin, hgates, if_true, uniqueIntJoin_text hb, innerOutput, bind_none,
    laterStages, hshape, hdtypes, Bool.true_eq_false, if_false, utf8Join, hpairs, bind_some,
    hdevice]
  rfl

theorem of_innerAgrees (hfits : OutputFits lhs rhs .inner schema)
    (hidx : KeysIn (sides buildIsLeft lhs rhs) buildIdx probeIdx) (hk : kernels.Contract)
    (h : tryGpuInnerJoin kernels streaming lhs rhs buildIsLeft buildIdx probeIdx schema = some out)
    (hagrees : InnerAgrees streaming lhs rhs buildIsLeft buildIdx probeIdx schema) :
  ¬ SplitNan (sides buildIsLeft buildIdx probeIdx).1 (sides buildIsLeft buildIdx probeIdx).2
      lhs.rows rhs.rows ∧
    SoleBuildRows streaming (sides buildIsLeft lhs rhs).1 (sides buildIsLeft lhs rhs).2 buildIdx
      probeIdx
  := by
  obtain ⟨hanswer, pairs, hout, hroute⟩ := tryGpuInnerJoin_answer hk hidx h
  obtain ⟨hleft, hright⟩ := hanswer.keyed hidx
  obtain ⟨hstring, hfound⟩ | ⟨hstring, hutf8⟩ := hroute
  · obtain ⟨host, hhost, hperm⟩ := hagrees kernels hk out h
    constructor
    · apply (deviceRows_perm_iff hleft hright .inner).mp
      apply (answer_perm hidx hfound.1 hout).symm.trans
      exact hperm.trans (hostInnerJoin_rows hidx hhost)
    · intro b p hbi _ hb
      exact absurd ⟨b, hbi, hb⟩ hstring
  · obtain ⟨b, p, rfl, rfl, hb, hd, hbtext, hptext⟩ := hanswer.text hstring
    have hbn := (hidx.build b mem_cons_self).1
    have hpn := (hidx.probe p mem_cons_self).1
    have hbl := length_column hbn
    have hpl := length_column hpn
    have hnan : ¬ SplitNan (sides buildIsLeft [b] [p]).1 (sides buildIsLeft [b] [p]).2 lhs.rows
        rhs.rows := by
      cases buildIsLeft with
      | true => exact not_splitNan_of_text hbn hpn hbtext hptext
      | false => exact not_splitNan_of_text hpn hbn hptext hbtext
    refine ⟨hnan, ?_⟩
    intro b₁ p₁ hb₁ hp₁ _ row hrow row' hrow' prow hprow heq hnum
    rw [singleton_inj] at hb₁ hp₁
    subst hb₁ hp₁
    by_contra hne
    -- Kernels that pick the other row lose the pair of this one.
    obtain ⟨interned, hinterned, hfit⟩ := utf8Pairs_eq_some hutf8 hbtext hptext
    have hpick := utf8Pairs_eq (preferring_contract (row', prow)) hd hb hbtext hptext hinterned hfit
    have hchosen := chosen_of_pairsOnce hinterned hbtext hptext
      (pickAll_once (row', prow) (interned.1.map Int32.toInt64) (interned.2.map Int32.toInt64))
    have hmem := preferred_mem
      ((mem_equalPairs_interned hinterned hbtext hptext).mpr ⟨hrow', hprow, hnum⟩)
    have hlt := hchosen.length_lt hbtext hptext hrow hprow heq hmem hne
    have hsub := hchosen.textPairs_subset
    rw [hbl, hpl] at hlt hsub
    obtain ⟨out', hanswer', hout'⟩ := preferring_answers hfits hanswer.gates hidx hb hd hpick hsub
    obtain ⟨host, hhost, hperm⟩ := hagrees _ (preferring_contract (row', prow)) out' hanswer'
    have hall := (innerDevice_pairs hidx (Perm.refl _)).rows.length_eq
    have hsame := (((deviceRows_perm_iff hleft hright .inner).mpr hnan).trans
      (hostInnerJoin_rows hidx hhost).symm).length_eq
    have hlen := hperm.length_eq
    rw [deviceOutput_rows hout'] at hlen
    simp only [length_map] at hall hlen
    rw [keyColumnsOf, keyColumnsOf, map_singleton, map_singleton] at hall
    omega

/-! ### Outer joins -/

/-- The pairs of an outer join on the device are those of the join. -/
theorem outerDevice_pairs (hjoin : preserveProbe joinType = true)
    (hside : buildIsLeft = decide (joinType = .rightOuter))
    (hidx : KeysIn (sides buildIsLeft lhs rhs) buildIdx probeIdx) {pairs : List Pair}
    (h : (pairs.map Prod.swap).Perm (ListJoin.outerJoin (preserveProbe joinType)
      (preserveBuild joinType) (fun p b => sameCells
        (keyColumnsOf (sides buildIsLeft lhs rhs).1 buildIdx)
        (keyColumnsOf (sides buildIsLeft lhs rhs).2 probeIdx) b p)
      (range (sides buildIsLeft lhs rhs).2.numRows)
      (range (sides buildIsLeft lhs rhs).1.numRows))) :
  JoinPairs lhs rhs joinType (deviceMatch buildIsLeft buildIdx probeIdx)
    (pairs.map (orient buildIsLeft))
  := by
  rw [hjoin] at h
  apply oriented_perm true (preserveBuild joinType) h (sameCells_eq hidx)
  · subst hside
    cases joinType <;> first | rfl | cases hjoin
  · subst hside
    cases joinType <;> rfl

/-- The rows of an answer. -/
theorem tryGpuOuterJoin_answer (hk : kernels.Contract) (hjoin : preserveProbe joinType = true)
    (hside : buildIsLeft = decide (joinType = .rightOuter))
    (hidx : KeysIn (sides buildIsLeft lhs rhs) buildIdx probeIdx)
    (h : tryGpuOuterJoin kernels lhs rhs joinType buildIsLeft buildIdx probeIdx schema = some out) :
  Answerable (sides buildIsLeft lhs rhs).1 (sides buildIsLeft lhs rhs).2 buildIdx probeIdx ∧
  out.rows.Perm (joinRows lhs.columns.length rhs.columns.length joinType
    (deviceMatch buildIsLeft buildIdx probeIdx) lhs.rows rhs.rows) ∧
  (sides buildIsLeft lhs rhs).1.numRows < 2 ^ 32 ∧ (sides buildIsLeft lhs rhs).2.numRows < 2 ^ 32
  := by
  unfold tryGpuOuterJoin at h
  dsimp only at h
  split at h
  · rename_i hgate
    rw [Bool.and_eq_true] at hgate
    obtain ⟨hgates, hdtypes⟩ := hgate
    obtain ⟨shape, hshape, h⟩ := bind_eq_some_iff.mp h
    obtain ⟨pairs, hpairs, hout⟩ := bind_eq_some_iff.mp h
    have hsame := sameDtypes_forall₂ (gated_of_passesGates hgates).length hdtypes
    obtain ⟨htypes, hints⟩ := types_of_shape hshape
    have hanswer : Answerable (sides buildIsLeft lhs rhs).1 (sides buildIsLeft lhs rhs).2 buildIdx
        probeIdx := ⟨hgates, sameTypes_iff.mpr hsame, htypes, hints⟩
    refine ⟨hanswer, ?_⟩
    rw [deviceOutput_rows hout]
    unfold outerPairs at hpairs
    split at hpairs
    · rename_i hutf8
      subst hutf8
      obtain ⟨b, p, rfl, rfl, hb, hd, hbtext, hptext⟩ :=
        hanswer.text (gpuKeyShapeFor_utf8 hshape)
      have hbl := length_column (hidx.build b mem_cons_self).1
      have hpl := length_column (hidx.probe p mem_cons_self).1
      obtain ⟨interned, hinterned, hpairs⟩ := bind_eq_some_iff.mp hpairs
      have hcodes : Forall₂ (fun b p : Column => b.dtype = p.dtype)
          [int32Column interned.1] [int32Column interned.2] := .cons rfl .nil
      obtain ⟨hperm, hbounds⟩ := outerJoinIndices_perm hk hcodes hpairs
      refine ⟨(outerDevice_pairs hjoin hside hidx ?_).rows, hbounds⟩
      apply hperm.trans
      apply Perm.of_eq
      apply ListJoin.outerJoin_congr
      intro prow hprow brow hbrow
      rw [mem_range] at hprow hbrow
      exact sameCells_codes hinterned hbtext hptext (by omega) (by omega)
    · obtain ⟨hperm, hbounds⟩ := outerJoinIndices_perm hk hsame hpairs
      exact ⟨(outerDevice_pairs hjoin hside hidx hperm).rows, hbounds⟩
  · cases h

/-- Whatever the kernels do under their contracts, an answer has the rows of the host join. -/
def OuterAgrees (lhs rhs : Batch) (joinType : JoinType) (buildIsLeft : Bool)
    (buildIdx probeIdx : List Nat) (schema : Schema) : Prop :=
  ∀ kernels : Kernels, kernels.Contract → ∀ out,
    tryGpuOuterJoin kernels lhs rhs joinType buildIsLeft buildIdx probeIdx schema = some out →
    ∃ host, hostOuterJoin lhs rhs joinType buildIsLeft buildIdx probeIdx schema = .ok host ∧
      out.rows.Perm host.rows

/-- An answer to an outer join has the rows of the host join exactly when no keys differ in NaNs
alone. -/
theorem outerAnswer_iff (hk : kernels.Contract) (hfits : OutputFits lhs rhs joinType schema)
    (hjoin : preserveProbe joinType = true) (hside : buildIsLeft = decide (joinType = .rightOuter))
    (hidx : KeysIn (sides buildIsLeft lhs rhs) buildIdx probeIdx)
    (h : tryGpuOuterJoin kernels lhs rhs joinType buildIsLeft buildIdx probeIdx schema = some out) :
  (∃ host, hostOuterJoin lhs rhs joinType buildIsLeft buildIdx probeIdx schema = .ok host ∧
      out.rows.Perm host.rows) ↔
    ¬ SplitNan (sides buildIsLeft buildIdx probeIdx).1 (sides buildIsLeft buildIdx probeIdx).2
      lhs.rows rhs.rows
  := by
  obtain ⟨hanswer, hperm, hbn, hpn⟩ := tryGpuOuterJoin_answer hk hjoin hside hidx h
  obtain ⟨hleft, hright⟩ := hanswer.keyed hidx
  obtain ⟨hl, hr⟩ := sides_numRows_left hbn hpn
  rw [← deviceRows_perm_iff hleft hright joinType]
  constructor
  · rintro ⟨host, hhost, hsame⟩
    apply hperm.symm.trans
    exact hsame.trans (hostOuterJoin_rows hjoin hside hidx hhost)
  · intro hsame
    obtain ⟨host, hhost⟩ := (hfits.hostOuterJoin_ok_iff hl hr hjoin hside hidx
      (gated_of_passesGates hanswer.gates).probeRows).mpr
      ⟨reads_of_keyTypes hanswer.types, reads_of_keyTypes hanswer.probeTypes⟩
    refine ⟨host, hhost, ?_⟩
    apply (hperm.trans hsame).trans
    exact (hostOuterJoin_rows hjoin hside hidx hhost).symm

end Compare

end CratonBolt.Joins
