import CratonBolt.Joins.DeviceRows

/-!
# The joins that the device may answer otherwise

Kernels that keep their contracts may refuse every join, or none that reaches them. What reaches
them is decided by the batches: joins by one float column and by strings that can be numbered
always do. So it can be read off the batches whether some answer differs from the host join.
-/

namespace CratonBolt.Joins

open List Option
open Batch (getD_row length_column)

variable {lhs rhs build probe b : Batch} {buildIsLeft : Bool} {buildIdx probeIdx indices : List Nat}
  {schema : Schema} {kernels : Kernels} {streaming : Bool} {shape : KeyShape} {joinType : JoinType}

/-! ### Keys without floats -/

/-- A key of integers has no NaN to be made one. -/
theorem map_nanKey_of_ints (hcols : KeyColumns b indices)
    (hint : ∀ i ∈ indices, isIntType (b.column i).dtype) {row : Nat} {k : List JoinKeyValue}
    (h : rowKey indices (b.row row) = some k) :
  k.map nanKey = k
  := by
  have hall := (Outcome.mapM_eq_some_iff.mp h).flip
  apply (map_congr_left ?_).trans (map_id k)
  intro v hv
  obtain ⟨i, hi, hvi⟩ := exists_of_forall₂ hall hv
  rw [getD_row (hcols i hi).1] at hvi
  have htyped := (b.column i).typed_cell row
  obtain ht | ht := hint i hi
  all_goals
    rw [ht] at htyped
    obtain hcell | hcell := htyped
    · rw [hcell] at hvi
      cases hvi
    · cases hc : (b.column i).cell row <;> rw [hc] at hvi hcell <;> cases hcell
      cases hvi
      rfl

theorem not_splitNan_of_ints {leftIdx rightIdx : List Nat} (hl : KeyColumns lhs leftIdx)
    (hr : KeyColumns rhs rightIdx) (hleft : ∀ i ∈ leftIdx, isIntType (lhs.column i).dtype)
    (hright : ∀ i ∈ rightIdx, isIntType (rhs.column i).dtype) :
  ¬ SplitNan leftIdx rightIdx lhs.rows rhs.rows
  := by
  rintro ⟨l, hlm, r, hrm, k, k', hk, hk', hne, heq⟩
  obtain ⟨n, -, rfl⟩ := mem_map.mp hlm
  obtain ⟨n', -, rfl⟩ := mem_map.mp hrm
  rw [map_nanKey_of_ints hl hleft hk, map_nanKey_of_ints hr hright hk'] at heq
  exact hne heq

/-- Keys of several columns that are answered differ in no NaN. -/
theorem Answerable.not_splitNan
    (h : Answerable (sides buildIsLeft lhs rhs).1 (sides buildIsLeft lhs rhs).2 buildIdx probeIdx)
    (hidx : KeysIn (sides buildIsLeft lhs rhs) buildIdx probeIdx) (hlen : buildIdx.length ≠ 1) :
  ¬ SplitNan (sides buildIsLeft buildIdx probeIdx).1 (sides buildIsLeft buildIdx probeIdx).2
    lhs.rows rhs.rows
  := by
  have hbuild := h.ints hlen
  have hprobe : ∀ p ∈ probeIdx, isIntType ((sides buildIsLeft lhs rhs).2.column p).dtype := by
    intro p hp
    obtain ⟨b, hb, hbp⟩ := exists_of_forall₂ h.same.symm hp
    rw [hbp]
    exact hbuild b hb
  cases buildIsLeft with
  | true => exact not_splitNan_of_ints hidx.build hidx.probe hbuild hprobe
  | false => exact not_splitNan_of_ints hidx.probe hidx.build hprobe hbuild

/-! ### Joins by one float column -/

/-- The shape of a key of one float column. -/
def floatShape : DataType → Option KeyShape
  | .float32 => some .singleF32
  | .float64 => some .singleF64
  | _ => none

/-- The bits of the sentinel are those of a zero, which is encoded as another. -/
theorem canonicalF64Bits_ne (x : F64) :
  (canonicalF64Bits x).toInt64 ≠ sentinel
  := by
  intro h
  have hbits : canonicalF64Bits x = 0x8000000000000000 := by
    have hu := congrArg Int64.toUInt64 h
    rw [UInt64.toUInt64_toInt64] at hu
    exact hu
  unfold canonicalF64Bits at hbits
  split at hbits
  · cases hbits
  · split at hbits
    · cases hbits
    · rename_i hzero
      rw [F64.isZero, hbits] at hzero
      exact hzero rfl

theorem canonicalF32Bits_ne (x : F32) :
  (canonicalF32Bits x).toInt64 ≠ sentinel
  := by
  intro h
  have hbits : canonicalF32Bits x = 0x8000000000000000 := by
    have hu := congrArg Int64.toUInt64 h
    rw [UInt64.toUInt64_toInt64] at hu
    exact hu
  have hlt : (canonicalF32Bits x).toNat < 2 ^ 32 := by
    rw [canonicalF32Bits, UInt32.toNat_toUInt64]
    exact UInt32.toNat_lt _
  rw [hbits] at hlt
  exact absurd hlt (by decide)

/-- A float that is no `NULL` is encoded. -/
theorem encodeRow_float {t : DataType} (hshape : floatShape t = some shape) {v : Value}
    (hv : v.dtype = some t) :
  ∃ e, encodeRow shape [v] = some e
  := by
  cases t <;> cases hshape <;> cases v <;> cases hv
  · exact ⟨_, if_neg (canonicalF32Bits_ne _)⟩
  · exact ⟨_, if_neg (canonicalF64Bits_ne _)⟩

theorem exists_mapM_eq_some {α β : Type} {f : α → Option β} {l : List α}
    (h : ∀ a ∈ l, ∃ b, f a = some b) :
  ∃ bs, l.mapM f = some bs
  := by
  induction l with
  | nil => exact ⟨[], rfl⟩
  | cons a l ih =>
    rw [forall_mem_cons] at h
    obtain ⟨b, hb⟩ := h.1
    obtain ⟨bs, hbs⟩ := ih h.2
    exact ⟨b :: bs, by rw [mapM_cons, hb, hbs]; rfl⟩

theorem floats_encode {c : Column} {t : DataType} (ht : c.dtype = .plain t)
    (hshape : floatShape t = some shape) (hnulls : c.hasNulls = false) :
  ∃ keys, encodeKeysForShape [c] c.length shape = some keys
  := by
  apply exists_mapM_eq_some
  intro row hrow
  have hcell := (c.typed_cell row).resolve_left
    (cell_ne_null (c.isFlat_of_dtype ht) hnulls (mem_range.mp hrow))
  rw [ht] at hcell
  exact encodeRow_float hshape hcell

/-- Keys that differ in NaNs alone, of one column, are of floats. -/
theorem float_of_splitNan {i j : Nat} (hcols : KeyColumns lhs [i])
    (h : SplitNan [i] [j] lhs.rows rhs.rows) :
  ∃ t shape, (lhs.column i).dtype = .plain t ∧ floatShape t = some shape
  := by
  obtain ⟨l, hl, r, -, k, k', hk, hk', hne, heq⟩ := h
  obtain ⟨n, -, rfl⟩ := mem_map.mp hl
  obtain ⟨v, vs, hv, hvs, rfl⟩ := rowKey_cons_eq_some.mp hk
  obtain ⟨v', vs', -, hvs', rfl⟩ := rowKey_cons_eq_some.mp hk'
  obtain rfl : [] = vs := some.inj hvs
  obtain rfl : [] = vs' := some.inj hvs'
  obtain ⟨hlt, hflat⟩ := hcols i mem_cons_self
  rw [getD_row hlt] at hv
  have htyped := (lhs.column i).typed_cell n
  have hdtype : ∀ {t : DataType}, ((lhs.column i).cell n).dtype = some t →
      (lhs.column i).dtype = .plain t := by
    intro t ht
    cases hc : lhs.column i with
    | dictionary key values codes =>
      rw [hc] at hflat
      cases hflat
    | flat arr =>
      rw [hc] at ht htyped
      obtain hnull | hd := htyped
      · rw [hnull] at ht
        cases ht
      · rw [ht, Option.some.injEq] at hd
        exact congrArg ArrowType.plain hd.symm
  rw [Ne, cons.injEq, and_iff_left rfl] at hne
  simp only [map_cons, map_nil, cons.injEq, and_true] at heq
  cases hc : (lhs.column i).cell n <;> rw [hc] at hv hdtype <;> cases hv
  case float32 x => exact ⟨_, _, hdtype rfl, rfl⟩
  case float64 x => exact ⟨_, _, hdtype rfl, rfl⟩
  -- Every other value is a key without a NaN, which only its own key is mapped to.
  all_goals
    cases v' <;> simp only [nanKey, reduceCtorEq] at heq
    exact absurd heq hne

theorem float_of_sides {b p : Nat} (hidx : KeysIn (sides buildIsLeft lhs rhs) [b] [p])
    (hbp : ((sides buildIsLeft lhs rhs).1.column b).dtype =
      ((sides buildIsLeft lhs rhs).2.column p).dtype)
    (hnan : SplitNan (sides buildIsLeft [b] [p]).1 (sides buildIsLeft [b] [p]).2 lhs.rows
      rhs.rows) :
  ∃ t shape, ((sides buildIsLeft lhs rhs).1.column b).dtype = .plain t ∧
    floatShape t = some shape
  := by
  cases buildIsLeft with
  | true => exact float_of_splitNan hidx.build hnan
  | false =>
    obtain ⟨t, shape, ht, hshape⟩ := float_of_splitNan hidx.probe hnan
    exact ⟨t, shape, hbp.trans ht, hshape⟩

section Answers

variable (hidx : KeysIn (sides buildIsLeft lhs rhs) buildIdx probeIdx)
  (hgates : passesGates (sides buildIsLeft lhs rhs).1 (sides buildIsLeft lhs rhs).2 buildIdx
    probeIdx = true)
  (hsame : SameTypes (sides buildIsLeft lhs rhs).1 (sides buildIsLeft lhs rhs).2 buildIdx probeIdx)
include hidx hgates hsame

omit hidx hgates in
theorem sameDtypes_of_sameTypes :
  sameDtypes (sides buildIsLeft lhs rhs).1 (sides buildIsLeft lhs rhs).2 buildIdx probeIdx = true
  := by
  apply List.all_eq_true.mpr
  intro bp hbp
  exact decide_eq_true ((forall₂_iff_zip.mp hsame).2 hbp)

/-- A join by a key of some shape, by no string and no integer alone, is answered. -/
theorem shape_answers (hk : kernels.Contract) {pairs : List RowPair}
    (hfits : OutputFits lhs rhs .inner schema)
    (hshape : gpuKeyShapeFor (sides buildIsLeft lhs rhs).1 buildIdx = some shape)
    (hutf8 : shape ≠ .singleUtf8)
    (hunique : ∀ kernel, uniqueIntJoin kernel (sides buildIsLeft lhs rhs).1
      (sides buildIsLeft lhs rhs).2 buildIdx probeIdx = none)
    (hpairs : hashJoinIndicesWithShape kernels
      (keyColumnsOf (sides buildIsLeft lhs rhs).1 buildIdx)
      (keyColumnsOf (sides buildIsLeft lhs rhs).2 probeIdx) (sides buildIsLeft lhs rhs).1.numRows
      (sides buildIsLeft lhs rhs).2.numRows shape = some pairs) :
  ∃ out, tryGpuInnerJoin kernels streaming lhs rhs buildIsLeft buildIdx probeIdx schema = some out
  := by
  have hperm := (hashJoinIndicesWithShape_perm hk (sameTypes_iff.mp hsame) hpairs).1
  have hjoin := innerDevice_pairs hidx hperm
  obtain ⟨out, hout⟩ := hfits.materialise_ok (fun pair hpair => hjoin.within hpair)
  have hdevice : deviceOutput lhs rhs buildIsLeft (pairs.map bothSides) schema = some out :=
    Outcome.toOption_eq_some.mpr hout
  refine ⟨out, ?_⟩
  simp only [tryGpuInnerJoin, if_true, hgates, hunique, innerOutput, Option.bind_none,
    laterStages, hshape, sameDtypes_of_sameTypes hsame, Bool.true_eq_false, if_false, hutf8,
    hpairs, Option.bind_some, hdevice, ite_self]
  rfl

end Answers

section Floats

variable {b p : Nat} {t : DataType} (hidx : KeysIn (sides buildIsLeft lhs rhs) [b] [p])
  (hgates : passesGates (sides buildIsLeft lhs rhs).1 (sides buildIsLeft lhs rhs).2 [b] [p] = true)
  (hsame : SameTypes (sides buildIsLeft lhs rhs).1 (sides buildIsLeft lhs rhs).2 [b] [p])
  (hl : lhs.numRows < 2 ^ 32) (hr : rhs.numRows < 2 ^ 32)
  (ht : ((sides buildIsLeft lhs rhs).1.column b).dtype = .plain t)
  (hshape : floatShape t = some shape)

include ht hshape in
theorem gpuKeyShapeFor_float :
  gpuKeyShapeFor (sides buildIsLeft lhs rhs).1 [b] = some shape ∧ shape ≠ .singleUtf8 ∧
    shape.needsHostPostVerify = false
  := by
  rw [gpuKeyShapeFor, map_singleton, ht]
  cases t <;> cases hshape <;> exact ⟨rfl, by decide, rfl⟩

include ht hshape in
theorem uniqueIntJoin_float (kernel : List Int64 → List Int64 → Option (List RowPair)) :
  uniqueIntJoin kernel (sides buildIsLeft lhs rhs).1 (sides buildIsLeft lhs rhs).2 [b] [p] = none
  := by
  rw [uniqueIntJoin, ht]
  cases t <;> cases hshape <;> rfl

include hl hr in
theorem rowsFitU32_sides :
  rowsFitU32 (sides buildIsLeft lhs rhs).1.numRows (sides buildIsLeft lhs rhs).2.numRows = some ()
  := by
  cases buildIsLeft with
  | true => exact if_pos ⟨hl, hr⟩
  | false => exact if_pos ⟨hr, hl⟩

include hidx hgates hsame ht hshape

theorem floatKeys_encode :
  ∃ buildKeys probeKeys,
    encodeKeysForShape (keyColumnsOf (sides buildIsLeft lhs rhs).1 [b])
      (sides buildIsLeft lhs rhs).1.numRows shape = some buildKeys ∧
    encodeKeysForShape (keyColumnsOf (sides buildIsLeft lhs rhs).2 [p])
      (sides buildIsLeft lhs rhs).2.numRows shape = some probeKeys
  := by
  have hgated := gated_of_passesGates hgates
  obtain ⟨buildKeys, hb⟩ := floats_encode ht hshape (hgated.buildNulls b mem_cons_self)
  rw [SameTypes, forall₂_cons] at hsame
  obtain ⟨probeKeys, hp⟩ := floats_encode (hsame.1.symm.trans ht) hshape
    (hgated.probeNulls p mem_cons_self)
  rw [length_column (hidx.build b mem_cons_self).1] at hb
  rw [length_column (hidx.probe p mem_cons_self).1] at hp
  exact ⟨buildKeys, probeKeys, hb, hp⟩

include hl hr

/-- An inner join by one float column is answered by kernels that never refuse. -/
theorem floatJoin_inner_answers (hfits : OutputFits lhs rhs .inner schema) :
  ∃ out, tryGpuInnerJoin (preferring (0, 0)) streaming lhs rhs buildIsLeft [b] [p] schema = some out
  := by
  obtain ⟨hkey, hutf8, hexact⟩ := gpuKeyShapeFor_float ht hshape
  obtain ⟨buildKeys, probeKeys, hb, hp⟩ := floatKeys_encode hidx hgates hsame ht hshape
  have hpairs : hashJoinIndicesWithShape (preferring (0, 0))
      (keyColumnsOf (sides buildIsLeft lhs rhs).1 [b])
      (keyColumnsOf (sides buildIsLeft lhs rhs).2 [p]) (sides buildIsLeft lhs rhs).1.numRows
      (sides buildIsLeft lhs rhs).2.numRows shape = some (equalPairs buildKeys probeKeys) := by
    simp only [hashJoinIndicesWithShape, rowsFitU32_sides hl hr, hb, hp, Option.bind_eq_bind,
      Option.bind_some, preferring, trustedPairs, hexact, Bool.false_eq_true, if_false]
  exact shape_answers hidx hgates hsame (preferring_contract (0, 0)) hfits hkey hutf8
    (uniqueIntJoin_float ht hshape) hpairs

/-- So is an outer join. -/
theorem floatJoin_outer_answers (hfits : OutputFits lhs rhs joinType schema)
    (hjoin : preserveProbe joinType = true)
    (hside : buildIsLeft = decide (joinType = .rightOuter)) :
  ∃ out, tryGpuOuterJoin (preferring (0, 0)) lhs rhs joinType buildIsLeft [b] [p] schema = some out
  := by
  obtain ⟨hkey, hutf8, hexact⟩ := gpuKeyShapeFor_float ht hshape
  obtain ⟨buildKeys, probeKeys, hb, hp⟩ := floatKeys_encode hidx hgates hsame ht hshape
  obtain ⟨pairs, hpairs⟩ : ∃ pairs, outerJoinIndices (preferring (0, 0))
      (keyColumnsOf (sides buildIsLeft lhs rhs).1 [b])
      (keyColumnsOf (sides buildIsLeft lhs rhs).2 [p]) (sides buildIsLeft lhs rhs).1.numRows
      (sides buildIsLeft lhs rhs).2.numRows shape (preserveProbe joinType)
      (preserveBuild joinType) = some pairs := by
    simp only [outerJoinIndices, rowsFitU32_sides hl hr, hb, hp, Option.bind_eq_bind,
      Option.bind_some, preferring, trustedPairs, hexact, Bool.false_eq_true, if_false,
      addedBuildRows, unmatchedBuildRows]
    split <;> exact ⟨_, rfl⟩
  have hperm := (outerJoinIndices_perm (preferring_contract (0, 0)) (sameTypes_iff.mp hsame)
    hpairs).1
  have hpairs' := outerDevice_pairs hjoin hside hidx hperm
  obtain ⟨out, hout⟩ := hfits.materialise_ok (fun pair hpair => hpairs'.within hpair)
  refine ⟨out, ?_⟩
  have hdevice : deviceOutput lhs rhs buildIsLeft pairs schema = some out :=
    Outcome.toOption_eq_some.mpr hout
  simp only [tryGpuOuterJoin, hgates, sameDtypes_of_sameTypes hsame, Bool.and_true, if_true, hkey,
    outerPairs, hutf8, if_false, hpairs, Option.bind_eq_bind, Option.bind_some, hdevice]

end Floats

/-! ### Joins by strings -/

/-- A join by strings that can be numbered is answered by kernels that never refuse. -/
theorem text_answers {b p : Nat} (hfits : OutputFits lhs rhs .inner schema)
    (hidx : KeysIn (sides buildIsLeft lhs rhs) [b] [p])
    (hgates : passesGates (sides buildIsLeft lhs rhs).1 (sides buildIsLeft lhs rhs).2 [b] [p] =
      true)
    (hsame : SameTypes (sides buildIsLeft lhs rhs).1 (sides buildIsLeft lhs rhs).2 [b] [p])
    (hl : lhs.numRows < 2 ^ 32) (hr : rhs.numRows < 2 ^ 32)
    (hb : ((sides buildIsLeft lhs rhs).1.column b).dtype = .plain .utf8)
    {interned : List Int32 × List Int32}
    (hinterned : internForInner streaming ((sides buildIsLeft lhs rhs).1.column b)
      ((sides buildIsLeft lhs rhs).2.column p) = some interned) :
  ∃ out, tryGpuInnerJoin (preferring (0, 0)) streaming lhs rhs buildIsLeft [b] [p] schema = some out
  := by
  have hgated := gated_of_passesGates hgates
  rw [SameTypes, forall₂_cons] at hsame
  have hbtext := isText_of_noNulls hb (hgated.buildNulls b mem_cons_self)
  have hptext := isText_of_noNulls (hsame.1.symm.trans hb) (hgated.probeNulls p mem_cons_self)
  have hbl := length_column (hidx.build b mem_cons_self).1
  have hpl := length_column (hidx.probe p mem_cons_self).1
  have hfit : rowsFitU32 ((sides buildIsLeft lhs rhs).1.column b).length
      ((sides buildIsLeft lhs rhs).2.column p).length = some () := by
    rw [hbl, hpl]
    exact rowsFitU32_sides hl hr
  have hpairs := utf8Pairs_eq (preferring_contract (0, 0)) hsame.1 hb hbtext hptext hinterned hfit
  have hsub := (chosen_of_pairsOnce hinterned hbtext hptext (pickAll_once (0, 0)
    (interned.1.map Int32.toInt64) (interned.2.map Int32.toInt64))).textPairs_subset
  rw [hbl, hpl] at hsub
  obtain ⟨out, hout, -⟩ := preferring_answers hfits hgates hidx hb hsame.1 hpairs hsub
  exact ⟨out, hout⟩

/-! ### Agreement with the host -/

/-- What the batches of an inner join must not hold once it passes the gates of the device: keys of
one column that differ in NaNs alone, and strings that can be numbered and are found twice. -/
structure InnerSafe (streaming : Bool) (lhs rhs : Batch) (buildIsLeft : Bool)
    (buildIdx probeIdx : List Nat) : Prop where
  floats : buildIdx.length = 1 → ¬ SplitNan (sides buildIsLeft buildIdx probeIdx).1
    (sides buildIsLeft buildIdx probeIdx).2 lhs.rows rhs.rows
  strings : ∀ b p, buildIdx = [b] → probeIdx = [p] →
    ((sides buildIsLeft lhs rhs).1.column b).dtype = .plain .utf8 →
    (internForInner streaming ((sides buildIsLeft lhs rhs).1.column b)
      ((sides buildIsLeft lhs rhs).2.column p)).isSome = true →
    SoleBuildRow streaming ((sides buildIsLeft lhs rhs).1.column b)
      ((sides buildIsLeft lhs rhs).2.column p)

section Agreement

variable (hidx : KeysIn (sides buildIsLeft lhs rhs) buildIdx probeIdx)
  (hsame : SameTypes (sides buildIsLeft lhs rhs).1 (sides buildIsLeft lhs rhs).2 buildIdx probeIdx)
  (hl : lhs.numRows < 2 ^ 32) (hr : rhs.numRows < 2 ^ 32)
include hidx hsame hl hr

/-- Under every behaviour of the kernels, an inner join is answered as on the host exactly when it
does not pass the gates or its batches are safe. -/
theorem innerAgrees_iff (hfits : OutputFits lhs rhs .inner schema)
    (hempty : joinRows lhs.columns.length rhs.columns.length .inner
      (keyMatch buildIsLeft buildIdx probeIdx) lhs.rows rhs.rows = [] → HasEmptyArrays schema) :
  InnerAgrees streaming lhs rhs buildIsLeft buildIdx probeIdx schema ↔
    (passesGates (sides buildIsLeft lhs rhs).1 (sides buildIsLeft lhs rhs).2 buildIdx probeIdx =
      true → InnerSafe streaming lhs rhs buildIsLeft buildIdx probeIdx)
  := by
  constructor
  · intro hagrees hgates
    constructor
    · intro hlen hnan
      obtain ⟨b, rfl⟩ := length_eq_one_iff.mp hlen
      obtain ⟨p, rest, hbp, hrest, rfl⟩ := forall₂_cons_left_iff.mp hsame
      obtain rfl := forall₂_nil_left_iff.mp hrest
      obtain ⟨t, shape, ht, hshape⟩ := float_of_sides hidx hbp hnan
      obtain ⟨out, hout⟩ := floatJoin_inner_answers hidx hgates hsame hl hr ht hshape hfits
      exact (of_innerAgrees hfits hidx (preferring_contract (0, 0)) hout hagrees).1 hnan
    · rintro b p rfl rfl hb hsome
      obtain ⟨interned, hinterned⟩ := isSome_iff_exists.mp hsome
      obtain ⟨out, hout⟩ := text_answers hfits hidx hgates hsame hl hr hb hinterned
      exact (of_innerAgrees hfits hidx (preferring_contract (0, 0)) hout hagrees).2 b p rfl rfl hb
  · intro hsafe kernels hk out hout
    obtain ⟨hanswer, pairs, -, hroute⟩ := tryGpuInnerJoin_answer hk hidx hout
    have hsafe := hsafe hanswer.gates
    apply innerAnswer_perm hk hfits hidx hout _ _ hempty
    · by_cases hlen : buildIdx.length = 1
      · exact hsafe.floats hlen
      · exact hanswer.not_splitNan hidx hlen
    · rintro b p rfl rfl hb
      obtain ⟨hstring, -⟩ | ⟨hstring, hutf8⟩ := hroute
      · exact absurd ⟨b, rfl, hb⟩ hstring
      · obtain ⟨interned, hinterned, -⟩ := bind_eq_some_iff.mp hutf8
        exact hsafe.strings b p rfl rfl hb (by rw [hinterned]; rfl)

theorem outerAgrees_iff (hfits : OutputFits lhs rhs joinType schema)
    (hjoin : preserveProbe joinType = true)
    (hside : buildIsLeft = decide (joinType = .rightOuter)) :
  OuterAgrees lhs rhs joinType buildIsLeft buildIdx probeIdx schema ↔
    (passesGates (sides buildIsLeft lhs rhs).1 (sides buildIsLeft lhs rhs).2 buildIdx probeIdx =
      true → buildIdx.length = 1 → ¬ SplitNan (sides buildIsLeft buildIdx probeIdx).1
        (sides buildIsLeft buildIdx probeIdx).2 lhs.rows rhs.rows)
  := by
  constructor
  · intro hagrees hgates hlen hnan
    obtain ⟨b, rfl⟩ := length_eq_one_iff.mp hlen
    obtain ⟨p, rest, hbp, hrest, rfl⟩ := forall₂_cons_left_iff.mp hsame
    obtain rfl := forall₂_nil_left_iff.mp hrest
    obtain ⟨t, shape, ht, hshape⟩ := float_of_sides hidx hbp hnan
    obtain ⟨out, hout⟩ := floatJoin_outer_answers hidx hgates hsame hl hr ht hshape hfits hjoin
      hside
    exact (outerAnswer_iff (preferring_contract (0, 0)) hfits hjoin hside hidx hout).mp
      (hagrees _ (preferring_contract (0, 0)) out hout) hnan
  · intro hsafe kernels hk out hout
    obtain ⟨hanswer, -⟩ := tryGpuOuterJoin_answer hk hjoin hside hidx hout
    apply (outerAnswer_iff hk hfits hjoin hside hidx hout).mpr
    by_cases hlen : buildIdx.length = 1
    · exact hsafe hanswer.gates hlen
    · exact hanswer.not_splitNan hidx hlen

end Agreement

end CratonBolt.Joins
