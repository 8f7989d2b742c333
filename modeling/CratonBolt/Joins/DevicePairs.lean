import CratonBolt.Joins.DeviceKeys
import CratonBolt.Joins.HostRows
import Mathlib.Data.List.GetD

/-!
# The pairs the device finds

Each path of the device returns the pairs of rows whose keys are equal up to the NaNs; only the
join by strings depends on what the unique-key kernel picks.
-/

namespace CratonBolt.Joins

open ListJoin List Option

variable {pairs : List RowPair} {kernels : Kernels} {keys : List Int64}

/-! ### Encoded columns -/

/-- The cells of a row in some columns. -/
def cellsAt (columns : List Column) (row : Nat) : List Value := columns.map (fun c => c.cell row)

/-- The encodings of the rows of some columns. -/
structure EncodedAs (shape : KeyShape) (columns : List Column) (n : Nat) (keys : List Int64) :
    Prop where
  length : keys.length = n
  encodes : ∀ row < n, ∃ e, keys[row]? = some e ∧ Encodes shape (cellsAt columns row) e

theorem encodeKeysForShape_spec {columns : List Column} {n : Nat} {shape : KeyShape}
    (h : encodeKeysForShape columns n shape = some keys) :
  EncodedAs shape columns n keys
  := by
  have hall := Outcome.mapM_eq_some_iff.mp h
  have hlen := hall.length_eq
  rw [length_range] at hlen
  constructor
  · exact hlen.symm
  · intro row hrow
    rw [forall₂_iff_get] at hall
    have hkey := hall.2 row (by rwa [length_range]) (by rwa [← hlen])
    rw [get_eq_getElem, getElem_range] at hkey
    exact ⟨_, getElem?_eq_getElem (by rwa [← hlen]), encodes_of_encodeRow hkey⟩

/-- The shape of one integer key. -/
def intShape (dtype : DataType) : KeyShape := if dtype = .int32 then .singleI32 else .singleI64

variable {dtype : DataType} {e : Int64} {column : Column} {found : List RowPair × List Bool}
variable {kernel : List Int64 → List Int64 → Option (List RowPair)}

theorem encodes_of_encodeI64 {v : Value} (h : encodeI64 dtype v = some e) :
  Encodes (intShape dtype) [v] e
  := by
  obtain ⟨n, rfl, rfl, rfl⟩ | ⟨rfl, rfl⟩ := encodeI64_eq_some h
  · exact .i32 n
  · exact .i64 e

theorem encodeKeysI64_spec (h : encodeKeysI64 column dtype = some keys) :
  EncodedAs (intShape dtype) [column] column.length keys
  := by
  have hall := Outcome.mapM_eq_some_iff.mp h
  have hlen := hall.length_eq
  constructor
  · exact hlen.symm
  · intro row hrow
    rw [forall₂_iff_get] at hall
    have hkey := hall.2 row hrow (by rwa [← hlen])
    refine ⟨_, getElem?_eq_getElem (by rwa [← hlen]), ?_⟩
    rw [cellsAt, map_singleton, Column.cell, getD_eq_getElem _ _ hrow]
    exact encodes_of_encodeI64 hkey

section Pairs

variable {shape : KeyShape} {buildCols probeCols : List Column} {nBuild nProbe : Nat}
  {buildKeys probeKeys : List Int64}

/-- The keys of two rows are equal up to the NaNs. -/
def sameCells (buildCols probeCols : List Column) (b p : Nat) : Bool :=
  decide (canonCellsKey (cellsAt buildCols b) = canonCellsKey (cellsAt probeCols p))

/-- The pairs of rows with equal keys up to the NaNs. -/
def samePairs (buildCols probeCols : List Column) (nBuild nProbe : Nat) : List RowPair :=
  matched (sameCells buildCols probeCols) (range nBuild) (range nProbe)

theorem EncodedAs.key_eq_iff (hexact : shape.needsHostPostVerify = false)
    (hb : EncodedAs shape buildCols nBuild buildKeys)
    (hp : EncodedAs shape probeCols nProbe probeKeys) {b p : Nat} (hbn : b < nBuild)
    (hpn : p < nProbe) :
  buildKeys[b]? = probeKeys[p]? ↔ sameCells buildCols probeCols b p = true
  := by
  obtain ⟨e, he, hbe⟩ := hb.encodes b hbn
  obtain ⟨f, hf, hpf⟩ := hp.encodes p hpn
  rw [he, hf, some.injEq, sameCells, decide_eq_true_eq]
  exact hbe.eq_iff hexact hpf

/-- An exact encoding pairs the rows with equal keys. -/
theorem EncodedAs.equalPairs_eq (hexact : shape.needsHostPostVerify = false)
    (hb : EncodedAs shape buildCols nBuild buildKeys)
    (hp : EncodedAs shape probeCols nProbe probeKeys) :
  equalPairs buildKeys probeKeys = samePairs buildCols probeCols nBuild nProbe
  := by
  rw [equalPairs, samePairs, hb.length, hp.length]
  apply matched_congr
  intro b hbn p hpn
  rw [mem_range] at hbn hpn
  rw [Bool.eq_iff_iff, decide_eq_true_eq, hb.key_eq_iff hexact hp hbn hpn]

theorem Encodes.fold_inv {cells : List Value}
    (hshape : shape.needsHostPostVerify = true) (h : Encodes shape cells e) :
  ∃ bits, foldBits 0 cells = some bits ∧ e = bits.toInt64
  := by
  cases h with
  | fold _ hfold => exact ⟨_, hfold, rfl⟩
  | _ => cases hshape

/-- A folded encoding pairs the rows with equal keys and others, which the host takes out. -/
theorem EncodedAs.verified_eq (hlossy : shape.needsHostPostVerify = true)
    (hb : EncodedAs shape buildCols nBuild buildKeys)
    (hp : EncodedAs shape probeCols nProbe probeKeys)
    (hdtypes : Forall₂ (fun b p => b.dtype = p.dtype) buildCols probeCols)
    (hpairs : pairs.Perm (equalPairs buildKeys probeKeys)) :
  ∃ kept, verifyPairsOnHost buildCols probeCols pairs = some kept ∧
    kept.Perm (samePairs buildCols probeCols nBuild nProbe)
  := by
  have hints : ∀ {b p}, b < nBuild → p < nProbe →
      (∀ v ∈ cellsAt buildCols b, IsInt v) ∧ ∀ v ∈ cellsAt probeCols p, IsInt v := by
    intro b p hbn hpn
    obtain ⟨e, -, hbe⟩ := hb.encodes b hbn
    obtain ⟨f, -, hpf⟩ := hp.encodes p hpn
    obtain ⟨bits, hbits, -⟩ := hbe.fold_inv hlossy
    obtain ⟨bits', hbits', -⟩ := hpf.fold_inv hlossy
    exact ⟨foldBits_isInt hbits, foldBits_isInt hbits'⟩
  have hrange : ∀ {pair}, pair ∈ pairs → pair.1 < nBuild ∧ pair.2 < nProbe := by
    intro pair hpair
    rw [hpairs.mem_iff, equalPairs, mem_matched, hb.length, hp.length] at hpair
    exact ⟨mem_range.mp hpair.1, mem_range.mp hpair.2.1⟩
  refine ⟨pairs.filter (fun pair => sameCells buildCols probeCols pair.1 pair.2), ?_, ?_⟩
  · apply verifyPairsOnHost_eq
    intro pair hpair
    obtain ⟨hbn, hpn⟩ := hrange hpair
    obtain ⟨hbi, hpi⟩ := hints hbn hpn
    rw [rowsEq_eq hdtypes hbi hpi, sameCells, some.injEq, decide_eq_decide,
      canonCellsKey_eq_iff hbi hpi]
    rfl
  · apply (hpairs.filter _).trans
    rw [equalPairs, samePairs, hb.length, hp.length]
    apply Perm.of_eq
    apply filter_matched_of_imp
    intro b hbn p hpn hsame
    rw [mem_range] at hbn hpn
    obtain ⟨hbi, hpi⟩ := hints hbn hpn
    obtain ⟨e, he, hbe⟩ := hb.encodes b hbn
    obtain ⟨f, hf, hpf⟩ := hp.encodes p hpn
    obtain ⟨bits, hbits, rfl⟩ := hbe.fold_inv hlossy
    obtain ⟨bits', hbits', rfl⟩ := hpf.fold_inv hlossy
    rw [sameCells, decide_eq_true_eq, canonCellsKey_eq_iff hbi hpi] at hsame
    rw [hsame, hbits', some.injEq] at hbits
    rw [he, hf, hbits, decide_eq_true_eq]

/-- The pairs a shape trusts are those of the rows with equal keys. -/
theorem trustedPairs_perm (hk : kernels.Contract) (hb : EncodedAs shape buildCols nBuild buildKeys)
    (hp : EncodedAs shape probeCols nProbe probeKeys)
    (hdtypes : Forall₂ (fun b p => b.dtype = p.dtype) buildCols probeCols)
    (hfound : kernels.collide buildKeys probeKeys = some found)
    (h : trustedPairs shape buildCols probeCols found.1 = some pairs) :
  pairs.Perm (samePairs buildCols probeCols nBuild nProbe)
  := by
  obtain ⟨hpairs, -, -⟩ := hk.collide hfound
  unfold trustedPairs at h
  split at h
  · rename_i hlossy
    obtain ⟨kept, hkept, hperm⟩ := hb.verified_eq hlossy hp hdtypes hpairs
    rw [h, some.injEq] at hkept
    rw [hkept]
    exact hperm
  · rename_i hexact
    injection h with h
    subst h
    rw [← hb.equalPairs_eq (Bool.eq_false_iff.mpr hexact) hp]
    exact hpairs

end Pairs

/-! ### One slot for each key -/

theorem nodup_equalPairs (build probe : List Int64) :
  (equalPairs build probe).Nodup
  := (Nodup.product nodup_range nodup_range).filter _

theorem PairsOnce.nodup {build probe : List Int64} (h : PairsOnce build probe pairs) :
  pairs.Nodup
  := Nodup.of_map _ h.once

/-- With distinct build keys, one slot for each key is enough. -/
theorem PairsOnce.perm_of_nodup {build probe : List Int64} (h : PairsOnce build probe pairs)
    (hnodup : build.Nodup) :
  pairs.Perm (equalPairs build probe)
  := by
  rw [perm_ext_iff_of_nodup h.nodup (nodup_equalPairs build probe)]
  rintro ⟨b, p⟩
  constructor
  · exact h.equal _
  · intro hpair
    obtain ⟨⟨b', p'⟩, hmem, hp⟩ := mem_map.mp (h.found _ hpair)
    subst hp
    have hequal := h.equal _ hmem
    rw [equalPairs, mem_matched, mem_range, mem_range, decide_eq_true_eq]
      at hpair hequal
    have hbb : b = b' :=
      (getElem?_inj hpair.1 hnodup).mp (hpair.2.2.trans hequal.2.2.symm)
    rw [hbb]
    exact hmem

theorem encodeKeysI64_nodup
    (h : encodeKeysI64 column dtype = some keys) (hnodup : column.cells.Nodup) :
  keys.Nodup
  := by
  have hspec := encodeKeysI64_spec h
  have hexact : (intShape dtype).needsHostPostVerify = false := by
    unfold intShape
    split <;> rfl
  rw [nodup_iff_getElem?_ne_getElem?]
  intro i j hij hj heq
  rw [hspec.length] at hj
  rw [hspec.key_eq_iff hexact hspec (by omega) hj, sameCells, decide_eq_true_eq] at heq
  have hints : ∀ row < column.length, ∀ v ∈ cellsAt [column] row, IsInt v := by
    intro row hrow v hv
    obtain ⟨e, -, he⟩ := hspec.encodes row hrow
    rw [cellsAt, map_singleton, mem_singleton] at hv
    rw [cellsAt, map_singleton, ← hv] at he
    unfold intShape at he
    split at he
    · cases he
      · rfl
      · rename_i hshape _
        cases hshape
    · cases he
      · rfl
      · rename_i hshape _
        cases hshape
  rw [canonCellsKey_eq_iff (hints i (by omega)) (hints j hj), cellsAt, cellsAt, map_singleton,
    map_singleton, cons.injEq, Column.cell, Column.cell,
    getD_eq_getElem _ _ (Nat.lt_trans hij hj), getD_eq_getElem _ _ hj] at heq
  have := hnodup.getElem_inj_iff.mp heq.1
  omega

theorem rowsFitU32_eq_some {nBuild nProbe : Nat} (h : rowsFitU32 nBuild nProbe = some ()) :
  nBuild < 2 ^ 32 ∧ nProbe < 2 ^ 32
  := by
  unfold rowsFitU32 at h
  split at h
  · assumption
  · cases h

/-- When a join by one integer key with distinct build keys answers. -/
theorem uniqueIntJoin_eq_some {build probe : Batch} {buildIdx probeIdx : List Nat}
    (h : uniqueIntJoin kernel build probe buildIdx probeIdx = some pairs) :
  ∃ b p dtype, buildIdx = [b] ∧ probeIdx = [p] ∧ (build.column b).dtype = .plain dtype ∧
    (dtype = .int32 ∨ dtype = .int64) ∧ (build.column b).cells.Nodup ∧
    hashJoinIndicesOnGpu kernel (build.column b) (probe.column p) dtype = some pairs
  := by
  unfold uniqueIntJoin at h
  split at h
  · rename_i b p
    split at h
    · rename_i dtype hdtype
      split at h
      · rename_i hgate
        exact ⟨b, p, dtype, rfl, rfl, hdtype, hgate.1, of_decide_eq_true hgate.2, h⟩
      · cases h
    · cases h
  · cases h

section Rows

variable {build probe : Batch} {buildIdx probeIdx : List Nat} {pairs : List RowPair}

/-- A join by one integer key with distinct build keys pairs the rows with equal keys. -/
theorem uniqueIntJoin_perm
    (hk : ∀ {build probe pairs}, kernel build probe = some pairs → PairsOnce build probe pairs)
    (hidx : KeysIn (build, probe) buildIdx probeIdx)
    (h : uniqueIntJoin kernel build probe buildIdx probeIdx = some pairs) :
  pairs.Perm (samePairs (keyColumnsOf build buildIdx) (keyColumnsOf probe probeIdx) build.numRows
    probe.numRows) ∧ build.numRows < 2 ^ 32 ∧ probe.numRows < 2 ^ 32
  := by
  obtain ⟨b, p, dtype, rfl, rfl, hdtype, -, hcells, h⟩ := uniqueIntJoin_eq_some h
  obtain ⟨⟨⟩, hfit, h⟩ := bind_eq_some_iff.mp h
  obtain ⟨buildKeys, hbuildKeys, h⟩ := bind_eq_some_iff.mp h
  obtain ⟨probeKeys, hprobeKeys, h⟩ := bind_eq_some_iff.mp h
  have hexact : (intShape dtype).needsHostPostVerify = false := by
    unfold intShape
    split <;> rfl
  have hb := encodeKeysI64_spec hbuildKeys
  have hp := encodeKeysI64_spec hprobeKeys
  rw [keyColumnsOf, keyColumnsOf, map_singleton, map_singleton,
    ← Batch.length_column (hidx.build b mem_cons_self).1,
    ← Batch.length_column (hidx.probe p mem_cons_self).1, ← hb.equalPairs_eq hexact hp]
  exact ⟨(hk h).perm_of_nodup (encodeKeysI64_nodup hbuildKeys hcells), rowsFitU32_eq_some hfit⟩

/-- A join by a key of some shape pairs the rows with equal keys. -/
theorem hashJoinIndicesWithShape_perm (hk : kernels.Contract) {shape : KeyShape}
    (hdtypes : Forall₂ (fun b p => b.dtype = p.dtype)
      (keyColumnsOf build buildIdx) (keyColumnsOf probe probeIdx))
    (h : hashJoinIndicesWithShape kernels (keyColumnsOf build buildIdx)
      (keyColumnsOf probe probeIdx) build.numRows probe.numRows shape = some pairs) :
  pairs.Perm (samePairs (keyColumnsOf build buildIdx) (keyColumnsOf probe probeIdx) build.numRows
    probe.numRows) ∧ build.numRows < 2 ^ 32 ∧ probe.numRows < 2 ^ 32
  := by
  obtain ⟨⟨⟩, hfit, h⟩ := bind_eq_some_iff.mp h
  obtain ⟨buildKeys, hbuildKeys, h⟩ := bind_eq_some_iff.mp h
  obtain ⟨probeKeys, hprobeKeys, h⟩ := bind_eq_some_iff.mp h
  obtain ⟨found, hfound, h⟩ := bind_eq_some_iff.mp h
  exact ⟨trustedPairs_perm hk (encodeKeysForShape_spec hbuildKeys)
    (encodeKeysForShape_spec hprobeKeys) hdtypes hfound h, rowsFitU32_eq_some hfit⟩

end Rows

/-! ### Outer joins -/

section Outer

variable {shape : KeyShape} {buildCols probeCols : List Column} {nBuild nProbe : Nat}
  {pairs : List RowPair}

theorem notFound_eq (n : Nat) (found : List Nat) :
  notFound n found = (range n).filter (fun row => !found.contains row)
  := by
  apply filter_congr
  intro row hrow
  rw [mem_range] at hrow
  rw [mark_getD _ _ _ (by rwa [length_replicate]), getD_eq_getElem?_getD,
    getElem?_replicate_of_lt hrow]
  rfl

/-- The probe rows that are in no pair. -/
theorem notFound_probe (h : pairs.Perm (samePairs buildCols probeCols nBuild nProbe)) :
  notFound nProbe (pairs.map Prod.snd) =
    unmatchedLeft (fun p b => sameCells buildCols probeCols b p) (range nProbe)
      (range nBuild)
  := by
  rw [notFound_eq, unmatchedLeft]
  apply filter_congr
  intro p hp
  congr 1
  rw [Bool.eq_iff_iff, contains_iff_mem, List.mem_map, List.any_eq_true]
  constructor
  · rintro ⟨⟨b, p'⟩, hpair, rfl⟩
    rw [h.mem_iff, samePairs, mem_matched] at hpair
    exact ⟨b, hpair.1, hpair.2.2⟩
  · rintro ⟨b, hb, hsame⟩
    refine ⟨(b, p), ?_, rfl⟩
    rw [h.mem_iff, samePairs, mem_matched]
    exact ⟨hb, hp, hsame⟩

/-- The build rows that are in no pair. -/
theorem notFound_build (h : pairs.Perm (samePairs buildCols probeCols nBuild nProbe)) :
  notFound nBuild (pairs.map Prod.fst) =
    unmatchedRight (fun p b => sameCells buildCols probeCols b p) (range nProbe)
      (range nBuild)
  := by
  rw [notFound_eq, unmatchedRight]
  apply filter_congr
  intro b hb
  congr 1
  rw [Bool.eq_iff_iff, contains_iff_mem, List.mem_map, List.any_eq_true]
  constructor
  · rintro ⟨⟨b', p⟩, hpair, rfl⟩
    rw [h.mem_iff, samePairs, mem_matched] at hpair
    exact ⟨p, hpair.2.1, hpair.2.2⟩
  · rintro ⟨p, hp, hsame⟩
    refine ⟨(b, p), ?_, rfl⟩
    rw [h.mem_iff, samePairs, mem_matched]
    exact ⟨hb, hp, hsame⟩

theorem addedBuildRows_perm (hk : kernels.Contract) {buildKeys probeKeys : List Int64}
    (hb : EncodedAs shape buildCols nBuild buildKeys)
    (hp : EncodedAs shape probeCols nProbe probeKeys)
    (hfound : kernels.collide buildKeys probeKeys = some found)
    (hpairs : pairs.Perm (samePairs buildCols probeCols nBuild nProbe)) {emit : Bool}
    {rows : List Nat} (h : addedBuildRows kernels shape nBuild emit found.2 pairs = some rows) :
  (rows.map (fun b => ((none, some b) : Pair))).Perm
    (keptRight emit (fun p b => sameCells buildCols probeCols b p) (range nProbe)
      (range nBuild))
  := by
  unfold addedBuildRows at h
  split at h
  · rename_i hemit
    rw [hemit, keptRight, if_pos rfl]
    apply Perm.map
    unfold unmatchedBuildRows at h
    split at h
    · injection h with h
      rw [← h, notFound_build hpairs]
    · rename_i hexact
      obtain ⟨-, hlen, hbits⟩ := hk.collide hfound
      apply (hk.unmatchedBuild h).trans
      apply Perm.of_eq
      rw [hlen, hb.length, unmatchedRight]
      apply filter_congr
      intro b hbn
      rw [mem_range] at hbn
      rw [hbits b (by rw [hb.length]; exact hbn), hp.length]
      congr 1
      rw [Bool.eq_iff_iff, List.any_eq_true, List.any_eq_true]
      apply exists_congr
      intro p
      apply and_congr_right
      intro hpn
      rw [mem_range] at hpn
      rw [decide_eq_true_eq, hb.key_eq_iff (Bool.eq_false_iff.mpr hexact) hp hbn hpn]
  · rename_i hemit
    injection h with h
    rw [← h, keptRight, if_neg hemit]
    exact Perm.refl _

/-- The pairs of equal keys, probe row first. -/
theorem swapped_perm (h : pairs.Perm (samePairs buildCols probeCols nBuild nProbe)) :
  ((pairs.map bothSides).map Prod.swap).Perm
    ((matched (fun p b => sameCells buildCols probeCols b p) (range nProbe)
      (range nBuild)).map (Prod.map some some))
  := by
  have hswap : (pairs.map bothSides).map Prod.swap =
      (pairs.map Prod.swap).map (Prod.map some some) := by
    rw [List.map_map, List.map_map]
    rfl
  rw [hswap]
  exact ((h.map Prod.swap).trans (matched_swap _ _ _)).map _

/-- An outer join on the device finds the pairs of the join. -/
theorem outerJoinIndices_perm (hk : kernels.Contract)
    (hdtypes : Forall₂ (fun b p => b.dtype = p.dtype) buildCols probeCols)
    {emitProbe emitBuild : Bool} {all : List Pair}
    (h : outerJoinIndices kernels buildCols probeCols nBuild nProbe shape emitProbe emitBuild =
      some all) :
  (all.map Prod.swap).Perm (outerJoin emitProbe emitBuild
    (fun p b => sameCells buildCols probeCols b p) (range nProbe) (range nBuild)) ∧
    nBuild < 2 ^ 32 ∧ nProbe < 2 ^ 32
  := by
  obtain ⟨⟨⟩, hfit, h⟩ := bind_eq_some_iff.mp h
  obtain ⟨buildKeys, hbuildKeys, h⟩ := bind_eq_some_iff.mp h
  obtain ⟨probeKeys, hprobeKeys, h⟩ := bind_eq_some_iff.mp h
  obtain ⟨found, hfound, h⟩ := bind_eq_some_iff.mp h
  obtain ⟨pairs, htrusted, h⟩ := bind_eq_some_iff.mp h
  obtain ⟨rows, hrows, h⟩ := bind_eq_some_iff.mp h
  injection h with h
  subst h
  refine ⟨?_, rowsFitU32_eq_some hfit⟩
  have hb := encodeKeysForShape_spec hbuildKeys
  have hp := encodeKeysForShape_spec hprobeKeys
  have hpairs := trustedPairs_perm hk hb hp hdtypes hfound htrusted
  apply Perm.trans _ (outerJoin_parts _ _ _ _ _).symm
  rw [map_append, map_append, append_assoc]
  apply (swapped_perm hpairs).append
  apply Perm.append
  · apply Perm.of_eq
    rw [keptLeft, notFound_probe hpairs]
    cases emitProbe with
    | false => rfl
    | true =>
      rw [if_pos rfl, if_pos rfl, List.map_map]
      rfl
  · rw [List.map_map]
    exact addedBuildRows_perm hk hb hp hfound hpairs hrows

end Outer

end CratonBolt.Joins
