import CratonBolt.GroupBy.NumericGroups

/-!
# The keys whose groups are found

The choice among the executors, and the condition on the keys under which the one chosen reports
the groups of SQL.
-/

namespace CratonBolt.GroupBy

open Grouping List
open Bool (false_eq_true)
open KeyArray (asStringArray hasNulls_iff keyAt)
open Prod (fst snd)

variable {kernels : Kernels} {plan : AggregatePlan} {batch : RecordBatch}
variable {cols : List (ColumnIo × KeyArray)}

/-- The packed executor on rows none of which is encoded as the marker of an empty slot. -/
theorem buildKeyArrays_eq (h : NumericKeys plan.aggregate batch cols)
    (hp : packable (cols.map (fun c => c.1.dtype))) (groups : List (Int64 × List Nat)) :
  buildKeyArrays groups (packComponents (cols.map fst)) = .ok ⟨cols.map (fun c => c.1.dtype),
    groups.map (Prod.map (reportedKey (packComponents (cols.map fst))) id)⟩
  := by
  simp only [buildKeyArrays, keyDtypes_packedKeys h hp]
  rfl

theorem bind_launchShape {rows : List (Nat × Int64)} {x : BoltResult Grouped} :
  (do launchShape rows; x) = (launchShape rows).bind (fun _ => x)
  := rfl

/-- Nothing is reported without a launch. -/
theorem reports_launch_iff {n : Nat} {rows : List (Nat × Int64)} {x : BoltResult Grouped} :
  Reports cols n ((launchShape rows).bind (fun _ => x)) ↔
    Launchable (rows.map snd) ∧ Reports cols n x
  := by
  rw [← launchShape_eq_ok]
  cases launchShape rows with
  | error e => simp [Reports, Except.bind]
  | ok u => simp [Except.bind]

/-- The packed keys of complete rows are as many as their keys. -/
theorem launchable_encoded_iff (h : NumericKeys plan.aggregate batch cols)
    (hp : packable (cols.map (fun c => c.1.dtype)))
    (hall : ∀ row < batch.numRows, noNull (cols.map snd) row) :
  Launchable (((completeRows (cols.map snd) batch.numRows).map (Prod.map id encodeTuple)).map snd) ↔
    Launchable ((range batch.numRows).map (sqlKey (cols.map snd)))
  := by
  have hrows : ((completeRows (cols.map snd) batch.numRows).map (Prod.map id encodeTuple)).map snd
      = ((range batch.numRows).map (sqlKey (cols.map snd))).map encodeTuple := by
    rw [completeRows, filter_eq_self.mpr (fun row hrow => hall row (mem_range.mp hrow))]
    simp only [map_map]
    rfl
  have hdecode : ∀ k ∈ (range batch.numRows).map (sqlKey (cols.map snd)),
      decodeKey (encodeTuple k) (packComponents (cols.map fst)) = k := by
    intro k hk
    obtain ⟨row, hrow, rfl⟩ := mem_map.mp hk
    have hlt := mem_range.mp hrow
    exact decodeKey_complete h hp (row, _) (mem_completeRows.mpr ⟨hlt, hall row hlt, rfl⟩)
  rw [hrows]
  apply launchable_map
  intro a ha b hb hab
  rw [← hdecode a ha, hab, hdecode b hb]

section Fitting

variable (h : NumericKeys plan.aggregate batch cols)
variable (hf : FieldsFit plan.aggregate.outputSchema cols)
include h hf

theorem reports_tryNew_iff (ctx : String) (groups : List (List Literal × List Nat)) :
  Reports cols batch.numRows (Grouped.tryNew ctx plan.aggregate.outputSchema
      ⟨cols.map (fun c => c.1.dtype), groups⟩) ↔
    IsGrouping (sqlRows (cols.map snd) batch.numRows) groups
  := by
  constructor
  · rintro ⟨out, hout, hg⟩
    rwa [Grouped.tryNew_eq_ok hout] at hg
  · intro hg
    refine ⟨_, Grouped.tryNew_of_isGrouping hf ?_ ?_ hg ctx, hg⟩
    · intro c hc
      simp [h.dtypes c hc]
    · intro c hc
      exact keyColumns_lengths h.columns c.2 (mem_map_of_mem hc)

variable (hpre : plan.pre = false)
include hpre

theorem reports_valid_iff (hp : packable (cols.map (fun c => c.1.dtype))) :
  Reports cols batch.numRows (executeGroupbyValid kernels plan batch) ↔
    (∀ row < batch.numRows, noNull (cols.map snd) row) ∧
      Launchable ((range batch.numRows).map (sqlKey (cols.map snd)))
  := by
  obtain ⟨ctx, groups, hg, hexec⟩ := executeGroupbyValid_packable h kernels hpre hp
  rw [hexec, reports_launch_iff, reports_tryNew_iff h hf, isGrouping_complete_iff hg, and_comm]
  apply and_congr_right
  intro hall
  exact launchable_encoded_iff h hp hall

theorem reports_wide_iff :
  Reports cols batch.numRows (executeGroupbyWide plan batch) ↔
    ∀ row < batch.numRows, noNull (cols.map snd) row
  := by
  obtain ⟨ctx, groups, hg, hexec⟩ := executeGroupbyWide_eq h hpre
  rw [hexec, reports_tryNew_iff h hf, isGrouping_complete_iff hg]

/-- The packed executor where it makes no group of the `NULL`s. -/
theorem reports_packed_iff (hp : packable (cols.map (fun c => c.1.dtype)))
    (hnone : ((packedKeys cols batch.numRows).components.length == 1 &&
      (packedKeys cols batch.numRows).keyValid.isSome) = false) :
  Reports cols batch.numRows
      (executeGroupbyPacked kernels plan batch (packedKeys cols batch.numRows)) ↔
    (∀ row < batch.numRows, noNull (cols.map snd) row) ∧
      ((∃ row < batch.numRows, encodeTuple (sqlKey (cols.map snd) row) = emptyKey) ∨
        ∀ row < batch.numRows, encodeTuple (sqlKey (cols.map snd) row) ≠ nullGroupKey) ∧
      Launchable ((range batch.numRows).map (sqlKey (cols.map snd)))
  := by
  have hmem : ∀ r : Nat × Int64, r ∈ (completeRows (cols.map snd) batch.numRows).map
      (Prod.map id encodeTuple) → ∃ row < batch.numRows,
        r.2 = encodeTuple (sqlKey (cols.map snd) row) := by
    intro r hr
    obtain ⟨⟨row, key⟩, hrow, rfl⟩ := mem_map.mp hr
    obtain ⟨hlt, -, rfl⟩ := mem_completeRows.mp hrow
    exact ⟨row, hlt, rfl⟩
  simp only [executeGroupbyPacked, hnone, Bool.false_and, false_eq_true, if_false,
    keepValid_packedKeys h]
  split
  case isTrue hempty =>
    obtain ⟨r, hr, hre⟩ := any_eq_true.mp hempty
    obtain ⟨row, hlt, hrow⟩ := hmem r hr
    rw [reports_valid_iff h hf hpre hp]
    constructor
    · rintro ⟨hall, hlaunch⟩
      exact ⟨hall, Or.inl ⟨row, hlt, hrow ▸ by simpa using hre⟩, hlaunch⟩
    · rintro ⟨hall, -, hlaunch⟩
      exact ⟨hall, hlaunch⟩
  case isFalse hempty =>
    have hne : ∀ r ∈ (completeRows (cols.map snd) batch.numRows).map
        (Prod.map id encodeTuple), r.2 ≠ emptyKey := by
      simpa only [any_eq_true, beq_iff_eq, not_exists, not_and] using hempty
    have hg := (kernels.classic_exact _ hne).perm (sortGroups_perm _).symm
    simp only [packedKeys, buildKeyArrays_eq h hp]
    rw [bind_launchShape, reports_launch_iff]
    simp only [bind, Except.bind]
    rw [reports_tryNew_iff h hf, isGrouping_reported_iff h hp hg, and_comm, and_assoc]
    apply and_congr_right
    intro hall
    rw [launchable_encoded_iff h hp hall]
    apply and_congr_left'
    refine ⟨Or.inr, fun hor => hor.resolve_left ?_⟩
    rintro ⟨row, hlt, hrow⟩
    refine hne (row, encodeTuple (sqlKey (cols.map snd) row)) ?_ hrow
    exact mem_map.mpr ⟨_, mem_completeRows.mpr ⟨hlt, hall row hlt, rfl⟩, rfl⟩

end Fitting

/-- A single key, with the reserved key for `NULL`. -/
def encodeOrNull (t : List Literal) : Int64 :=
  if t = [.null] then nullGroupKey else encodeTuple t

variable {row : Nat} {hi lo : ColumnIo × KeyArray}

section NullGroup

variable {c : ColumnIo × KeyArray} (h : NumericKeys plan.aggregate batch [c])

include h

theorem sqlKey_single (hrow : noNull [c.2] row) :
  [keyValueAt c.2 row] = sqlKey [c.2] row
  := sqlKey_of_noNull h hrow

theorem sqlKey_single_eq_null_iff (hlt : row < batch.numRows) :
  sqlKey [c.2] row = [.null] ↔ noNull [c.2] row = false
  := by
  have hnull : .null ∈ sqlKey [c.2] row ↔ noNull [c.2] row = false := null_mem_sqlKey_iff h hlt
  rw [← hnull]
  simp [sqlKey, eq_comm]

/-- The keys uploaded when the `NULL`s get a group. -/
theorem rowsOf_encodeOrNull :
  rowsOf (zipWith (fun k keep => if keep then k else nullGroupKey)
      (packedKeys [c] batch.numRows).keysI64 ((range batch.numRows).map (noNull [c.2])))
    = (sqlRows [c.2] batch.numRows).map (Prod.map id encodeOrNull)
  := by
  simp only [packedKeys]
  rw [zipWith_map, zipWith_self, rowsOf_map_range, sqlRows, map_map]
  apply map_congr_left
  intro row hrow
  have hnull := sqlKey_single_eq_null_iff h (mem_range.mp hrow)
  cases hnn : noNull [c.2] row with
  | true =>
    have hne : sqlKey [c.2] row ≠ [.null] := by simp [hnull, hnn]
    simp [encodeOrNull, hne, sqlKey_single h hnn]
  | false => simp [encodeOrNull, hnull.mpr hnn]

/-- A row is packed into the key of the `NULL` group. -/
theorem any_nullGroupKey_iff :
  ((packedKeys [c] batch.numRows).keysI64.zip ((range batch.numRows).map (noNull [c.2]))).any
      (fun p => p.2 && p.1 == nullGroupKey) = true ↔
    ∃ row < batch.numRows, encodeTuple (sqlKey [c.2] row) = nullGroupKey
  := by
  simp only [packedKeys, zip_map', any_map, any_eq_true, mem_range,
    Function.comp_apply, Bool.and_eq_true, beq_iff_eq, map_cons, map_nil]
  apply exists_congr
  intro row
  apply and_congr_right
  intro hlt
  constructor
  · rintro ⟨hnn, hkey⟩
    rwa [sqlKey_single h hnn] at hkey
  · intro hkey
    have hnn : noNull [c.2] row = true := by
      by_contra hno
      rw [(sqlKey_single_eq_null_iff h hlt).mpr (by simpa using hno)] at hkey
      cases hkey
    exact ⟨hnn, by rwa [sqlKey_single h hnn]⟩

/-- The keys of the rows are reported, if none is packed into the key of the `NULL` group. -/
theorem reportedKey_encodeOrNull (hlt : row < batch.numRows)
    (hne : encodeTuple (sqlKey [c.2] row) ≠ nullGroupKey) :
  reportedKey (packComponents [c.1]) (encodeOrNull (sqlKey [c.2] row)) = sqlKey [c.2] row
  := by
  by_cases hnull : sqlKey [c.2] row = [.null]
  · simp [hnull, encodeOrNull, reportedKey, packComponents]
  · have hnn : noNull [c.2] row = true := by
      by_contra hno
      exact hnull ((sqlKey_single_eq_null_iff h hlt).mpr (by simpa using hno))
    rw [encodeOrNull, if_neg hnull, reportedKey, if_neg hne]
    have hp : packable ([c].map (fun c => c.1.dtype)) := rfl
    have hmem : (row, sqlKey [c.2] row) ∈ completeRows ([c].map snd) batch.numRows :=
      mem_completeRows.mpr ⟨hlt, hnn, rfl⟩
    exact decodeKey_complete h hp (row, sqlKey [c.2] row) hmem

/-- The packed keys are as many as the keys, if none is packed into the key of the `NULL` group. -/
theorem launchable_encodeOrNull_iff
    (hne : ∀ row < batch.numRows, encodeTuple (sqlKey [c.2] row) ≠ nullGroupKey) :
  Launchable (((sqlRows [c.2] batch.numRows).map (Prod.map id encodeOrNull)).map snd) ↔
    Launchable ((range batch.numRows).map (sqlKey [c.2]))
  := by
  have hrows : ((sqlRows [c.2] batch.numRows).map (Prod.map id encodeOrNull)).map snd
      = ((range batch.numRows).map (sqlKey [c.2])).map encodeOrNull := by
    simp only [sqlRows, map_map]
    rfl
  have hdecode : ∀ k ∈ (range batch.numRows).map (sqlKey [c.2]),
      reportedKey (packComponents [c.1]) (encodeOrNull k) = k := by
    intro k hk
    obtain ⟨row, hrow, rfl⟩ := mem_map.mp hk
    have hlt := mem_range.mp hrow
    exact reportedKey_encodeOrNull h hlt (hne row hlt)
  rw [hrows]
  apply launchable_map
  intro a ha b hb hab
  rw [← hdecode a ha, hab, hdecode b hb]

/-- The packed executor where it makes a group of the `NULL`s. -/
theorem reports_nullGroup_iff (hf : FieldsFit plan.aggregate.outputSchema [c])
    (hpre : plan.pre = false) (hnull : c.2.hasNulls = true)
    (hempty : ∀ row < batch.numRows, encodeTuple (sqlKey [c.2] row) ≠ emptyKey) :
  Reports [c] batch.numRows
      (executeGroupbyPacked kernels plan batch (packedKeys [c] batch.numRows)) ↔
    (∀ row < batch.numRows, encodeTuple (sqlKey [c.2] row) ≠ nullGroupKey) ∧
      Launchable ((range batch.numRows).map (sqlKey [c.2]))
  := by
  have hlen : c.2.length = batch.numRows := keyColumns_lengths h.columns c.2 (by simp)
  have hmask : (packedKeys [c] batch.numRows).keyValid
      = some ((range batch.numRows).map (noNull [c.2])) := by
    simp [packedKeys, rowMask, hnull, noNull]
  have hcomp : (packedKeys [c] batch.numRows).components = packComponents [c.1] := rfl
  simp only [executeGroupbyPacked, hmask, Option.getD_some, Option.isSome_some, hcomp,
    packComponents, length_singleton, beq_self_eq_true, Bool.true_and, if_true]
  split
  case isTrue hhit =>
    obtain ⟨row, hlt, hrow⟩ := (any_nullGroupKey_iff h).mp hhit
    rw [reports_valid_iff h hf hpre rfl]
    refine iff_of_false ?_ (fun hall => hall.1 row hlt hrow)
    rintro ⟨hall, -⟩
    obtain ⟨r, hr, hnullr⟩ := hasNulls_iff.mp hnull
    have hnn := hall r (hlen ▸ hr)
    simp [noNull, hnullr] at hnn
  case isFalse hhit =>
    have hne : ∀ row < batch.numRows, encodeTuple (sqlKey [c.2] row) ≠ nullGroupKey := by
      intro row hlt hrow
      exact hhit ((any_nullGroupKey_iff h).mpr ⟨row, hlt, hrow⟩)
    rw [rowsOf_encodeOrNull h]
    have hnoempty : ∀ r ∈ (sqlRows [c.2] batch.numRows).map (Prod.map id encodeOrNull),
        r.2 ≠ emptyKey := by
      intro r hr
      obtain ⟨⟨row, key⟩, hrow, rfl⟩ := mem_map.mp hr
      obtain ⟨hlt, rfl⟩ := mem_sqlRows.mp hrow
      simp only [Prod.map_snd, encodeOrNull]
      split
      · decide
      · exact hempty row hlt
    have hany : ((sqlRows [c.2] batch.numRows).map (Prod.map id encodeOrNull)).any
        (fun r => r.2 == emptyKey) = false := by
      simpa only [any_eq_false, beq_iff_eq] using hnoempty
    have hg := (kernels.classic_exact _ hnoempty).perm (sortGroups_perm _).symm
    have hdecode : ∀ p ∈ sqlRows [c.2] batch.numRows,
        reportedKey (packComponents [c.1]) (encodeOrNull p.2) = p.2 := by
      rintro ⟨row, key⟩ hmem
      obtain ⟨hlt, rfl⟩ := mem_sqlRows.mp hmem
      exact reportedKey_encodeOrNull h hlt (hne row hlt)
    simp only [hany, false_eq_true, if_false]
    have hbuild := buildKeyArrays_eq h rfl
      (sortGroups (kernels.classic ((sqlRows [c.2] batch.numRows).map (Prod.map id encodeOrNull))))
    simp only [map_cons, map_nil, packComponents] at hbuild
    simp only [hbuild]
    rw [bind_launchShape, reports_launch_iff]
    simp only [bind, Except.bind]
    rw [launchable_encodeOrNull_iff h hne, and_comm]
    exact and_congr_left'
      (iff_of_true ((reports_tryNew_iff h hf _ _).mpr (hg.decode _ hdecode)) hne)

end NullGroup

/-! ### The choice of executor -/

theorem keyArrayContainsSentinel_iff {c : KeyArray} :
  keyArrayContainsSentinel c = true ↔ ∃ row < c.length, c.keyAt row = .int64 emptyKey
  := by
  cases c with
  | int64 cells =>
    simp only [keyArrayContainsSentinel, any_eq_true, KeyArray.length, KeyArray.nulls,
      length_map, keyAt, asStringArray, KeyArray.isNullAt, keyValueAt]
    constructor
    · rintro ⟨cell, hcell, hval⟩
      obtain ⟨row, hlt, rfl⟩ := mem_iff_getElem.mp hcell
      refine ⟨row, hlt, ?_⟩
      simp_all
    · rintro ⟨row, hlt, hval⟩
      refine ⟨cells[row], getElem_mem hlt, ?_⟩
      cases hnull : cells[row].isNull <;> simp_all
  | int32 cells | float32 cells | float64 cells =>
    simp only [keyArrayContainsSentinel, false_eq_true, false_iff, not_exists, not_and]
    intro row _
    simp only [keyAt, asStringArray, keyValueAt]
    cases cells[row]? <;> split <;> simp
  | utf8 cells | dictionary values codes =>
    simp only [keyArrayContainsSentinel, false_eq_true, false_iff, not_exists, not_and]
    intro row _
    simp only [keyAt, asStringArray]
    generalize getD _ row none = s
    cases s <;> simp
  | other dtype nulls =>
    simp only [keyArrayContainsSentinel, false_eq_true, false_iff, not_exists, not_and]
    intro row _
    simp only [keyAt, asStringArray, keyValueAt]
    split <;> simp

theorem scanSentinel_eq (hcols : keyColumns plan.aggregate batch = some cols) :
  scanSentinel plan.aggregate batch = .ok (cols.any (fun c => keyArrayContainsSentinel c.2))
  := by
  have h' := keyColumns_forall₂ hcols
  rw [scanSentinel]
  clear hcols
  generalize plan.aggregate.groupBy = ords at h'
  induction h' with
  | nil => rfl
  | cons hhead _ ih =>
    simp only [scanSentinel.go, hhead.1, hhead.2, any_cons, ih]
    split <;> simp_all

/-- The keys of the rows hold the marker of an empty slot. -/
theorem any_sentinel_iff (h : NumericKeys plan.aggregate batch cols) :
  cols.any (fun c => keyArrayContainsSentinel c.2) = true ↔
    ∃ k ∈ (range batch.numRows).map (sqlKey (cols.map snd)), .int64 emptyKey ∈ k
  := by
  have hlen := keyColumns_lengths h.columns
  simp only [any_eq_true, keyArrayContainsSentinel_iff, mem_map, mem_range,
    exists_exists_and_eq_and, sqlKey]
  constructor
  · rintro ⟨c, hc, row, hrow, hkey⟩
    exact ⟨row, hlen c.2 (mem_map_of_mem hc) ▸ hrow, c, hc, hkey⟩
  · rintro ⟨row, hrow, c, hc, hkey⟩
    exact ⟨c, hc, row, (hlen c.2 (mem_map_of_mem hc)).symm ▸ hrow, hkey⟩

theorem executeGroupbyNumeric_eq (h : NumericKeys plan.aggregate batch cols)
    (hpre : plan.pre = false) :
  executeGroupbyNumeric kernels plan batch =
    if cols.any (fun c => keyArrayContainsSentinel c.2) then executeGroupbyValid kernels plan batch
    else if packable (cols.map (fun c => c.1.dtype)) then
      executeGroupbyPacked kernels plan batch (packedKeys cols batch.numRows)
    else executeGroupbyWide plan batch
  := by
  simp only [executeGroupbyNumeric, groupBy_ne_nil h, hpre, false_eq_true, if_false,
    scanSentinel_eq h.columns, bind, Except.bind]
  cases hp : packable (cols.map (fun c => c.1.dtype)) with
  | true => simp [packKeys_packable h hp]
  | false =>
    obtain ⟨e, he, hwide⟩ := packKeys_wide h hp
    simp [he, hwide]

/-- The reserved keys of a single key column are the extreme 64-bit integers. -/
theorem mem_keys_single {c : ColumnIo × KeyArray} (h : NumericKeys plan.aggregate batch [c]) :
  ([.int64 emptyKey] ∈ (range batch.numRows).map (sqlKey [c.2]) ↔
      ∃ row < batch.numRows, encodeTuple (sqlKey [c.2] row) = emptyKey) ∧
    ([.int64 nullGroupKey] ∈ (range batch.numRows).map (sqlKey [c.2]) ↔
      ∃ row < batch.numRows, encodeTuple (sqlKey [c.2] row) = nullGroupKey)
  := by
  have hrow : ∀ row < batch.numRows,
      (sqlKey [c.2] row = [.int64 emptyKey] ↔ encodeTuple (sqlKey [c.2] row) = emptyKey) ∧
      (sqlKey [c.2] row = [.int64 nullGroupKey] ↔
        encodeTuple (sqlKey [c.2] row) = nullGroupKey) := by
    intro row hlt
    cases hnn : noNull [c.2] row with
    | false =>
      rw [(sqlKey_single_eq_null_iff h hlt).mpr hnn]
      decide
    | true =>
      have htyped : HasDtypes (sqlKey [c.2] row) [c.1.dtype] ∧
          ∀ v ∈ sqlKey [c.2] row, IsCanonical v := sqlKey_typed h hlt hnn
      have hv : (c.2.keyAt row).dtype = some c.1.dtype := by
        simpa [HasDtypes, sqlKey] using htyped.1
      have hc : IsCanonical (c.2.keyAt row) := htyped.2 _ (by simp [sqlKey])
      have hres := encodeTuple_single_reserved hv (h.numeric c (by simp)) hc
      simp only [sqlKey, map_cons, map_nil, cons.injEq, and_true]
      exact ⟨hres.1.symm, hres.2.symm⟩
  simp only [mem_map, mem_range]
  constructor
  · apply exists_congr
    intro row
    exact and_congr_right (fun hlt => (hrow row hlt).1)
  · apply exists_congr
    intro row
    exact and_congr_right (fun hlt => (hrow row hlt).2)

/-- A single key. -/
theorem reports_single_iff {c : ColumnIo × KeyArray} (h : NumericKeys plan.aggregate batch [c])
    (hf : FieldsFit plan.aggregate.outputSchema [c]) (hpre : plan.pre = false) :
  Reports [c] batch.numRows (executeGroupbyNumeric kernels plan batch) ↔
    KeysRepresentable [c.1.dtype] ((range batch.numRows).map (sqlKey [c.2])) ∧
      Launchable ((range batch.numRows).map (sqlKey [c.2]))
  := by
  have hp : packable ([c].map (fun c => c.1.dtype)) := rfl
  have hlen : c.2.length = batch.numRows := keyColumns_lengths h.columns c.2 (by simp)
  obtain ⟨hmin, hmax⟩ := mem_keys_single h
  have hsentinel : [c].any (fun c => keyArrayContainsSentinel c.2) = true ↔
      [.int64 emptyKey] ∈ (range batch.numRows).map (sqlKey [c.2]) := by
    rw [any_sentinel_iff h]
    simp [sqlKey, eq_comm]
  have hnull : [.null] ∈ (range batch.numRows).map (sqlKey [c.2]) ↔ c.2.hasNulls = true := by
    rw [hasNulls_iff, hlen]
    simp only [mem_map, mem_range]
    apply exists_congr
    intro row
    apply and_congr_right
    intro hlt
    rw [sqlKey_single_eq_null_iff h hlt]
    simp [noNull]
  have hcomplete : (∀ row < batch.numRows, noNull [c.2] row) ↔ c.2.hasNulls = false := by
    rw [← Bool.not_eq_true, hasNulls_iff, hlen]
    simp [noNull]
  simp only [executeGroupbyNumeric_eq h hpre, hp, if_true, KeysRepresentable, hnull]
  split
  case isTrue hs =>
    rw [reports_valid_iff h hf hpre hp]
    have hmem := hsentinel.mp hs
    simp only [map_cons, map_nil, hcomplete, hmem, not_true, false_and, implies_true,
      and_true, imp_false, Bool.not_eq_true]
  case isFalse hs =>
    have hnot : [.int64 emptyKey] ∉ (range batch.numRows).map (sqlKey [c.2]) :=
      fun hm => hs (hsentinel.mpr hm)
    have hempty : ∀ row < batch.numRows, encodeTuple (sqlKey [c.2] row) ≠ emptyKey :=
      fun row hlt he => hnot (hmin.mpr ⟨row, hlt, he⟩)
    have hnone : (∀ row < batch.numRows, encodeTuple (sqlKey [c.2] row) ≠ nullGroupKey) ↔
        [.int64 nullGroupKey] ∉ (range batch.numRows).map (sqlKey [c.2]) := by
      rw [hmax]
      simp
    cases hhas : c.2.hasNulls with
    | true =>
      rw [reports_nullGroup_iff h hf hpre hhas hempty, hnone]
      apply and_congr_left'
      simp [hnot]
    | false =>
      rw [reports_packed_iff h hf hpre hp (by simp [packedKeys, rowMask, hhas])]
      simp only [map_cons, map_nil, hcomplete, hhas, true_and]
      rw [hnone, ← hmin]
      apply and_congr_left'
      simp [hnot]

/-- The reserved keys of two key columns. -/
theorem keys_pair_iff (h : NumericKeys plan.aggregate batch [hi, lo])
    (hp : packable [hi.1.dtype, lo.1.dtype])
    (hall : ∀ row < batch.numRows, noNull [hi.2, lo.2] row) :
  ((∃ row < batch.numRows, encodeTuple (sqlKey [hi.2, lo.2] row) = emptyKey) ∨
      ∀ row < batch.numRows, encodeTuple (sqlKey [hi.2, lo.2] row) ≠ nullGroupKey) ↔
    ([.int32 Int32.maxValue, .int32 (-1)] ∈ (range batch.numRows).map (sqlKey [hi.2, lo.2]) →
      [.int32 Int32.minValue, .int32 0] ∈ (range batch.numRows).map (sqlKey [hi.2, lo.2]))
  := by
  have hnarrow : ∀ c ∈ [hi, lo], c.1.dtype = .int32 ∨ c.1.dtype = .float32 := by
    intro c hc
    have hnum := h.numeric c hc
    have hn : isNarrow c.1.dtype := by
      simp only [packable, Bool.and_eq_true] at hp
      simp only [mem_cons, not_mem_nil, or_false] at hc
      obtain rfl | rfl := hc
      · exact hp.1
      · exact hp.2
    cases hd : c.1.dtype <;> simp_all [isNarrow, isNumericKey]
  have hrow : ∀ row < batch.numRows, ∀ c ∈ [hi, lo],
      (c.2.keyAt row).dtype = some c.1.dtype ∧ IsCanonical (c.2.keyAt row) := by
    intro row hlt
    have htyped : HasDtypes (sqlKey [hi.2, lo.2] row) [hi.1.dtype, lo.1.dtype] ∧
        ∀ v ∈ sqlKey [hi.2, lo.2] row, IsCanonical v := sqlKey_typed h hlt (hall row hlt)
    simpa [HasDtypes, sqlKey, and_assoc, and_left_comm] using htyped
  have hnarrowAt : ∀ row < batch.numRows, ∀ c ∈ [hi, lo],
      (c.2.keyAt row).dtype = some .int32 ∨ (c.2.keyAt row).dtype = some .float32 := by
    intro row hlt c hc
    rw [(hrow row hlt c hc).1]
    simpa using hnarrow c hc
  have hmax : ∀ row < batch.numRows, encodeTuple (sqlKey [hi.2, lo.2] row) = nullGroupKey ↔
      sqlKey [hi.2, lo.2] row = [.int32 Int32.maxValue, .int32 (-1)] := by
    intro row hlt
    simp only [sqlKey, map_cons, map_nil, cons.injEq, and_true]
    exact encodeTuple_pair_nullGroupKey (hnarrowAt row hlt hi (by simp))
      (hnarrowAt row hlt lo (by simp)) (hrow row hlt hi (by simp)).2 (hrow row hlt lo (by simp)).2
  have hmin : ∀ row < batch.numRows, encodeTuple (sqlKey [hi.2, lo.2] row) = emptyKey ↔
      hi.2.keyAt row = .int32 Int32.minValue ∧ narrowBits (lo.2.keyAt row) = 0 := by
    intro row hlt
    exact encodeTuple_pair_emptyKey (hnarrowAt row hlt hi (by simp))
      (hnarrowAt row hlt lo (by simp)) (hrow row hlt hi (by simp)).2
  simp only [mem_map, mem_range]
  constructor
  · rintro (⟨row, hlt, he⟩ | hno) ⟨row', hlt', he'⟩
    · -- The second column holds 32-bit integers, so its zero bits are the integer zero.
      have hlo : lo.1.dtype = .int32 := by
        have htype := (hrow row' hlt' lo (by simp)).1
        simp only [sqlKey, map_cons, map_nil, cons.injEq, and_true] at he'
        simpa [he'.2, Literal.dtype] using htype.symm
      obtain ⟨hhi, hzero⟩ := (hmin row hlt).mp he
      have htype := (hrow row hlt lo (by simp)).1
      rw [hlo] at htype
      refine ⟨row, hlt, ?_⟩
      simp only [sqlKey, map_cons, map_nil, hhi, cons.injEq, and_true, true_and]
      obtain ⟨v, hv⟩ : ∃ v, lo.2.keyAt row = .int32 v := by
        cases hv : lo.2.keyAt row <;> simp_all [Literal.dtype]
      rw [hv] at hzero
      rw [hv, show v = 0 by simpa [narrowBits] using congrArg UInt32.toInt32 hzero]
    · exact absurd ((hmax row' hlt').mpr he') (hno row' hlt')
  · intro himp
    by_cases hex : ∃ row < batch.numRows,
        sqlKey [hi.2, lo.2] row = [.int32 Int32.maxValue, .int32 (-1)]
    · obtain ⟨row, hlt, he⟩ := himp hex
      left
      refine ⟨row, hlt, (hmin row hlt).mpr ?_⟩
      simp only [sqlKey, map_cons, map_nil, cons.injEq, and_true] at he
      rw [he.1, he.2]
      exact ⟨rfl, rfl⟩
    · right
      intro row hlt he
      exact hex ⟨row, hlt, (hmax row hlt).mp he⟩

theorem keysRepresentable_several {dtypes : List DataType} (h : dtypes.length ≠ 1)
    (keys : List (List Literal)) :
  KeysRepresentable dtypes keys ↔ (∀ k ∈ keys, .null ∉ k) ∧
    if packable dtypes then
      [.int32 Int32.maxValue, .int32 (-1)] ∈ keys → [.int32 Int32.minValue, .int32 0] ∈ keys
    else ∀ k ∈ keys, .int64 emptyKey ∉ k
  := by
  match dtypes with
  | [] => rfl
  | [_] => exact absurd rfl h
  | _ :: _ :: _ => rfl

/-- Two keys of 32 bits. -/
theorem reports_pair_iff (h : NumericKeys plan.aggregate batch [hi, lo])
    (hf : FieldsFit plan.aggregate.outputSchema [hi, lo]) (hpre : plan.pre = false)
    (hp : packable [hi.1.dtype, lo.1.dtype]) :
  Reports [hi, lo] batch.numRows (executeGroupbyNumeric kernels plan batch) ↔
    KeysRepresentable [hi.1.dtype, lo.1.dtype]
      ((range batch.numRows).map (sqlKey [hi.2, lo.2])) ∧
      Launchable ((range batch.numRows).map (sqlKey [hi.2, lo.2]))
  := by
  have hp' : packable ([hi, lo].map (fun c => c.1.dtype)) := hp
  have hnosentinel : [hi, lo].any (fun c => keyArrayContainsSentinel c.2) = false := by
    have hne : ∀ c ∈ [hi, lo], isNarrow c.1.dtype → keyArrayContainsSentinel c.2 = false := by
      intro c hc hn
      have hd := h.dtypes c hc
      cases hv : c.2 <;> simp_all [keyArrayContainsSentinel, KeyArray.keyDtype, isNarrow]
      simp [← hd] at hn
    simp only [packable, Bool.and_eq_true] at hp
    simp [hne hi (by simp) hp.1, hne lo (by simp) hp.2]
  rw [executeGroupbyNumeric_eq h hpre, hnosentinel, hp', keysRepresentable_several (by simp), hp]
  simp only [false_eq_true, if_false, if_true]
  rw [reports_packed_iff h hf hpre hp (by simp [packedKeys, packComponents]), forall_noNull_iff h,
    and_assoc]
  apply and_congr_right
  intro hall
  exact and_congr_left' (keys_pair_iff h hp ((forall_noNull_iff h).mpr hall))

/-- Keys that are not strings: the groups reported are those of SQL for these keys only. -/
theorem reports_numeric_iff (kernels : Kernels) (h : NumericKeys plan.aggregate batch cols)
    (hf : FieldsFit plan.aggregate.outputSchema cols) (hpre : plan.pre = false) :
  Reports cols batch.numRows (executeGroupbyNumeric kernels plan batch) ↔
    KeysRepresentable (cols.map (fun c => c.1.dtype))
      ((range batch.numRows).map (sqlKey (cols.map snd))) ∧
      (packable (cols.map (fun c => c.1.dtype)) = true →
        Launchable ((range batch.numRows).map (sqlKey (cols.map snd))))
  := by
  cases hp : packable (cols.map (fun c => c.1.dtype)) with
  | true =>
    rw [forall_prop_of_true rfl]
    match cols with
    | [] => cases hp
    | [c] => exact reports_single_iff h hf hpre
    | [hi, lo] => exact reports_pair_iff h hf hpre hp
    | _ :: _ :: _ :: _ => cases hp
  | false =>
    rw [and_iff_left (fun hp => by cases hp)]
    have hlen : (cols.map (fun c => c.1.dtype)).length ≠ 1 := by
      match cols with
      | [] => simp
      | [c] => cases hp
      | _ :: _ :: _ => simp
    rw [executeGroupbyNumeric_eq h hpre, keysRepresentable_several hlen, hp]
    simp only [false_eq_true, if_false]
    split
    case isTrue hs =>
      obtain ⟨k, hk, hmem⟩ := (any_sentinel_iff h).mp hs
      apply iff_of_false
      · rintro ⟨out, hout, -⟩
        exact executeGroupbyValid_wide h hp hout
      · rintro ⟨-, hno⟩
        exact hno k hk hmem
    case isFalse hs =>
      rw [reports_wide_iff h hf hpre, forall_noNull_iff h]
      rw [any_sentinel_iff h] at hs
      simp only [iff_self_and]
      intro _ k hk hmem
      exact hs ⟨k, hk, hmem⟩

end CratonBolt.GroupBy
