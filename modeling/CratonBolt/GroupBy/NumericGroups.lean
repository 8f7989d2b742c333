import CratonBolt.GroupBy.Packing
import CratonBolt.Library.Masks
import Mathlib.Data.Finset.Card

/-!
# The groups of keys that are not strings

The groups that each executor reports, and for which keys they are those of SQL: the executors
without reserved keys drop the rows with a `NULL`; the packed executor reports the reserved key as
`NULL`.
-/

namespace CratonBolt.GroupBy

open Grouping Outcome List
open ColumnIo (dtype)
open Prod (fst snd)

variable {kernels : Kernels} {plan : AggregatePlan} {batch : RecordBatch}
variable {cols : List (ColumnIo × KeyArray)}
variable {arrs : List KeyArray} {row : Nat}

/-- No key of the row is `NULL`. -/
def noNull (cols : List KeyArray) (row : Nat) : Bool := !cols.any (fun c => c.isNullAt row)

/-- The rows none of whose keys is `NULL`. -/
def completeRows (cols : List KeyArray) (numRows : Nat) : List (Nat × List Literal) :=
  ((range numRows).filter (noNull cols)).map (fun row => (row, sqlKey cols row))

variable {n : Nat} {key : List Literal} {schema : Schema} {ios : List ColumnIo}

theorem mem_sqlRows {n row : Nat} :
  (row, key) ∈ sqlRows arrs n ↔ row < n ∧ key = sqlKey arrs row
  := by
  simp only [sqlRows, mem_map, mem_range, Prod.mk.injEq]
  constructor
  · rintro ⟨_, hrow, rfl, rfl⟩
    exact ⟨hrow, rfl⟩
  · rintro ⟨hrow, rfl⟩
    exact ⟨row, hrow, rfl, rfl⟩

theorem mem_completeRows {n row : Nat} :
  (row, key) ∈ completeRows arrs n ↔ row < n ∧ noNull arrs row ∧ key = sqlKey arrs row
  := by
  simp only [completeRows, mem_map, mem_filter, mem_range, Prod.mk.injEq]
  constructor
  · rintro ⟨_, ⟨hrow, hnull⟩, rfl, rfl⟩
    exact ⟨hrow, hnull, rfl⟩
  · rintro ⟨hrow, hnull, rfl⟩
    exact ⟨row, ⟨hrow, hnull⟩, rfl, rfl⟩

/-- The output schema is one for the key columns. -/
structure FieldsFit (schema : Schema) (cols : List (ColumnIo × KeyArray)) : Prop where
  dtypes : (schema.fields.take cols.length).map Field.dtype = cols.map (fun c => c.1.dtype)
  nullable : ∀ p ∈ schema.fields.zip cols, p.2.2.hasNulls → p.1.nullable

/-- The rows of key columns whose groups the executors find. -/
def KeysRepresentable (dtypes : List DataType) (keys : List (List Literal)) : Prop :=
  match dtypes with
  | [_] =>
    ([.null] ∈ keys → [.int64 emptyKey] ∉ keys ∧ [.int64 nullGroupKey] ∉ keys) ∧
      ([.int64 nullGroupKey] ∈ keys → [.int64 emptyKey] ∈ keys)
  | dtypes =>
    (∀ k ∈ keys, .null ∉ k) ∧
      if packable dtypes then
        [.int32 Int32.maxValue, .int32 (-1)] ∈ keys → [.int32 Int32.minValue, .int32 0] ∈ keys
      else ∀ k ∈ keys, .int64 emptyKey ∉ k

instance (dtypes : List DataType) (keys : List (List Literal)) :
    Decidable (KeysRepresentable dtypes keys) :=
  match dtypes with
  | [] | _ :: _ :: _ => inferInstanceAs (Decidable (_ ∧ ite _ _ _))
  | [_] => inferInstanceAs (Decidable (_ ∧ _))

/-! ### Launches -/

section Launches

variable {α β : Type} [DecidableEq α] [DecidableEq β] {keys : List α}

/-- A launch takes so many rows and so many different keys. -/
def Launchable (keys : List α) : Prop := keys.length < 2 ^ 32 ∧ keys.dedup.length ≤ 2 ^ 30 - 8

instance (keys : List α) : Decidable (Launchable keys) := inferInstanceAs (Decidable (_ ∧ _))

theorem launchable_map {f : α → β} (hf : ∀ a ∈ keys, ∀ b ∈ keys, f a = f b → a = b) :
  Launchable (keys.map f) ↔ Launchable keys
  := by
  have himage : (keys.map f).toFinset = keys.toFinset.image f := by
    ext b
    simp
  have hcard : (keys.map f).dedup.length = keys.dedup.length := by
    rw [← card_toFinset, ← card_toFinset, himage]
    apply Finset.card_image_of_injOn
    intro a ha b hb
    exact hf a (by simpa using ha) b (by simpa using hb)
  rw [Launchable, Launchable, length_map, hcard]

end Launches

theorem doubleUpTo_le {n m fuel j : Nat} (hn : n ≤ 2 ^ m) (hj : j ≤ m) :
  doubleUpTo n fuel (2 ^ j) ≤ 2 ^ m
  := by
  induction fuel generalizing j with
  | zero => exact Nat.pow_le_pow_right (by decide) hj
  | succ fuel ih =>
    rw [doubleUpTo]
    split
    · next hlt =>
      rw [← Nat.pow_succ']
      exact ih ((Nat.pow_lt_pow_iff_right (by decide)).mp (hlt.trans_le hn))
    · exact Nat.pow_le_pow_right (by decide) hj

theorem le_doubleUpTo {n m fuel j : Nat} (hn : 2 ^ m < n) (hj : m < j + fuel) :
  2 ^ (m + 1) ≤ doubleUpTo n fuel (2 ^ j)
  := by
  induction fuel generalizing j with
  | zero => exact Nat.pow_le_pow_right (by decide) hj
  | succ fuel ih =>
    rw [doubleUpTo]
    split
    · rw [← Nat.pow_succ']
      exact ih (by omega)
    · next hge =>
      apply Nat.pow_le_pow_right (by decide)
      exact (Nat.pow_lt_pow_iff_right (by decide)).mp (hn.trans_le (Nat.le_of_not_lt hge))

/-- The hash table has less than `2 ^ 32` slots exactly when there are few enough keys. -/
theorem tableSize_lt_iff (keys : List Int64) :
  tableSize keys < 2 ^ 32 ↔ keys.dedup.length ≤ 2 ^ 30 - 8
  := by
  unfold tableSize uniqueCount
  generalize hn : min (min (keys.dedup.length * 2) (2 ^ 64 - 1) + 16) (2 ^ 64 - 1) = n
  have hpow : nextPow2 n < 2 ^ 32 ↔ n ≤ 2 ^ 31 := by
    constructor
    · intro h
      by_contra hgt
      have hle : 2 ^ 32 ≤ doubleUpTo n 63 (2 ^ 0) := le_doubleUpTo (by omega) (by omega)
      exact absurd (hle.trans_lt h) (by decide)
    · intro h
      have hle : doubleUpTo n 63 (2 ^ 0) ≤ 2 ^ 31 := doubleUpTo_le h (by omega)
      exact hle.trans_lt (by decide)
  omega

theorem launchShape_eq_ok {rows : List (Nat × Int64)} :
  launchShape rows = .ok () ↔ Launchable (rows.map snd)
  := by
  rw [launchShape, Launchable, length_map, ← tableSize_lt_iff]
  by_cases hk : 2 ^ 32 ≤ tableSize (rows.map snd)
  · rw [if_pos hk]
    exact iff_of_false nofun (fun h => absurd h.2 (Nat.not_lt.mpr hk))
  · rw [if_neg hk]
    by_cases hr : 2 ^ 32 ≤ rows.length
    · rw [if_pos hr]
      exact iff_of_false nofun (fun h => absurd h.1 (Nat.not_lt.mpr hr))
    · rw [if_neg hr]
      exact iff_of_true rfl ⟨Nat.lt_of_not_le hr, Nat.lt_of_not_le hk⟩

/-! ### Keys of complete rows -/

theorem isNullAt_of_noNull (h : noNull arrs row) {c : KeyArray} (hc : c ∈ arrs) :
  c.isNullAt row = false
  := by
  simp only [noNull, Bool.not_eq_true', any_eq_false] at h
  simpa using h c hc

theorem keyAt_numeric {c : ColumnIo × KeyArray} (hd : c.2.keyDtype = some c.1.dtype)
    (hnum : isNumericKey c.1.dtype) (row : Nat) :
  c.2.keyAt row = if c.2.isNullAt row then .null else keyValueAt c.2 row
  := by
  simp [KeyArray.keyAt, (isNumericKey_iff hd).mp hnum]

theorem sqlKey_of_noNull (h : NumericKeys plan.aggregate batch cols)
    (hrow : noNull (cols.map snd) row) :
  cols.map (fun c => keyValueAt c.2 row) = sqlKey (cols.map snd) row
  := by
  rw [sqlKey, map_map]
  apply map_congr_left
  intro c hc
  have hnull := isNullAt_of_noNull hrow (mem_map_of_mem hc)
  simp [keyAt_numeric (h.dtypes c hc) (h.numeric c hc), hnull]

theorem keyValueAt_typed {arr : KeyArray} {d : DataType} (hd : arr.keyDtype = some d)
    (hnum : isNumericKey d) (hrow : row < arr.length) :
  (keyValueAt arr row).dtype = some d ∧ IsCanonical (keyValueAt arr row)
  := by
  cases arr with
  | int32 cells | int64 cells | float32 cells | float64 cells =>
    simp only [KeyArray.length, KeyArray.nulls, length_map] at hrow
    rw [← hd]
    simp [keyValueAt, hrow, Literal.dtype, KeyArray.keyDtype, IsCanonical, canonicaliseF32_idem,
      canonicaliseF64_idem]
  | utf8 cells | dictionary values codes =>
    cases hd
    cases hnum
  | other dtype nulls => cases hd

theorem sqlKey_typed (h : NumericKeys plan.aggregate batch cols) (hlt : row < batch.numRows)
    (hrow : noNull (cols.map snd) row) :
  HasDtypes (sqlKey (cols.map snd) row) (cols.map (fun c => c.1.dtype)) ∧
    ∀ v ∈ sqlKey (cols.map snd) row, IsCanonical v
  := by
  have hlen := keyColumns_lengths h.columns
  have htyped : ∀ c ∈ cols, (keyValueAt c.2 row).dtype = some c.1.dtype ∧
      IsCanonical (keyValueAt c.2 row) := by
    intro c hc
    apply keyValueAt_typed (h.dtypes c hc) (h.numeric c hc)
    rwa [hlen c.2 (mem_map_of_mem hc)]
  rw [← sqlKey_of_noNull h hrow]
  constructor
  · simp only [HasDtypes, map_map]
    apply map_congr_left
    intro c hc
    exact (htyped c hc).1
  · intro v hv
    obtain ⟨c, hc, rfl⟩ := mem_map.mp hv
    exact (htyped c hc).2

theorem null_mem_sqlKey_iff (h : NumericKeys plan.aggregate batch cols)
    (hlt : row < batch.numRows) :
  .null ∈ sqlKey (cols.map snd) row ↔ noNull (cols.map snd) row = false
  := by
  rw [null_mem_sqlKey _ (keyColumns_lengths h.columns) hlt, noNull]
  · simp
  · intro arr harr
    obtain ⟨c, hc, rfl⟩ := mem_map.mp harr
    simp [h.dtypes c hc]

/-! ### Groups of the complete rows only -/

/-- The groups of the complete rows are those of all when all are complete. -/
theorem isGrouping_complete_iff {out : List (List Literal × List Nat)}
    (h : IsGrouping (completeRows arrs n) out) :
  IsGrouping (sqlRows arrs n) out ↔ ∀ row < n, noNull arrs row
  := by
  constructor
  · intro hall row hrow
    obtain ⟨g, hg, hr⟩ := hall.row_covered (mem_sqlRows.mpr ⟨hrow, rfl⟩)
    exact (mem_completeRows.mp (h.row_mem hg hr)).2.1
  · intro hall
    have heq : completeRows arrs n = sqlRows arrs n := by
      rw [completeRows, sqlRows, filter_eq_self.mpr]
      intro row hrow
      exact hall row (mem_range.mp hrow)
    rwa [heq] at h

theorem forall_noNull_iff (h : NumericKeys plan.aggregate batch cols) :
  (∀ row < batch.numRows, noNull (cols.map snd) row) ↔
    ∀ k ∈ (range batch.numRows).map (sqlKey (cols.map snd)), .null ∉ k
  := by
  simp only [mem_map, mem_range, forall_exists_index, and_imp, forall_apply_eq_imp_iff₂]
  apply forall₂_congr
  intro row hrow
  rw [null_mem_sqlKey_iff h hrow, Bool.not_eq_false]

/-! ### Building the result -/

theorem zip_take_length {α β : Type} (l : List α) (l' : List β) :
  (l.take l'.length).zip l' = l.zip l'
  := by
  have h : (l.zip l').take l'.length = l.zip l' := take_of_length_le (by simp)
  rw [zip, take_zipWith, take_length] at h
  exact h

theorem Grouped.tryNew_eq_ok {ctx : String} {g out : Grouped} (h : g.tryNew ctx schema = .ok out) :
  out = g
  := by
  simp only [tryNew, guard_eq_ok] at h
  exact h.2.symm

/-- The groups of SQL fit a schema for the key columns. -/
theorem Grouped.tryNew_of_isGrouping (hf : FieldsFit schema cols)
    (hd : ∀ c ∈ cols, c.2.keyDtype.isSome) (hn : ∀ c ∈ cols, c.2.length = n)
    {groups : List (List Literal × List Nat)}
    (hg : IsGrouping (sqlRows (cols.map snd) n) groups) (ctx : String) :
  Grouped.tryNew ctx schema ⟨cols.map (fun c => c.1.dtype), groups⟩
    = .ok ⟨cols.map (fun c => c.1.dtype), groups⟩
  := by
  have hfits : Grouped.fits ⟨cols.map (fun c => c.1.dtype), groups⟩
      (schema.fields.take cols.length) := by
    simp only [fits, hf.dtypes, beq_self_eq_true, Bool.true_and, all_eq_true, Bool.or_eq_true]
    intro group hgroup p hp
    obtain ⟨row, hrow⟩ := hg.key_mem hgroup
    simp only [sqlRows, sqlKey, map_map, mem_map, mem_range, Prod.mk.injEq] at hrow
    obtain ⟨row, hlt, -, hkey⟩ := hrow
    by_cases hnull : p.2 = .null
    · left
      rw [← hkey, zip_map_right] at hp
      obtain ⟨q, hq, rfl⟩ := mem_map.mp hp
      have hq' : q ∈ schema.fields.zip cols := zip_take_length schema.fields cols ▸ hq
      apply hf.nullable q hq'
      have hc : q.2 ∈ cols := (of_mem_zip hq').2
      obtain ⟨d, hd'⟩ := Option.isSome_iff_exists.mp (hd q.2 hc)
      have hrow : row < q.2.2.length := by rwa [hn q.2 hc]
      exact KeyArray.hasNulls_iff.mpr ⟨row, hrow, (KeyArray.keyAt_eq_null_iff hd' hrow).mp hnull⟩
    · right
      simpa using hnull
  simp [tryNew, hfits]

/-! ### The executor without reserved keys -/

theorem packComponents_length (hp : packable (ios.map dtype)) :
  (packComponents ios).length = ios.length
  := by
  match ios with
  | [] => cases hp
  | [_] => rfl
  | [_, _] => rfl
  | _ :: _ :: _ :: _ => cases hp

theorem keyDtypes_packComponents (hnum : ∀ io ∈ ios, isNumericKey io.dtype)
    (hp : packable (ios.map dtype)) :
  keyDtypes (packComponents ios) = .ok (ios.map dtype)
  := by
  have hone : ∀ (io : ColumnIo) (s : UInt64), isNumericKey io.dtype →
      keyDtypes [⟨io.name, io.dtype, s⟩] = .ok [io.dtype] := by
    rintro ⟨name, dtype⟩ s h
    cases dtype <;> first | rfl | cases h
  rcases ios with _ | ⟨hi, _ | ⟨lo, _ | ⟨_, _⟩⟩⟩
  · cases hp
  · exact hone hi 0 (hnum hi (by simp))
  · have hhi := mapM_eq_ok_iff.mp (hone hi 32 (hnum hi (by simp)))
    have hlo := mapM_eq_ok_iff.mp (hone lo 0 (hnum lo (by simp)))
    exact mapM_eq_ok_iff.mpr (rel_append hhi hlo)
  · cases hp

theorem dtypes_fst (cols : List (ColumnIo × KeyArray)) :
  (cols.map fst).map dtype = cols.map (fun c => c.1.dtype)
  := by
  rw [map_map]
  rfl

theorem sortGroups_perm (groups : List (Int64 × List Nat)) :
  (sortGroups groups).Perm groups
  := perm_insertionSort _ _

theorem wideKeyError_eq_none {io : ColumnIo} (h : isNumericKey io.dtype) :
  wideKeyError io = none
  := by
  obtain ⟨name, dtype⟩ := io
  cases dtype <;> first | rfl | cases h

section Numeric

variable (h : NumericKeys plan.aggregate batch cols)
include h

/-- The packed keys of the complete rows. -/
theorem keepValid_packedKeys :
  keepValid (packedKeys cols batch.numRows).keyValid
      (rowsOf (packedKeys cols batch.numRows).keysI64)
    = (completeRows (cols.map snd) batch.numRows).map (Prod.map id encodeTuple)
  := by
  have hkeep : keepValid (packedKeys cols batch.numRows).keyValid
      (rowsOf (packedKeys cols batch.numRows).keysI64)
      = ((range batch.numRows).filter (noNull (cols.map snd))).map
        (fun i => (i, encodeTuple (cols.map (fun c => keyValueAt c.2 i)))) := by
    simp only [packedKeys, rowsOf_map_range, rowMask]
    split
    · exact keepValid_map_range _ _ _
    · rename_i hnone
      rw [filter_eq_self.mpr]
      · rfl
      · intro i _
        simp only [noNull, Bool.not_eq_true', any_eq_false]
        intro c hc
        simp only [any_eq_true, not_exists, not_and, Bool.not_eq_true] at hnone
        simp [isNullAt_eq_false (hnone c hc)]
  rw [hkeep, completeRows, map_map]
  apply map_congr_left
  intro i hi
  rw [sqlKey_of_noNull h (mem_filter.mp hi).2]
  rfl

theorem groupBy_ne_nil :
  plan.aggregate.groupBy.isEmpty = false
  := by
  have hlen := keyColumns_length h.columns
  rw [isEmpty_eq_false_iff]
  intro he
  rw [he, length_nil] at hlen
  exact h.nonempty (length_eq_zero_iff.mp hlen.symm)

theorem numeric_fst :
  ∀ io ∈ cols.map fst, isNumericKey io.dtype
  := by
  intro io hio
  obtain ⟨c, hc, rfl⟩ := mem_map.mp hio
  exact h.numeric c hc

/-- The packed keys of complete rows decode to their keys. -/
theorem decodeKey_complete (hp : packable (cols.map (fun c => c.1.dtype))) :
  ∀ p ∈ completeRows (cols.map snd) batch.numRows,
    decodeKey (encodeTuple p.2) (packComponents (cols.map fst)) = p.2
  := by
  rintro ⟨row, key⟩ hmem
  obtain ⟨hlt, hrow, rfl⟩ := mem_completeRows.mp hmem
  apply decodeKey_encodeTuple
  · rw [dtypes_fst]
    exact (sqlKey_typed h hlt hrow).1
  · exact numeric_fst h
  · rwa [dtypes_fst]

theorem keyDtypes_packedKeys (hp : packable (cols.map (fun c => c.1.dtype))) :
  keyDtypes (packComponents (cols.map fst)) = .ok (cols.map (fun c => c.1.dtype))
  := by
  rw [keyDtypes_packComponents (numeric_fst h) (by rwa [dtypes_fst]), dtypes_fst]

/-- The executor without reserved keys reports the groups of the complete rows, if it can launch. -/
theorem executeGroupbyValid_packable (kernels : Kernels)
    (hpre : plan.pre = false) (hp : packable (cols.map (fun c => c.1.dtype))) :
  ∃ ctx groups, IsGrouping (completeRows (cols.map snd) batch.numRows) groups ∧
    executeGroupbyValid kernels plan batch
      = (launchShape ((completeRows (cols.map snd) batch.numRows).map
        (Prod.map id encodeTuple))).bind (fun _ => Grouped.tryNew ctx plan.aggregate.outputSchema
          ⟨cols.map (fun c => c.1.dtype), groups⟩)
  := by
  have hexact := (kernels.valid_exact ((completeRows (cols.map snd) batch.numRows).map
    (Prod.map id encodeTuple))).perm (sortGroups_perm _).symm
  refine ⟨"failed to build GROUP BY (valid-flag) RecordBatch", _,
    hexact.decode (decodeKey · (packComponents (cols.map fst))) (decodeKey_complete h hp), ?_⟩
  simp only [executeGroupbyValid, groupBy_ne_nil h, hpre, Bool.false_eq_true, if_false,
    packKeys_packable h hp, keepValid_packedKeys h, bind, Except.bind]
  simp only [packedKeys, keyDtypes_packedKeys h hp]

/-- The executor without reserved keys does not take wide keys. -/
theorem executeGroupbyValid_wide
    (hp : packable (cols.map (fun c => c.1.dtype)) = false) {out : Grouped} :
  executeGroupbyValid kernels plan batch ≠ .ok out
  := by
  obtain ⟨e, he, -⟩ := packKeys_wide h hp
  intro hout
  simp only [executeGroupbyValid, groupBy_ne_nil h, he, bind, Except.bind, Bool.false_eq_true,
    if_false] at hout
  cases hpre : plan.pre <;> simp [hpre, throw, throwThe, MonadExceptOf.throw] at hout

/-! ### The host executor for wide keys -/

theorem resolveKeyColumns_eq :
  resolveKeyColumns plan.aggregate batch = .ok cols
  := by
  apply mapM_eq_ok_iff.mpr
  apply Masks.forall₂_of_mem (keyColumns_forall₂ h.columns)
  intro ord _ c hc hcol
  have hd := arrowDtypeToPlan_eq (h.dtypes c hc) (h.numeric c hc)
  simp only [hcol.1, wideKeyError_eq_none (h.numeric c hc), hcol.2, hd, bind, Except.bind, ne_eq,
    not_true, if_false]
  rfl

/-- The host executor's rows are the complete ones. -/
theorem wideRows_eq :
  (range batch.numRows).filterMap (fun row =>
      if cols.any (fun kc => kc.2.hasNulls) && cols.any (fun kc => kc.2.isNullAt row) then none
      else some (row, cols.map (fun kc => keyValueAt kc.2 row)))
    = completeRows (cols.map snd) batch.numRows
  := by
  rw [completeRows, ← filterMap_eq_filter, map_filterMap]
  apply filterMap_congr
  intro row _
  have hany : (cols.any (fun kc => kc.2.hasNulls) && cols.any (fun kc => kc.2.isNullAt row))
      = !noNull (cols.map snd) row := by
    rw [noNull, Bool.not_not, any_map]
    apply Bool.eq_iff_iff.mpr
    simp only [Bool.and_eq_true, any_eq_true, Function.comp_apply, and_iff_right_iff_imp]
    rintro ⟨c, hc, hnull⟩
    refine ⟨c, hc, ?_⟩
    by_contra hno
    rw [isNullAt_eq_false (by simpa using hno)] at hnull
    cases hnull
  rw [hany]
  cases hrow : noNull (cols.map snd) row with
  | false => simp [Option.guard, hrow]
  | true => simp [Option.guard, hrow, sqlKey_of_noNull h hrow]

/-- The host executor reports the groups of the complete rows. -/
theorem executeGroupbyWide_eq (hpre : plan.pre = false) :
  ∃ ctx groups, IsGrouping (completeRows (cols.map snd) batch.numRows) groups ∧
    executeGroupbyWide plan batch
      = Grouped.tryNew ctx plan.aggregate.outputSchema ⟨cols.map (fun c => c.1.dtype), groups⟩
  := by
  have hperm := perm_insertionSort (fun a b => cmpTuple a.1 b.1 ≠ .gt)
    (collect (completeRows (cols.map snd) batch.numRows))
  refine ⟨"failed to build wide GROUP BY RecordBatch", _,
    (collect_isGrouping _).perm hperm.symm, ?_⟩
  simp only [executeGroupbyWide, groupBy_ne_nil h, hpre, Bool.false_eq_true, if_false,
    resolveKeyColumns_eq h, bind, Except.bind]
  rw [wideRows_eq h]

/-! ### The packed executor -/

/-- The keys of the `NULL` group are reported as `NULL`s. -/
theorem isGrouping_reported_iff
    (hp : packable (cols.map (fun c => c.1.dtype))) {groups : List (Int64 × List Nat)}
    (hg : IsGrouping ((completeRows (cols.map snd) batch.numRows).map
      (Prod.map id encodeTuple)) groups) :
  IsGrouping (sqlRows (cols.map snd) batch.numRows)
      (groups.map (Prod.map (reportedKey (packComponents (cols.map fst))) id)) ↔
    (∀ row < batch.numRows, noNull (cols.map snd) row) ∧
      ∀ row < batch.numRows, encodeTuple (sqlKey (cols.map snd) row) ≠ nullGroupKey
  := by
  constructor
  · intro hall
    have hcomplete : ∀ row < batch.numRows, noNull (cols.map snd) row := by
      intro row hrow
      obtain ⟨g', hg', hr⟩ := hall.row_covered (mem_sqlRows.mpr ⟨hrow, rfl⟩)
      obtain ⟨g, hgm, rfl⟩ := mem_map.mp hg'
      obtain ⟨⟨row', key⟩, hp, heq⟩ := mem_map.mp (hg.row_mem hgm hr)
      have hrow' : row' = row := (Prod.ext_iff.mp heq).1
      rw [← hrow']
      exact (mem_completeRows.mp hp).2.1
    refine ⟨hcomplete, ?_⟩
    intro row hrow henc
    -- The group of the reserved key would be reported under `NULL`s, which no row has.
    have hmem : (row, encodeTuple (sqlKey (cols.map snd) row)) ∈
        (completeRows (cols.map snd) batch.numRows).map (Prod.map id encodeTuple) := by
      apply mem_map.mpr
      exact ⟨_, mem_completeRows.mpr ⟨hrow, hcomplete row hrow, rfl⟩, rfl⟩
    obtain ⟨g, hgm, hk⟩ := hg.complete _ hmem
    obtain ⟨row', hkeymem⟩ := hall.key_mem (mem_map_of_mem hgm)
    obtain ⟨hlt, hkey⟩ := mem_sqlRows.mp hkeymem
    rw [Prod.map_fst, reportedKey, if_pos (hk.trans henc)] at hkey
    have hne : packComponents (cols.map fst) ≠ [] := by
      rw [← length_pos_iff, packComponents_length (by rwa [dtypes_fst]), length_map,
        length_pos_iff]
      rintro rfl
      cases hp
    obtain ⟨comp, hcomp⟩ := exists_mem_of_ne_nil _ hne
    have hnull : .null ∈ sqlKey (cols.map snd) row' := by
      rw [← hkey]
      exact mem_map.mpr ⟨comp, hcomp, rfl⟩
    rw [null_mem_sqlKey_iff h hlt, hcomplete row' hlt] at hnull
    cases hnull
  · rintro ⟨hcomplete, hne⟩
    refine (isGrouping_complete_iff (hg.decode _ ?_)).mpr hcomplete
    rintro ⟨row, key⟩ hmem
    have hdecode := decodeKey_complete h hp _ hmem
    obtain ⟨hlt, -, rfl⟩ := mem_completeRows.mp hmem
    rwa [reportedKey, if_neg (hne row hlt)]

end Numeric

end CratonBolt.GroupBy
