import CratonBolt.GroupBy.NumericRouting

/-!
# String keys by their codes

Grouping by the codes of the strings is grouping by the strings: the dictionaries code the
strings of a column one to one, and the rewritten plan and batch are again ones the executors
accept, on the code columns.
-/

namespace CratonBolt.GroupBy

open Grouping List
open Option (bind_eq_bind bind_some map_some some)
open LexDict (ofColumn)

variable {seen : List String}

/-! ### The dictionary of a column -/

theorem nodup_seeString (h : seen.Nodup) (s : Option String) :
  (seeString seen s).Nodup
  := by
  cases s with
  | none => exact h
  | some s =>
    rw [seeString]
    split
    · exact h
    · rename_i hs
      exact Nodup.append h (nodup_singleton s) (by simpa using hs)

theorem mem_seeString {s : Option String} {t : String} :
  t ∈ seeString seen s ↔ t ∈ seen ∨ s = some t
  := by
  cases s with
  | none => simp [seeString]
  | some s =>
    rw [seeString]
    split
    · simp only [some.injEq, iff_self_or]
      rintro rfl
      assumption
    · simp [eq_comm]

/-- The strings seen are distinct, and those of the part of the column that was read. -/
theorem foldl_seeString (arr : List (Option String)) (h : seen.Nodup) :
  (arr.foldl seeString seen).Nodup ∧ ∀ t, t ∈ arr.foldl seeString seen ↔ t ∈ seen ∨ some t ∈ arr
  := by
  induction arr generalizing seen with
  | nil => simp [h]
  | cons s arr ih =>
    obtain ⟨hnodup, hmem⟩ := ih (nodup_seeString h s)
    refine ⟨hnodup, ?_⟩
    intro t
    rw [foldl_cons, hmem t, mem_seeString, mem_cons, or_assoc, eq_comm]

theorem distinctStrings_spec (arr : List (Option String)) :
  (distinctStrings arr).Nodup ∧ ∀ s, s ∈ distinctStrings arr ↔ some s ∈ arr
  := by
  simpa [distinctStrings] using foldl_seeString arr nodup_nil

variable {s : String} {c : ColumnIo × KeyArray} {ord : Nat}

namespace LexDict

variable {arr : List (Option String)}

theorem decode_perm (arr : List (Option String)) :
  (ofColumn arr).decode.Perm (distinctStrings arr)
  := perm_insertionSort _ _

theorem nodup_decode (arr : List (Option String)) :
  (ofColumn arr).decode.Nodup
  := (decode_perm arr).nodup_iff.mpr (distinctStrings_spec arr).1

theorem mem_decode :
  s ∈ (ofColumn arr).decode ↔ some s ∈ arr
  := by
  rw [(decode_perm arr).mem_iff, (distinctStrings_spec arr).2]

/-- A position that is a code. -/
theorem toInt_ofNat {n : Nat} (h : n < maxDictCardinality) :
  (Int32.ofNat n).toInt = n
  := by
  apply Int32.toInt_ofNat_of_lt
  simp only [maxDictCardinality] at h
  omega

/-- A code denotes the string it was given to, and no other code does. -/
theorem stringOf_eq_some_iff (hmax : (ofColumn arr).decode.length ≤ maxDictCardinality) {c : Int32}
    :
  (ofColumn arr).stringOf c = some s ↔ s ∈ (ofColumn arr).decode ∧ (ofColumn arr).codeOf s = c
  := by
  constructor
  · intro h
    simp only [stringOf] at h
    split at h
    · cases h
    · rename_i hneg
      obtain ⟨hlt, hget⟩ := List.getElem?_eq_some_iff.mp h
      refine ⟨hget ▸ getElem_mem hlt, ?_⟩
      rw [codeOf, ← hget, (nodup_decode arr).idxOf_getElem _ hlt]
      have hnonneg : 0 ≤ c.toInt := by
        have := Int32.not_lt.mp hneg
        rw [Int32.le_iff_toInt_le] at this
        exact this
      apply Int32.toInt_inj.mp
      rw [toInt_ofNat (by omega)]
      omega
  · rintro ⟨hmem, rfl⟩
    have hlt := idxOf_lt_length_iff.mpr hmem
    have hint : ((ofColumn arr).codeOf s).toInt = (ofColumn arr).decode.idxOf s :=
      toInt_ofNat (by omega)
    have hnonneg : ¬ (ofColumn arr).codeOf s < 0 := by
      rw [Int32.not_lt, Int32.le_iff_toInt_le, hint]
      exact Int.natCast_nonneg _
    simp only [stringOf, hnonneg, if_false, hint, Int.toNat_natCast]
    rw [getElem?_eq_getElem hlt, getElem_idxOf hlt]

theorem codeOf_nonneg (hmax : (ofColumn arr).decode.length ≤ maxDictCardinality)
    (hmem : s ∈ (ofColumn arr).decode) :
  0 ≤ ((ofColumn arr).codeOf s).toInt ∧ ((ofColumn arr).codeOf s).toInt < maxDictCardinality
  := by
  have hlt := idxOf_lt_length_iff.mpr hmem
  rw [codeOf, toInt_ofNat (by omega)]
  omega

end LexDict

/-! ### Key columns and their codes -/

/-- The dictionary of a string column. -/
def KeyArray.dict (arr : KeyArray) : Option LexDict := arr.asStringArray.map ofColumn

/-- A string column turned into its codes. -/
def KeyArray.coded (arr : KeyArray) : KeyArray :=
  match arr.asStringArray with
  | some strings => (ofColumn strings).codes strings
  | none => arr

/-- The input of a string column turned into that of its codes. -/
def codedInput (io : ColumnIo) (arr : KeyArray) : ColumnIo :=
  if arr.asStringArray.isSome then { io with dtype := .int32 } else io

/-- A key column turned into its codes. -/
def codeColumn (c : ColumnIo × KeyArray) : ColumnIo × KeyArray := (codedInput c.1 c.2, c.2.coded)

/-- A column has more distinct strings than are coded. -/
def KeyArray.tooManyStrings (arr : KeyArray) : Bool :=
  arr.asStringArray.any (fun strings => maxDictCardinality < (distinctStrings strings).length)

open KeyArray (coded dict tooManyStrings)

theorem codedInput_name (io : ColumnIo) (arr : KeyArray) :
  (codedInput io arr).name = io.name
  := by
  simp only [codedInput]
  split <;> rfl

namespace KeyArray

variable {arr : KeyArray} {strings : List (Option String)}

theorem nulls_of_asStringArray (h : arr.asStringArray = some strings) :
  arr.nulls = strings.map Option.isNone
  := by
  cases arr <;> cases h
  · rfl
  · simp [nulls]

theorem coded_of_asStringArray (h : arr.asStringArray = some strings) :
  arr.coded = .int32 (strings.map (fun s =>
    ⟨(s.map (ofColumn strings).codeOf).getD 0, s.isNone⟩))
  := by
  rw [coded, h]
  rfl

theorem coded_of_none (h : arr.asStringArray = none) :
  arr.coded = arr
  := by
  rw [coded, h]

theorem nulls_coded (arr : KeyArray) :
  arr.coded.nulls = arr.nulls
  := by
  cases h : arr.asStringArray with
  | none => rw [coded_of_none h]
  | some strings =>
    rw [coded_of_asStringArray h, nulls_of_asStringArray h]
    exact map_map

theorem length_coded (arr : KeyArray) :
  arr.coded.length = arr.length
  := by
  rw [length, nulls_coded, length]

theorem hasNulls_coded (arr : KeyArray) :
  arr.coded.hasNulls = arr.hasNulls
  := by
  rw [hasNulls, nulls_coded, hasNulls]

theorem keyDtype_of_asStringArray (h : arr.asStringArray = some strings) :
  arr.keyDtype = some .utf8
  := by
  cases arr <;> cases h <;> rfl

/-- The codes are never strings. -/
theorem asStringArray_coded (arr : KeyArray) :
  arr.coded.asStringArray = none
  := by
  cases h : arr.asStringArray with
  | none => rwa [coded_of_none h]
  | some strings =>
    rw [coded_of_asStringArray h]
    rfl

theorem keyDtype_coded {io : ColumnIo} (hd : arr.keyDtype = some io.dtype) :
  arr.coded.keyDtype = some (codedInput io arr).dtype
  := by
  cases h : arr.asStringArray with
  | none => simp [coded_of_none h, codedInput, h, hd]
  | some strings =>
    rw [coded_of_asStringArray h, codedInput, h]
    rfl

/-- The codes of a dictionary that is not too large. -/
theorem dict_length_le (hs : arr.asStringArray = some strings) (h : arr.tooManyStrings = false) :
  (ofColumn strings).decode.length ≤ maxDictCardinality
  := by
  rw [(LexDict.decode_perm strings).length_eq]
  simpa [tooManyStrings, hs] using h

/-- The key of a row in the code column of a string column. -/
theorem keyAt_coded (hs : arr.asStringArray = some strings) {row : Nat} (hrow : row < arr.length) :
  (arr.keyAt row = .null ∧ arr.coded.keyAt row = .null) ∨
    ∃ s ∈ (ofColumn strings).decode, arr.keyAt row = .utf8 s ∧
      arr.coded.keyAt row = .int32 ((ofColumn strings).codeOf s)
  := by
  have hlt : row < strings.length := by
    simpa [length, nulls_of_asStringArray hs] using hrow
  have hkey : arr.keyAt row = (strings.getD row none).elim .null .utf8 := by
    rw [keyAt, hs]
  have hget : strings.getD row none = strings[row] := by simp [hlt]
  rw [hkey, hget, coded_of_asStringArray hs]
  cases hv : strings[row] with
  | none =>
    left
    simp [keyAt, asStringArray, isNullAt, nulls, hlt, hv]
  | some s =>
    right
    refine ⟨s, LexDict.mem_decode.mpr (hv ▸ getElem_mem hlt), ?_⟩
    simp [keyAt, asStringArray, isNullAt, nulls, keyValueAt, hlt, hv]

end KeyArray

/-! ### Reading the string keys -/

section Rewriting

variable {kernels : Kernels} {plan : AggregatePlan} {batch : RecordBatch}
variable {cols : List (ColumnIo × KeyArray)}

theorem stringKeys_eq (h : Accepts kernels plan batch cols) :
  stringKeys plan.aggregate batch = some (cols.map (fun c => c.2.asStringArray))
  := by
  apply Outcome.mapM_eq_some_iff.mpr
  rw [forall₂_map_right_iff]
  apply Masks.forall₂_of_mem (keyColumns_forall₂ h.columns)
  intro ord _ c hc hcol
  have hd := h.dtypes c hc
  simp only [hcol.1, hcol.2, bind_eq_bind, bind_some]
  cases hs : c.2.asStringArray with
  | some strings => rfl
  | none =>
    have hne : c.1.dtype ≠ .utf8 := by
      intro he
      cases hv : c.2 <;> simp_all [KeyArray.keyDtype, KeyArray.asStringArray]
    simp [hne]

theorem buildDict_eq (arr : KeyArray) :
  buildDict arr.asStringArray = if arr.tooManyStrings then none else some arr.dict
  := by
  cases hs : arr.asStringArray with
  | none => simp [buildDict, tooManyStrings, dict, hs]
  | some strings =>
    simp [buildDict, tooManyStrings, dict, hs,
      (LexDict.decode_perm strings).length_eq]

theorem buildDicts_eq (arrs : List KeyArray) :
  buildDicts (arrs.map KeyArray.asStringArray) =
    if arrs.any tooManyStrings then none else some (arrs.map dict)
  := by
  rw [buildDicts]
  induction arrs with
  | nil => rfl
  | cons arr arrs ih =>
    rw [map_cons, mapM_cons, ih, buildDict_eq]
    cases h₁ : arr.tooManyStrings <;> cases h₂ : arrs.any tooManyStrings <;>
      simp [h₁, h₂]

/-! ### The rewritten plan and batch -/

/-- Two keys of one name are one column. -/
theorem column_eq_of_name (h : Accepts kernels plan batch cols) {c c' : ColumnIo × KeyArray}
    (hc : c ∈ cols) (hc' : c' ∈ cols) (hname : c.1.name = c'.1.name) :
  c.2 = c'.2
  := by
  have hcol := keyColumns_column h.columns hc
  rw [hname, keyColumns_column h.columns hc'] at hcol
  exact (some.inj hcol).symm

theorem mem_zip_dicts {dict : Option LexDict} {ords : List Nat}
    {R : Nat → ColumnIo × KeyArray → Prop} (hR : Forall₂ R ords cols) :
  (ord, dict) ∈ ords.zip (cols.map (fun c => c.2.dict)) ↔
    ∃ c, (ord, c) ∈ ords.zip cols ∧ R ord c ∧ dict = c.2.dict
  := by
  rw [zip_map_right, mem_map]
  constructor
  · rintro ⟨⟨_, c⟩, hmem, heq⟩
    simp only [Prod.map_apply, id_eq, Prod.mk.injEq] at heq
    obtain ⟨rfl, rfl⟩ := heq
    exact ⟨c, hmem, (forall₂_iff_zip.mp hR).2 hmem, rfl⟩
  · rintro ⟨c, hmem, -, rfl⟩
    exact ⟨(ord, c), hmem, rfl⟩

theorem foldl_toInt32 (pairs : List (Nat × Option LexDict)) (inputs : List ColumnIo) (i : Nat) :
  (pairs.foldl (fun inputs p =>
      if p.2.isSome then inputs.modify p.1 (fun io => { io with dtype := .int32 }) else inputs)
      inputs)[i]?
    = if pairs.any (fun p => p.1 == i && p.2.isSome) then
        (inputs[i]?).map (fun io => { io with dtype := .int32 })
      else inputs[i]?
  := by
  induction pairs generalizing inputs with
  | nil => simp
  | cons p pairs ih =>
    rw [foldl_cons, ih, any_cons]
    cases hp : p.2.isSome with
    | false => simp only [Bool.false_eq_true, if_false, Bool.and_false, Bool.false_or]
    | true =>
      by_cases hi : p.1 = i
      · subst hi
        cases hin : inputs[p.1]? <;> simp [hin]
      · have hbeq : (p.1 == i) = false := by simpa using hi
        simp only [if_true, hbeq, Bool.false_and, Bool.false_or, getElem?_modify_ne _ _ hi]

section

variable (h : Accepts kernels plan batch cols)
include h

theorem rewriteInputs_getElem? (hmem : (ord, c) ∈ plan.aggregate.groupBy.zip cols)
    (hin : plan.aggregate.inputs[ord]? = some c.1) :
  (rewriteInputs plan.aggregate (cols.map (fun c => c.2.dict)))[ord]? = some (codedInput c.1 c.2)
  := by
  have hR := keyColumns_forall₂ h.columns
  have hany : (plan.aggregate.groupBy.zip (cols.map (fun c => c.2.dict))).any
      (fun p => p.1 == ord && p.2.isSome) = c.2.asStringArray.isSome := by
    apply Bool.eq_iff_iff.mpr
    simp only [any_eq_true, Bool.and_eq_true, beq_iff_eq]
    constructor
    · rintro ⟨⟨ord', dict⟩, hp, rfl, hsome⟩
      obtain ⟨c', hmem', ⟨hin', -⟩, rfl⟩ := (mem_zip_dicts hR).mp hp
      have hname : c'.1.name = c.1.name := by
        rw [some.inj (hin'.symm.trans hin)]
      rw [← column_eq_of_name h (of_mem_zip hmem').2 (of_mem_zip hmem).2 hname]
      simpa [dict] using hsome
    · intro hsome
      refine ⟨(ord, c.2.dict), ?_, rfl, by simpa [dict] using hsome⟩
      exact (mem_zip_dicts hR).mpr ⟨c, hmem, (forall₂_iff_zip.mp hR).2 hmem, rfl⟩
  rw [rewriteInputs, foldl_toInt32, hany, hin, codedInput]
  split <;> rfl

/-- What a name of a column is replaced by. -/
theorem mem_codeColumns {name : String} {arr : KeyArray} :
  (name, arr) ∈ codeColumns plan.aggregate (cols.map (fun c => c.2.asStringArray))
      (cols.map (fun c => c.2.dict)) ↔
    ∃ c ∈ cols, c.1.name = name ∧ c.2.asStringArray.isSome ∧ arr = c.2.coded
  := by
  have hR := keyColumns_forall₂ h.columns
  simp only [codeColumns, mem_reverse, mem_filterMap]
  constructor
  · rintro ⟨⟨ord, strings, dict⟩, hmem, hval⟩
    rw [zip_map', zip_map_right, mem_map] at hmem
    obtain ⟨⟨ord', c⟩, hmem, heq⟩ := hmem
    simp only [Prod.map_apply, id_eq, Prod.mk.injEq] at heq
    obtain ⟨rfl, rfl, rfl⟩ := heq
    have hc := (of_mem_zip hmem).2
    have hin := ((forall₂_iff_zip.mp hR).2 hmem).1
    cases hs : c.2.asStringArray with
    | none => simp [hs, hin] at hval
    | some strings =>
      simp only [hin, hs, dict, map_some, bind_eq_bind, bind_some,
        Option.pure_def, some.injEq, Prod.mk.injEq] at hval
      refine ⟨c, hc, hval.1, by simp [hs], ?_⟩
      rw [← hval.2, coded, hs]
  · rintro ⟨c, hc, rfl, hsome, rfl⟩
    obtain ⟨strings, hs⟩ := Option.isSome_iff_exists.mp hsome
    obtain ⟨i, hlt, rfl⟩ := mem_iff_getElem.mp hc
    have hlt' : i < plan.aggregate.groupBy.length := by rwa [hR.length_eq]
    have hmem : (plan.aggregate.groupBy[i], cols[i]) ∈ plan.aggregate.groupBy.zip cols := by
      apply mem_iff_getElem.mpr
      exact ⟨i, by simp [hlt, hlt'], by simp⟩
    have hin := ((forall₂_iff_zip.mp hR).2 hmem).1
    refine ⟨(plan.aggregate.groupBy[i], cols[i].2.asStringArray, cols[i].2.dict), ?_, ?_⟩
    · rw [zip_map', zip_map_right, mem_map]
      exact ⟨_, hmem, rfl⟩
    · simp only [hin, hs, dict, map_some, bind_eq_bind, bind_some,
        Option.pure_def, some.injEq, Prod.mk.injEq, true_and]
      rw [coded, hs]

/-- What the column of a key is replaced by. -/
theorem lookup_codeColumns (hc : c ∈ cols) :
  ((codeColumns plan.aggregate (cols.map (fun c => c.2.asStringArray))
      (cols.map (fun c => c.2.dict))).lookup c.1.name).getD c.2 = c.2.coded
  := by
  cases hl : (codeColumns plan.aggregate (cols.map (fun c => c.2.asStringArray))
      (cols.map (fun c => c.2.dict))).lookup c.1.name with
  | some arr =>
    obtain ⟨before, after, heq, -⟩ := lookup_eq_some_iff.mp hl
    have hmem : (c.1.name, arr) ∈ codeColumns plan.aggregate
        (cols.map (fun c => c.2.asStringArray)) (cols.map (fun c => c.2.dict)) := by
      simp [heq]
    obtain ⟨c', hc', hname, -, rfl⟩ := (mem_codeColumns h).mp hmem
    rw [Option.getD_some, column_eq_of_name h hc' hc hname]
  | none =>
    rw [Option.getD_none]
    cases hs : c.2.asStringArray with
    | none => rw [KeyArray.coded_of_none hs]
    | some strings =>
      have hmem := (mem_codeColumns h).mpr ⟨c, hc, rfl, by simp [hs], rfl⟩
      exact absurd hmem (by
        rw [lookup_eq_none_iff] at hl
        intro hm
        simpa using hl _ hm)

end

/-- The plan with the string keys turned into their codes. -/
def codedPlan (plan : AggregatePlan) (cols : List (ColumnIo × KeyArray)) : AggregatePlan where
  pre := false
  aggregate := rewriteAggregate plan.aggregate (cols.map (fun c => c.2.dict))

variable (h : Accepts kernels plan batch cols)
include h

/-- The batch can be rewritten; its key columns become the codes. -/
theorem rewriteBatch_spec :
  ∃ coded, rewriteBatch batch (codeColumns plan.aggregate (cols.map (fun c => c.2.asStringArray))
      (cols.map (fun c => c.2.dict))) = .ok coded ∧ coded.numRows = batch.numRows ∧
    ∀ c ∈ cols, coded.column? c.1.name = some c.2.coded
  := by
  have hlen := keyColumns_lengths h.columns
  generalize hreplace : codeColumns plan.aggregate (cols.map (fun c => c.2.asStringArray))
    (cols.map (fun c => c.2.dict)) = replace
  have hlengths : ∀ d ∈ batch.columns.map (fun c => (c.1, (replace.lookup c.1).getD c.2)),
      d.2.length = batch.numRows := by
    intro d hd
    obtain ⟨c, hc, rfl⟩ := mem_map.mp hd
    cases hl : replace.lookup c.1 with
    | none => exact batch.lengths c hc
    | some arr =>
      obtain ⟨before, after, heq, -⟩ := lookup_eq_some_iff.mp hl
      have hmem : (c.1, arr) ∈ replace := by simp [heq]
      rw [← hreplace] at hmem
      obtain ⟨c', hc', -, -, rfl⟩ := (mem_codeColumns h).mp hmem
      rw [Option.getD_some, KeyArray.length_coded]
      exact hlen c'.2 (mem_map_of_mem hc')
  have hcolumn : ∀ c ∈ cols,
      ((batch.columns.map (fun c => (c.1, (replace.lookup c.1).getD c.2))).find?
        (fun d => d.1 == c.1.name)).map Prod.snd = some c.2.coded := by
    intro c hc
    have hcol := keyColumns_column h.columns hc
    simp only [RecordBatch.column?, Option.map_eq_some_iff] at hcol
    obtain ⟨d, hd, hd2⟩ := hcol
    have hname : d.1 = c.1.name := by simpa using find?_some hd
    have hfind : (batch.columns.map (fun c => (c.1, (replace.lookup c.1).getD c.2))).find?
        (fun d => d.1 == c.1.name) = some (d.1, (replace.lookup d.1).getD d.2) := by
      rw [find?_map]
      simp only [Function.comp_def, hd, map_some]
    rw [hfind, map_some, hname, hd2, ← hreplace, lookup_codeColumns h hc]
  have hne : batch.columns.map (fun c => (c.1, (replace.lookup c.1).getD c.2)) ≠ [] := by
    obtain ⟨c, hc⟩ := exists_mem_of_ne_nil cols h.nonempty
    intro hnil
    have := hcolumn c hc
    simp [hnil] at this
  generalize hcols : batch.columns.map (fun c => (c.1, (replace.lookup c.1).getD c.2)) =
    columns at *
  cases columns with
  | nil => exact absurd rfl hne
  | cons d rest =>
    have hsame : ∀ e ∈ d :: rest, e.2.length = d.2.length := by
      intro e he
      rw [hlengths e he, hlengths d (by simp)]
    refine ⟨⟨d :: rest, d.2.length, hsame⟩, ?_, hlengths d (by simp), hcolumn⟩
    rw [rewriteBatch, hcols, RecordBatch.tryNew, dif_pos hsame]

/-- The rewritten plan and batch have the codes as keys. -/
theorem numericKeys_coded {coded : RecordBatch}
    (hcoded : ∀ c ∈ cols, coded.column? c.1.name = some c.2.coded) :
  NumericKeys (codedPlan plan cols).aggregate coded (cols.map codeColumn)
  := by
  have hR := keyColumns_forall₂ h.columns
  constructor
  · apply Outcome.mapM_eq_some_iff.mpr
    rw [forall₂_map_right_iff]
    apply forall₂_iff_zip.mpr
    refine ⟨hR.length_eq, ?_⟩
    intro ord c hmem
    have hin := ((forall₂_iff_zip.mp hR).2 hmem).1
    have hc := (of_mem_zip hmem).2
    simp [codedPlan, rewriteAggregate, rewriteInputs_getElem? h hmem hin, codedInput_name,
      hcoded c hc, codeColumn]
  · simpa using h.nonempty
  · intro c' hc'
    obtain ⟨c, hc, rfl⟩ := mem_map.mp hc'
    exact KeyArray.keyDtype_coded (h.dtypes c hc)
  · intro c' hc'
    obtain ⟨c, hc, rfl⟩ := mem_map.mp hc'
    apply (isNumericKey_iff (KeyArray.keyDtype_coded (h.dtypes c hc))).mpr
    exact KeyArray.asStringArray_coded c.2

theorem fieldsFit_coded :
  FieldsFit (codedPlan plan cols).aggregate.outputSchema (cols.map codeColumn)
  := by
  have hlen : cols.length ≤ plan.aggregate.outputSchema.fields.length := by
    have hl := congrArg length h.fields
    simp only [length_map, length_take] at hl
    omega
  generalize hfields : plan.aggregate.outputSchema.fields = fields at hlen
  have hdtype : ∀ p ∈ fields.zip cols, p.1.dtype = p.2.1.dtype := by
    rintro ⟨f, c⟩ hp
    obtain ⟨i, hi, heq⟩ := mem_iff_getElem.mp hp
    have hf := h.fields
    rw [hfields] at hf
    simp only [length_zip] at hi
    simp only [getElem_zip, Prod.mk.injEq] at heq
    have hget := congrArg (fun l => l[i]?) hf
    simp only [getElem?_map, getElem?_take, show i < cols.length by omega, if_true,
      getElem?_eq_getElem (show i < fields.length by omega),
      getElem?_eq_getElem (show i < cols.length by omega), map_some,
      some.injEq, heq.1, heq.2] at hget
    exact hget
  have hnullable : ∀ p ∈ fields.zip cols, p.2.2.hasNulls → p.1.nullable := hfields ▸ h.nullable
  have hzip : zipWith (fun f dict => if dict.isSome then { f with dtype := .int32 } else f)
      fields (cols.map (fun c => c.2.dict))
      = (fields.zip cols).map (fun p =>
        if p.2.2.dict.isSome then { p.1 with dtype := .int32 } else p.1) := by
    rw [zipWith_map_right, zip, map_zipWith]
  constructor
  · simp only [codedPlan, rewriteAggregate, rewriteFields, hfields, hzip]
    rw [take_append_of_le_length (by simp [hlen]), take_of_length_le (by simp),
      map_map]
    conv_rhs => rw [map_map, ← map_snd_zip hlen, map_map]
    apply map_congr_left
    intro p hp
    have hd := hdtype p hp
    cases hs : p.2.2.asStringArray <;> simp [codeColumn, codedInput, dict, hs, hd]
  · rintro ⟨f', c'⟩ hp
    simp only [codedPlan, rewriteAggregate, rewriteFields, hfields, hzip] at hp
    have hzip' : (((fields.zip cols).map (fun p =>
        if p.2.2.dict.isSome then { p.1 with dtype := .int32 } else p.1)) ++
        fields.drop (cols.map (fun c => c.2.dict)).length).zip (cols.map codeColumn)
        = (fields.zip cols).map (fun p =>
          (if p.2.2.dict.isSome then { p.1 with dtype := .int32 } else p.1, codeColumn p.2)) := by
      have hcols : cols.map codeColumn = (fields.zip cols).map (fun p => codeColumn p.2) := by
        conv_lhs => rw [← map_snd_zip hlen, map_map]
        rfl
      rw [← append_nil (cols.map codeColumn), zip_append (by simp [hlen]),
        zip_nil_right, append_nil, hcols, zip_map']
    rw [hzip'] at hp
    obtain ⟨p, hmem, heq⟩ := mem_map.mp hp
    simp only [Prod.mk.injEq] at heq
    obtain ⟨rfl, rfl⟩ := heq
    intro hnull
    have hn := hnullable p hmem (by simpa [codeColumn, KeyArray.hasNulls_coded] using hnull)
    simp only
    split <;> exact hn

end Rewriting

end CratonBolt.GroupBy
