import CratonBolt.GroupBy.Dictionaries

/-!
# Grouping by codes

The groups reported for string keys through their codes are those of SQL exactly when the groups
of the codes are.
-/

namespace CratonBolt.GroupBy

open Grouping Outcome List
open KeyArray (coded dict)
open Prod (snd)

variable {kernels : Kernels} {plan : AggregatePlan} {batch : RecordBatch}
variable {cols : List (ColumnIo × KeyArray)}
variable {arrs : List KeyArray}

/-! ### Keys and the keys of codes -/

/-- The code of a key in one column. -/
def encodeCell (dict : Option LexDict) (v : Literal) : Literal :=
  match dict, v with
  | some dict, .utf8 s => .int32 (dict.codeOf s)
  | _, v => v

/-- The codes of a key. -/
def encodeKey (dicts : List (Option LexDict)) (key : List Literal) : List Literal :=
  zipWith encodeCell dicts key

/-- A code is the code of what it is turned into. -/
theorem encodeCell_of_reconstructCell {arr : KeyArray} (hmax : arr.tooManyStrings = false)
    {v v' : Literal} (h : reconstructCell arr.dict v' = .ok v) :
  encodeCell arr.dict v = v'
  := by
  cases hs : arr.asStringArray with
  | none =>
    simp only [dict, hs, Option.map_none, reconstructCell, Except.ok.injEq] at h
    simp [dict, hs, encodeCell, h]
  | some strings =>
    have hle := KeyArray.dict_length_le hs hmax
    simp only [dict, hs, Option.map_some] at h ⊢
    cases v' with
    | null =>
      simp only [reconstructCell, Except.ok.injEq] at h
      subst h
      rfl
    | int32 c =>
      simp only [reconstructCell] at h
      cases hc : (LexDict.ofColumn strings).stringOf c with
      | none => simp [hc] at h
      | some s =>
        simp only [hc, Except.ok.injEq] at h
        subst h
        rw [encodeCell, ((LexDict.stringOf_eq_some_iff hle).mp hc).2]
    | _ => simp [reconstructCell] at h

theorem encodeKey_of_reconstructKey (hmax : ∀ arr ∈ arrs, arr.tooManyStrings = false)
    {k k' : List Literal} (hlen : k'.length = arrs.length)
    (h : reconstructKey (arrs.map dict) k' = .ok k) :
  encodeKey (arrs.map dict) k = k'
  := by
  have h' := mapM_eq_ok_iff.mp h
  clear h
  induction arrs generalizing k k' with
  | nil =>
    have hnil : k' = [] := length_eq_zero_iff.mp (by simpa using hlen)
    simp [encodeKey, hnil]
  | cons arr arrs ih =>
    cases k' with
    | nil => cases hlen
    | cons v' k' =>
      rw [map_cons, zip_cons_cons] at h'
      cases h' with
      | cons hhead htail =>
        have hrest := ih (fun a ha => hmax a (mem_cons_of_mem _ ha)) (by simpa using hlen) htail
        have hcell := encodeCell_of_reconstructCell (hmax arr mem_cons_self) hhead
        simp only [encodeKey, map_cons, zipWith_cons_cons, hcell] at hrest ⊢
        rw [hrest]

variable {row : Nat} {schema : Schema} {out intResult : Grouped}

/-- The codes of a row are turned back into its key. -/
theorem reconstructKey_sqlKey (hmax : ∀ arr ∈ arrs, arr.tooManyStrings = false)
    (hrow : ∀ arr ∈ arrs, row < arr.length) :
  reconstructKey (arrs.map dict) (sqlKey (arrs.map coded) row)
    = .ok (sqlKey arrs row)
  := by
  apply mapM_eq_ok_iff.mpr
  rw [sqlKey, map_map, zip_map', sqlKey, forall₂_map_left_iff,
    forall₂_map_right_iff, forall₂_same]
  intro arr harr
  cases hs : arr.asStringArray with
  | none => simp [dict, hs, reconstructCell, KeyArray.coded_of_none hs]
  | some strings =>
    have hle := KeyArray.dict_length_le hs (hmax arr harr)
    simp only [dict, hs, Option.map_some, Function.comp_apply]
    obtain ⟨hnull, hcoded⟩ | ⟨s, hmem, hkey, hcoded⟩ := KeyArray.keyAt_coded hs (hrow arr harr)
    · rw [hnull, hcoded, reconstructCell]
    · rw [hkey, hcoded, reconstructCell,
        (LexDict.stringOf_eq_some_iff hle).mpr ⟨hmem, rfl⟩]

theorem encodeKey_sqlKey (hmax : ∀ arr ∈ arrs, arr.tooManyStrings = false)
    (hrow : ∀ arr ∈ arrs, row < arr.length) :
  encodeKey (arrs.map dict) (sqlKey arrs row) = sqlKey (arrs.map coded) row
  := encodeKey_of_reconstructKey hmax (by simp [sqlKey]) (reconstructKey_sqlKey hmax hrow)

/-! ### The result on the codes -/

/-- The key columns of a result: their types, and a key has as many values as there are columns. -/
def HasShape (cols : List (ColumnIo × KeyArray)) (out : Grouped) : Prop :=
  out.dtypes = cols.map (fun c => c.1.dtype) ∧ ∀ g ∈ out.groups, g.1.length = cols.length

theorem hasShape_of_complete {ctx : String} {n : Nat} {groups : List (List Literal × List Nat)}
    (hg : IsGrouping (completeRows (cols.map snd) n) groups)
    (hout : Grouped.tryNew ctx schema ⟨cols.map (fun c => c.1.dtype), groups⟩ = .ok out) :
  HasShape cols out
  := by
  rw [Grouped.tryNew_eq_ok hout]
  refine ⟨rfl, ?_⟩
  intro g hmem
  obtain ⟨row, hrow⟩ := hg.key_mem hmem
  rw [(mem_completeRows.mp hrow).2.2]
  simp [sqlKey]

theorem reportedKey_length (comps : List KeyComponent) (k : Int64) :
  (reportedKey comps k).length = comps.length
  := by
  rw [reportedKey]
  split <;> simp [decodeKey]

/-- The packed executor leaves a plan to the one without reserved keys, or runs its kernels. -/
theorem executeGroupbyPacked_cases (kernels : Kernels) (plan : AggregatePlan) (batch : RecordBatch)
    (packed : PackedKeys) :
  executeGroupbyPacked kernels plan batch packed = executeGroupbyValid kernels plan batch ∨
    ∃ hostKeys, executeGroupbyPacked kernels plan batch packed = (launchShape hostKeys).bind
      (fun _ => (buildKeyArrays (sortGroups (kernels.classic hostKeys)) packed.components).bind
        (Grouped.tryNew "failed to build GROUP BY RecordBatch" plan.aggregate.outputSchema))
  := by
  simp only [executeGroupbyPacked]
  generalize hkeys : (if (packed.components.length == 1 && packed.keyValid.isSome) = true then _
    else _ : List (Nat × Int64)) = hostKeys
  split
  · exact Or.inl rfl
  · split
    · exact Or.inl rfl
    · exact Or.inr ⟨hostKeys, rfl⟩

theorem hasShape_numeric (h : NumericKeys plan.aggregate batch cols) (hpre : plan.pre = false)
    (hout : executeGroupbyNumeric kernels plan batch = .ok out) :
  HasShape cols out
  := by
  have hvalid : ∀ {out}, executeGroupbyValid kernels plan batch = .ok out →
      packable (cols.map (fun c => c.1.dtype)) → HasShape cols out := by
    intro out hout hp
    obtain ⟨ctx, groups, hg, hexec⟩ := executeGroupbyValid_packable h kernels hpre hp
    rw [hexec] at hout
    obtain ⟨-, -, hout⟩ := bind_eq_ok.mp hout
    exact hasShape_of_complete hg hout
  rw [executeGroupbyNumeric_eq h hpre] at hout
  cases hp : packable (cols.map (fun c => c.1.dtype)) with
  | false =>
    simp only [hp, Bool.false_eq_true, if_false] at hout
    split at hout
    · exact absurd hout (executeGroupbyValid_wide h hp)
    · obtain ⟨ctx, groups, hg, hexec⟩ := executeGroupbyWide_eq h hpre
      exact hasShape_of_complete hg (hexec ▸ hout)
  | true =>
    simp only [hp, if_true] at hout
    split at hout
    · exact hvalid hout hp
    · obtain heq | ⟨hostKeys, heq⟩ := executeGroupbyPacked_cases kernels plan batch
        (packedKeys cols batch.numRows)
      · exact hvalid (heq ▸ hout) hp
      · rw [heq] at hout
        obtain ⟨-, -, hout⟩ := bind_eq_ok.mp hout
        simp only [packedKeys, buildKeyArrays_eq h hp, Except.bind] at hout
        rw [Grouped.tryNew_eq_ok hout]
        refine ⟨rfl, ?_⟩
        intro g hmem
        obtain ⟨g', -, rfl⟩ := mem_map.mp hmem
        have hlen := packComponents_length ((dtypes_fst cols).symm ▸ hp)
        simp [reportedKey_length, hlen]

/-- The result on the codes, turned back into strings. -/
theorem reconstruct_eq_ok {dicts : List (Option LexDict)}
    (hout : reconstruct intResult dicts schema = .ok out) :
  Forall₂ (fun g' g => reconstructKey dicts g'.1 = .ok g.1 ∧ g'.2 = g.2) intResult.groups
    out.groups
  := by
  simp only [reconstruct, bind_eq_ok] at hout
  obtain ⟨groups, hgroups, hnew⟩ := hout
  rw [Grouped.tryNew_eq_ok hnew]
  apply (mapM_eq_ok_iff.mp hgroups).imp
  intro g' g hg
  simp only [bind_eq_ok, pure, Except.pure, Except.ok.injEq] at hg
  obtain ⟨k, hk, rfl⟩ := hg
  exact ⟨hk, rfl⟩

section Coded

variable (h : Accepts kernels plan batch cols) (hmax : ∀ c ∈ cols, c.2.tooManyStrings = false)

theorem dicts_eq (cols : List (ColumnIo × KeyArray)) :
  cols.map (fun c => c.2.dict) = (cols.map snd).map dict
  := by
  rw [map_map]
  rfl

theorem coded_eq (cols : List (ColumnIo × KeyArray)) :
  (cols.map codeColumn).map snd = (cols.map snd).map coded
  := by
  rw [map_map, map_map]
  rfl

theorem row_lt_length (h : Accepts kernels plan batch cols) (hrow : row < batch.numRows) :
  ∀ arr ∈ cols.map snd, row < arr.length
  := by
  intro arr harr
  rwa [keyColumns_lengths h.columns arr harr]

theorem tooManyStrings_snd (hmax : ∀ c ∈ cols, c.2.tooManyStrings = false) :
  ∀ arr ∈ cols.map snd, arr.tooManyStrings = false
  := by
  intro arr harr
  obtain ⟨c, hc, rfl⟩ := mem_map.mp harr
  exact hmax c hc

include h hmax

/-- The codes of a row of the batch. -/
theorem reconstructKey_coded (hrow : row < batch.numRows) :
  reconstructKey (cols.map (fun c => c.2.dict)) (sqlKey ((cols.map codeColumn).map snd) row)
    = .ok (sqlKey (cols.map snd) row)
  := by
  rw [dicts_eq, coded_eq]
  exact reconstructKey_sqlKey (tooManyStrings_snd hmax) (row_lt_length h hrow)

theorem sqlRows_coded :
  sqlRows ((cols.map codeColumn).map snd) batch.numRows
    = (sqlRows (cols.map snd) batch.numRows).map
      (Prod.map id (encodeKey (cols.map (fun c => c.2.dict))))
  := by
  rw [dicts_eq, coded_eq]
  simp only [sqlRows]
  rw [map_map (l := range batch.numRows)]
  apply map_congr_left
  intro row hrow
  have hkey := encodeKey_sqlKey (tooManyStrings_snd hmax)
    (row_lt_length h (mem_range.mp hrow))
  simp only [Function.comp_apply, Prod.map_apply, id_eq, hkey]

/-- Grouping by the codes finds the groups of SQL when grouping by the strings does. -/
theorem isGrouping_coded (hshape : HasShape (cols.map codeColumn) intResult)
    (hout : reconstruct intResult (cols.map (fun c => c.2.dict)) schema = .ok out)
    (hg : IsGrouping (sqlRows (cols.map snd) batch.numRows) out.groups) :
  IsGrouping (sqlRows ((cols.map codeColumn).map snd) batch.numRows) intResult.groups
  := by
  have hgroups : out.groups.map (Prod.map (encodeKey (cols.map (fun c => c.2.dict))) id)
      = intResult.groups := by
    have hrec := reconstruct_eq_ok hout
    have hlen := hshape.2
    generalize intResult.groups = groups' at hrec hlen
    generalize out.groups = groups at hrec
    clear hg hout
    induction hrec with
    | nil => rfl
    | @cons g' g groups' groups hhead _ ih =>
      rw [map_cons, ih (fun g hg => hlen g (mem_cons_of_mem _ hg))]
      congr 1
      have hlen' := hlen g' mem_cons_self
      have hkey := hhead.1
      rw [dicts_eq] at hkey ⊢
      have henc := encodeKey_of_reconstructKey (tooManyStrings_snd hmax) (by simpa using hlen') hkey
      exact Prod.ext henc hhead.2.symm
  rw [sqlRows_coded h hmax, ← hgroups]
  apply hg.map
  rintro ⟨row, key⟩ hmem ⟨row', key'⟩ hmem' heq
  obtain ⟨hrow, rfl⟩ := mem_sqlRows.mp hmem
  obtain ⟨hrow', rfl⟩ := mem_sqlRows.mp hmem'
  have hkey := reconstructKey_coded h hmax hrow
  have hkey' := reconstructKey_coded h hmax hrow'
  rw [coded_eq, ← encodeKey_sqlKey (tooManyStrings_snd hmax) (row_lt_length h hrow),
    ← dicts_eq] at hkey
  rw [coded_eq, ← encodeKey_sqlKey (tooManyStrings_snd hmax) (row_lt_length h hrow'), ← dicts_eq]
    at hkey'
  simp only at heq
  rw [heq, hkey'] at hkey
  exact (Except.ok.inj hkey).symm

omit hmax in
theorem fieldsFit_accepts :
  FieldsFit plan.aggregate.outputSchema cols
  := ⟨h.fields, h.nullable⟩

omit hmax in
theorem dtypes_reconstructed :
  zipWith (fun dict dtype => if dict.isSome then .utf8 else dtype)
      (cols.map (fun c => c.2.dict)) ((cols.map codeColumn).map (fun c => c.1.dtype))
    = cols.map (fun c => c.1.dtype)
  := by
  rw [map_map, zipWith_map, zipWith_self]
  apply map_congr_left
  intro c hc
  cases hs : c.2.asStringArray with
  | none => simp [dict, hs, codeColumn, codedInput]
  | some strings =>
    have hd := h.dtypes c hc
    rw [KeyArray.keyDtype_of_asStringArray hs, Option.some.injEq] at hd
    simp [dict, hs, hd]

/-- The groups of the codes are turned back into those of the strings. -/
theorem reports_reconstruct (hshape : HasShape (cols.map codeColumn) intResult)
    (hg : IsGrouping (sqlRows ((cols.map codeColumn).map snd) batch.numRows) intResult.groups) :
  Reports cols batch.numRows
    (reconstruct intResult (cols.map (fun c => c.2.dict)) plan.aggregate.outputSchema)
  := by
  let decode : List Literal → List Literal := fun k =>
    (reconstructKey (cols.map (fun c => c.2.dict)) k).toOption.getD []
  have hdecode : ∀ row < batch.numRows,
      decode (sqlKey ((cols.map codeColumn).map snd) row) = sqlKey (cols.map snd) row := by
    intro row hrow
    simp only [decode, reconstructKey_coded h hmax hrow]
    rfl
  have hmapM : intResult.groups.mapM (fun g => do
      let key ← reconstructKey (cols.map (fun c : ColumnIo × KeyArray => c.2.dict)) g.1
      return (key, g.2)) = .ok (intResult.groups.map (Prod.map decode id)) := by
    apply mapM_eq_ok_iff.mpr
    rw [forall₂_map_right_iff, forall₂_same]
    intro g hmem
    obtain ⟨row, hrow⟩ := hg.key_mem hmem
    obtain ⟨hlt, hkey⟩ := mem_sqlRows.mp hrow
    have hrec := reconstructKey_coded h hmax hlt
    rw [← hkey] at hrec
    simp only [hrec, bind, Except.bind, pure, Except.pure]
    rw [Prod.map, hkey, hdecode row hlt]
    rfl
  have hgroups : IsGrouping (sqlRows (cols.map snd) batch.numRows)
      (intResult.groups.map (Prod.map decode id)) := by
    rw [sqlRows_coded h hmax] at hg
    apply hg.decode
    rintro ⟨row, key⟩ hmem
    obtain ⟨hlt, rfl⟩ := mem_sqlRows.mp hmem
    have hkey := encodeKey_sqlKey (tooManyStrings_snd hmax) (row_lt_length h hlt)
    rw [← dicts_eq, ← coded_eq] at hkey
    simp only [hkey, hdecode row hlt]
  refine ⟨⟨cols.map (fun c => c.1.dtype), _⟩, ?_, hgroups⟩
  rw [reconstruct, hmapM, hshape.1]
  simp only [bind, Except.bind, dtypes_reconstructed h]
  apply Grouped.tryNew_of_isGrouping (fieldsFit_accepts h) _ _ hgroups
  · intro c hc
    simp [h.dtypes c hc]
  · intro c hc
    exact keyColumns_lengths h.columns c.2 (mem_map_of_mem hc)

end Coded

/-- Grouping by strings is grouping by their codes. -/
theorem reports_runUtf8_iff (h : Accepts kernels plan batch cols)
    (hmax : ∀ c ∈ cols, c.2.tooManyStrings = false) :
  ∃ coded : RecordBatch, coded.numRows = batch.numRows ∧
    NumericKeys (codedPlan plan cols).aggregate coded (cols.map codeColumn) ∧
    (Reports cols batch.numRows
        (runUtf8 kernels plan batch (cols.map (fun c => c.2.asStringArray))) ↔
      Reports (cols.map codeColumn) batch.numRows
        (executeGroupbyNumeric kernels (codedPlan plan cols) coded))
  := by
  obtain ⟨coded, hrewrite, hrows, hcolumn⟩ := rewriteBatch_spec h
  have hkeys := numericKeys_coded h hcolumn
  refine ⟨coded, hrows, hkeys, ?_⟩
  have hdicts : buildDicts (cols.map (fun c => c.2.asStringArray))
      = some (cols.map (fun c => c.2.dict)) := by
    have hbuild := buildDicts_eq (cols.map snd)
    have hnone : (cols.map snd).any KeyArray.tooManyStrings = false := by
      rw [any_eq_false]
      intro arr harr
      simp [tooManyStrings_snd hmax arr harr]
    rw [hnone, map_map, ← dicts_eq] at hbuild
    exact hbuild
  have hfields : ¬ plan.aggregate.outputSchema.fields.length < plan.aggregate.groupBy.length := by
    have hl := congrArg length h.fields
    simp only [length_map, length_take] at hl
    rw [keyColumns_length h.columns]
    omega
  have hfast : executeGroupbyFast kernels (codedPlan plan cols) coded
      = executeGroupbyNumeric kernels (codedPlan plan cols) coded := by
    have hmiss : kernels.fastPath (codedPlan plan cols) coded = none :=
      h.missesCoded _ _ coded (stringKeys_eq h) hdicts hrewrite
    rw [executeGroupbyFast, hmiss]
  have hrun : runUtf8 kernels plan batch (cols.map (fun c => c.2.asStringArray))
      = (executeGroupbyNumeric kernels (codedPlan plan cols) coded).bind (fun intResult =>
        reconstruct intResult (cols.map (fun c => c.2.dict)) plan.aggregate.outputSchema) := by
    simp only [← hfast, runUtf8, h.pre, Bool.false_eq_true, if_false, hdicts, hfields, hrewrite,
      bind, Except.bind]
    rfl
  rw [hrun]
  constructor
  · rintro ⟨out, hout, hg⟩
    cases hint : executeGroupbyNumeric kernels (codedPlan plan cols) coded with
    | error e => simp [hint, Except.bind] at hout
    | ok intResult =>
      have hshape := hasShape_numeric hkeys rfl hint
      rw [hint] at hout
      exact ⟨intResult, rfl, isGrouping_coded h hmax hshape hout hg⟩
  · rintro ⟨intResult, hint, hg⟩
    have hshape := hasShape_numeric hkeys rfl hint
    rw [hint]
    exact reports_reconstruct h hmax hshape hg

end CratonBolt.GroupBy
