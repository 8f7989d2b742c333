import CratonBolt.GroupBy.CodedGroups

/-!
# `GROUP BY` forms the groups of SQL

When the executors report the groups of SQL: for which keys, whatever their number and types, and
whichever executor is chosen.
-/

namespace CratonBolt.GroupBy

open Grouping Outcome List Function
open HostKey (toLiteral)
open KeyArray (asStringArray keyAt keyAt_coded nulls)
open Prod (snd)

variable {kernels : Kernels} {plan : AggregatePlan} {batch : RecordBatch}
variable {cols : List (ColumnIo × KeyArray)}
variable {keys : List HostKey} {arr : KeyArray} {c : ColumnIo × KeyArray} {row : Nat}

/-! ### The condition on keys and on codes -/

theorem keyAt_coded_eq_null_iff (hrow : row < arr.length) :
  arr.coded.keyAt row = .null ↔ arr.keyAt row = .null
  := by
  cases hs : arr.asStringArray with
  | none => rw [KeyArray.coded_of_none hs]
  | some strings =>
    obtain ⟨hnull, hcoded⟩ | ⟨s, -, hkey, hcoded⟩ := keyAt_coded hs hrow
    · simp [hnull, hcoded]
    · simp [hkey, hcoded]

theorem keyAt_coded_eq_int64_iff (hrow : row < arr.length) {n : Int64} :
  arr.coded.keyAt row = .int64 n ↔ arr.keyAt row = .int64 n
  := by
  cases hs : arr.asStringArray with
  | none => rw [KeyArray.coded_of_none hs]
  | some strings =>
    obtain ⟨hnull, hcoded⟩ | ⟨s, -, hkey, hcoded⟩ := keyAt_coded hs hrow
    · simp [hnull, hcoded]
    · simp [hkey, hcoded]

/-- A string column has neither of the integers of the pair packed into the reserved key. -/
theorem keyAt_string (hs : arr.asStringArray.isSome) (hmax : arr.tooManyStrings = false)
    (hrow : row < arr.length) {n : Int32} (hn : n = Int32.maxValue ∨ n = -1) :
  arr.keyAt row ≠ .int32 n ∧ arr.coded.keyAt row ≠ .int32 n
  := by
  obtain ⟨strings, hs⟩ := Option.isSome_iff_exists.mp hs
  have hle := KeyArray.dict_length_le hs hmax
  obtain ⟨hnull, hcoded⟩ | ⟨s, hmem, hkey, hcoded⟩ := keyAt_coded hs hrow
  · simp [hnull, hcoded]
  · rw [hkey, hcoded]
    refine ⟨by simp, ?_⟩
    intro heq
    have hcode := LexDict.codeOf_nonneg hle hmem
    rw [Literal.int32.inj heq] at hcode
    obtain rfl | rfl := hn
    · exact absurd hcode (by decide)
    · exact absurd hcode (by decide)

theorem packable_coded (h : Accepts kernels plan batch cols) :
  packable ((cols.map codeColumn).map (fun c => c.1.dtype))
    = packable (cols.map (fun c => c.1.dtype))
  := by
  have hnarrow : ∀ c ∈ cols, isNarrow (codeColumn c).1.dtype = isNarrow c.1.dtype := by
    intro c hc
    have hd := h.dtypes c hc
    cases hs : c.2.asStringArray with
    | none => simp [codeColumn, codedInput, hs]
    | some strings =>
      rw [KeyArray.keyDtype_of_asStringArray hs, Option.some.injEq] at hd
      simp [codeColumn, codedInput, hs, ← hd, isNarrow]
  rcases cols with _ | ⟨hi, _ | ⟨lo, _ | ⟨_, _⟩⟩⟩
  · rfl
  · rfl
  · simp [packable, hnarrow hi (by simp), hnarrow lo (by simp)]
  · rfl

section Coded

variable (h : Accepts kernels plan batch cols)

include h

/-- There are as many keys as keys of codes. -/
theorem launchable_coded_iff (hmax : ∀ c ∈ cols, c.2.tooManyStrings = false) :
  Launchable ((range batch.numRows).map (sqlKey ((cols.map codeColumn).map snd))) ↔
    Launchable ((range batch.numRows).map (sqlKey (cols.map snd)))
  := by
  have hcode : ∀ row < batch.numRows, encodeKey (cols.map (fun c => c.2.dict))
      (sqlKey (cols.map snd) row) = sqlKey ((cols.map codeColumn).map snd) row := by
    intro row hrow
    rw [dicts_eq, coded_eq]
    exact encodeKey_sqlKey (tooManyStrings_snd hmax) (row_lt_length h hrow)
  have hkeys : (range batch.numRows).map (sqlKey ((cols.map codeColumn).map snd))
      = ((range batch.numRows).map (sqlKey (cols.map snd))).map
        (encodeKey (cols.map (fun c => c.2.dict))) := by
    refine Eq.trans (map_congr_left fun row hrow => ?_) map_map.symm
    exact (hcode row (mem_range.mp hrow)).symm
  rw [hkeys]
  apply launchable_map
  intro a ha b hb hab
  obtain ⟨i, hi, rfl⟩ := mem_map.mp ha
  obtain ⟨j, hj, rfl⟩ := mem_map.mp hb
  rw [hcode i (mem_range.mp hi), hcode j (mem_range.mp hj)] at hab
  have hdecode := reconstructKey_coded h hmax (mem_range.mp hi)
  rw [hab, reconstructKey_coded h hmax (mem_range.mp hj)] at hdecode
  exact (Except.ok.inj hdecode).symm

/-- A value is in the key of a row when it is in the key of the codes of the row. -/
theorem mem_sqlKey_coded_iff (hrow : row < batch.numRows) {v : Literal}
    (hv : ∀ arr : KeyArray, row < arr.length → (arr.coded.keyAt row = v ↔ arr.keyAt row = v)) :
  v ∈ sqlKey ((cols.map codeColumn).map snd) row ↔ v ∈ sqlKey (cols.map snd) row
  := by
  rw [coded_eq, sqlKey, sqlKey, map_map]
  simp only [mem_map, comp_apply]
  apply exists_congr
  intro arr
  apply and_congr_right
  intro harr
  exact hv arr (row_lt_length h hrow arr (mem_map.mpr harr))

/-- No pair of keys with a string has the pair of integers packed into the reserved key. -/
theorem pair_ne_of_string (hmax : ∀ c ∈ cols, c.2.tooManyStrings = false)
    (hstring : ∃ c ∈ cols, c.2.asStringArray.isSome) (hlen : cols.length = 2)
    (hrow : row < batch.numRows) :
  sqlKey (cols.map snd) row ≠ [.int32 Int32.maxValue, .int32 (-1)] ∧
    sqlKey ((cols.map codeColumn).map snd) row ≠ [.int32 Int32.maxValue, .int32 (-1)]
  := by
  obtain ⟨hi, lo, rfl⟩ := length_eq_two.mp hlen
  obtain ⟨c, hc, hs⟩ := hstring
  have hlt : row < c.2.length := row_lt_length h hrow c.2 (mem_map_of_mem hc)
  have hint : ∀ n, n = Int32.maxValue ∨ n = -1 →
      c.2.keyAt row ≠ .int32 n ∧ c.2.coded.keyAt row ≠ .int32 n :=
    fun n => keyAt_string hs (hmax c hc) hlt
  simp only [sqlKey, map_cons, map_nil, codeColumn, ne_eq, cons.injEq, and_true]
  simp only [mem_cons, not_mem_nil, or_false] at hc
  obtain rfl | rfl := hc
  · exact ⟨fun heq => (hint _ (Or.inl rfl)).1 heq.1, fun heq => (hint _ (Or.inl rfl)).2 heq.1⟩
  · exact ⟨fun heq => (hint _ (Or.inr rfl)).1 heq.2, fun heq => (hint _ (Or.inr rfl)).2 heq.2⟩

/-- Nothing is asked of a single string key, nor of its codes. -/
theorem keysRepresentable_string (hcols : cols = [c]) (hs : c.2.asStringArray.isSome) :
  KeysRepresentable ((cols.map codeColumn).map (fun c => c.1.dtype))
      ((range batch.numRows).map (sqlKey ((cols.map codeColumn).map Prod.snd))) ∧
    KeysRepresentable (cols.map (fun c => c.1.dtype))
      ((range batch.numRows).map (sqlKey (cols.map Prod.snd)))
  := by
  obtain ⟨strings, hs⟩ := Option.isSome_iff_exists.mp hs
  have hlt : ∀ row < batch.numRows, row < c.2.length :=
    fun row hrow => row_lt_length h hrow c.2 (by simp [hcols])
  have hkeys : ∀ n : Int64, [.int64 n] ∉ (range batch.numRows).map (sqlKey [c.2]) := by
    intro n hmem
    simp only [mem_map, mem_range, sqlKey, map_cons, map_nil, cons.injEq,
      and_true] at hmem
    obtain ⟨row, hrow, hkey⟩ := hmem
    obtain ⟨hnull, -⟩ | ⟨s, -, hstr, -⟩ := keyAt_coded hs (hlt row hrow) <;> simp_all
  have hcodes : ∀ n : Int64, [.int64 n] ∉ (range batch.numRows).map (sqlKey [c.2.coded]) := by
    intro n hmem
    apply hkeys n
    simp only [mem_map, mem_range, sqlKey, map_cons, map_nil, cons.injEq,
      and_true] at hmem ⊢
    obtain ⟨row, hrow, hkey⟩ := hmem
    exact ⟨row, hrow, (keyAt_coded_eq_int64_iff (hlt row hrow)).mp hkey⟩
  subst hcols
  simp only [KeysRepresentable, map_cons, map_nil, codeColumn]
  exact ⟨⟨fun _ => ⟨hcodes _, hcodes _⟩, fun hmem => absurd hmem (hcodes _)⟩,
    fun _ => ⟨hkeys _, hkeys _⟩, fun hmem => absurd hmem (hkeys _)⟩

/-- The condition on the codes is the one on the keys. -/
theorem keysRepresentable_coded (hmax : ∀ c ∈ cols, c.2.tooManyStrings = false)
    (hstring : ∃ c ∈ cols, c.2.asStringArray.isSome) :
  KeysRepresentable ((cols.map codeColumn).map (fun c => c.1.dtype))
      ((range batch.numRows).map (sqlKey ((cols.map codeColumn).map snd))) ↔
    KeysRepresentable (cols.map (fun c => c.1.dtype))
      ((range batch.numRows).map (sqlKey (cols.map snd)))
  := by
  by_cases hlen : cols.length = 1
  · obtain ⟨c, hc⟩ := length_eq_one_iff.mp hlen
    have hs : c.2.asStringArray.isSome := by simpa [hc] using hstring
    have hboth := keysRepresentable_string h hc hs
    exact iff_of_true hboth.1 hboth.2
  · rw [keysRepresentable_several (by simpa using hlen),
      keysRepresentable_several (by simpa using hlen), packable_coded h]
    simp only [forall_mem_map, mem_range]
    apply and_congr
    · apply forall₂_congr
      intro row hrow
      exact not_congr (mem_sqlKey_coded_iff h hrow (fun _ hlt => keyAt_coded_eq_null_iff hlt))
    · split
      case isTrue hp =>
        have htwo : cols.length = 2 := by
          have hp' := hp
          generalize hd : cols.map (fun c => c.1.dtype) = dtypes at hp'
          have hdlen : dtypes.length = cols.length := by rw [← hd, length_map]
          match dtypes with
          | [] => cases hp'
          | [_] => exact absurd hdlen.symm hlen
          | [_, _] => exact hdlen.symm
          | _ :: _ :: _ :: _ => cases hp'
        apply iff_of_true
        · intro hmem
          obtain ⟨row, hrow, heq⟩ := mem_map.mp hmem
          exact absurd heq (pair_ne_of_string h hmax hstring htwo (mem_range.mp hrow)).2
        · intro hmem
          obtain ⟨row, hrow, heq⟩ := mem_map.mp hmem
          exact absurd heq (pair_ne_of_string h hmax hstring htwo (mem_range.mp hrow)).1
      case isFalse hp =>
        apply forall₂_congr
        intro row hrow
        exact not_congr (mem_sqlKey_coded_iff h hrow (fun _ hlt => keyAt_coded_eq_int64_iff hlt))

end Coded

/-! ### The host fallback -/

/-- A key column of the host fallback, for the types it takes. -/
def KeyArray.hostKeys (arr : KeyArray) : Option (List HostKey) :=
  match arr with
  | .int32 cells =>
    some (cells.map (fun c => .int (if c.isNull then none else some c.value.toInt64)))
  | .int64 cells => some (cells.map (fun c => .int (if c.isNull then none else some c.value)))
  | .utf8 cells => some (cells.map .str)
  | .dictionary values codes => some (codes.map (fun c => .str (c.bind values.get)))
  | _ => none

theorem hostKeyColumn_eq_ok_iff {aggregate : AggregateSpec} {ord : Nat}
    (hin : aggregate.inputs[ord]? = some c.1) (hcol : batch.column? c.1.name = some c.2) :
  hostKeyColumn aggregate batch (ord, c.2.asStringArray) = .ok keys ↔ c.2.hostKeys = some keys
  := by
  obtain ⟨io, arr⟩ := c
  cases arr <;>
    simp_all [hostKeyColumn, asStringArray, KeyArray.hostKeys, int64KeyView, Except.map,
      comp_def]

/-- The columns of the host fallback. -/
theorem hostColumns_eq_ok_iff (h : Accepts kernels plan batch cols)
    {columns : List (List HostKey)} :
  (plan.aggregate.groupBy.zip (cols.map (fun c => c.2.asStringArray))).mapM
      (hostKeyColumn plan.aggregate batch) = .ok columns ↔
    Forall₂ (fun c keys => c.2.hostKeys = some keys) cols columns
  := by
  have hR := keyColumns_forall₂ h.columns
  rw [mapM_eq_ok_iff, zip_map_right, forall₂_map_left_iff]
  generalize plan.aggregate.groupBy = ords at hR
  clear h
  induction hR generalizing columns with
  | nil => simp
  | cons hhead _ ih =>
    cases columns with
    | nil => simp
    | cons keys columns =>
      rw [zip_cons_cons, forall₂_cons, forall₂_cons]
      exact and_congr (hostKeyColumn_eq_ok_iff hhead.1 hhead.2) ih

section

variable (h : arr.hostKeys = some keys)
include h

theorem length_hostKeys :
  keys.length = arr.length
  := by
  cases arr <;> simp [KeyArray.hostKeys] at h <;> subst h <;> simp [KeyArray.length, nulls]

/-- The host key of a row is its key, except that a 32-bit integer has become a 64-bit one. -/
theorem toLiteral_hostKeys (hd : arr.keyDtype ≠ some .int32) (hrow : row < arr.length) :
  (keys.getD row (.str none)).toLiteral = arr.keyAt row
  := by
  cases arr with
  | int64 cells =>
    simp only [KeyArray.hostKeys, Option.some.injEq] at h
    subst h
    simp only [KeyArray.length, nulls, length_map] at hrow
    simp only [getD_eq_getElem?_getD, getElem?_map, getElem?_eq_getElem hrow,
      Option.map_some, Option.getD_some, toLiteral, keyAt, asStringArray,
      KeyArray.isNullAt, nulls, keyValueAt, Option.elim_some]
    split <;> rfl
  | utf8 _ | dictionary _ _ =>
    simp only [KeyArray.hostKeys, Option.some.injEq] at h
    subst h
    simp only [KeyArray.length, nulls, length_map] at hrow
    simp [hrow, toLiteral, keyAt, asStringArray]
  | int32 cells => exact absurd rfl hd
  | _ => cases h

/-- A host key of a column of strings is a string, one of another column an integer. -/
theorem hostKeys_kind {key : HostKey} (hkey : key ∈ keys) :
  (∃ n, key = .int n) ↔ arr.asStringArray = none
  := by
  cases arr <;> simp only [KeyArray.hostKeys, Option.some.injEq, reduceCtorEq] at h <;>
    subst h <;> obtain ⟨c, -, rfl⟩ := mem_map.mp hkey <;> simp [asStringArray]

theorem toLiteral_inj {a b : HostKey} (ha : a ∈ keys)
    (hb : b ∈ keys) (hab : a.toLiteral = b.toLiteral) :
  a = b
  := by
  have hkind := (hostKeys_kind h ha).trans (hostKeys_kind h hb).symm
  cases a with
  | int m =>
    obtain ⟨n, rfl⟩ := hkind.mp ⟨m, rfl⟩
    cases m <;> cases n <;> simp_all [toLiteral]
  | str s =>
    cases b with
    | int n =>
      obtain ⟨m, hm⟩ := hkind.mpr ⟨n, rfl⟩
      cases hm
    | str t => cases s <;> cases t <;> simp_all [toLiteral]

end

/-- The type the host fallback gives a key column. -/
def KeyArray.hostDtype (arr : KeyArray) : DataType :=
  if arr.asStringArray.isSome then .utf8 else .int64

/-- The types that the host fallback reports as they are. -/
theorem hostKeys_faithful_iff (hd : c.2.keyDtype = some c.1.dtype) :
  (c.2.hostKeys.isSome ∧ c.2.hostDtype = c.1.dtype) ↔ c.1.dtype = .utf8 ∨ c.1.dtype = .int64
  := by
  obtain ⟨⟨name, dtype⟩, arr⟩ := c
  cases arr <;> simp_all [KeyArray.keyDtype, KeyArray.hostKeys, KeyArray.hostDtype,
    asStringArray] <;> subst hd <;> simp

/-- The rows of the host fallback. -/
def hostRows (columns : List (List HostKey)) (n : Nat) : List (Nat × List HostKey) :=
  (range n).map (fun row => (row, columns.map (fun c => c.getD row (.str none))))

theorem getElem_mem_zip {α β : Type} {l : List α} {l' : List β} {j : Nat} (hj : j < l.length)
    (hj' : j < l'.length) :
  (l[j], l'[j]) ∈ l.zip l'
  := by
  apply mem_iff_getElem.mpr
  exact ⟨j, by simp [hj, hj'], by simp⟩

section Host

variable (h : Accepts kernels plan batch cols) {columns : List (List HostKey)}
variable (hcolumns : Forall₂ (fun c keys => c.2.hostKeys = some keys) cols columns)

include h hcolumns

theorem mem_getD_hostKeys (hmem : (c, keys) ∈ cols.zip columns) (hrow : row < batch.numRows) :
  c.2.hostKeys = some keys ∧ keys.getD row (.str none) ∈ keys ∧ row < c.2.length
  := by
  have hkeys := (forall₂_iff_zip.mp hcolumns).2 hmem
  have hlt : row < c.2.length :=
    row_lt_length h hrow c.2 (mem_map_of_mem (of_mem_zip hmem).1)
  refine ⟨hkeys, ?_, hlt⟩
  have hlt' : row < keys.length := by rwa [length_hostKeys hkeys]
  simp [hlt']

/-- The types of the key columns are read off the first group. -/
theorem hostDtypes_eq (hpos : 0 < batch.numRows) :
  (range plan.aggregate.groupBy.length).map
      (hostKeyDtype ((collect (hostRows columns batch.numRows)).map Prod.fst))
    = cols.map (fun c => c.2.hostDtype)
  := by
  have hg := collect_isGrouping (hostRows columns batch.numRows)
  obtain ⟨g, hgm, -⟩ := hg.complete (0, columns.map (fun c => c.getD 0 (.str none)))
    (mem_map.mpr ⟨0, mem_range.mpr hpos, rfl⟩)
  obtain ⟨g, rest, hgroups⟩ := exists_cons_of_ne_nil (ne_nil_of_mem hgm)
  obtain ⟨r, hr⟩ := hg.key_mem (hgroups ▸ mem_cons_self)
  simp only [hostRows, mem_map, mem_range, Prod.mk.injEq] at hr
  obtain ⟨row, hrow, -, hkey⟩ := hr
  apply ext_getElem
  · simp [keyColumns_length h.columns]
  · intro j hj hj'
    have hjc : j < cols.length := by simpa using hj'
    have hjk : j < columns.length := by rwa [← hcolumns.length_eq]
    have hmem := getElem_mem_zip hjc hjk
    obtain ⟨hkeys, hin, -⟩ := mem_getD_hostKeys h hcolumns hmem hrow
    have hkind := hostKeys_kind hkeys hin
    have hget : (((collect (hostRows columns batch.numRows)).map Prod.fst).head?.bind
        (fun t => t[j]?)) = some (columns[j].getD row (.str none)) := by
      simp [hgroups, ← hkey, hjk]
    simp only [getElem_map, getElem_range, hostKeyDtype, hget, KeyArray.hostDtype]
    cases hk : columns[j].getD row (.str none) with
    | int n =>
      have hnone := hkind.mp ⟨n, hk⟩
      simp [hnone]
    | str s =>
      have hsome : cols[j].2.asStringArray.isSome := by
        rw [Option.isSome_iff_ne_none]
        intro hnone
        obtain ⟨n, hn⟩ := hkind.mpr hnone
        rw [hk] at hn
        cases hn
      simp [hsome]

/-- The host fallback reports the groups of SQL, up to the types. -/
theorem isGrouping_host (hne : ∀ c ∈ cols, c.2.keyDtype ≠ some .int32)
    {groups : List (List HostKey × List Nat)}
    (hg : IsGrouping (hostRows columns batch.numRows) groups) :
  IsGrouping (sqlRows (cols.map snd) batch.numRows)
    (groups.map (Prod.map (map toLiteral) id))
  := by
  have hkey : ∀ row < batch.numRows,
      (columns.map (fun c => c.getD row (.str none))).map toLiteral
        = sqlKey (cols.map snd) row := by
    intro row hrow
    rw [sqlKey, map_map, map_map]
    apply ext_getElem
    · simp [hcolumns.length_eq]
    · intro j hj hj'
      have hjc : j < cols.length := by simpa using hj'
      have hjk : j < columns.length := by simpa using hj
      have hmem := getElem_mem_zip hjc hjk
      obtain ⟨hkeys, -, hlt⟩ := mem_getD_hostKeys h hcolumns hmem hrow
      simpa using toLiteral_hostKeys hkeys (hne _ (getElem_mem hjc)) hlt
  have hrows : (hostRows columns batch.numRows).map (Prod.map id (List.map HostKey.toLiteral))
      = sqlRows (cols.map Prod.snd) batch.numRows := by
    rw [hostRows, sqlRows, map_map]
    apply map_congr_left
    intro row hrow
    simp only [comp_apply, Prod.map_apply, id_eq, hkey row (mem_range.mp hrow)]
  rw [← hrows]
  apply hg.map
  rintro ⟨r, k⟩ hp ⟨r', k'⟩ hq heq
  simp only [hostRows, mem_map, mem_range, Prod.mk.injEq] at hp hq
  obtain ⟨row, hrow, -, rfl⟩ := hp
  obtain ⟨row', hrow', -, rfl⟩ := hq
  -- The keys are equal column by column, since a column has keys of one kind.
  simp only [map_map, map_inj_left, comp_apply] at heq ⊢
  intro keys hkeys
  obtain ⟨j, hjk, rfl⟩ := mem_iff_getElem.mp hkeys
  have hjc : j < cols.length := by rwa [hcolumns.length_eq]
  have hmem := getElem_mem_zip hjc hjk
  obtain ⟨hk, hin, -⟩ := mem_getD_hostKeys h hcolumns hmem hrow
  obtain ⟨-, hin', -⟩ := mem_getD_hostKeys h hcolumns hmem hrow'
  exact toLiteral_inj hk hin hin' (heq _ hkeys)

end Host

/-- A column with too many strings has a row. -/
theorem numRows_pos (h : Accepts kernels plan batch cols)
    (hbig : cols.any (fun c => c.2.tooManyStrings) = true) :
  0 < batch.numRows
  := by
  obtain ⟨c, hc, hmany⟩ := any_eq_true.mp hbig
  simp only [KeyArray.tooManyStrings, Option.any_eq_true] at hmany
  obtain ⟨strings, hs, hlt⟩ := hmany
  have hne : distinctStrings strings ≠ [] := by
    intro hnil
    simp [hnil] at hlt
  obtain ⟨s, hs'⟩ := exists_mem_of_ne_nil _ hne
  have hlen : c.2.length = batch.numRows :=
    keyColumns_lengths h.columns c.2 (mem_map_of_mem hc)
  rw [← hlen, KeyArray.length, KeyArray.nulls_of_asStringArray hs, length_map]
  exact length_pos_of_mem ((distinctStrings_spec strings).2 s |>.mp hs')

/-- The host fallback reports the groups of SQL if all keys are strings and 64-bit integers. -/
theorem reports_host_iff (h : Accepts kernels plan batch cols)
    (hbig : cols.any (fun c => c.2.tooManyStrings) = true) :
  Reports cols batch.numRows (executeGroupbyUtf8Host plan.aggregate batch
      (cols.map (fun c => c.2.asStringArray))) ↔
    ∀ c ∈ cols, c.1.dtype = .utf8 ∨ c.1.dtype = .int64
  := by
  have hpos := numRows_pos h hbig
  have hexec : ∀ {columns : List (List HostKey)},
      Forall₂ (fun c keys => c.2.hostKeys = some keys) cols columns →
      executeGroupbyUtf8Host plan.aggregate batch (cols.map (fun c => c.2.asStringArray))
        = Grouped.tryNew "execute_groupby (utf8 host): failed to build result batch"
          plan.aggregate.outputSchema ⟨cols.map (fun c => c.2.hostDtype),
            ((collect (hostRows columns batch.numRows)).insertionSort
              (fun a b => HostKey.cmpTuple a.1 b.1 ≠ .gt)).map
                (Prod.map (List.map HostKey.toLiteral) id)⟩ := by
    intro columns hcolumns
    rw [executeGroupbyUtf8Host, (hostColumns_eq_ok_iff h).mpr hcolumns]
    simp only [bind, Except.bind]
    rw [← hostDtypes_eq h hcolumns hpos]
    rfl
  constructor
  · rintro ⟨out, hout, -⟩
    -- The computation got past the columns, and the types are those of the schema.
    have hok : ∃ columns, (plan.aggregate.groupBy.zip (cols.map (fun c => c.2.asStringArray))).mapM
        (hostKeyColumn plan.aggregate batch) = .ok columns := by
      have hout' := hout
      simp only [executeGroupbyUtf8Host, bind_eq_ok] at hout'
      obtain ⟨columns, hcols, -⟩ := hout'
      exact ⟨columns, hcols⟩
    obtain ⟨columns, hcols⟩ := hok
    have hcolumns := (hostColumns_eq_ok_iff h).mp hcols
    rw [hexec hcolumns] at hout
    simp only [Grouped.tryNew, guard_eq_ok, Grouped.fits, Bool.and_eq_true,
      length_map, h.fields, beq_iff_eq, map_inj_left] at hout
    intro c hc
    apply (hostKeys_faithful_iff (h.dtypes c hc)).mp
    refine ⟨?_, (hout.1.1 c hc).symm⟩
    obtain ⟨j, hj, rfl⟩ := mem_iff_getElem.mp hc
    have hj' : j < columns.length := by rwa [← hcolumns.length_eq]
    simp [(forall₂_iff_zip.mp hcolumns).2 (getElem_mem_zip hj hj')]
  · intro hall
    have hfaithful : ∀ c ∈ cols, c.2.hostKeys.isSome ∧ c.2.hostDtype = c.1.dtype :=
      fun c hc => (hostKeys_faithful_iff (h.dtypes c hc)).mpr (hall c hc)
    have hcolumns : Forall₂ (fun c keys => c.2.hostKeys = some keys) cols
        (cols.map (fun c => c.2.hostKeys.getD [])) := by
      rw [forall₂_map_right_iff, forall₂_same]
      intro c hc
      obtain ⟨keys, hkeys⟩ := Option.isSome_iff_exists.mp (hfaithful c hc).1
      simp [hkeys]
    have hne : ∀ c ∈ cols, c.2.keyDtype ≠ some .int32 := by
      intro c hc heq
      rw [h.dtypes c hc, Option.some.injEq] at heq
      simpa [heq] using hall c hc
    have hg := isGrouping_host h hcolumns hne ((collect_isGrouping _).perm
      (perm_insertionSort (fun a b => HostKey.cmpTuple a.1 b.1 ≠ .gt) _).symm)
    have hdtypes : cols.map (fun c => c.2.hostDtype) = cols.map (fun c => c.1.dtype) := by
      apply map_congr_left
      intro c hc
      exact (hfaithful c hc).2
    rw [hexec hcolumns, hdtypes]
    refine ⟨_, Grouped.tryNew_of_isGrouping (fieldsFit_accepts h) ?_ ?_ hg _, hg⟩
    · intro c hc
      simp [h.dtypes c hc]
    · intro c hc
      exact keyColumns_lengths h.columns c.2 (mem_map_of_mem hc)

/-! ### All keys -/

/--
The keys whose groups the executors report. A key with more strings than are coded may stand
beside strings and 64-bit integers only. Otherwise a single key must not have `NULL` together with
an extreme 64-bit integer, nor the largest one without the smallest; several keys must have no
`NULL` and none of the integers that stand for reserved keys; and keys that are packed must be so
few that a launch takes them.
-/
def Representable (cols : List (ColumnIo × KeyArray)) (numRows : Nat) : Prop :=
  if cols.any (fun c => c.2.tooManyStrings) then
    ∀ c ∈ cols, c.1.dtype = .utf8 ∨ c.1.dtype = .int64
  else
    KeysRepresentable (cols.map (fun c => c.1.dtype))
      ((range numRows).map (sqlKey (cols.map snd))) ∧
      (packable (cols.map (fun c => c.1.dtype)) = true →
        Launchable ((range numRows).map (sqlKey (cols.map snd))))

/-- The executors report the groups of SQL for the keys that are representable, and no others. -/
theorem executeGroupby_reports_iff (kernels : Kernels) (plan : AggregatePlan) (batch : RecordBatch)
    (cols : List (ColumnIo × KeyArray)) (h : Accepts kernels plan batch cols) :
  Reports cols batch.numRows (executeGroupby kernels plan batch) ↔
    Representable cols batch.numRows
  := by
  have hexec : executeGroupby kernels plan batch =
      if cols.any (fun c => c.2.asStringArray.isSome) then
        runUtf8 kernels plan batch (cols.map (fun c => c.2.asStringArray))
      else executeGroupbyNumeric kernels plan batch := by
    rw [executeGroupby, tryExecuteGroupbyUtf8, stringKeys_eq h]
    simp only [any_map, comp_def]
    cases cols.any (fun c => c.2.asStringArray.isSome) with
    | true => rfl
    | false => simp [executeGroupbyFast, h.misses]
  rw [hexec, Representable]
  cases hstring : cols.any (fun c => c.2.asStringArray.isSome) with
  | false =>
    have hnone : ∀ c ∈ cols, c.2.asStringArray = none := by simpa using hstring
    have hkeys : NumericKeys plan.aggregate batch cols := {
      columns := h.columns
      nonempty := h.nonempty
      dtypes := h.dtypes
      numeric := fun c hc => (isNumericKey_iff (h.dtypes c hc)).mpr (hnone c hc) }
    have hfew : cols.any (fun c => c.2.tooManyStrings) = false := by
      rw [any_eq_false]
      intro c hc
      simp [KeyArray.tooManyStrings, hnone c hc]
    simp only [hfew, Bool.false_eq_true, if_false]
    exact reports_numeric_iff kernels hkeys (fieldsFit_accepts h) h.pre
  | true =>
    simp only [if_true]
    cases hbig : cols.any (fun c => c.2.tooManyStrings) with
    | true =>
      have hdicts : buildDicts (cols.map (fun c => c.2.asStringArray)) = none := by
        have hbuild := buildDicts_eq (cols.map snd)
        rw [any_map, map_map] at hbuild
        simpa [comp_def, hbig] using hbuild
      have hrun : runUtf8 kernels plan batch (cols.map (fun c => c.2.asStringArray))
          = executeGroupbyUtf8Host plan.aggregate batch
            (cols.map (fun c => c.2.asStringArray)) := by
        simp [runUtf8, h.pre, hdicts]
      rw [hrun, reports_host_iff h hbig]
      simp
    | false =>
      have hmax : ∀ c ∈ cols, c.2.tooManyStrings = false := by simpa using hbig
      have hex : ∃ c ∈ cols, c.2.asStringArray.isSome := by simpa using hstring
      obtain ⟨coded, hrows, hkeys, hiff⟩ := reports_runUtf8_iff h hmax
      have hnumeric := reports_numeric_iff kernels hkeys (fieldsFit_coded h) rfl
      rw [hrows] at hnumeric
      rw [hiff, hnumeric, keysRepresentable_coded h hmax hex, packable_coded h,
        launchable_coded_iff h hmax]
      simp

/-- A plan that groups by the two 32-bit columns `a` and `b`. -/
def twoKeys : AggregatePlan where
  pre := false
  aggregate := {
    inputs := [⟨"a", .int32⟩, ⟨"b", .int32⟩]
    groupBy := [0, 1]
    outputSchema := ⟨[⟨"a", .int32, true⟩, ⟨"b", .int32, true⟩]⟩ }

/-- The rows `(1, 5)`, `(1, 5)` and `(2, 5)`. -/
def completePairs : RecordBatch where
  columns := [("a", .int32 [⟨1, false⟩, ⟨1, false⟩, ⟨2, false⟩]),
    ("b", .int32 [⟨5, false⟩, ⟨5, false⟩, ⟨5, false⟩])]
  numRows := 3
  lengths := by decide

/-- The key columns of `twoKeys`. -/
def pairColumns (a b : KeyArray) : List (ColumnIo × KeyArray) :=
  [(⟨"a", .int32⟩, a), (⟨"b", .int32⟩, b)]

theorem accepts_completePairs :
  Accepts .exact twoKeys completePairs (pairColumns (.int32 [⟨1, false⟩, ⟨1, false⟩, ⟨2, false⟩])
    (.int32 [⟨5, false⟩, ⟨5, false⟩, ⟨5, false⟩]))
  := by
  constructor
  case missesCoded =>
    intros
    rfl
  all_goals decide

/-- Two keys without `NULL`s. -/
theorem completePairs_reported :
  Reports (pairColumns (.int32 [⟨1, false⟩, ⟨1, false⟩, ⟨2, false⟩])
      (.int32 [⟨5, false⟩, ⟨5, false⟩, ⟨5, false⟩])) completePairs.numRows
    (executeGroupby .exact twoKeys completePairs)
  := by
  apply (executeGroupby_reports_iff .exact twoKeys completePairs _ accepts_completePairs).mpr
  rw [Representable, if_neg (by decide)]
  decide

/-- A plan that groups by the 64-bit column `a`. -/
def oneKey : AggregatePlan where
  pre := false
  aggregate := {
    inputs := [⟨"a", .int64⟩]
    groupBy := [0]
    outputSchema := ⟨[⟨"a", .int64, true⟩]⟩ }

/-- A single row that holds the largest 64-bit integer. -/
def largest : RecordBatch where
  columns := [("a", .int64 [⟨Int64.maxValue, false⟩])]
  numRows := 1
  lengths := by decide

/-- The group of the largest integer is reported as that of `NULL`. -/
theorem largest_not_reported :
  executeGroupby .exact oneKey largest = .ok ⟨[.int64], [([.null], [0])]⟩ ∧
    ¬ Reports [(⟨"a", .int64⟩, .int64 [⟨Int64.maxValue, false⟩])] largest.numRows
      (executeGroupby .exact oneKey largest)
  := by
  have hexec : executeGroupby .exact oneKey largest = .ok ⟨[.int64], [([.null], [0])]⟩ := by
    decide +kernel
  refine ⟨hexec, ?_⟩
  rw [hexec]
  rintro ⟨out, hout, hg⟩
  rw [← Except.ok.inj hout] at hg
  obtain ⟨row, hrow⟩ := hg.key_mem (mem_singleton.mpr rfl)
  obtain ⟨hlt, hkey⟩ := mem_sqlRows.mp hrow
  obtain rfl := Nat.lt_one_iff.mp hlt
  revert hkey
  decide

end CratonBolt.GroupBy
