import CratonBolt.Joins.DevicePairs

/-!
# Joins by strings on the device

Strings are numbered before they are encoded: by their texts, or, in the streaming mode of an
inner join, by their hashes. The numbers of two rows are equal exactly when their texts, or their
hashes, are. An inner join hands the numbers to the unique-key kernel, which pairs a row with one
row of its number.
-/

namespace CratonBolt.Joins

open ListJoin List Option
open Column (cell cells)
open Int32 (toInt64)

variable {streaming : Bool} {b p : Nat}

/-! ### Numbers and texts -/

/-- Two slots of strings have the same number. -/
def sameNumber (streaming : Bool) (v w : Value) : Bool :=
  if streaming then decide ((stringOf v).map utf8Hash64 = (stringOf w).map utf8Hash64)
  else decide (stringOf v = stringOf w)

theorem codeOf_inj {c c' : Nat} (hc : c < maxInterned) (hc' : c' < maxInterned) :
  codeOf (some c) = codeOf (some c') ↔ c = c'
  := by
  have hmax : maxInterned ≤ 2 ^ 31 := by decide
  rw [codeOf, codeOf, map_some, map_some, getD_some, getD_some,
    ← Int32.toInt_inj, Int32.toInt_ofNat_of_lt (by omega), Int32.toInt_ofNat_of_lt (by omega),
    Int.natCast_inj]

/-- Under one dictionary, the numbers of two keys are equal exactly when the keys are. -/
theorem internKeys_spec {κ : Type} [DecidableEq κ] {build probe : List (Option κ)}
    {interned : List Int32 × List Int32} (h : internKeys build probe = some interned) :
  interned.1.length = build.length ∧ interned.2.length = probe.length ∧
    ∀ {b p : Nat} {k k' : κ}, build[b]? = some (some k) → probe[p]? = some (some k') →
      (interned.1[b]? = interned.2[p]? ↔ k = k')
  := by
  obtain ⟨⟨dict, codes⟩, hb, h⟩ := bind_eq_some_iff.mp h
  obtain ⟨⟨dict', codes'⟩, hp, h⟩ := bind_eq_some_iff.mp h
  injection h with h
  subst h
  obtain ⟨hnodup, hlen, -, hall⟩ := Interning.enterAll_spec nodup_nil (Nat.zero_le _) hb
  obtain ⟨hnodup', hlen', hprefix, hall'⟩ := Interning.enterAll_spec hnodup hlen hp
  have hcode : ∀ {keys : List (Option κ)} {codes : List (Option Nat)} {i : Nat} {k : κ},
      Forall₂ (Interning.Numbers dict') keys codes → keys[i]? = some (some k) →
      ∃ c, codes[i]? = some (some c) ∧ dict'[c]? = some k := by
    intro keys codes i k hall hk
    rw [forall₂_iff_get] at hall
    obtain ⟨hi, hget⟩ := List.getElem?_eq_some_iff.mp hk
    have hi' : i < codes.length := by rwa [← hall.1]
    have hnum := hall.2 i hi hi'
    rw [get_eq_getElem, get_eq_getElem, hget] at hnum
    rw [getElem?_eq_getElem hi']
    cases hc : codes[i] with
    | none =>
      rw [hc] at hnum
      cases hnum
    | some c =>
      rw [hc] at hnum
      exact ⟨c, rfl, hnum⟩
  refine ⟨?_, ?_, ?_⟩
  · rw [length_map, hall.length_eq]
  · rw [length_map, hall'.length_eq]
  · intro b p k k' hk hk'
    obtain ⟨c, hc, hck⟩ := hcode (hall.imp (fun _ _ hn => hn.mono hprefix)) hk
    obtain ⟨c', hc', hck'⟩ := hcode hall' hk'
    have hlt := (List.getElem?_eq_some_iff.mp hck).1
    have hlt' := (List.getElem?_eq_some_iff.mp hck').1
    rw [getElem?_map, getElem?_map, hc, hc', map_some, map_some,
      some.injEq, codeOf_inj (by omega) (by omega), Interning.code_eq_iff hnodup' hck hck']

variable {c : Column} {row : Nat} {kernels : Kernels}

theorem asStrings_eq_some {strings : List (Option String)} (h : asStrings c = some strings) :
  c.dtype = .plain .utf8 ∧ strings = c.cells.map stringOf
  := by
  unfold asStrings at h
  split at h
  · rename_i hd
    injection h with h
    exact ⟨hd, h.symm⟩
  · cases h

theorem stringOf_getElem? (c : Column) (hrow : row < c.length) :
  (c.cells.map stringOf)[row]? = some (stringOf (c.cell row))
  := by
  rw [getElem?_map, getElem?_eq_getElem hrow, cell,
    getD_eq_getElem _ _ hrow]
  rfl

/-- A column of strings without `NULL`. -/
def IsText (c : Column) : Prop := ∀ row < c.length, ∃ s, c.cell row = .utf8 s

theorem cell_ne_null (hflat : c.isFlat = true) (h : c.hasNulls = false) (hrow : row < c.length) :
  c.cell row ≠ .null
  := by
  intro hnull
  rw [c.hasNulls_of_isFlat hflat, List.any_eq_false] at h
  have hmem : c.cell row ∈ c.cells := by
    rw [cell, getD_eq_getElem _ _ hrow]
    exact getElem_mem hrow
  have hcell := h _ hmem
  rw [hnull] at hcell
  exact hcell rfl

theorem isText_of_noNulls (hd : c.dtype = .plain .utf8) (hn : c.hasNulls = false) :
  IsText c
  := by
  intro row hrow
  have hdtype := (c.typed_cell row).resolve_left (cell_ne_null (c.isFlat_of_dtype hd) hn hrow)
  rw [hd] at hdtype
  cases hv : c.cell row <;> rw [hv] at hdtype <;> first | exact ⟨_, rfl⟩ | cases hdtype

section Interned

variable {build probe : Column} {interned : List Int32 × List Int32}

/-- The numbers of two strings are equal exactly when their texts, or their hashes, are. -/
theorem internForInner_spec (h : internForInner streaming build probe = some interned)
    (hb : IsText build) (hp : IsText probe) :
  interned.1.length = build.length ∧ interned.2.length = probe.length ∧
    ∀ b < build.length, ∀ p < probe.length,
      (interned.1[b]? = interned.2[p]? ↔
        sameNumber streaming (build.cell b) (probe.cell p) = true)
  := by
  cases streaming with
  | true =>
    obtain ⟨bs, hbs, h⟩ := bind_eq_some_iff.mp h
    obtain ⟨ps, hps, h⟩ := bind_eq_some_iff.mp h
    obtain ⟨-, rfl⟩ := asStrings_eq_some hbs
    obtain ⟨-, rfl⟩ := asStrings_eq_some hps
    obtain ⟨hlb, hlp, hcodes⟩ := internKeys_spec h
    rw [length_map, length_map] at hlb hlp
    refine ⟨hlb, hlp, ?_⟩
    intro b hbn p hpn
    obtain ⟨s, hs⟩ := hb b hbn
    obtain ⟨t, ht⟩ := hp p hpn
    have hsb := stringOf_getElem? build hbn
    have htp := stringOf_getElem? probe hpn
    rw [hs] at hsb
    rw [ht] at htp
    have hhb : ((build.cells.map stringOf).map (Option.map utf8Hash64))[b]? =
        some (some (utf8Hash64 s)) := by
      rw [getElem?_map, hsb]
      rfl
    have hhp : ((probe.cells.map stringOf).map (Option.map utf8Hash64))[p]? =
        some (some (utf8Hash64 t)) := by
      rw [getElem?_map, htp]
      rfl
    rw [hcodes hhb hhp, hs, ht, sameNumber, if_pos rfl, decide_eq_true_eq]
    simp [stringOf]
  | false =>
    obtain ⟨bs, hbs, h⟩ := bind_eq_some_iff.mp h
    obtain ⟨ps, hps, h⟩ := bind_eq_some_iff.mp h
    obtain ⟨-, rfl⟩ := asStrings_eq_some hbs
    obtain ⟨-, rfl⟩ := asStrings_eq_some hps
    obtain ⟨hlb, hlp, hcodes⟩ := internKeys_spec h
    rw [length_map] at hlb hlp
    refine ⟨hlb, hlp, ?_⟩
    intro b hbn p hpn
    obtain ⟨s, hs⟩ := hb b hbn
    obtain ⟨t, ht⟩ := hp p hpn
    have hsb := stringOf_getElem? build hbn
    have htp := stringOf_getElem? probe hpn
    rw [hs] at hsb
    rw [ht] at htp
    rw [hcodes hsb htp, hs, ht, sameNumber, if_neg Bool.false_ne_true, decide_eq_true_eq]
    simp [stringOf]

theorem sameNumber_of_eq (streaming : Bool) {v w : Value} (h : v = w) :
  sameNumber streaming v w = true
  := by
  subst h
  unfold sameNumber
  split <;> exact decide_eq_true rfl

theorem sameCells_text (hb : IsText build) (hp : IsText probe) (hbn : b < build.length)
    (hpn : p < probe.length) :
  sameCells [build] [probe] b p = decide (build.cell b = probe.cell p)
  := by
  obtain ⟨s, hs⟩ := hb b hbn
  obtain ⟨t, ht⟩ := hp p hpn
  simp [sameCells, cellsAt, hs, ht, canonCellsKey, cellsKey, keyValue?, nanKey]

/-! ### What the unique-key kernel picks -/

/-- One row for each probe row, of the rows with its number. -/
structure Chosen (streaming : Bool) (build probe : Column) (pairs : List RowPair) : Prop where
  numbers : ∀ {b p}, (b, p) ∈ pairs → b < build.length ∧ p < probe.length ∧
    sameNumber streaming (build.cell b) (probe.cell p) = true
  once : (pairs.map Prod.snd).Nodup
  found : ∀ {b p}, b < build.length → p < probe.length →
    sameNumber streaming (build.cell b) (probe.cell p) = true → ∃ b', (b', p) ∈ pairs

theorem encodeKeysI64_int32Column (values : List Int32) :
  encodeKeysI64 (int32Column values) .int32 = some (values.map toInt64)
  := by
  apply Outcome.mapM_eq_some_iff.mpr
  rw [int32Column, cells, forall₂_map_left_iff, forall₂_map_right_iff,
    forall₂_same]
  intro n hn
  rfl

theorem mem_equalPairs_interned (h : internForInner streaming build probe = some interned)
    (hb : IsText build) (hp : IsText probe) :
  (b, p) ∈ equalPairs (interned.1.map toInt64) (interned.2.map toInt64) ↔
    b < build.length ∧ p < probe.length ∧
      sameNumber streaming (build.cell b) (probe.cell p) = true
  := by
  obtain ⟨hlb, hlp, hcodes⟩ := internForInner_spec h hb hp
  rw [equalPairs, mem_matched, mem_range, mem_range, length_map,
    length_map, hlb, hlp, decide_eq_true_eq]
  apply and_congr_right
  intro hbn
  apply and_congr_right
  intro hpn
  rw [← hcodes b hbn p hpn, getElem?_map, getElem?_map,
    getElem?_eq_getElem (by omega), getElem?_eq_getElem (by omega)]
  simp [toInt64_inj]

theorem chosen_of_pairsOnce (h : internForInner streaming build probe = some interned)
    (hb : IsText build) (hp : IsText probe) {pairs : List RowPair}
    (hpairs : PairsOnce (interned.1.map toInt64) (interned.2.map toInt64) pairs) :
  Chosen streaming build probe pairs
  := by
  constructor
  · intro b p hmem
    exact (mem_equalPairs_interned h hb hp).mp (hpairs.equal _ hmem)
  · exact hpairs.once
  · intro b p hbn hpn hnum
    have hmem := hpairs.found _ ((mem_equalPairs_interned h hb hp).mpr ⟨hbn, hpn, hnum⟩)
    obtain ⟨⟨b', p'⟩, hpair, rfl⟩ := mem_map.mp hmem
    exact ⟨b', hpair⟩

/-- The pairs of chosen rows whose texts are equal. -/
def textPairs (build probe : Column) (pairs : List RowPair) : List RowPair :=
  pairs.filter (fun pair => sameCells [build] [probe] pair.1 pair.2)

/-- A join by strings keeps, of the chosen rows, those with equal texts. -/
theorem utf8Pairs_eq (hk : kernels.Contract) (hd : build.dtype = probe.dtype)
    (ht : build.dtype = .plain .utf8) (hb : IsText build) (hp : IsText probe)
    (h : internForInner streaming build probe = some interned)
    (hfit : rowsFitU32 build.length probe.length = some ()) :
  utf8Pairs kernels streaming build probe =
    (kernels.unique (interned.1.map toInt64) (interned.2.map toInt64)).map
      (textPairs build probe)
  := by
  have hlb : (int32Column interned.1).length = build.length := by
    rw [int32Column, Column.length, cells, length_map]
    exact (internForInner_spec h hb hp).1
  have hlp : (int32Column interned.2).length = probe.length := by
    rw [int32Column, Column.length, cells, length_map]
    exact (internForInner_spec h hb hp).2.1
  simp only [utf8Pairs, h, bind_eq_bind, bind_some, hashJoinIndicesOnGpu, hlb, hlp,
    hfit, encodeKeysI64_int32Column]
  cases hu : kernels.unique (interned.1.map toInt64) (interned.2.map toInt64) with
  | none => rfl
  | some pairs =>
    have hchosen := chosen_of_pairsOnce h hb hp (hk.unique hu)
    rw [bind_some, map_some]
    cases streaming with
    | true =>
      rw [if_pos rfl]
      apply verifyPairsOnHost_eq
      rintro ⟨b, p⟩ hpair
      obtain ⟨hbn, hpn, -⟩ := hchosen.numbers hpair
      obtain ⟨s, hs⟩ := hb b hbn
      obtain ⟨t, hte⟩ := hp p hpn
      have hbs : build.cell b ≠ .null := by
        rw [hs]
        exact Literal.noConfusion
      have hps : probe.cell p ≠ .null := by
        rw [hte]
        exact Literal.noConfusion
      rw [rowsEq, arrowRowEq_eq hd ht rfl hbs hps, sameCells_text hb hp hbn hpn]
      cases decide (build.cell b = probe.cell p) <;> rfl
    | false =>
      rw [if_neg Bool.false_ne_true, some.injEq, textPairs, eq_comm, filter_eq_self]
      rintro ⟨b, p⟩ hpair
      obtain ⟨hbn, hpn, hnum⟩ := hchosen.numbers hpair
      obtain ⟨s, hs⟩ := hb b hbn
      obtain ⟨t, hte⟩ := hp p hpn
      rw [sameNumber, if_neg Bool.false_ne_true, hs, hte, decide_eq_true_eq] at hnum
      rw [sameCells_text hb hp hbn hpn, hs, hte]
      injection hnum with hnum
      rw [hnum]
      exact decide_eq_true rfl

/-- The numbers by text are compared as the texts are. -/
theorem sameCells_codes (h : internUtf8Columns build probe = some interned) (hb : IsText build)
    (hp : IsText probe) (hbn : b < build.length) (hpn : p < probe.length) :
  sameCells [int32Column interned.1] [int32Column interned.2] b p = sameCells [build] [probe] b p
  := by
  have hinner : internForInner false build probe = some interned := h
  obtain ⟨hlb, hlp, hcodes⟩ := internForInner_spec hinner hb hp
  have hcell : ∀ {values : List Int32} {row : Nat} (hrow : row < values.length),
      (int32Column values).cell row = .int32 values[row] := by
    intro values row hrow
    rw [int32Column, cell, cells, getD_eq_getElem _ _ (by rwa [length_map]),
      getElem_map]
  have hnum := hcodes b hbn p hpn
  rw [getElem?_eq_getElem (by omega), getElem?_eq_getElem (by omega),
    some.injEq] at hnum
  obtain ⟨s, hs⟩ := hb b hbn
  obtain ⟨t, ht⟩ := hp p hpn
  rw [sameCells_text hb hp hbn hpn, sameCells, cellsAt, cellsAt, map_singleton,
    map_singleton, hcell (by omega), hcell (by omega), decide_eq_decide, hs, ht]
  rw [hs, ht, sameNumber, if_neg Bool.false_ne_true, decide_eq_true_eq] at hnum
  simp only [stringOf, some.injEq] at hnum
  simp [canonCellsKey, cellsKey, keyValue?, nanKey, hnum]

/-- A join by strings that answers has numbered them. -/
theorem utf8Pairs_eq_some {pairs : List RowPair}
    (h : utf8Pairs kernels streaming build probe = some pairs) (hb : IsText build)
    (hp : IsText probe) :
  ∃ interned, internForInner streaming build probe = some interned ∧
    rowsFitU32 build.length probe.length = some ()
  := by
  obtain ⟨interned, hinterned, h⟩ := bind_eq_some_iff.mp h
  obtain ⟨chosen, hchosen, -⟩ := bind_eq_some_iff.mp h
  obtain ⟨⟨⟩, hfit, -⟩ := bind_eq_some_iff.mp hchosen
  obtain ⟨hlb, hlp, -⟩ := internForInner_spec hinterned hb hp
  refine ⟨interned, hinterned, ?_⟩
  rw [← hlb, ← hlp]
  simpa [int32Column, Column.length, cells] using hfit

/-! ### When one row for each probe row is enough -/

/--
No build row but one has the number of a probe row that has a partner. Numbered by texts: the
partner of a probe row is its only one.
-/
def SoleBuildRow (streaming : Bool) (build probe : Column) : Prop :=
  ∀ b < build.length, ∀ b' < build.length, ∀ p < probe.length,
    build.cell b = probe.cell p → sameNumber streaming (build.cell b') (probe.cell p) = true →
      b' = b

theorem nodup_samePairs (buildCols probeCols : List Column) (nBuild nProbe : Nat) :
  (samePairs buildCols probeCols nBuild nProbe).Nodup
  := (Nodup.product nodup_range nodup_range).filter _

theorem mem_samePairs_text (hb : IsText build) (hp : IsText probe) :
  (b, p) ∈ samePairs [build] [probe] build.length probe.length ↔
    b < build.length ∧ p < probe.length ∧ build.cell b = probe.cell p
  := by
  rw [samePairs, mem_matched, mem_range, mem_range]
  apply and_congr_right
  intro hbn
  apply and_congr_right
  intro hpn
  rw [sameCells_text hb hp hbn hpn, decide_eq_true_eq]

section Choice

variable {streaming : Bool} {pairs : List RowPair} (h : Chosen streaming build probe pairs)
include h

theorem Chosen.textPairs_subset :
  textPairs build probe pairs ⊆ samePairs [build] [probe] build.length probe.length
  := by
  rintro ⟨b, p⟩ hpair
  rw [textPairs, mem_filter] at hpair
  obtain ⟨hbn, hpn, -⟩ := h.numbers hpair.1
  rw [samePairs, mem_matched, mem_range, mem_range]
  exact ⟨hbn, hpn, hpair.2⟩

theorem Chosen.nodup_textPairs :
  (textPairs build probe pairs).Nodup
  := (Nodup.of_map _ h.once).filter _

theorem Chosen.perm_of_sole (hb : IsText build)
    (hp : IsText probe) (hsole : SoleBuildRow streaming build probe) :
  (textPairs build probe pairs).Perm (samePairs [build] [probe] build.length probe.length)
  := by
  rw [perm_ext_iff_of_nodup h.nodup_textPairs (nodup_samePairs _ _ _ _)]
  rintro ⟨b, p⟩
  refine ⟨fun hmem => h.textPairs_subset hmem, ?_⟩
  intro hmem
  obtain ⟨hbn, hpn, heq⟩ := (mem_samePairs_text hb hp).mp hmem
  obtain ⟨b', hpair⟩ := h.found hbn hpn (sameNumber_of_eq streaming heq)
  obtain ⟨hbn', -, hnum⟩ := h.numbers hpair
  have hbb := hsole b hbn b' hbn' p hpn heq hnum
  subst hbb
  rw [textPairs, mem_filter, sameCells_text hb hp hbn hpn]
  exact ⟨hpair, decide_eq_true heq⟩

/-- A partner that is not chosen is lost. -/
theorem Chosen.length_lt (hb : IsText build)
    (hp : IsText probe) {b b' p : Nat} (hbn : b < build.length) (hpn : p < probe.length)
    (heq : build.cell b = probe.cell p) (hpair : (b', p) ∈ pairs) (hne : b' ≠ b) :
  (textPairs build probe pairs).length <
    (samePairs [build] [probe] build.length probe.length).length
  := by
  have hsub := subperm_of_subset h.nodup_textPairs h.textPairs_subset
  apply lt_of_le_of_ne hsub.length_le
  intro hlen
  have hperm := hsub.perm_of_length_le (le_of_eq hlen.symm)
  have hmem := hperm.mem_iff.mpr ((mem_samePairs_text hb hp).mpr ⟨hbn, hpn, heq⟩)
  rw [textPairs, mem_filter] at hmem
  have hsame := inj_on_of_nodup_map h.once hmem.1 hpair rfl
  exact hne (congrArg Prod.fst hsame).symm

end Choice

end Interned

/-! ### Kernels that keep the contracts -/

/-- The row picked for a probe row: the preferred one, if it has the key, and else the first. -/
def pick (preferred : RowPair) (build probe : List Int64) (p : Nat) : Option Nat :=
  if preferred.2 = p ∧ preferred ∈ equalPairs build probe then some preferred.1
  else (range build.length).find? (fun b => decide (build[b]? = probe[p]?))

/-- One pair for each probe row with a partner. -/
def pickAll (preferred : RowPair) (build probe : List Int64) : List RowPair :=
  (range probe.length).filterMap
    (fun p => (pick preferred build probe p).map (fun b => (b, p)))

/-- Kernels that never refuse and pick one pair before all others. -/
def preferring (preferred : RowPair) : Kernels where
  unique build probe := some (pickAll preferred build probe)
  uniqueAos build probe := some (pickAll preferred build probe)
  collide build probe := some (equalPairs build probe, (range build.length).map (fun b =>
    (range probe.length).any (fun p => decide (build[b]? = probe[p]?))))
  unmatchedBuild matched :=
    some ((range matched.length).filter (fun b => !matched.getD b false))
  cross lefts rights := some (range lefts ×ˢ range rights)

section Preferring

variable {preferred : RowPair} {build probe : List Int64}

theorem pick_spec (hp : p < probe.length) (h : pick preferred build probe p = some b) :
  (b, p) ∈ equalPairs build probe
  := by
  unfold pick at h
  split at h
  · rename_i hpref
    injection h with h
    subst h
    rw [← hpref.1]
    exact hpref.2
  · have hmem := mem_of_find?_eq_some h
    have htest := find?_some h
    rw [equalPairs, mem_matched]
    exact ⟨hmem, mem_range.mpr hp, htest⟩

theorem pick_isSome (h : (b, p) ∈ equalPairs build probe) :
  ∃ b', pick preferred build probe p = some b'
  := by
  rw [equalPairs, mem_matched] at h
  unfold pick
  split
  · exact ⟨_, rfl⟩
  · apply isSome_iff_exists.mp
    rw [find?_isSome]
    exact ⟨b, h.1, h.2.2⟩

theorem mem_pickAll :
  (b, p) ∈ pickAll preferred build probe ↔
    p < probe.length ∧ pick preferred build probe p = some b
  := by
  rw [pickAll, mem_filterMap]
  constructor
  · rintro ⟨p', hp', hb⟩
    obtain ⟨b', hb', hpair⟩ := map_eq_some_iff.mp hb
    rw [Prod.mk.injEq] at hpair
    obtain ⟨rfl, rfl⟩ := hpair
    exact ⟨mem_range.mp hp', hb'⟩
  · rintro ⟨hp, hb⟩
    exact ⟨p, mem_range.mpr hp, by rw [hb]; rfl⟩

theorem pickAll_once (preferred : RowPair) (build probe : List Int64) :
  PairsOnce build probe (pickAll preferred build probe)
  := by
  constructor
  · rintro ⟨b, p⟩ hpair
    obtain ⟨hp, hb⟩ := mem_pickAll.mp hpair
    exact pick_spec hp hb
  · rw [pickAll, map_filterMap]
    have hsnd : ∀ p, Option.map Prod.snd ((pick preferred build probe p).map (fun b => (b, p))) =
        (pick preferred build probe p).map (fun _ => p) := by
      intro p
      rw [Option.map_map]
      rfl
    simp only [hsnd]
    have hfilter : (List.range probe.length).filterMap
        (fun p => (pick preferred build probe p).map (fun _ => p)) =
        (List.range probe.length).filter (fun p => (pick preferred build probe p).isSome) := by
      rw [← filterMap_eq_filter]
      congr 1
      funext p
      cases hpick : pick preferred build probe p <;> simp [Option.guard, hpick]
    rw [hfilter]
    exact nodup_range.filter _
  · rintro ⟨b, p⟩ hpair
    obtain ⟨b', hb'⟩ := pick_isSome hpair
    rw [equalPairs, mem_matched] at hpair
    exact List.mem_map.mpr ⟨(b', p), mem_pickAll.mpr ⟨mem_range.mp hpair.2.1, hb'⟩, rfl⟩

theorem preferring_contract (preferred : RowPair) :
  (preferring preferred).Contract
  := by
  constructor
  · intro build probe pairs h
    injection h with h
    subst h
    exact pickAll_once preferred build probe
  · intro build probe pairs h
    injection h with h
    subst h
    exact pickAll_once preferred build probe
  · intro build probe pairs matched h
    injection h with h
    rw [Prod.mk.injEq] at h
    obtain ⟨rfl, rfl⟩ := h
    refine ⟨Perm.refl _, by rw [length_map, length_range], ?_⟩
    intro b hb
    rw [getD_eq_getElem?_getD, getElem?_map, getElem?_range hb]
    rfl
  · intro matched rows h
    injection h with h
    subst h
    exact Perm.refl _
  · intro lefts rights pairs h
    injection h with h
    exact h.symm

/-- A preferred pair with equal keys is picked. -/
theorem preferred_mem (h : preferred ∈ equalPairs build probe) :
  preferred ∈ pickAll preferred build probe
  := by
  obtain ⟨b, p⟩ := preferred
  have hp := (mem_matched.mp h).2.1
  apply mem_pickAll.mpr
  refine ⟨mem_range.mp hp, ?_⟩
  rw [pick, if_pos ⟨rfl, h⟩]

end Preferring

end CratonBolt.Joins
