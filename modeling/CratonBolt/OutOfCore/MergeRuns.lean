import CratonBolt.Library.SortedCounts
import CratonBolt.Library.Outcome
import Mathlib.Data.List.Flatten

/-!
# Merging sorted runs

`merge_sorted_runs`: a heap holds the next row of every run, with the run and the position the row
has in it. The least entry is popped until the rows of the answer are there. The rows come out
sorted, and each of them once.

The test whether the answer is complete stands behind the step that adds a row to it. So an answer
that should have no rows gets one.
-/

namespace CratonBolt.OutOfCore

open SortedCounts List

variable {α : Type}

/-- A row in the heap. -/
structure HeapEntry (α : Type) where
  row : α
  run : Nat
  index : Nat
deriving DecidableEq, Repr

section Model

variable (le : α → α → Bool) (runs : List (List α))

/-- Entries are ordered by their keys, then by their runs and positions. -/
def entryLe (a b : HeapEntry α) : Bool :=
  le a.row b.row &&
    (!le b.row a.row || decide (a.run < b.run) || (a.run == b.run && decide (a.index ≤ b.index)))

/-- The least entry of a heap, and the others. -/
def popMin : List (HeapEntry α) → Option (HeapEntry α × List (HeapEntry α))
  | [] => none
  | e :: heap =>
    match popMin heap with
    | none => some (e, [])
    | some (m, rest) => if entryLe le e m then some (e, heap) else some (m, e :: rest)

/-- The entry of a position, if the run is that long. -/
def entryAt (r i : Nat) : Option (HeapEntry α) :=
  (runs[r]?).bind (fun run => (run[i]?).map (fun row => ⟨row, r, i⟩))

/-- The heap of the first rows. -/
def firstRows : List (HeapEntry α) :=
  (range runs.length).filterMap (fun r => entryAt runs r 0)

/-- The heap after an entry was popped: the next row of its run is pushed. -/
def pushNext (heap : List (HeapEntry α)) (e : HeapEntry α) : List (HeapEntry α) :=
  (entryAt runs e.run (e.index + 1)).toList ++ heap

/-- The answer has as many rows as it is to have. -/
def reached : Option Nat → Nat → Bool
  | some take, n => decide (take ≤ n)
  | none, _ => false

/-- The loop of the merge; none if it has not ended after so many rounds. -/
def mergeLoop (take : Option Nat) (skip : Nat) :
    Nat → List (HeapEntry α) → Nat → List (Nat × Nat) → Option (List (Nat × Nat))
  | 0, _, _, _ => none
  | rounds + 1, heap, seen, indices =>
    match popMin le heap with
    | none => some indices
    | some (e, heap) =>
      if skip ≤ seen then
        if reached take (indices ++ [(e.run, e.index)]).length then
          some (indices ++ [(e.run, e.index)])
        else
          mergeLoop take skip rounds (pushNext runs heap e) (seen + 1)
            (indices ++ [(e.run, e.index)])
      else mergeLoop take skip rounds (pushNext runs heap e) (seen + 1) indices

/-- The rows at some positions. -/
def interleave (indices : List (Nat × Nat)) : Option (List α) :=
  indices.mapM (fun p => (runs[p.1]?).bind (fun run => run[p.2]?))

/-- `merge_sorted_runs`, for a limit with its offset. Without runs there are no rows. -/
def mergeSortedRuns (limit : Option (Nat × Nat)) : Option (List α) :=
  (mergeLoop le runs (limit.map Prod.fst) ((limit.map Prod.snd).getD 0)
    (runs.flatten.length + 1) (firstRows runs) 0 []).bind (interleave runs)

end Model

variable {le : α → α → Bool} {runs : List (List α)}

/-! ### The heap -/

variable {a b e x : HeapEntry α} {heap rest : List (HeapEntry α)} {rounds skip seen : Nat}

theorem entryLe_row (h : entryLe le a b = true) :
  le a.row b.row = true
  := by
  rw [entryLe, Bool.and_eq_true] at h
  exact h.1

/-- The entry that is not below the other has a larger or equal key. -/
theorem le_of_not_entryLe (hle : TotalPreorder le) (h : entryLe le a b ≠ true) :
  le b.row a.row = true
  := by
  by_contra hnot
  have hab := (hle.total a.row b.row).resolve_right hnot
  exact h (by simp [entryLe, hab, hnot])

theorem popMin_eq_none (h : popMin le heap = none) :
  heap = []
  := by
  cases heap with
  | nil => rfl
  | cons e heap =>
    simp only [popMin] at h
    split at h
    · cases h
    · split at h <;> cases h

/-- The popped entry has a least key. -/
theorem popMin_eq_some (hle : TotalPreorder le)
    {m : HeapEntry α} (h : popMin le heap = some (m, rest)) :
  heap.Perm (m :: rest) ∧ ∀ e ∈ rest, le m.row e.row = true
  := by
  induction heap generalizing m rest with
  | nil => cases h
  | cons e heap ih =>
    simp only [popMin] at h
    cases hp : popMin le heap with
    | none =>
      rw [hp] at h
      cases h
      rw [popMin_eq_none hp]
      exact ⟨.refl _, by simp⟩
    | some p =>
      obtain ⟨m', rest'⟩ := p
      obtain ⟨hperm, hleast⟩ := ih hp
      simp only [hp] at h
      split at h
      · next hem =>
        cases h
        refine ⟨.refl _, ?_⟩
        intro x hx
        have hm := entryLe_row hem
        obtain rfl | hx := mem_cons.mp (hperm.mem_iff.mp hx)
        · exact hm
        · exact hle.trans _ _ _ hm (hleast x hx)
      · next hem =>
        cases h
        refine ⟨(hperm.cons e).trans (.swap _ _ _), ?_⟩
        intro x hx
        obtain rfl | hx := mem_cons.mp hx
        · exact le_of_not_entryLe hle hem
        · exact hleast x hx

/-- A run with the place of each of its rows. -/
def taggedRun (runs : List (List α)) (r : Nat) : List (HeapEntry α) :=
  (runs.getD r []).mapIdx (fun i row => ⟨row, r, i⟩)

theorem entryAt_eq (r i : Nat) :
  entryAt runs r i = (taggedRun runs r)[i]?
  := by
  rw [entryAt, taggedRun, getElem?_mapIdx, getD_eq_getElem?_getD]
  cases runs[r]? <;> simp

theorem taggedRun_map_row (r : Nat) :
  (taggedRun runs r).map HeapEntry.row = runs.getD r []
  := by
  apply ext_getElem
  · simp [taggedRun]
  · intro i h₁ h₂
    simp [taggedRun]

/-- The rows that are still to come, the entry itself first. -/
def upcoming (runs : List (List α)) (e : HeapEntry α) : List (HeapEntry α) :=
  (taggedRun runs e.run).drop e.index

/-- All rows still to come. -/
def remaining (runs : List (List α)) (heap : List (HeapEntry α)) : List (HeapEntry α) :=
  heap.flatMap (upcoming runs)

/-- The entry stands where it says. -/
def AtPlace (runs : List (List α)) (e : HeapEntry α) : Prop := entryAt runs e.run e.index = some e

theorem upcoming_eq_cons (h : AtPlace runs e) :
  upcoming runs e = e :: (taggedRun runs e.run).drop (e.index + 1)
  := by
  rw [AtPlace, entryAt_eq] at h
  obtain ⟨hlt, heq⟩ := List.getElem?_eq_some_iff.mp h
  rw [upcoming, drop_eq_getElem_cons hlt, heq]

theorem atPlace_of_entryAt {r i : Nat} (h : entryAt runs r i = some e) :
  e.run = r ∧ e.index = i ∧ AtPlace runs e
  := by
  obtain ⟨run, hrun, h'⟩ := Option.bind_eq_some_iff.mp h
  obtain ⟨row, hrow, rfl⟩ := Option.map_eq_some_iff.mp h'
  exact ⟨rfl, rfl, h⟩

theorem remaining_pushNext :
  remaining runs (pushNext runs heap e) =
    (taggedRun runs e.run).drop (e.index + 1) ++ remaining runs heap
  := by
  rw [pushNext, remaining, flatMap_append]
  congr 1
  cases hnext : entryAt runs e.run (e.index + 1) with
  | none =>
    rw [entryAt_eq, getElem?_eq_none_iff] at hnext
    simp [drop_eq_nil_of_le hnext]
  | some e' =>
    obtain ⟨hrun, hindex, -⟩ := atPlace_of_entryAt hnext
    simp [upcoming, hrun, hindex]

theorem atPlace_pushNext (h : ∀ x ∈ heap, AtPlace runs x) :
  ∀ x ∈ pushNext runs heap e, AtPlace runs x
  := by
  intro x hx
  obtain hx | hx := mem_append.mp hx
  · exact (atPlace_of_entryAt (Option.mem_toList.mp hx)).2.2
  · exact h x hx

/-- A run that is sorted is sorted from every place on. -/
theorem le_of_mem_upcoming (hle : TotalPreorder le) (hruns : ∀ r ∈ runs, Sorted le r)
    (he : AtPlace runs e) (hx : x ∈ upcoming runs e) :
  le e.row x.row = true
  := by
  have hsorted : ((taggedRun runs e.run).map HeapEntry.row).Pairwise
      (fun a b => le a b = true) := by
    rw [taggedRun_map_row, getD_eq_getElem?_getD]
    cases hr : runs[e.run]? with
    | none => simp
    | some run => exact hruns run (mem_of_getElem? hr)
  rw [pairwise_map] at hsorted
  have htail := hsorted.sublist (drop_sublist e.index _)
  rw [← upcoming, upcoming_eq_cons he] at htail
  rw [upcoming_eq_cons he] at hx
  obtain rfl | hx := mem_cons.mp hx
  · exact hle.refl _
  · exact (pairwise_cons.mp htail).1 x hx

/-! ### The order of the rows -/

/-- The entries in the order in which they are popped. -/
def popAll (le : α → α → Bool) (runs : List (List α)) : Nat → List (HeapEntry α) →
    List (HeapEntry α)
  | 0, _ => []
  | rounds + 1, heap =>
    match popMin le heap with
    | none => []
    | some (e, heap) => e :: popAll le runs rounds (pushNext runs heap e)

/-- What is left to come after the least entry was popped. -/
theorem remaining_pop (hle : TotalPreorder le) (hplace : ∀ x ∈ heap, AtPlace runs x)
    (h : popMin le heap = some (e, rest)) :
  (∀ x ∈ pushNext runs rest e, AtPlace runs x) ∧
    (remaining runs heap).Perm (e :: remaining runs (pushNext runs rest e))
  := by
  obtain ⟨hperm, -⟩ := popMin_eq_some hle h
  have he := hplace e (hperm.mem_iff.mpr mem_cons_self)
  constructor
  · apply atPlace_pushNext
    intro x hx
    exact hplace x (hperm.mem_iff.mpr (mem_cons_of_mem _ hx))
  · rw [remaining_pushNext]
    apply (hperm.flatMap_right (upcoming runs)).trans
    rw [flatMap_cons, upcoming_eq_cons he]
    exact .refl _

theorem popAll_perm (hle : TotalPreorder le)
    (hplace : ∀ x ∈ heap, AtPlace runs x) (hrounds : (remaining runs heap).length ≤ rounds) :
  (popAll le runs rounds heap).Perm (remaining runs heap)
  := by
  induction rounds generalizing heap with
  | zero =>
    rw [length_eq_zero_iff.mp (Nat.le_zero.mp hrounds)]
    exact .refl _
  | succ rounds ih =>
    rw [popAll]
    cases hp : popMin le heap with
    | none =>
      rw [popMin_eq_none hp]
      exact .refl _
    | some p =>
      obtain ⟨e, rest⟩ := p
      obtain ⟨hplace', hperm⟩ := remaining_pop hle hplace hp
      have hlen := hperm.length_eq
      rw [length_cons] at hlen
      exact ((ih hplace' (by omega)).cons e).trans hperm.symm

/-- The rows come out sorted. -/
theorem popAll_sorted (hle : TotalPreorder le) (hruns : ∀ r ∈ runs, Sorted le r)
    (hplace : ∀ x ∈ heap, AtPlace runs x) (hrounds : (remaining runs heap).length ≤ rounds) :
  Sorted le ((popAll le runs rounds heap).map HeapEntry.row)
  := by
  induction rounds generalizing heap with
  | zero => exact Pairwise.nil
  | succ rounds ih =>
    rw [popAll]
    cases hp : popMin le heap with
    | none => exact Pairwise.nil
    | some p =>
      obtain ⟨e, rest⟩ := p
      obtain ⟨hplace', hperm⟩ := remaining_pop hle hplace hp
      have hlen := hperm.length_eq
      rw [length_cons] at hlen
      refine pairwise_cons.mpr ⟨?_, ih hplace' (by omega)⟩
      intro row hrow
      obtain ⟨x, hx, rfl⟩ := mem_map.mp hrow
      rw [(popAll_perm hle hplace' (by omega)).mem_iff] at hx
      -- the popped entry is below the other entries, and those below what follows them
      have hx' := hperm.mem_iff.mpr (mem_cons_of_mem _ hx)
      obtain ⟨y, hy, hxy⟩ := mem_flatMap.mp hx'
      have hyx := le_of_mem_upcoming hle hruns (hplace y hy) hxy
      obtain ⟨hheap, hleast⟩ := popMin_eq_some hle hp
      obtain rfl | hy := mem_cons.mp (hheap.mem_iff.mp hy)
      · exact hyx
      · exact hle.trans _ _ _ (hleast y hy) hyx

/-! ### The loop -/

/-- The place of an entry. -/
def HeapEntry.place (e : HeapEntry α) : Nat × Nat := (e.run, e.index)

open HeapEntry (place)

/-- The loop over the entries in the order in which they are popped. -/
def collect (take : Option Nat) (skip : Nat) : Nat → List (Nat × Nat) → List (HeapEntry α) →
    List (Nat × Nat)
  | _, indices, [] => indices
  | seen, indices, e :: es =>
    if skip ≤ seen then
      if reached take (indices ++ [e.place]).length then indices ++ [e.place]
      else collect take skip (seen + 1) (indices ++ [e.place]) es
    else collect take skip (seen + 1) indices es

theorem mergeLoop_eq (hle : TotalPreorder le) {take : Option Nat}
    (hplace : ∀ x ∈ heap, AtPlace runs x)
    (hrounds : (remaining runs heap).length < rounds) (seen : Nat) (indices : List (Nat × Nat)) :
  mergeLoop le runs take skip rounds heap seen indices =
    some (collect take skip seen indices (popAll le runs rounds heap))
  := by
  induction rounds generalizing heap seen indices with
  | zero => omega
  | succ rounds ih =>
    rw [mergeLoop, popAll]
    cases hp : popMin le heap with
    | none => rfl
    | some p =>
      obtain ⟨e, rest⟩ := p
      obtain ⟨hplace', hperm⟩ := remaining_pop hle hplace hp
      have hlen := hperm.length_eq
      rw [length_cons] at hlen
      have ih := fun seen indices => ih hplace' (by omega) seen indices
      simp only [collect, ih, place]
      by_cases hs : skip ≤ seen
      · rw [if_pos hs, if_pos hs]
        exact (apply_ite some _ _ _).symm
      · rw [if_neg hs, if_neg hs]

theorem collect_of_lt (take : Option Nat) (skip k : Nat) (indices : List (Nat × Nat))
    (es : List (HeapEntry α)) (hk : k ≤ skip) :
  collect take skip (skip - k) indices es = collect take skip skip indices (es.drop k)
  := by
  induction es generalizing k with
  | nil => simp [collect]
  | cons e es ih =>
    cases k with
    | zero => rfl
    | succ k =>
      rw [collect, if_neg (by omega)]
      have hnext : skip - (k + 1) + 1 = skip - k := by omega
      rw [hnext, ih k (by omega), drop_succ_cons]

/-- Once there are rows to take, they are taken until there are enough, but at least one. -/
theorem collect_of_le (hs : skip ≤ seen) (take : Nat) (indices : List (Nat × Nat))
    (es : List (HeapEntry α)) (h : indices = [] ∨ indices.length < take) :
  collect (some take) skip seen indices es =
    indices ++ (es.take (max 1 (take - indices.length))).map place
  := by
  induction es generalizing seen indices with
  | nil => simp [collect]
  | cons e es ih =>
    rw [collect, if_pos hs]
    by_cases hreached : reached (some take) (indices ++ [e.place]).length = true
    · rw [if_pos hreached]
      simp only [reached, length_append, length_singleton, decide_eq_true_eq] at hreached
      have hone : max 1 (take - indices.length) = 1 := by omega
      rw [hone]
      rfl
    · rw [if_neg hreached]
      simp only [reached, length_append, length_singleton, decide_eq_true_eq] at hreached
      have hmore : max 1 (take - indices.length) =
          max 1 (take - (indices ++ [e.place]).length) + 1 := by
        rw [length_append, length_singleton]
        omega
      rw [ih (by omega) _ (.inr (by simp; omega)), hmore, take_succ_cons, map_cons,
        append_assoc]
      rfl

theorem collect_none (hs : skip ≤ seen) (indices : List (Nat × Nat)) (es : List (HeapEntry α)) :
  collect none skip seen indices es = indices ++ es.map place
  := by
  induction es generalizing seen indices with
  | nil => simp [collect]
  | cons e es ih =>
    rw [collect, if_pos hs, reached, if_neg (by decide), ih (by omega)]
    simp

/-- The entries of the answer: one of them even where there should be none. -/
def answer (limit : Option (Nat × Nat)) (l : List α) : List α :=
  match limit with
  | some (take, skip) => (l.drop skip).take (max 1 take)
  | none => l

theorem collect_eq_answer (limit : Option (Nat × Nat)) (es : List (HeapEntry α)) :
  collect (limit.map Prod.fst) ((limit.map Prod.snd).getD 0) 0 [] es =
    (answer limit es).map place
  := by
  cases limit with
  | none => exact collect_none (Nat.le_refl _) [] es
  | some p =>
    obtain ⟨take, skip⟩ := p
    have hstart := collect_of_lt (some take) skip skip [] es (Nat.le_refl _)
    rw [Nat.sub_self] at hstart
    exact hstart.trans (collect_of_le (Nat.le_refl _) take [] _ (.inl rfl))

/-! ### The merge -/

theorem remaining_firstRows :
  (remaining runs (firstRows runs)).map HeapEntry.row = runs.flatten
  := by
  have hstart : ∀ r, ((entryAt runs r 0).toList).flatMap (upcoming runs) = taggedRun runs r := by
    intro r
    cases h : entryAt runs r 0 with
    | none =>
      rw [entryAt_eq, getElem?_eq_none_iff] at h
      simp [length_eq_zero_iff.mp (Nat.le_zero.mp h)]
    | some e =>
      obtain ⟨hrun, hindex, -⟩ := atPlace_of_entryAt h
      simp [upcoming, hrun, hindex]
  have hall : remaining runs (firstRows runs) =
      (range runs.length).flatMap (taggedRun runs) := by
    rw [remaining, firstRows, filterMap_eq_flatMap_toList, flatMap_assoc]
    simp only [hstart]
  rw [hall, map_flatMap]
  simp only [taggedRun_map_row]
  rw [flatMap_def]
  congr 1
  apply ext_getElem
  · simp
  · intro i h₁ h₂
    simp [getD_eq_getElem?_getD, h₂]

theorem atPlace_firstRows :
  ∀ x ∈ firstRows runs, AtPlace runs x
  := by
  intro x hx
  obtain ⟨r, -, hr⟩ := mem_filterMap.mp hx
  exact (atPlace_of_entryAt hr).2.2

/-- Entries at their places are found again. -/
theorem interleave_place {es : List (HeapEntry α)} (h : ∀ e ∈ es, AtPlace runs e) :
  interleave runs (es.map place) = some (es.map HeapEntry.row)
  := by
  rw [interleave, mapM_map]
  induction es with
  | nil => rfl
  | cons e es ih =>
    have he := h e mem_cons_self
    obtain ⟨run, hrun, he'⟩ := Option.bind_eq_some_iff.mp he
    obtain ⟨row, hrow, heq⟩ := Option.map_eq_some_iff.mp he'
    have hrow' : row = e.row := by rw [← heq]
    have ih := ih (fun x hx => h x (mem_cons_of_mem _ hx))
    simp only [mapM_cons, Function.comp, place] at ih ⊢
    simp [hrun, hrow, hrow', ih]

theorem atPlace_of_mem_upcoming (hx : x ∈ upcoming runs e) :
  AtPlace runs x
  := by
  obtain ⟨i, hi⟩ := mem_iff_getElem?.mp (mem_of_mem_drop hx)
  rw [← entryAt_eq] at hi
  exact (atPlace_of_entryAt hi).2.2

theorem mem_of_mem_answer {β : Type} {limit : Option (Nat × Nat)} {l : List β} {b : β}
    (h : b ∈ answer limit l) :
  b ∈ l
  := by
  cases limit with
  | none => exact h
  | some p => exact mem_of_mem_drop (mem_of_mem_take h)

theorem map_answer {β γ : Type} (f : β → γ) (limit : Option (Nat × Nat)) (l : List β) :
  (answer limit l).map f = answer limit (l.map f)
  := by
  cases limit with
  | none => rfl
  | some p => simp [answer, map_take, map_drop]

/-- The merge returns the answer from a sorted arrangement of all rows of the runs. -/
theorem mergeSortedRuns_eq (hle : TotalPreorder le) (hruns : ∀ r ∈ runs, Sorted le r)
    (limit : Option (Nat × Nat)) :
  ∃ merged, mergeSortedRuns le runs limit = some (answer limit merged) ∧ Sorted le merged ∧
    merged.Perm runs.flatten
  := by
  have hlen : (remaining runs (firstRows runs)).length = runs.flatten.length := by
    rw [← remaining_firstRows, length_map]
  have hperm : (popAll le runs (runs.flatten.length + 1) (firstRows runs)).Perm
      (remaining runs (firstRows runs)) := popAll_perm hle atPlace_firstRows (by omega)
  refine ⟨(popAll le runs (runs.flatten.length + 1) (firstRows runs)).map HeapEntry.row, ?_, ?_, ?_⟩
  · rw [mergeSortedRuns, mergeLoop_eq hle atPlace_firstRows (by omega), Option.bind_some,
      collect_eq_answer, interleave_place, map_answer]
    intro e he
    obtain ⟨x, -, hx⟩ := mem_flatMap.mp (hperm.mem_iff.mp (mem_of_mem_answer he))
    exact atPlace_of_mem_upcoming hx
  · exact popAll_sorted hle hruns atPlace_firstRows (by omega)
  · have hrows := hperm.map HeapEntry.row
    rwa [remaining_firstRows] at hrows

end CratonBolt.OutOfCore
