import Mathlib.Data.List.Dedup
import Mathlib.Data.List.Sort

/-!
# Ranks

The place of an element in a sorted list of distinct elements. Elements are compared through a key;
for elements of the list, the order of their places is the order of their keys.
-/

namespace Ranks

open List

variable {α β : Type} [LinearOrder β] {key : α → β} {u l : List α} {x y : α}

section

variable (key)

/-- The distinct elements of a list in the order of their keys. -/
def sortedDistinct [DecidableEq α] (l : List α) : List α :=
  (l.insertionSort (fun a b => key a ≤ key b)).dedup

/-- Where an element stands in a sorted list, or where it would be inserted. -/
def place (u : List α) (x : α) : Nat := u.findIdx (fun y => decide (key x ≤ key y))

end

theorem mem_sortedDistinct [DecidableEq α] :
  x ∈ sortedDistinct key l ↔ x ∈ l
  := by
  rw [sortedDistinct, mem_dedup, (perm_insertionSort _ l).mem_iff]

theorem sorted_sortedDistinct [DecidableEq α] (key : α → β) (l : List α) :
  (sortedDistinct key l).Pairwise (fun a b => key a ≤ key b)
  := by
  have : Std.Total (fun a b : α => key a ≤ key b) := ⟨fun a b => le_total (key a) (key b)⟩
  have : IsTrans α (fun a b : α => key a ≤ key b) := ⟨fun _ _ _ => le_trans⟩
  exact (pairwise_insertionSort _ l).sublist (dedup_sublist _)

theorem place_cons (a : α) (u : List α) (x : α) :
  place key (a :: u) x = if key x ≤ key a then 0 else place key u x + 1
  := by
  simp only [place, findIdx_cons, Bool.cond_decide]

/-- An element stands behind those with smaller keys. -/
theorem place_lt_place (hu : u.Pairwise (fun a b => key a ≤ key b)) (hx : x ∈ u) (hy : y ∈ u)
    (h : key x < key y) :
  place key u x < place key u y
  := by
  induction u with
  | nil => cases hx
  | cons a u ih =>
    obtain ⟨ha, hu⟩ := pairwise_cons.mp hu
    have hmin (z : α) (hz : z ∈ a :: u) : key a ≤ key z := by
      rcases mem_cons.mp hz with rfl | hz
      · exact le_rfl
      · exact ha z hz
    have hya : ¬ key y ≤ key a := not_le.mpr ((hmin x hx).trans_lt h)
    rw [place_cons, place_cons, if_neg hya]
    split_ifs with hxa
    · exact Nat.succ_pos _
    · have htail (z : α) (hz : z ∈ a :: u) (hza : ¬ key z ≤ key a) : z ∈ u := by
        rcases mem_cons.mp hz with rfl | hz
        · exact absurd le_rfl hza
        · exact hz
      exact Nat.succ_lt_succ (ih hu (htail x hx hxa) (htail y hy hya))

/-- The places of two elements are in the order of their keys. -/
theorem place_le_place_iff (hu : u.Pairwise (fun a b => key a ≤ key b)) (hx : x ∈ u) (hy : y ∈ u) :
  place key u x ≤ place key u y ↔ key x ≤ key y
  := by
  constructor
  · intro h
    exact not_lt.mp (fun hlt => absurd (place_lt_place hu hy hx hlt) (not_lt.mpr h))
  · intro h
    apply findIdx_le_findIdx
    simp only [decide_eq_true_eq]
    exact fun z _ hz => h.trans hz

/-- An element below all of the list stands in front. -/
theorem place_eq_zero (h : ∀ y ∈ u, key x ≤ key y) :
  place key u x = 0
  := by
  cases u with
  | nil => rfl
  | cons a u => rw [place_cons, if_pos (h a mem_cons_self)]

end Ranks
