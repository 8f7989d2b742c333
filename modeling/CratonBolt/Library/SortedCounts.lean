import Mathlib.Algebra.GroupWithZero.Nat
import Mathlib.Data.List.Perm.Subperm

/-!
# Sorted lists and how many elements lie below a bound

Lists sorted by a total preorder. The element at a position is determined, up to the preorder, by
how many elements lie below each bound; so two sorted lists whose counts agree up to `k` begin with
the same `k` keys. In particular the first `k` elements of each of several sorted lists are enough
for the first `k` of all.
-/

namespace SortedCounts

open List

variable {α : Type} {k : Nat}

/-- A total preorder, as a test. -/
structure TotalPreorder (le : α → α → Bool) : Prop where
  total : ∀ a b, le a b = true ∨ le b a = true
  trans : ∀ a b c, le a b = true → le b c = true → le a c = true

section

variable (le : α → α → Bool)

/-- No element stands before one that it is not below. -/
def Sorted (l : List α) : Prop := l.Pairwise (fun a b => le a b = true)

/-- Two elements have the same key. -/
def SameKey (a b : α) : Prop := le a b = true ∧ le b a = true

/-- How many elements lie below a bound. -/
def below (x : α) (l : List α) : Nat := l.countP (fun a => le a x)

end

variable {le : α → α → Bool} {l l' : List α} {x : α}

section

variable (hle : TotalPreorder le)
include hle

theorem TotalPreorder.refl (a : α) :
  le a a = true
  := (hle.total a a).elim id id

variable (h : Sorted le l)
include h

/-- What is below a bound stands in front. -/
theorem below_take (k : Nat) :
  below le x (l.take k) = min k (below le x l)
  := by
  induction l generalizing k with
  | nil => simp [below]
  | cons a l ih =>
    obtain ⟨ha, hl⟩ := pairwise_cons.mp h
    cases k with
    | zero => simp [below]
    | succ k =>
      have ih := ih hl k
      unfold below at ih ⊢
      rw [take_succ_cons, countP_cons, countP_cons, ih]
      by_cases hax : le a x = true
      · simp only [hax, if_true]
        omega
      · -- nothing behind an element above the bound is below it
        have hzero : l.countP (fun a => le a x) = 0 := by
          rw [countP_eq_zero]
          intro b hb hbx
          exact hax (hle.trans a b x (ha b hb) hbx)
        simp [hax, hzero]

theorem lt_below {i : Nat} (hi : i < l.length) (hx : le l[i] x = true) :
  i < below le x l
  := by
  have htake := below_take hle h (i + 1) (x := x)
  have hall : below le x (l.take (i + 1)) = i + 1 := by
    have hlen : (l.take (i + 1)).length = i + 1 := by rw [length_take]; omega
    refine Eq.trans (countP_eq_length.mpr ?_) hlen
    intro a ha
    obtain ⟨j, hj, rfl⟩ := getElem_of_mem ha
    rw [hlen] at hj
    rw [getElem_take]
    obtain hji | rfl := Nat.lt_or_eq_of_le (Nat.le_of_lt_succ hj)
    · exact hle.trans _ _ _ (pairwise_iff_getElem.mp h j i (by omega) hi hji) hx
    · exact hx
  omega

theorem below_le {i : Nat} (hi : i < l.length) (hx : le l[i] x ≠ true) :
  below le x l ≤ i
  := by
  have hdrop : below le x (l.drop i) = 0 := by
    rw [below, countP_eq_zero]
    intro a ha hax
    obtain ⟨j, hj, rfl⟩ := getElem_of_mem ha
    rw [length_drop] at hj
    rw [getElem_drop] at hax
    obtain rfl | hpos := Nat.eq_zero_or_pos j
    · exact hx (by simpa using hax)
    · exact hx (hle.trans _ _ _ (pairwise_iff_getElem.mp h i (i + j) hi (by omega) (by omega))
        hax)
  have htake : below le x (l.take i) ≤ i := by
    apply Nat.le_trans countP_le_length
    rw [length_take]
    omega
  have hsplit : below le x l = below le x (l.take i) + below le x (l.drop i) := by
    unfold below
    rw [← countP_append, take_append_drop]
  omega

/-- Sorted lists with the same counts up to `k` have the same `k` first keys. -/
theorem forall₂_take (h' : Sorted le l') (k : Nat) (hlen : min k l.length = min k l'.length)
    (hbelow : ∀ x, min k (below le x l) = min k (below le x l')) :
  Forall₂ (SameKey le) (l.take k) (l'.take k)
  := by
  rw [forall₂_iff_get]
  refine ⟨by rw [length_take, length_take, hlen], ?_⟩
  intro i hi hi'
  rw [length_take] at hi hi'
  simp only [get_eq_getElem, getElem_take]
  -- a smaller key on one side would be counted on that side only
  have hcompare : ∀ {m m' : List α}, Sorted le m → Sorted le m' → (hm : i < m.length) →
      (hm' : i < m'.length) → (∀ x, min k (below le x m) = min k (below le x m')) →
      le m[i] m'[i] = true := by
    intro m m' hs hs' hm hm' hcounts
    by_contra hnot
    have hlow := lt_below hle hs' hm' (hle.refl _)
    have hhigh := below_le hle hs hm hnot
    have := hcounts m'[i]
    omega
  exact ⟨hcompare h h' _ _ hbelow, hcompare h' h _ _ (fun x => (hbelow x).symm)⟩

end

theorem below_perm (h : l.Perm l') (x : α) :
  below le x l = below le x l'
  := h.countP_eq _

/-- Sorting leaves no choice of keys. -/
theorem forall₂_of_perm (hle : TotalPreorder le) (h : Sorted le l) (h' : Sorted le l')
    (hp : l.Perm l') :
  Forall₂ (SameKey le) l l'
  := by
  have := forall₂_take hle h h' l.length (by rw [hp.length_eq])
    (fun x => by rw [below_perm hp])
  rwa [take_length, hp.length_eq, take_length] at this

theorem min_sum_take {f g : α → Nat} (ls : List α) (h : ∀ a ∈ ls, g a = min k (f a)) :
  min k ((ls.map g).sum) = min k ((ls.map f).sum)
  := by
  induction ls with
  | nil => rfl
  | cons a ls ih =>
    have ih := ih (fun b hb => h b (mem_cons_of_mem _ hb))
    have ha := h a (by simp)
    simp only [map_cons, sum_cons, ha]
    omega

theorem sum_min_eq_zero {ns : List Nat} (h : ∀ n ∈ ns, min k n = 0) :
  (ns.map (min k)).sum = 0
  := by
  rw [List.sum_eq_zero_iff_forall_eq_nat]
  intro m hm
  obtain ⟨n, hn, rfl⟩ := mem_map.mp hm
  exact h n hn

theorem sum_min_le {ns : List Nat} (h : ns.countP (fun n => decide (0 < n)) ≤ 1) :
  (ns.map (min k)).sum ≤ k
  := by
  induction ns with
  | nil => simp
  | cons n ns ih =>
    rw [countP_cons] at h
    rw [map_cons, sum_cons]
    by_cases hn : 0 < n
    · rw [if_pos (by simpa using hn)] at h
      have hzero : ∀ m ∈ ns, min k m = 0 := by
        intro m hm
        have := countP_eq_zero.mp (Nat.le_zero.mp (Nat.le_of_succ_le_succ h)) m hm
        simp only [decide_eq_true_eq] at this
        omega
      have hsum := sum_min_eq_zero hzero
      omega
    · have := ih (by omega)
      omega

theorem min_sum_le (ns : List Nat) :
  min k ns.sum ≤ (ns.map (min k)).sum ∧ (ns.map (min k)).sum ≤ ns.sum
  := by
  induction ns with
  | nil => simp
  | cons n ns ih =>
    rw [map_cons, sum_cons, sum_cons]
    omega

/-- Lists cut to `k` have more than `k` together if two of them have something, and enough. -/
theorem lt_sum_min_iff (ns : List Nat) :
  k < (ns.map (min k)).sum ↔
    0 < k ∧ k < ns.sum ∧ 2 ≤ ns.countP (fun n => decide (0 < n))
  := by
  constructor
  · intro h
    have hsum := (min_sum_le (k := k) ns).2
    have hcount : ¬ns.countP (fun n => decide (0 < n)) ≤ 1 := fun hle => by
      have := sum_min_le (k := k) hle
      omega
    have hpos : 0 < k := by
      by_contra hzero
      have := sum_min_eq_zero (k := k) (fun n (_ : n ∈ ns) => by omega)
      omega
    exact ⟨hpos, by omega, by omega⟩
  · rintro ⟨hpos, hsum, hcount⟩
    induction ns with
    | nil => simp at hcount
    | cons n ns ih =>
      rw [map_cons, sum_cons]
      rw [sum_cons] at hsum
      rw [countP_cons] at hcount
      have hrest := (min_sum_le (k := k) ns).1
      by_cases hn : 0 < n
      · have hone : 0 < ns.sum := by
          by_contra hzero
          have hall : ns.countP (fun n => decide (0 < n)) = 0 := by
            rw [countP_eq_zero]
            intro m hm
            have := List.sum_eq_zero_iff_forall_eq_nat.mp (Nat.eq_zero_of_not_pos hzero) m hm
            simp [this]
          rw [hall] at hcount
          split at hcount <;> omega
        omega
      · rw [if_neg (by simpa using hn)] at hcount
        have := ih (by omega) hcount
        omega

/-- The first `k` of each of several sorted lists have the same `k` first keys as all of them. -/
theorem forall₂_take_runs (hle : TotalPreorder le) {runs : List (List α)}
    (hruns : ∀ r ∈ runs, Sorted le r) (h : Sorted le l) (h' : Sorted le l')
    (hp : l.Perm (runs.map (take k)).flatten) (hp' : l'.Perm runs.flatten) :
  Forall₂ (SameKey le) (l.take k) (l'.take k)
  := by
  apply forall₂_take hle h h'
  · rw [hp.length_eq, hp'.length_eq, length_flatten, length_flatten, map_map]
    apply min_sum_take
    intro r _
    exact length_take
  · intro x
    rw [below_perm hp, below_perm hp', below, below, countP_flatten, countP_flatten,
      map_map]
    apply min_sum_take
    intro r hr
    exact below_take hle (hruns r hr) k

end SortedCounts
