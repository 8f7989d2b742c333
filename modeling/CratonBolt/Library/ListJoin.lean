import Mathlib.Data.Multiset.Bind

/-!
# Joins of lists

`outerJoin` pairs the elements of two lists that match. Elements of a kept side that match
nothing are paired with `none`. The results say when a test on one side may be applied to that
side before the join, how the join follows maps of its two sides, and that it consists of the
matched pairs and the unmatched elements of the kept sides, whichever side is gone through first.
-/

namespace ListJoin

open List

variable {α β α' β' : Type}
variable {m : α → β → Bool} {keepLeft keepRight : Bool} {p : Option α × Option β → Bool}
variable {ls : List α} {rs : List β} {m m' : α → β → Bool}

/-- The pairs that one left element contributes. -/
def pairsOf (keepLeft : Bool) (m : α → β → Bool) (rs : List β) (l : α) :
    List (Option α × Option β) :=
  if keepLeft && (rs.filter (m l)).isEmpty then [(some l, none)]
  else (rs.filter (m l)).map (fun r => (some l, some r))

/-- The right elements that no left element matches. -/
def unmatchedRight (m : α → β → Bool) (ls : List α) (rs : List β) : List β :=
  rs.filter (fun r => !ls.any (fun l => m l r))

/--
The matching pairs of two lists, left-major; then, where a side is kept, its elements that
match nothing. An unmatched left element stands in its own place, the unmatched right elements
come last.
-/
def outerJoin (keepLeft keepRight : Bool) (m : α → β → Bool) (ls : List α) (rs : List β) :
    List (Option α × Option β) :=
  ls.flatMap (pairsOf keepLeft m rs) ++
    if keepRight then (unmatchedRight m ls rs).map (fun r => (none, some r)) else []

/--
The sides of a joined pair come from the two lists. A side is missing only if the other one is
kept.
-/
theorem sides_of_mem_outerJoin {a : Option α} {b : Option β}
    (h : (a, b) ∈ outerJoin keepLeft keepRight m ls rs) :
  (∀ l ∈ a, l ∈ ls) ∧ (∀ r ∈ b, r ∈ rs) ∧ (a = none → keepRight = true) ∧
    (b = none → keepLeft = true)
  := by
  rw [outerJoin, mem_append] at h
  obtain h | h := h
  · obtain ⟨l, hl, h⟩ := mem_flatMap.mp h
    unfold pairsOf at h
    split at h
    · rename_i hkeep
      rw [mem_singleton, Prod.mk.injEq] at h
      rw [Bool.and_eq_true] at hkeep
      obtain ⟨rfl, rfl⟩ := h
      simpa using ⟨hl, hkeep.1⟩
    · obtain ⟨r, hr, hab⟩ := mem_map.mp h
      rw [Prod.mk.injEq] at hab
      obtain ⟨rfl, rfl⟩ := hab
      simpa using ⟨hl, mem_of_mem_filter hr⟩
  · cases keepRight with
    | false => simp at h
    | true =>
      obtain ⟨r, hr, hab⟩ := mem_map.mp h
      rw [Prod.mk.injEq] at hab
      obtain ⟨rfl, rfl⟩ := hab
      simpa using mem_of_mem_filter hr

/-- A test on the pairs of a join that keeps no side is part of its condition. -/
theorem filter_outerJoin_inner (ls : List α) (rs : List β) :
  (outerJoin false false m ls rs).filter p =
    outerJoin false false (fun l r => m l r && p (some l, some r)) ls rs
  := by
  simp only [outerJoin, append_nil, Bool.false_eq_true, if_false]
  induction ls with
  | nil => rfl
  | cons l ls ih =>
    rw [flatMap_cons, flatMap_cons, filter_append, ih]
    simp only [pairsOf, Bool.false_and, Bool.false_eq_true, if_false, filter_map,
      filter_filter]
    congr 3
    funext r
    exact Bool.and_comm _ _

/-! ### Lists in another order and mapped lists -/

/-- A join of mapped sides is the mapped join, when the maps keep matches. -/
theorem outerJoin_map {m' : α' → β' → Bool} {f : α → α'} {g : β → β'} (ls : List α) (rs : List β)
    (h : ∀ a ∈ ls, ∀ b ∈ rs, m' (f a) (g b) = m a b) :
  outerJoin keepLeft keepRight m' (ls.map f) (rs.map g) =
    (outerJoin keepLeft keepRight m ls rs).map (fun pair => (pair.1.map f, pair.2.map g))
  := by
  have hfilter : ∀ a ∈ ls, (rs.map g).filter (m' (f a)) = (rs.filter (m a)).map g := by
    intro a ha
    rw [filter_map]
    congr 1
    exact filter_congr (fun b hb => h a ha b hb)
  have hpairs : ∀ a ∈ ls, pairsOf keepLeft m' (rs.map g) (f a) =
      (pairsOf keepLeft m rs a).map (fun pair => (pair.1.map f, pair.2.map g)) := by
    intro a ha
    unfold pairsOf
    rw [hfilter a ha, isEmpty_map]
    split
    · rfl
    · rw [map_map, map_map]
      rfl
  rw [outerJoin, outerJoin, map_append, flatMap_map, map_flatMap]
  congr 1
  · apply flatMap_congr
    exact hpairs
  · cases keepRight with
    | false => rfl
    | true =>
      simp only [if_true, unmatchedRight, filter_map, map_map]
      congr 1
      apply filter_congr
      intro b hb
      rw [Function.comp_apply, any_map]
      congr 1
      rw [Bool.eq_iff_iff, any_eq_true, any_eq_true]
      apply exists_congr
      intro a
      apply and_congr_right
      intro ha
      rw [Function.comp_apply, h a ha b hb]

/-! ### The parts of a join -/

section

variable (m : α → β → Bool)

/-- The matching pairs of two lists, left-major. -/
def matched (ls : List α) (rs : List β) : List (α × β) :=
  (ls ×ˢ rs).filter (fun p => m p.1 p.2)

/-- The left elements that match no right element. -/
def unmatchedLeft (ls : List α) (rs : List β) : List α :=
  ls.filter (fun l => !rs.any (m l))

theorem matched_cons (l : α) (ls : List α) (rs : List β) :
  matched m (l :: ls) rs = (rs.filter (m l)).map (Prod.mk l) ++ matched m ls rs
  := by
  rw [matched, product_cons, filter_append, filter_map]
  rfl

end

theorem mem_matched {p : α × β} :
  p ∈ matched m ls rs ↔ p.1 ∈ ls ∧ p.2 ∈ rs ∧ m p.1 p.2 = true
  := by
  rw [matched, mem_filter, mem_product, and_assoc]

theorem matched_congr (h : ∀ l ∈ ls, ∀ r ∈ rs, m l r = m' l r) :
  matched m ls rs = matched m' ls rs
  := by
  apply filter_congr
  intro p hp
  rw [mem_product] at hp
  exact h p.1 hp.1 p.2 hp.2

/-- The pairs of a test that are pairs of a stricter test. -/
theorem filter_matched_of_imp (h : ∀ l ∈ ls, ∀ r ∈ rs, m' l r = true → m l r = true) :
  (matched m ls rs).filter (fun p => m' p.1 p.2) = matched m' ls rs
  := by
  rw [matched, matched, filter_filter]
  apply filter_congr
  intro p hp
  rw [mem_product] at hp
  cases hm : m' p.1 p.2 with
  | false => rfl
  | true => rw [h p.1 hp.1 p.2 hp.2 hm, Bool.and_true]

/-- The unmatched left elements of a join, if they are kept. -/
def keptLeft (keepLeft : Bool) (m : α → β → Bool) (ls : List α) (rs : List β) :
    List (Option α × Option β) :=
  if keepLeft then (unmatchedLeft m ls rs).map (fun l => (some l, none)) else []

/-- The unmatched right elements of a join, if they are kept. -/
def keptRight (keepRight : Bool) (m : α → β → Bool) (ls : List α) (rs : List β) :
    List (Option α × Option β) :=
  if keepRight then (unmatchedRight m ls rs).map (fun r => (none, some r)) else []

theorem flatMap_pairsOf_perm (keepLeft : Bool) (m : α → β → Bool) (ls : List α) (rs : List β) :
  (ls.flatMap (pairsOf keepLeft m rs)).Perm
    ((matched m ls rs).map (Prod.map some some) ++ keptLeft keepLeft m ls rs)
  := by
  induction ls with
  | nil => cases keepLeft <;> exact Perm.refl _
  | cons l ls ih =>
    rw [flatMap_cons, matched_cons, map_append, map_map]
    have hmap : (rs.filter (m l)).map (Prod.map some some ∘ Prod.mk l) =
        (rs.filter (m l)).map (fun r => (some l, some r)) := rfl
    rw [hmap]
    by_cases hempty : rs.filter (m l) = []
    · have hany : rs.any (m l) = false := by
        rw [any_eq_false]
        exact filter_eq_nil_iff.mp hempty
      cases keepLeft with
      | false => simpa [pairsOf, hempty, keptLeft] using ih
      | true =>
        simp only [pairsOf, hempty, isEmpty_nil, Bool.and_self, if_true, map_nil,
          nil_append, keptLeft, unmatchedLeft, filter_cons, hany, Bool.not_false,
          map_cons, singleton_append]
        exact (ih.cons _).trans perm_middle.symm
    · have hkept : keptLeft keepLeft m (l :: ls) rs = keptLeft keepLeft m ls rs := by
        have hany : rs.any (m l) = true := by
          rw [any_eq_true]
          obtain ⟨r, hr⟩ := exists_mem_of_ne_nil _ hempty
          exact ⟨r, mem_filter.mp hr⟩
        simp [keptLeft, unmatchedLeft, hany]
      have hpairs :
          pairsOf keepLeft m rs l = (rs.filter (m l)).map (fun r => (some l, some r)) := by
        simp [pairsOf, hempty]
      rw [hpairs, hkept, append_assoc]
      exact ih.append_left _

section

variable (keepLeft keepRight : Bool) (m : α → β → Bool) (ls : List α) (rs : List β)

/-- A join consists of the matched pairs and the unmatched elements of the kept sides. -/
theorem outerJoin_parts :
  (outerJoin keepLeft keepRight m ls rs).Perm
    ((matched m ls rs).map (Prod.map some some) ++
      (keptLeft keepLeft m ls rs ++ keptRight keepRight m ls rs))
  := by
  rw [← append_assoc]
  exact (flatMap_pairsOf_perm keepLeft m ls rs).append_right _

theorem matched_swap :
  ((matched m ls rs).map Prod.swap).Perm (matched (fun r l => m l r) rs ls)
  := by
  have hproduct : ((ls ×ˢ rs).map Prod.swap).Perm (rs ×ˢ ls) := by
    have h := Multiset.map_swap_product (ls : Multiset α) (rs : Multiset β)
    rw [Multiset.coe_product, Multiset.coe_product, Multiset.map_coe] at h
    exact Multiset.coe_eq_coe.mp h
  have hfilter : (matched m ls rs).map Prod.swap =
      ((ls ×ˢ rs).map Prod.swap).filter (fun p => m p.2 p.1) := by
    rw [matched, filter_map]
    rfl
  rw [hfilter]
  exact hproduct.filter _

/-- It does not matter which side of a join is gone through first. -/
theorem outerJoin_swap :
  ((outerJoin keepLeft keepRight m ls rs).map Prod.swap).Perm
    (outerJoin keepRight keepLeft (fun r l => m l r) rs ls)
  := by
  apply ((outerJoin_parts keepLeft keepRight m ls rs).map Prod.swap).trans
  apply Perm.trans _ (outerJoin_parts keepRight keepLeft (fun r l => m l r) rs ls).symm
  rw [map_append, map_append]
  apply Perm.append
  · have hswap := (matched_swap m ls rs).map (Prod.map some some)
    rw [map_map] at hswap ⊢
    exact hswap
  · have hleft : (keptLeft keepLeft m ls rs).map Prod.swap =
        keptRight keepLeft (fun r l => m l r) rs ls := by
      cases keepLeft <;> simp [keptLeft, keptRight, unmatchedLeft, unmatchedRight]
    have hright : (keptRight keepRight m ls rs).map Prod.swap =
        keptLeft keepRight (fun r l => m l r) rs ls := by
      cases keepRight <;> simp [keptLeft, keptRight, unmatchedLeft, unmatchedRight]
    rw [hleft, hright]
    exact perm_append_comm

theorem outerJoin_nil_left :
  outerJoin keepLeft keepRight m [] rs =
    if keepRight then rs.map (fun r => (none, some r)) else []
  := by
  simp [outerJoin, unmatchedRight]

theorem outerJoin_nil_right :
  outerJoin keepLeft keepRight m ls [] =
    if keepLeft then ls.map (fun l => (some l, none)) else []
  := by
  cases keepLeft with
  | false => simp [outerJoin, unmatchedRight, pairsOf]
  | true =>
    rw [if_pos rfl, map_eq_flatMap, outerJoin]
    cases keepRight <;> exact append_nil _

variable {ls rs}

/-- A side that is kept leaves its elements in the join. -/
theorem outerJoin_keepLeft_ne_nil (h : ls ≠ []) :
  outerJoin true keepRight m ls rs ≠ []
  := by
  obtain ⟨l, hl⟩ := exists_mem_of_ne_nil ls h
  intro hnil
  rw [outerJoin, append_eq_nil_iff, flatMap_eq_nil_iff] at hnil
  have hpairs := hnil.1 l hl
  unfold pairsOf at hpairs
  split at hpairs
  · cases hpairs
  · rename_i hne
    rw [map_eq_nil_iff] at hpairs
    simp [hpairs] at hne

theorem outerJoin_keepRight_ne_nil (h : rs ≠ []) :
  outerJoin keepLeft true m ls rs ≠ []
  := by
  intro hnil
  have hswap := outerJoin_swap keepLeft true m ls rs
  rw [hnil, map_nil] at hswap
  exact outerJoin_keepLeft_ne_nil keepLeft _ h hswap.symm.eq_nil

end

/-! ### Counting the matched pairs -/

/-- A test of joined pairs that holds of the matched ones alone counts them. -/
theorem countP_outerJoin (hboth : ∀ l ∈ ls, ∀ r ∈ rs, m l r = true → p (some l, some r) = true)
    (hleft : ∀ l ∈ ls, p (some l, none) = false) (hright : ∀ r ∈ rs, p (none, some r) = false) :
  (outerJoin keepLeft keepRight m ls rs).countP p = (matched m ls rs).length
  := by
  rw [(outerJoin_parts keepLeft keepRight m ls rs).countP_eq, countP_append,
    countP_append]
  have hkl : (keptLeft keepLeft m ls rs).countP p = 0 := by
    cases keepLeft with
    | false => rfl
    | true =>
      rw [keptLeft, if_pos rfl, countP_map, countP_eq_zero]
      intro l hl
      simp [hleft l (mem_of_mem_filter hl)]
  have hkr : (keptRight keepRight m ls rs).countP p = 0 := by
    cases keepRight with
    | false => rfl
    | true =>
      rw [keptRight, if_pos rfl, countP_map, countP_eq_zero]
      intro r hr
      simp [hright r (mem_of_mem_filter hr)]
  rw [hkl, hkr, Nat.add_zero, ← length_map (Prod.map some some), countP_eq_length]
  intro x hx
  obtain ⟨⟨l, r⟩, hlr, rfl⟩ := mem_map.mp hx
  obtain ⟨hl, hr, hm⟩ := mem_matched.mp hlr
  exact hboth l hl r hr hm

/-- Of two tests, one implied by the other, with as many matched pairs, both match the same. -/
theorem matched_congr_of_length (himp : ∀ l ∈ ls, ∀ r ∈ rs, m l r = true → m' l r = true)
    (hlen : (matched m ls rs).length = (matched m' ls rs).length) :
  ∀ l ∈ ls, ∀ r ∈ rs, m l r = m' l r
  := by
  have hsub : (matched m ls rs).Sublist (matched m' ls rs) := by
    have hfilter : matched m ls rs = (matched m' ls rs).filter (fun p => m p.1 p.2) := by
      rw [matched, matched, filter_filter]
      apply filter_congr
      rintro ⟨l, r⟩ hlr
      obtain ⟨hl, hr⟩ := mem_product.mp hlr
      have := himp l hl r hr
      cases hm : m l r <;> simp_all
    rw [hfilter]
    exact filter_sublist
  have heq := hsub.eq_of_length hlen
  intro l hl r hr
  rw [Bool.eq_iff_iff]
  constructor
  · exact himp l hl r hr
  · intro hm'
    have hmem : (l, r) ∈ matched m' ls rs := mem_matched.mpr ⟨hl, hr, hm'⟩
    rw [← heq] at hmem
    exact (mem_matched.mp hmem).2.2

/-- A join depends on its test only on the elements of its sides. -/
theorem outerJoin_congr (h : ∀ l ∈ ls, ∀ r ∈ rs, m l r = m' l r) :
  outerJoin keepLeft keepRight m ls rs = outerJoin keepLeft keepRight m' ls rs
  := by
  have hmap : outerJoin keepLeft keepRight m (ls.map id) (rs.map id) =
      (outerJoin keepLeft keepRight m' ls rs).map (fun pair => (pair.1.map id, pair.2.map id)) :=
    outerJoin_map ls rs h
  simpa using hmap

end ListJoin
