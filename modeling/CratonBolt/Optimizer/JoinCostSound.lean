import CratonBolt.Library.Submasks
import CratonBolt.Optimizer.JoinCost

/-!
# The chosen join tree has every leaf once

Both enumerations keep the invariant that a tree has exactly the leaves it stands for: the tree
at a mask those of the mask, the trees of the greedy parts those of the parts, which divide up
all leaves.
-/

namespace CratonBolt

open Submasks List Option

variable {F : Type} {A : CostArith F} {model : CardModel} {plan : CostedPlan F} {best : DpTable F}
variable {parts : List (Part F)}

theorem orient_leafList (aShape bShape : JoinShape) (aCard bCard : F) :
  (orient A aShape aCard bShape bCard).leafList.Perm (aShape.leafList ++ bShape.leafList)
  := by
  unfold orient
  generalize (if A.ne aCard bCard = true then A.lt aCard bCard
    else decide (minLeaf aShape ≤ minLeaf bShape)) = aFirst
  cases aFirst with
  | true => exact Perm.refl _
  | false => exact perm_append_comm

/-! ### Dynamic programming -/

theorem maskToSet_nodup (n mask : Nat) :
  (maskToSet n mask).Nodup
  := nodup_range.filter _

theorem mem_maskToSet {n mask i : Nat} :
  i ∈ maskToSet n mask ↔ i < n ∧ mask.testBit i = true
  := by
  rw [maskToSet, mem_filter, mem_range]

theorem maskToSet_two_pow {n i : Nat} (hi : i < n) :
  (maskToSet n (2 ^ i)).Perm [i]
  := by
  rw [perm_ext_iff_of_nodup (maskToSet_nodup n _) (nodup_singleton i)]
  intro j
  rw [mem_singleton, mem_maskToSet, Nat.testBit_two_pow]
  constructor
  · rintro ⟨-, hj⟩
    exact (of_decide_eq_true hj).symm
  · rintro rfl
    exact ⟨hi, decide_eq_true rfl⟩

/-- A mask and a submask divide up the leaves. -/
theorem maskToSet_split {n mask part : Nat} (h : IsSubmask part mask) :
  (maskToSet n part ++ maskToSet n (mask ^^^ part)).Perm (maskToSet n mask)
  := by
  have hdisjoint : (maskToSet n part ++ maskToSet n (mask ^^^ part)).Nodup := by
    rw [nodup_append]
    refine ⟨maskToSet_nodup n part, maskToSet_nodup n _, ?_⟩
    rintro i hi j hj rfl
    rw [mem_maskToSet] at hi hj
    rw [Nat.testBit_xor, hi.2, h i hi.2] at hj
    cases hj.2
  rw [perm_ext_iff_of_nodup hdisjoint (maskToSet_nodup n mask)]
  intro i
  rw [mem_append, mem_maskToSet, mem_maskToSet, mem_maskToSet, Nat.testBit_xor]
  have hi := h i
  cases hp : part.testBit i with
  | true => simp [hi hp]
  | false => simp

theorem submasksBelow_subset {mask fuel start part : Nat}
    (h : part ∈ submasksBelow mask fuel start) :
  IsSubmask part mask
  := by
  induction fuel generalizing start with
  | zero => cases h
  | succ fuel ih =>
    simp only [submasksBelow] at h
    split at h
    · cases h
    · obtain rfl | h := mem_cons.mp h
      · intro i hi
        rw [Nat.testBit_and, Bool.and_eq_true] at hi
        exact hi.2
      · exact ih h

theorem splits_subset {n mask part : Nat} (h : part ∈ splits n mask) :
  IsSubmask part mask
  := by
  unfold splits at h
  split at h
  · exact submasksBelow_subset (mem_of_mem_filter h)
  · cases h

/-- Every entry of the table has a property that may depend on its mask. -/
def DpTable.All (P : Nat → CostedPlan F → Prop) (best : DpTable F) : Prop :=
  ∀ mask plan, DpTable.at best mask = some plan → P mask plan

/-- The leaves have a property, and joining two sides that have it over a key preserves it. -/
structure JoinStable (A : CostArith F) (model : CardModel) (n : Nat)
    (P : Nat → CostedPlan F → Prop) : Prop where
  leaf : ∀ i < n, P (2 ^ i) ⟨.leaf i, A.zero, leafCard A model i⟩
  join : ∀ mask part l r cost card, IsSubmask part mask → P part l → P (mask ^^^ part) r →
    model.crossingKeys (maskToSet n part) (maskToSet n (mask ^^^ part)) ≠ 0 →
    P mask ⟨orient A l.shape l.card r.shape r.card, cost, card⟩

variable {mask : Nat} {pair : Nat × Nat}

section Stable

variable {n : Nat} {P : Nat → CostedPlan F → Prop}

theorem JoinStable.singletons (hP : JoinStable A model n P) :
  (singletons A model n).All P
  := by
  intro mask plan h
  simp only [CratonBolt.singletons, DpTable.at, getElem?_map, join_eq_some_iff,
    map_eq_some_iff] at h
  obtain ⟨m, hm, i, hi, rfl⟩ := h
  obtain ⟨hlt, rfl⟩ := List.getElem?_eq_some_iff.mp hm
  have hp := find?_some hi
  rw [getElem_range, decide_eq_true_eq] at hp
  subst hp
  exact hP.leaf i (mem_range.mp (mem_of_find?_eq_some hi))

theorem DpTable.All.set (h : best.All P) (hp : P mask plan) :
  DpTable.All P (best.set mask (some plan))
  := by
  intro m p hm
  rw [DpTable.at, getElem?_set] at hm
  split at hm
  · next heq =>
    subst heq
    split at hm
    · cases hm
      exact hp
    · cases hm
  · exact h m p hm

/-- What trying a split does: nothing, or it enters a join of the two sides over a key. -/
theorem trySplit_cases (mask part : Nat) (best : DpTable F) :
  trySplit A model n mask best part = best ∨
    ∃ l r cost card, DpTable.at best part = some l ∧ DpTable.at best (mask ^^^ part) = some r ∧
      model.crossingKeys (maskToSet n part) (maskToSet n (mask ^^^ part)) ≠ 0 ∧
      trySplit A model n mask best part =
        best.set mask (some ⟨orient A l.shape l.card r.shape r.card, cost, card⟩)
  := by
  simp only [trySplit]
  split
  · next l r hl hr =>
    split
    · exact .inl rfl
    · next hcross =>
      split <;> split
      · exact .inr ⟨l, r, _, _, hl, hr, hcross, rfl⟩
      · exact .inl rfl
      · exact .inr ⟨l, r, _, _, hl, hr, hcross, rfl⟩
      · exact .inl rfl
  · exact .inl rfl

variable (hP : JoinStable A model n P)
include hP

theorem JoinStable.trySplit {mask part : Nat} (h : best.All P) (hs : IsSubmask part mask) :
  (trySplit A model n mask best part).All P
  := by
  obtain heq | ⟨l, r, cost, card, hl, hr, hcross, heq⟩ := @trySplit_cases F A model n mask part best
  · rw [heq]
    exact h
  · rw [heq]
    exact h.set (hP.join mask part l r cost card hs (h _ _ hl) (h _ _ hr) hcross)

theorem JoinStable.foldl_trySplit {parts : List Nat}
    (h : best.All P) (hs : ∀ part ∈ parts, IsSubmask part mask) :
  DpTable.All P (parts.foldl (CratonBolt.trySplit A model n mask) best)
  := by
  induction parts generalizing best with
  | nil => exact h
  | cons part parts ih =>
    apply ih
    · exact hP.trySplit h (hs part mem_cons_self)
    · exact fun q hq => hs q (mem_cons_of_mem part hq)

theorem JoinStable.foldl_masks {masks : List Nat} (h : best.All P) :
  DpTable.All P
    (masks.foldl (fun best mask => (splits n mask).foldl (CratonBolt.trySplit A model n mask) best)
      best)
  := by
  induction masks generalizing best with
  | nil => exact h
  | cons mask masks ih =>
    apply ih
    exact hP.foldl_trySplit h (fun part hp => splits_subset hp)

end Stable

/-- A stable property holds of the tree that the dynamic programming returns. -/
theorem JoinStable.optimizeDp {P : Nat → CostedPlan F → Prop}
    (hP : JoinStable A model model.leafRows.length P) (h : optimizeDp A model = some plan) :
  P (2 ^ model.leafRows.length - 1) plan
  := hP.foldl_masks hP.singletons _ _ h

/-- The tree is over the leaves of its mask. -/
def CoversMask (n mask : Nat) (plan : CostedPlan F) : Prop :=
  plan.shape.leafList.Perm (maskToSet n mask)

theorem coversMask_stable (n : Nat) :
  JoinStable A model n (CoversMask n)
  := by
  constructor
  · intro i hi
    exact (maskToSet_two_pow hi).symm
  · intro mask part l r cost card hs hl hr _
    apply (orient_leafList l.shape r.shape l.card r.card).trans
    exact (hl.append hr).trans (maskToSet_split hs)

theorem maskToSet_full (n : Nat) :
  (maskToSet n (2 ^ n - 1)).Perm (range n)
  := by
  rw [perm_ext_iff_of_nodup (maskToSet_nodup _ _) nodup_range]
  intro i
  rw [mem_maskToSet, mem_range, Nat.testBit_two_pow_sub_one]
  simp

theorem optimizeDp_leafList (h : optimizeDp A model = some plan) :
  plan.shape.leafList.Perm (range model.leafRows.length)
  := ((coversMask_stable _).optimizeDp h).trans (maskToSet_full _)

/-! ### The greedy choice -/

/-- The trees of the parts are over their leaves, which together are all leaves. -/
structure PartsCover (n : Nat) (parts : List (Part F)) : Prop where
  tree : ∀ part ∈ parts, part.plan.shape.leafList.Perm part.leaves
  all : (parts.flatMap Part.leaves).Perm (range n)

theorem eraseIdx_flatMap_perm {α β : Type} {l : List α} {i : Nat} {a : α} (h : l[i]? = some a)
    (f : α → List β) :
  (l.flatMap f).Perm (f a ++ (l.eraseIdx i).flatMap f)
  := by
  induction l generalizing i with
  | nil => cases h
  | cons b l ih =>
    cases i with
    | zero =>
      cases h
      exact Perm.refl _
    | succ i =>
      rw [eraseIdx_cons_succ, flatMap_cons, flatMap_cons]
      apply ((ih h).append_left (f b)).trans
      rw [← append_assoc, ← append_assoc]
      exact perm_append_comm.append_right _

theorem positionPairs_lt {n : Nat} (h : pair ∈ positionPairs n) :
  pair.1 < pair.2
  := by
  simp only [positionPairs, mem_flatMap, List.mem_map, mem_range'] at h
  obtain ⟨a, -, b, ⟨k, -, rfl⟩, rfl⟩ := h
  omega

/-- A merge of two parts that share a key. -/
structure IsMerge (model : CardModel) (parts : List (Part F)) (m : Nat × Nat × F × F) : Prop where
  lt : m.1 < m.2.1
  crosses : ∃ pa pb, parts[m.1]? = some pa ∧ parts[m.2.1]? = some pb ∧
    model.crossingKeys pa.leaves pb.leaves ≠ 0

theorem betterMerge_isMerge (hlt : pair.1 < pair.2)
    {best : Option (Nat × Nat × F × F)} (hbest : ∀ m ∈ best, IsMerge model parts m) :
  ∀ m ∈ betterMerge A model parts best pair, IsMerge model parts m
  := by
  intro m hm
  unfold betterMerge at hm
  split at hm
  · next pa pb ha hb =>
    cases hcost : mergeCost A model pa pb with
    | none =>
      simp only [hcost] at hm
      exact hbest m hm
    | some c =>
      have hcross : model.crossingKeys pa.leaves pb.leaves ≠ 0 := by
        intro hzero
        simp [mergeCost, hzero] at hcost
      simp only [hcost] at hm
      split at hm
      · cases hm
        exact ⟨hlt, pa, pb, ha, hb, hcross⟩
      · split at hm
        · cases hm
          exact ⟨hlt, pa, pb, ha, hb, hcross⟩
        · exact hbest m hm
  · exact hbest m hm

theorem foldl_betterMerge_isMerge {pairs : List (Nat × Nat)} (hp : ∀ pair ∈ pairs, pair.1 < pair.2)
    {best : Option (Nat × Nat × F × F)} (hbest : ∀ m ∈ best, IsMerge model parts m) :
  ∀ m ∈ pairs.foldl (betterMerge A model parts) best, IsMerge model parts m
  := by
  induction pairs generalizing best with
  | nil => exact hbest
  | cons pair pairs ih =>
    apply ih (fun q hq => hp q (mem_cons_of_mem pair hq))
    exact betterMerge_isMerge (hp pair mem_cons_self) hbest

/-- What a merge does: two parts that share a key are replaced by one over their leaves. -/
theorem mergeCheapest_cases {parts parts' : List (Part F)}
    (h : mergeCheapest A model parts = some parts') :
  ∃ a b pa pb cost card, a < b ∧ parts[a]? = some pa ∧ parts[b]? = some pb ∧
    model.crossingKeys pa.leaves pb.leaves ≠ 0 ∧
    parts' = (parts.eraseIdx b).eraseIdx a ++ [⟨pa.leaves ++ pb.leaves,
      ⟨orient A pa.plan.shape pa.plan.card pb.plan.shape pb.plan.card, cost, card⟩⟩]
  := by
  simp only [mergeCheapest, bind_eq_bind, bind_eq_some_iff, some.injEq] at h
  obtain ⟨⟨a, b, card, cost⟩, hbest, pa, ha, pb, hb, rfl⟩ := h
  have hmerge := foldl_betterMerge_isMerge (fun _ hp => positionPairs_lt hp) (by simp) _ hbest
  obtain ⟨pa', pb', ha', hb', hcross⟩ := hmerge.crosses
  obtain rfl := some.inj (ha.symm.trans ha')
  obtain rfl := some.inj (hb.symm.trans hb')
  exact ⟨a, b, pa, pb, cost, card, hmerge.lt, ha, hb, hcross, rfl⟩

theorem mergeCheapest_covers {n : Nat} {parts parts' : List (Part F)} (hc : PartsCover n parts)
    (h : mergeCheapest A model parts = some parts') :
  PartsCover n parts'
  := by
  obtain ⟨a, b, pa, pb, cost, card, hab, ha, hb, -, rfl⟩ := mergeCheapest_cases h
  have ha' : (parts.eraseIdx b)[a]? = some pa := by
    rw [getElem?_eraseIdx_of_lt hab, ha]
  constructor
  · intro part hp
    obtain hp | hp := mem_append.mp hp
    · exact hc.tree part (mem_of_mem_eraseIdx (mem_of_mem_eraseIdx hp))
    · obtain rfl := mem_singleton.mp hp
      apply (orient_leafList _ _ _ _).trans
      exact (hc.tree pa (mem_of_getElem? ha)).append (hc.tree pb (mem_of_getElem? hb))
  · rw [flatMap_append, flatMap_singleton]
    apply Perm.trans _ hc.all
    apply Perm.symm
    apply (eraseIdx_flatMap_perm hb Part.leaves).trans
    apply ((eraseIdx_flatMap_perm ha' Part.leaves).append_left _).trans
    rw [← append_assoc]
    apply perm_append_comm.trans
    exact (perm_append_comm).append_left _

theorem mergeAll_leafList {n fuel : Nat} (hc : PartsCover n parts)
    (h : mergeAll A model fuel parts = some plan) :
  plan.shape.leafList.Perm (range n)
  := by
  fun_induction mergeAll A model fuel parts with
  | case1 fuel part =>
    cases h
    apply (hc.tree part mem_cons_self).trans
    simpa using hc.all
  | case2 parts hne => cases h
  | case3 fuel parts hne ih =>
    obtain ⟨parts', hm, h⟩ := bind_eq_some_iff.mp h
    exact ih parts' (mergeCheapest_covers hc hm) h

/-- One part for every leaf. -/
theorem partsCover_leaves (n : Nat) :
  PartsCover n ((range n).map (fun i =>
    (⟨[i], ⟨.leaf i, A.zero, leafCard A model i⟩⟩ : Part F)))
  := by
  constructor
  · intro part hp
    obtain ⟨i, -, rfl⟩ := mem_map.mp hp
    exact Perm.refl _
  · rw [flatMap_map]
    simp

theorem optimizeGreedy_leafList (h : optimizeGreedy A model = some plan) :
  plan.shape.leafList.Perm (range model.leafRows.length)
  := mergeAll_leafList (partsCover_leaves _) h

/-- The tree chosen for a model has every leaf exactly once. -/
theorem optimize_leafList (h : optimize A model = some plan) :
  plan.shape.leafList.Perm (range model.leafRows.length)
  := by
  simp only [optimize] at h
  split at h
  · cases h
  · split at h
    · cases h
    · split at h
      · exact optimizeDp_leafList h
      · exact optimizeGreedy_leafList h

end CratonBolt
