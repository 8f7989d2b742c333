import CratonBolt.Optimizer.JoinConnected

/-!
# The enumeration finds a join tree without cross products

Every join of the chosen tree is over a key. Where the keys connect all relations a tree is found:
by dynamic programming, since a set of relations grows from the first one to all of them one linked
relation at a time and each of these sets gets an entry; greedily, since of several parts two share
a key.
-/

namespace CratonBolt

open Submasks List
open CardModel (crossingKeys_ne_zero mem_edges_new new)

variable {F : Type} {A : CostArith F} {model : CardModel} {best : Option (Nat × Nat × F × F)}

/-! ### Joins over keys -/

/-- At every join of the tree two relations of its two sides are linked. -/
def JoinShape.Crossed (linked : Nat → Nat → Prop) : JoinShape → Prop
  | .leaf _ => True
  | .join left right => left.Crossed linked ∧ right.Crossed linked ∧
    ∃ a ∈ left.leafList, ∃ b ∈ right.leafList, linked a b

theorem JoinShape.Crossed.mono {r r' : Nat → Nat → Prop} (hr : ∀ a b, r a b → r' a b)
    {shape : JoinShape} (h : shape.Crossed r) :
  shape.Crossed r'
  := by
  induction shape with
  | leaf i => trivial
  | join left right ihl ihr =>
    obtain ⟨hl, hr', a, ha, b, hb, hlink⟩ := h
    exact ⟨ihl hl, ihr hr', a, ha, b, hb, hr a b hlink⟩

theorem crossed_orient {aShape bShape : JoinShape} {aCard bCard : F}
    (ha : aShape.Crossed model.Linked) (hb : bShape.Crossed model.Linked)
    (h : ∃ a ∈ aShape.leafList, ∃ b ∈ bShape.leafList, model.Linked a b) :
  (orient A aShape aCard bShape bCard).Crossed model.Linked
  := by
  unfold orient
  generalize (if A.ne aCard bCard = true then A.lt aCard bCard
    else decide (minLeaf aShape ≤ minLeaf bShape)) = aFirst
  cases aFirst with
  | true => exact ⟨ha, hb, h⟩
  | false =>
    obtain ⟨a, hmem, b, hmem', hlink⟩ := h
    exact ⟨hb, ha, b, hmem', a, hmem, hlink.symm⟩

variable {left right leafRows : List Nat} {plan : CostedPlan F} {m a b : Nat}
variable {pairs keyEdges : List (Nat × Nat)}

/-- Keys between two sets of leaves link the trees over them. -/
theorem exists_linked_of_crossingKeys {l r : JoinShape} (hl : l.leafList.Perm left)
    (hr : r.leafList.Perm right) (h : model.crossingKeys left right ≠ 0) :
  ∃ a ∈ l.leafList, ∃ b ∈ r.leafList, model.Linked a b
  := by
  obtain ⟨a, ha, b, hb, hlink⟩ := crossingKeys_ne_zero.mp h
  exact ⟨a, hl.mem_iff.mpr ha, b, hr.mem_iff.mpr hb, hlink⟩

/-- The tree is over the leaves of its mask and has joins over keys only. -/
def CrossedOver (model : CardModel) (n mask : Nat) (plan : CostedPlan F) : Prop :=
  CoversMask n mask plan ∧ plan.shape.Crossed model.Linked

theorem crossedOver_stable (n : Nat) :
  JoinStable A model n (CrossedOver model n)
  := by
  have hcovers := @coversMask_stable F A model n
  constructor
  · intro i hi
    exact ⟨hcovers.leaf i hi, trivial⟩
  · intro mask part l r cost card hs hl hr hcross
    refine ⟨hcovers.join mask part l r cost card hs hl.1 hr.1 hcross, ?_⟩
    exact crossed_orient hl.2 hr.2 (exists_linked_of_crossingKeys hl.1 hr.1 hcross)

theorem mergeAll_crossed {n fuel : Nat} {parts : List (Part F)}
    (hc : PartsCover n parts) (hcrossed : ∀ part ∈ parts, part.plan.shape.Crossed model.Linked)
    (h : mergeAll A model fuel parts = some plan) :
  plan.shape.Crossed model.Linked
  := by
  fun_induction mergeAll A model fuel parts with
  | case1 fuel part =>
    cases h
    exact hcrossed part mem_cons_self
  | case2 parts hne => cases h
  | case3 fuel parts hne ih =>
    obtain ⟨parts', hm, h⟩ := Option.bind_eq_some_iff.mp h
    apply ih parts' (mergeCheapest_covers hc hm) _ h
    obtain ⟨a, b, pa, pb, cost, card, -, ha, hb, hcross, rfl⟩ := mergeCheapest_cases hm
    intro part hp
    obtain hp | hp := mem_append.mp hp
    · exact hcrossed part (mem_of_mem_eraseIdx (mem_of_mem_eraseIdx hp))
    · obtain rfl := mem_singleton.mp hp
      have hpa := mem_of_getElem? ha
      have hpb := mem_of_getElem? hb
      exact crossed_orient (hcrossed pa hpa) (hcrossed pb hpb)
        (exists_linked_of_crossingKeys (hc.tree pa hpa) (hc.tree pb hpb) hcross)

theorem optimize_crossed (h : optimize A model = some plan) :
  plan.shape.Crossed model.Linked
  := by
  simp only [optimize] at h
  split at h
  · cases h
  · split at h
    · cases h
    · split at h
      · exact ((crossedOver_stable _).optimizeDp h).2
      · apply mergeAll_crossed (partsCover_leaves _) _ h
        intro part hp
        obtain ⟨i, -, rfl⟩ := mem_map.mp hp
        exact trivial

/-! ### Dynamic programming finds a tree -/

/-- The mask has an entry. -/
def DpTable.Has (best : DpTable F) (mask : Nat) : Prop := ∃ plan, DpTable.at best mask = some plan

section Table

variable {n mask part : Nat} {best : DpTable F}

theorem DpTable.Has.set (h : best.Has m) (plan : CostedPlan F) :
  DpTable.Has (best.set mask (some plan)) m
  := by
  obtain ⟨p, hp⟩ := h
  unfold DpTable.Has DpTable.at at *
  rw [getElem?_set]
  split
  · next heq =>
    subst heq
    split
    · exact ⟨plan, rfl⟩
    · next hge =>
      rw [getElem?_eq_none (by omega)] at hp
      cases hp
  · exact ⟨p, hp⟩

theorem DpTable.Has.trySplit (h : best.Has m) :
  (CratonBolt.trySplit A model n mask best part).Has m
  := by
  obtain heq | ⟨l, r, cost, card, -, -, -, heq⟩ := @trySplit_cases F A model n mask part best
  · rwa [heq]
  · rw [heq]
    exact h.set _

theorem DpTable.Has.foldl_trySplit {parts : List Nat} (h : best.Has m) :
  DpTable.Has (parts.foldl (CratonBolt.trySplit A model n mask) best) m
  := by
  induction parts generalizing best with
  | nil => exact h
  | cons part parts ih => exact ih h.trySplit

/-- The table after some masks. -/
def dpTable (A : CostArith F) (model : CardModel) (n : Nat) (masks : List Nat)
    (best : DpTable F) : DpTable F :=
  masks.foldl (fun best mask => (splits n mask).foldl (trySplit A model n mask) best) best

theorem DpTable.Has.dpTable {masks : List Nat} (h : best.Has m) :
  (CratonBolt.dpTable A model n masks best).Has m
  := by
  induction masks generalizing best with
  | nil => exact h
  | cons mask masks ih => exact ih h.foldl_trySplit

theorem trySplit_length :
  (trySplit A model n mask best part).length = best.length
  := by
  obtain heq | ⟨l, r, cost, card, -, -, -, heq⟩ := @trySplit_cases F A model n mask part best
  · rw [heq]
  · rw [heq, length_set]

theorem foldl_trySplit_length (parts : List Nat) :
  (parts.foldl (trySplit A model n mask) best).length = best.length
  := by
  induction parts generalizing best with
  | nil => rfl
  | cons part parts ih => rw [foldl_cons, ih, trySplit_length]

theorem dpTable_length (masks : List Nat) :
  (dpTable A model n masks best).length = best.length
  := by
  induction masks generalizing best with
  | nil => rfl
  | cons mask masks ih =>
    rw [dpTable, foldl_cons]
    exact ih.trans (foldl_trySplit_length _)

/-- A split whose sides have entries and are linked gives the mask an entry. -/
theorem has_trySplit (hlen : mask < best.length) (hl : best.Has part)
    (hr : best.Has (mask ^^^ part))
    (hcross : model.crossingKeys (maskToSet n part) (maskToSet n (mask ^^^ part)) ≠ 0) :
  (trySplit A model n mask best part).Has mask
  := by
  obtain ⟨l, hl⟩ := hl
  obtain ⟨r, hr⟩ := hr
  unfold trySplit
  simp only [hl, hr, hcross, if_false]
  cases hm : DpTable.at best mask with
  | none => exact ⟨_, by simp [DpTable.at, hlen]; rfl⟩
  | some cur =>
    dsimp only
    split
    · exact DpTable.Has.set ⟨cur, hm⟩ _
    · exact ⟨cur, hm⟩

theorem has_foldl_trySplit {parts : List Nat} (hmem : part ∈ parts) (hlen : mask < best.length)
    (hl : best.Has part) (hr : best.Has (mask ^^^ part))
    (hcross : model.crossingKeys (maskToSet n part) (maskToSet n (mask ^^^ part)) ≠ 0) :
  DpTable.Has (parts.foldl (trySplit A model n mask) best) mask
  := by
  induction parts generalizing best with
  | nil => cases hmem
  | cons p parts ih =>
    rw [foldl_cons]
    obtain rfl | hmem := mem_cons.mp hmem
    · exact (has_trySplit hlen hl hr hcross).foldl_trySplit
    · exact ih hmem (by rwa [trySplit_length]) hl.trySplit hr.trySplit

end Table

/-! #### The splits of a mask -/

/-- With enough fuel the descent meets every submask. -/
theorem mem_submasksBelow {mask fuel start part : Nat} (hpart : IsSubmask part mask)
    (hstart : IsSubmask start mask) (hpos : 0 < part) (hlt : part < start) (hfuel : start ≤ fuel) :
  part ∈ submasksBelow mask fuel start
  := by
  induction fuel generalizing start with
  | zero => omega
  | succ fuel ih =>
    have hle := hpart.le_pred_and hstart hlt
    have hnext : (start - 1) &&& mask ≤ start - 1 := Nat.and_le_left
    simp only [submasksBelow]
    rw [if_neg (by omega)]
    obtain heq | hlt' := Nat.eq_or_lt_of_le hle
    · exact mem_cons.mpr (.inl heq)
    · exact mem_cons_of_mem _ (ih (isSubmask_and _ _) hlt' (by omega))

theorem lt_of_testBit {n mask i : Nat} (hmask : mask < 2 ^ n) (hi : mask.testBit i = true) :
  i < n
  := by
  by_contra hge
  have hpow := Nat.pow_le_pow_right (by decide : 0 < 2) (Nat.le_of_not_lt hge)
  rw [Nat.testBit_lt_two_pow (Nat.lt_of_lt_of_le hmask hpow)] at hi
  cases hi

/-- Of the two sides of a mask, the one with its lowest leaf is tried. -/
theorem mem_splits {n mask part : Nat} (hpart : IsSubmask part mask) (hpos : 0 < part)
    (hne : part ≠ mask) (hmask : mask < 2 ^ n) :
  part ∈ splits n mask ∨ mask ^^^ part ∈ splits n mask
  := by
  have hself : IsSubmask mask mask := fun _ h => h
  have hlt := Nat.lt_of_le_of_ne hpart.le hne
  unfold splits
  cases hlow : (maskToSet n mask).head? with
  | none =>
    obtain ⟨i, hi⟩ := Nat.exists_testBit_of_ne_zero (by omega : mask ≠ 0)
    have hmem : i ∈ maskToSet n mask := mem_maskToSet.mpr ⟨lt_of_testBit hmask hi, hi⟩
    rw [head?_eq_none_iff.mp hlow] at hmem
    cases hmem
  | some low =>
    have hmem := (mem_maskToSet.mp (mem_of_head? hlow)).2
    cases hp : part.testBit low with
    | true =>
      left
      exact mem_filter.mpr
        ⟨mem_submasksBelow hpart hself hpos hlt (Nat.le_refl _), hp⟩
    | false =>
      right
      refine mem_filter.mpr ⟨mem_submasksBelow hpart.xor hself (xor_pos hne)
        (hpart.xor_lt hpos) (Nat.le_refl _), ?_⟩
      rw [Nat.testBit_xor, hmem, hp]
      rfl

/-! #### Growing sets -/

theorem countOnes_eq_length (n mask : Nat) :
  countOnes n mask = (maskToSet n mask).length
  := countP_eq_length_filter

/-- A mask with one more relation. -/
theorem xor_or_two_pow {mask v : Nat} (hv : mask.testBit v = false) :
  (mask ||| 2 ^ v) ^^^ mask = 2 ^ v
  := by
  apply Nat.eq_of_testBit_eq
  intro i
  rw [Nat.testBit_xor, Nat.testBit_or, Nat.testBit_two_pow]
  by_cases hi : v = i
  · subst hi
    simp [hv]
  · simp [hi]

theorem isSubmask_or (mask v : Nat) :
  IsSubmask mask (mask ||| 2 ^ v)
  := by
  intro i hi
  rw [Nat.testBit_or, hi, Bool.true_or]

theorem countOnes_or_two_pow {n mask v : Nat} (hv : mask.testBit v = false) (hn : v < n) :
  countOnes n (mask ||| 2 ^ v) = countOnes n mask + 1
  := by
  have hperm := @maskToSet_split n _ _ (isSubmask_or mask v)
  rw [xor_or_two_pow hv] at hperm
  rw [countOnes_eq_length, countOnes_eq_length, ← hperm.length_eq, length_append,
    (maskToSet_two_pow hn).length_eq, length_singleton]

theorem mem_masksBySize {n mask : Nat} :
  mask ∈ masksBySize n ↔ mask < 2 ^ n ∧ 2 ≤ countOnes n mask
  := by
  rw [masksBySize, mem_insertionSort, mem_filter, mem_range, decide_eq_true_eq]

/-- Smaller sets come first. -/
theorem mem_before {n mask smaller : Nat} {pre post : List Nat}
    (horder : masksBySize n = pre ++ mask :: post) (hmem : smaller ∈ masksBySize n)
    (hlt : countOnes n smaller < countOnes n mask) :
  smaller ∈ pre
  := by
  have hsorted : (masksBySize n).Pairwise (fun a b => countOnes n a ≤ countOnes n b) := by
    have htotal : Std.Total (fun a b => countOnes n a ≤ countOnes n b) :=
      ⟨fun a b => Nat.le_total _ _⟩
    have htrans : IsTrans Nat (fun a b => countOnes n a ≤ countOnes n b) :=
      ⟨fun a b c => Nat.le_trans⟩
    exact pairwise_insertionSort _ _
  rw [horder] at hsorted hmem
  obtain hmem | hmem := mem_append.mp hmem
  · exact hmem
  · obtain rfl | hmem := mem_cons.mp hmem
    · omega
    · have hle := (pairwise_cons.mp (pairwise_append.mp hsorted).2.1).1 smaller hmem
      omega

/-- The mask has an entry from the moment on that it was processed. -/
def Ready (A : CostArith F) (model : CardModel) (n mask : Nat) : Prop :=
  ∀ pre post, masksBySize n = pre ++ post → mask ∈ pre ∨ countOnes n mask < 2 →
    (dpTable A model n pre (singletons A model n)).Has mask

theorem has_singleton {n i : Nat} (hi : i < n) :
  (singletons A model n).Has (2 ^ i)
  := by
  have hlt : 2 ^ i < 2 ^ n := Nat.pow_lt_pow_right (by decide) hi
  have hfind : ((range n).find? (fun j => decide (2 ^ i = 2 ^ j))).isSome = true := by
    rw [find?_isSome]
    exact ⟨i, mem_range.mpr hi, by simp⟩
  obtain ⟨j, hj⟩ := Option.isSome_iff_exists.mp hfind
  refine ⟨⟨.leaf j, A.zero, leafCard A model j⟩, ?_⟩
  rw [DpTable.at, singletons, getElem?_map, getElem?_range hlt, Option.map_some, hj]
  rfl

theorem ready_two_pow {n i : Nat} (hi : i < n) :
  Ready A model n (2 ^ i)
  := by
  intro pre post _ _
  exact (has_singleton hi).dpTable

theorem crossingKeys_comm_ne_zero (h : model.crossingKeys left right ≠ 0) :
  model.crossingKeys right left ≠ 0
  := by
  obtain ⟨a, ha, b, hb, hlink⟩ := crossingKeys_ne_zero.mp h
  exact crossingKeys_ne_zero.mpr ⟨b, hb, a, ha, hlink.symm⟩

/-- A set that a linked relation is added to gets an entry. -/
theorem Ready.grow {n mask u v : Nat} (h : Ready A model n mask) (hmask : mask < 2 ^ n)
    (hu : mask.testBit u = true) (hv : mask.testBit v = false) (hvn : v < n)
    (hlink : model.Linked u v) :
  Ready A model n (mask ||| 2 ^ v)
  := by
  have hun := lt_of_testBit hmask hu
  have hsub := isSubmask_or mask v
  have hxor := xor_or_two_pow hv
  have hxor' : (mask ||| 2 ^ v) ^^^ 2 ^ v = mask := by
    have := congrArg ((mask ||| 2 ^ v) ^^^ ·) hxor
    simpa [← Nat.xor_assoc] using this.symm
  have hcount := countOnes_or_two_pow hv hvn
  have hones : 1 ≤ countOnes n mask := by
    rw [countOnes_eq_length]
    exact length_pos_of_mem (mem_maskToSet.mpr ⟨hun, hu⟩)
  have hbig : mask ||| 2 ^ v < 2 ^ n :=
    Nat.or_lt_two_pow hmask (Nat.pow_lt_pow_right (by decide) hvn)
  have hcross : model.crossingKeys (maskToSet n mask) (maskToSet n (2 ^ v)) ≠ 0 := by
    rw [crossingKeys_ne_zero]
    exact ⟨u, mem_maskToSet.mpr ⟨hun, hu⟩, v,
      (maskToSet_two_pow hvn).mem_iff.mpr (mem_singleton.mpr rfl), hlink⟩
  intro pre post horder hmem
  obtain hmem | hsmall := hmem
  swap
  · omega
  obtain ⟨pre₁, pre₂, rfl⟩ := append_of_mem hmem
  rw [append_assoc, cons_append] at horder
  -- both sides of the split have their entries before the mask is processed
  have hleft : (dpTable A model n pre₁ (singletons A model n)).Has mask := by
    apply h pre₁ _ horder
    by_cases htwo : 2 ≤ countOnes n mask
    · exact .inl (mem_before horder (mem_masksBySize.mpr ⟨hmask, htwo⟩) (by omega))
    · exact .inr (by omega)
  have hright : (dpTable A model n pre₁ (singletons A model n)).Has (2 ^ v) :=
    (has_singleton hvn).dpTable
  have hlen : mask ||| 2 ^ v < (dpTable A model n pre₁ (singletons A model n)).length := by
    rw [dpTable_length]
    simpa [singletons] using hbig
  have hne : mask ≠ mask ||| 2 ^ v := by
    intro heq
    rw [← heq] at hcount
    omega
  have hpos : 0 < mask := by
    rw [Nat.pos_iff_ne_zero]
    rintro rfl
    simp at hu
  have hprocessed : DpTable.Has ((splits n (mask ||| 2 ^ v)).foldl
      (trySplit A model n (mask ||| 2 ^ v)) (dpTable A model n pre₁ (singletons A model n)))
      (mask ||| 2 ^ v) := by
    obtain hsplit | hsplit := mem_splits hsub hpos hne hbig
    · exact has_foldl_trySplit hsplit hlen hleft (by rwa [hxor]) (by rwa [hxor])
    · rw [hxor] at hsplit
      exact has_foldl_trySplit hsplit hlen hright (by rwa [hxor'])
        (by rw [hxor']; exact crossingKeys_comm_ne_zero hcross)
  rw [dpTable, foldl_append, foldl_cons]
  exact hprocessed.dpTable

/-- Sets of every size have an entry. -/
theorem exists_ready (hwf : model.WellFormed) (hconn : model.Connected) (k : Nat)
    (hk : k < model.leafRows.length) :
  ∃ mask, mask < 2 ^ model.leafRows.length ∧ countOnes model.leafRows.length mask = k + 1 ∧
    Ready A model model.leafRows.length mask
  := by
  induction k with
  | zero =>
    refine ⟨2 ^ 0, Nat.pow_lt_pow_right (by decide) hk, ?_, ready_two_pow hk⟩
    rw [countOnes_eq_length, (maskToSet_two_pow hk).length_eq]
    rfl
  | succ k ih =>
    obtain ⟨mask, hmask, hcount, hready⟩ := ih (by omega)
    -- the set is neither empty nor everything, so a key leads out of it
    have hin : ∃ a, mask.testBit a = true := by
      apply Nat.exists_testBit_of_ne_zero
      rintro rfl
      simp [countOnes] at hcount
    have hout : ∃ b < model.leafRows.length, mask.testBit b = false := by
      by_contra hall
      have hfull : countOnes model.leafRows.length mask = (range model.leafRows.length).length := by
        rw [countOnes, countP_eq_length]
        intro i hi
        by_contra hb
        exact hall ⟨i, mem_range.mp hi, by simpa using hb⟩
      rw [length_range] at hfull
      omega
    obtain ⟨a, ha⟩ := hin
    obtain ⟨b, hbn, hb⟩ := hout
    obtain ⟨u, v, hu, hv, hlink⟩ := exists_linked_of_path (S := fun i => mask.testBit i = true)
      (hconn a (lt_of_testBit hmask ha) b hbn) ha (by simp [hb])
    have hvn := (hwf.lt hlink).2
    rw [Bool.not_eq_true] at hv
    refine ⟨mask ||| 2 ^ v, ?_, ?_, hready.grow hmask hu hv hvn hlink⟩
    · exact Nat.or_lt_two_pow hmask (Nat.pow_lt_pow_right (by decide) hvn)
    · rw [countOnes_or_two_pow hv hvn, hcount]

theorem eq_full_of_countOnes {n mask : Nat} (hmask : mask < 2 ^ n) (h : countOnes n mask = n) :
  mask = 2 ^ n - 1
  := by
  have hall : ∀ i < n, mask.testBit i = true := by
    rw [countOnes] at h
    have h' : (range n).countP (fun i => mask.testBit i) = (range n).length := by
      rw [h, length_range]
    intro i hi
    exact countP_eq_length.mp h' i (mem_range.mpr hi)
  apply Nat.eq_of_testBit_eq
  intro i
  rw [Nat.testBit_two_pow_sub_one]
  by_cases hi : i < n
  · simp [hi, hall i hi]
  · rw [decide_eq_false hi, Bool.eq_false_iff]
    intro hbit
    exact hi (lt_of_testBit hmask hbit)

/-- The dynamic programming finds a tree over connected relations. -/
theorem exists_optimizeDp (hwf : model.WellFormed) (hconn : model.Connected)
    (hn : 2 ≤ model.leafRows.length) :
  ∃ plan, optimizeDp A model = some plan
  := by
  obtain ⟨mask, hmask, hcount, hready⟩ := exists_ready (A := A) hwf hconn
    (model.leafRows.length - 1) (by omega)
  have hcount' : countOnes model.leafRows.length mask = model.leafRows.length := by omega
  have hmem : mask ∈ masksBySize model.leafRows.length := mem_masksBySize.mpr ⟨hmask, by omega⟩
  have hhas := hready (masksBySize _) [] (append_nil _).symm (.inl hmem)
  rw [eq_full_of_countOnes hmask hcount'] at hhas
  exact hhas

/-! ### Merging finds a tree -/

section Greedy

variable {parts : List (Part F)}

theorem JoinShape.leafList_ne_nil (shape : JoinShape) :
  shape.leafList ≠ []
  := by
  induction shape with
  | leaf i => simp [leafList]
  | join left right ihl _ => simp [leafList, ihl]

theorem betterMerge_isSome {pair : Nat × Nat} (h : best.isSome = true) :
  (betterMerge A model parts best pair).isSome = true
  := by
  obtain ⟨m, rfl⟩ := Option.isSome_iff_exists.mp h
  unfold betterMerge
  split
  · split
    · rfl
    · dsimp only
      split <;> rfl
  · rfl

theorem foldl_betterMerge_isSome (h : best.isSome = true) :
  (pairs.foldl (betterMerge A model parts) best).isSome = true
  := by
  induction pairs generalizing best with
  | nil => exact h
  | cons pair pairs ih => exact ih (betterMerge_isSome h)

/-- A pair of parts that share a key is found. -/
theorem foldl_betterMerge_of_mem {pa pb : Part F} (hmem : (a, b) ∈ pairs) (ha : parts[a]? = some pa)
    (hb : parts[b]? = some pb) (hcross : model.crossingKeys pa.leaves pb.leaves ≠ 0) :
  (pairs.foldl (betterMerge A model parts) best).isSome = true
  := by
  induction pairs generalizing best with
  | nil => cases hmem
  | cons pair pairs ih =>
    rw [foldl_cons]
    obtain rfl | hmem := mem_cons.mp hmem
    · apply foldl_betterMerge_isSome
      simp only [betterMerge, ha, hb, mergeCost, hcross, if_false]
      split
      · rfl
      · split <;> rfl
    · exact ih hmem

theorem mem_positionPairs {n a b : Nat} (hab : a < b) (hb : b < n) :
  (a, b) ∈ positionPairs n
  := by
  simp only [positionPairs, mem_flatMap, mem_map, mem_range, mem_range'_1]
  exact ⟨a, by omega, b, by omega, rfl⟩

/-- Of two or more parts of connected relations two share a key. -/
theorem exists_mergeCheapest (hwf : model.WellFormed) (hconn : model.Connected)
    (hc : PartsCover model.leafRows.length parts) (hlen : 2 ≤ parts.length) :
  ∃ parts', mergeCheapest A model parts = some parts'
  := by
  match parts, hc, hlen with
  | p :: q :: rest, hc, _ =>
    have hleaf : ∀ part ∈ p :: q :: rest, ∃ a, a ∈ part.leaves := by
      intro part hp
      obtain ⟨a, ha⟩ := exists_mem_of_ne_nil _ part.plan.shape.leafList_ne_nil
      exact ⟨a, (hc.tree part hp).mem_iff.mp ha⟩
    have hlt : ∀ part ∈ p :: q :: rest, ∀ a ∈ part.leaves, a < model.leafRows.length := by
      intro part hp a ha
      exact mem_range.mp (hc.all.mem_iff.mp (mem_flatMap.mpr ⟨part, hp, ha⟩))
    have hnodup := hc.all.nodup_iff.mpr nodup_range
    rw [flatMap_cons, nodup_append] at hnodup
    obtain ⟨a, ha⟩ := hleaf p (by simp)
    obtain ⟨b, hb⟩ := hleaf q (by simp)
    have hbp : b ∉ p.leaves := by
      intro hmem
      exact hnodup.2.2 b hmem b (mem_flatMap.mpr ⟨q, by simp, hb⟩) rfl
    obtain ⟨u, v, hu, hv, hlink⟩ := exists_linked_of_path (S := (· ∈ p.leaves))
      (hconn a (hlt p (by simp) a ha) b (hlt q (by simp) b hb)) ha hbp
    -- the relation that the key leads to is in another part
    have hvmem := hc.all.mem_iff.mpr (mem_range.mpr (hwf.lt hlink).2)
    obtain ⟨part, hpart, hvpart⟩ := mem_flatMap.mp hvmem
    obtain rfl | hpart := mem_cons.mp hpart
    · exact absurd hvpart hv
    obtain ⟨j, hj⟩ := mem_iff_getElem?.mp hpart
    have hjlt := (List.getElem?_eq_some_iff.mp hj).1
    have hcross : model.crossingKeys p.leaves part.leaves ≠ 0 :=
      crossingKeys_ne_zero.mpr ⟨u, hu, v, hvpart, hlink⟩
    have hpair : (0, j + 1) ∈ positionPairs (p :: q :: rest).length :=
      mem_positionPairs (by omega) (by simpa using hjlt)
    have hfound : ((positionPairs (p :: q :: rest).length).foldl
        (betterMerge A model (p :: q :: rest)) none).isSome = true :=
      foldl_betterMerge_of_mem hpair rfl (getElem?_cons_succ.trans hj) hcross
    obtain ⟨m, hm⟩ := Option.isSome_iff_exists.mp hfound
    obtain ⟨pa, pb, hpa, hpb, -⟩ := (foldl_betterMerge_isMerge
      (fun _ hp => positionPairs_lt hp) (by simp) m hm).crosses
    unfold mergeCheapest
    rw [hm]
    exact ⟨_, by simp [hpa, hpb]; rfl⟩

theorem mergeCheapest_length {parts' : List (Part F)}
    (h : mergeCheapest A model parts = some parts') :
  parts'.length + 1 = parts.length
  := by
  obtain ⟨a, b, pa, pb, cost, card, hab, ha, hb, -, rfl⟩ := mergeCheapest_cases h
  have hblt := (List.getElem?_eq_some_iff.mp hb).1
  rw [length_append, length_singleton, length_eraseIdx_of_lt,
    length_eraseIdx_of_lt hblt]
  · omega
  · rw [length_eraseIdx_of_lt hblt]
    omega

theorem exists_mergeAll (hwf : model.WellFormed) (hconn : model.Connected) {fuel : Nat}
    (hc : PartsCover model.leafRows.length parts) (hpos : 1 ≤ parts.length)
    (hfuel : parts.length ≤ fuel + 1) :
  ∃ plan, mergeAll A model fuel parts = some plan
  := by
  induction fuel generalizing parts with
  | zero =>
    obtain ⟨part, rfl⟩ := length_eq_one_iff.mp (by omega : parts.length = 1)
    exact ⟨part.plan, by simp [mergeAll]⟩
  | succ fuel ih =>
    by_cases hone : parts.length = 1
    · obtain ⟨part, rfl⟩ := length_eq_one_iff.mp hone
      exact ⟨part.plan, by simp [mergeAll]⟩
    · obtain ⟨parts', hm⟩ := exists_mergeCheapest (A := A) hwf hconn hc (by omega)
      have hlen := mergeCheapest_length hm
      obtain ⟨plan, hplan⟩ := ih (mergeCheapest_covers hc hm) (by omega) (by omega)
      refine ⟨plan, ?_⟩
      match parts, hone with
      | [], _ => simp at hpos
      | p :: q :: rest, _ => simp only [mergeAll, hm, Option.bind_eq_bind, Option.bind_some, hplan]

end Greedy

/-! ### The enumeration -/

/-- A tree is found exactly for two or more connected relations. -/
theorem exists_optimize_iff (hwf : model.WellFormed) :
  (∃ plan, optimize A model = some plan) ↔ 2 ≤ model.leafRows.length ∧ model.Connected
  := by
  unfold optimize
  by_cases hn : model.leafRows.length < 2
  · simp only [hn, if_true]
    constructor
    · rintro ⟨plan, ⟨⟩⟩
    · rintro ⟨h, -⟩
      omega
  · simp only [hn, if_false]
    have hconn := isConnected_iff hwf
    cases hc : isConnected model with
    | false =>
      rw [hc] at hconn
      constructor
      · rintro ⟨plan, ⟨⟩⟩
      · rintro ⟨-, h⟩
        exact absurd (hconn.mpr ⟨by omega, h⟩) (by decide)
    | true =>
      obtain ⟨-, hconn⟩ := hconn.mp hc
      simp only [Bool.not_true, Bool.false_eq_true, if_false]
      constructor
      · intro _
        exact ⟨by omega, hconn⟩
      · intro _
        split
        · exact exists_optimizeDp hwf hconn (by omega)
        · exact exists_mergeAll hwf hconn (partsCover_leaves _) (by simp; omega) (by simp)

/-- A key of the list connects the two relations, both of them below `n`. -/
def KeyBetween (n : Nat) (keyEdges : List (Nat × Nat)) (a b : Nat) : Prop :=
  a < n ∧ b < n ∧ ((a, b) ∈ keyEdges ∨ (b, a) ∈ keyEdges)

/-- Keys connect all relations. -/
def KeysConnect (n : Nat) (keyEdges : List (Nat × Nat)) : Prop :=
  ∀ a < n, ∀ b < n, Relation.ReflTransGen (KeyBetween n keyEdges) a b

theorem linked_new_iff :
  (new leafRows keyEdges).Linked a b ↔
    a ≠ b ∧ KeyBetween leafRows.length keyEdges a b
  := by
  rw [CardModel.Linked, mem_edges_new, mem_edges_new, KeyBetween]
  constructor
  · rintro (⟨hlt, hb, h⟩ | ⟨hlt, hb, h⟩)
    · exact ⟨by omega, by omega, hb, h⟩
    · exact ⟨by omega, hb, by omega, h.symm⟩
  · rintro ⟨hne, ha, hb, h⟩
    obtain hlt | hlt := Nat.lt_or_gt_of_ne hne
    · exact .inl ⟨hlt, hb, h⟩
    · exact .inr ⟨hlt, ha, h.symm⟩

/-- A key from a relation to itself connects nothing. -/
theorem connected_new_iff :
  (new leafRows keyEdges).Connected ↔ KeysConnect leafRows.length keyEdges
  := by
  have hpath : ∀ a b, Relation.ReflTransGen (new leafRows keyEdges).Linked a b ↔
      Relation.ReflTransGen (KeyBetween leafRows.length keyEdges) a b := by
    intro a b
    constructor
    · intro h
      induction h with
      | refl => exact .refl
      | tail _ hlink ih => exact ih.tail (linked_new_iff.mp hlink).2
    · intro h
      induction h with
      | refl => exact .refl
      | @tail u v _ hkey ih =>
        by_cases huv : u = v
        · exact huv ▸ ih
        · exact ih.tail (linked_new_iff.mpr ⟨huv, hkey⟩)
  simp only [CardModel.Connected, KeysConnect, hpath]
  rfl

/--
The enumeration returns a tree exactly for two or more relations that keys connect. The tree has
every relation exactly once, and every join of it is over a key. The keys between two sets are
counted without a bound here; the `u32` counters of the source agree for fewer than `2 ^ 32` keys.
-/
theorem enumeration_valid (A : CostArith F) (leafRows : List Nat) (keyEdges : List (Nat × Nat)) :
  ((∃ plan, optimize A (new leafRows keyEdges) = some plan) ↔
      2 ≤ leafRows.length ∧ KeysConnect leafRows.length keyEdges) ∧
    ∀ plan, optimize A (new leafRows keyEdges) = some plan →
      plan.shape.leafList.Perm (range leafRows.length) ∧
        plan.shape.Crossed (KeyBetween leafRows.length keyEdges)
  := by
  refine ⟨?_, ?_⟩
  · rw [exists_optimize_iff (CardModel.wellFormed_new _ _), connected_new_iff]
    rfl
  · intro plan h
    exact ⟨optimize_leafList h,
      (optimize_crossed h).mono (fun a b hlink => (linked_new_iff.mp hlink).2)⟩

/-- Three relations in a chain of keys, the smallest in its middle. -/
theorem enumeration_valid_chain :
  (optimize exactCosts (new [100, 10, 1000] [(0, 1), (1, 2)])).map CostedPlan.shape =
      some (.join (.join (.leaf 1) (.leaf 0)) (.leaf 2)) ∧
    ∀ plan, optimize exactCosts (new [100, 10, 1000] [(0, 1), (1, 2)]) = some plan →
      plan.shape.leafList.Perm (range 3) ∧
        plan.shape.Crossed (KeyBetween 3 [(0, 1), (1, 2)])
  := ⟨by decide +kernel, (enumeration_valid exactCosts [100, 10, 1000] [(0, 1), (1, 2)]).2⟩

end CratonBolt
