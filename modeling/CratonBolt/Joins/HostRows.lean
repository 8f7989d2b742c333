import CratonBolt.Joins.Keys

/-!
# The rows of the host hash join

What the two phases of the hash join compute, as a function of the rows of its sides: the table
holds under each key the rows of that key, a probe row finds the rows with its key, and the pairs
that come out are the join of the two sides by equality of keys.
-/

namespace CratonBolt.Joins

open Outcome ListJoin List

variable {pairs : List Pair}

/-- The keys of the build and the probe side are columns of theirs. -/
structure KeysIn (batches : Batch × Batch) (buildIdx probeIdx : List Nat) : Prop where
  build : KeyColumns batches.1 buildIdx
  probe : KeyColumns batches.2 probeIdx

/-! ### The hash table -/

theorem BuildSlot.asSlice_push (slot : BuildSlot) (row : Nat) :
  (slot.push row).asSlice = slot.asSlice ++ [row]
  := by
  cases slot <;> rfl

theorem KeyMap.rowsOf_cons (k : JoinKey) (slot : BuildSlot) (map : KeyMap) (key : JoinKey) :
  KeyMap.rowsOf ((k, slot) :: map) key =
    if k.asSlice = key.asSlice then slot.asSlice else KeyMap.rowsOf map key
  := by
  unfold rowsOf
  rw [get]
  split <;> rfl

/-- An entered row is found under its key, after the rows entered before it. -/
theorem KeyMap.rowsOf_insert (map : KeyMap) (key : JoinKey) (row : Nat) (k : JoinKey) :
  (map.insert key row).rowsOf k =
    map.rowsOf k ++ if key.asSlice = k.asSlice then [row] else []
  := by
  induction map with
  | nil =>
    rw [insert, rowsOf_cons]
    split <;> rfl
  | cons entry map ih =>
    obtain ⟨k', slot⟩ := entry
    rw [insert, rowsOf_cons]
    by_cases hk' : k'.asSlice = key.asSlice
    · rw [if_pos hk', rowsOf_cons, hk']
      split
      · exact BuildSlot.asSlice_push slot row
      · rw [append_nil]
    · rw [if_neg hk', rowsOf_cons]
      split
      · rename_i hk
        rw [if_neg (fun he => hk' (hk.trans he.symm)), append_nil]
      · exact ih

theorem rowToU32_eq_ok {row r : Nat} (h : rowToU32 row = .ok r) :
  r = row
  := by
  obtain ⟨-, h⟩ := guard_eq_ok.mp h
  exact h.symm

/-- The table holds, under each key, the rows of that key in order. -/
theorem buildRows_rowsOf {b : Batch} {indices : List Nat}
    (hidx : KeyColumns b indices) {rows : List Nat} {map map' : KeyMap}
    (h : buildRows b indices rows map = .ok map') (k : JoinKey) :
  map'.rowsOf k =
    map.rowsOf k ++ rows.filter (fun r => decide (rowKey indices (b.row r) = some k.asSlice))
  := by
  induction rows generalizing map with
  | nil =>
    injection h with h
    subst h
    rw [filter_nil, append_nil]
  | cons row rows ih =>
    obtain ⟨o, ho, h⟩ := bind_eq_ok.mp h
    have hkey := (extractKey_spec hidx ho).1
    cases o with
    | none =>
      rw [ih h, filter_cons_of_neg (by rw [← hkey]; simp)]
    | some key =>
      obtain ⟨r, hr, h⟩ := bind_eq_ok.mp h
      rw [rowToU32_eq_ok hr] at h
      rw [ih h, KeyMap.rowsOf_insert, append_assoc, filter_cons, ← hkey]
      congr 1
      by_cases hk : key.asSlice = k.asSlice
      · simp [hk]
      · simp [hk]

/-- Every row of the build side was read when the table is built. -/
theorem buildRows_read {b : Batch} {indices : List Nat} {rows : List Nat} {map map' : KeyMap}
    (h : buildRows b indices rows map = .ok map') :
  ∀ row ∈ rows, ∃ o, extractKey b indices row = .ok o
  := by
  induction rows generalizing map with
  | nil => simp
  | cons row rows ih =>
    obtain ⟨o, ho, h⟩ := bind_eq_ok.mp h
    rw [forall_mem_cons]
    refine ⟨⟨o, ho⟩, ?_⟩
    cases o with
    | none => exact ih h
    | some key =>
      obtain ⟨r, -, h⟩ := bind_eq_ok.mp h
      exact ih h

/-! ### What a row of the probe side finds -/

section Probe

variable {build probe : Batch} {buildIdx probeIdx : List Nat} {map : KeyMap}

/-- The rows of the build side with the key of a probe row. -/
def partners (build probe : Batch) (buildIdx probeIdx : List Nat) (p : Nat) : List Nat :=
  (range build.numRows).filter
    (fun b => hashMatch probeIdx buildIdx (probe.row p) (build.row b))

theorem hitsOf_eq (hidx : KeysIn (build, probe) buildIdx probeIdx)
    (hmap : buildHashMap build buildIdx = .ok map) {p : Nat} {o : Option JoinKey}
    (ho : extractKey probe probeIdx p = .ok o) :
  hitsOf map o = partners build probe buildIdx probeIdx p
  := by
  have hkey := (extractKey_spec hidx.probe ho).1
  simp only [partners, hashMatch, ← hkey]
  cases o with
  | none => simp [hitsOf]
  | some key => exact buildRows_rowsOf hidx.build hmap key

/-- Nothing is found in an empty table. -/
theorem partners_eq_nil (hbuild : KeyColumns build buildIdx)
    (hmap : buildHashMap build buildIdx = .ok []) (p : Nat) :
  partners build probe buildIdx probeIdx p = []
  := by
  simp only [partners, hashMatch]
  cases rowKey probeIdx (probe.row p) with
  | none => simp
  | some k => exact (buildRows_rowsOf hbuild hmap (.many k)).symm

theorem rowsOf_eq_hits (map : KeyMap) (key : JoinKey) :
  hitsOf map (some key) = ((map.get key).map BuildSlot.asSlice).getD []
  := rfl

theorem probeInner_eq (hidx : KeysIn (build, probe) buildIdx probeIdx)
    (hmap : buildHashMap build buildIdx = .ok map) {rows : List Nat}
    (h : probeInner map probe probeIdx rows = .ok pairs) :
  pairs = rows.flatMap (fun p =>
    (partners build probe buildIdx probeIdx p).map (fun b => (some b, some p)))
  := by
  induction rows generalizing pairs with
  | nil =>
    injection h with h
    exact h.symm
  | cons row rows ih =>
    obtain ⟨o, ho, h⟩ := bind_eq_ok.mp h
    rw [flatMap_cons, ← hitsOf_eq hidx hmap ho]
    cases o with
    | none => exact ih h
    | some key =>
      rw [rowsOf_eq_hits]
      cases hget : map.get key with
      | none =>
        simp only [hget] at h
        exact ih h
      | some slot =>
        simp only [hget] at h
        obtain ⟨p, hp, h⟩ := bind_eq_ok.mp h
        obtain ⟨rest, hrest, h⟩ := bind_eq_ok.mp h
        injection h with h
        rw [← h, rowToU32_eq_ok hp, ih hrest]
        rfl

/-! ### Rows that were found -/

theorem mark_getD (matched : List Bool) (hits : List Nat) (b : Nat) (hb : b < matched.length) :
  (mark matched hits).getD b false = (matched.getD b false || hits.contains b)
  := by
  induction hits generalizing matched with
  | nil => simp [mark]
  | cons hit hits ih =>
    have hmark : mark matched (hit :: hits) = mark (matched.set hit true) hits := rfl
    rw [hmark, ih _ (by rwa [length_set]), contains_cons]
    by_cases he : b = hit
    · subst he
      simp [hb]
    · simp [beq_eq_false_iff_ne.mpr he, Ne.symm he]

theorem length_mark (matched : List Bool) (hits : List Nat) :
  (mark matched hits).length = matched.length
  := by
  induction hits generalizing matched with
  | nil => rfl
  | cons hit hits ih =>
    have hmark : mark matched (hit :: hits) = mark (matched.set hit true) hits := rfl
    rw [hmark, ih, length_set]

/-- The first pass: the pairs of every probe row, and the marks of the rows found. -/
theorem probeOuter_eq (hidx : KeysIn (build, probe) buildIdx probeIdx)
    (hmap : buildHashMap build buildIdx = .ok map) {joinType : JoinType} {rows : List Nat}
    {marks marks' : List Bool}
    (h : probeOuter map probe probeIdx joinType rows marks = .ok (pairs, marks')) :
  pairs = rows.flatMap (fun p =>
    if (partners build probe buildIdx probeIdx p).isEmpty then
      if preserveProbe joinType then [(none, some p)] else []
    else (partners build probe buildIdx probeIdx p).map (fun b => (some b, some p))) ∧
  marks'.length = marks.length ∧
  (preserveBuild joinType = true → ∀ b < marks.length, marks'.getD b false =
    (marks.getD b false ||
      rows.any (fun p => (partners build probe buildIdx probeIdx p).contains b)))
  := by
  induction rows generalizing marks pairs with
  | nil =>
    injection h with h
    injection h with hpairs hmarks
    subst hpairs hmarks
    simp
  | cons row rows ih =>
    obtain ⟨p, hp, hkey⟩ := bind_eq_ok.mp h
    obtain ⟨o, ho, hstep⟩ := bind_eq_ok.mp hkey
    rw [rowToU32_eq_ok hp] at hstep
    simp only [hitsOf_eq hidx hmap ho] at hstep
    clear h hkey
    rw [flatMap_cons]
    by_cases hempty : (partners build probe buildIdx probeIdx row).isEmpty = true
    · rw [if_pos hempty] at hstep ⊢
      obtain ⟨⟨rest, matched⟩, hrest, hstep⟩ := bind_eq_ok.mp hstep
      injection hstep with hstep
      injection hstep with hpairs hmarks
      subst hpairs hmarks
      obtain ⟨hrest, hlen, hmarks⟩ := ih hrest
      refine ⟨by rw [hrest], hlen, ?_⟩
      intro hpb b hb
      rw [hmarks hpb b hb, any_cons, isEmpty_iff.mp hempty]
      simp
    · rw [if_neg hempty] at hstep ⊢
      obtain ⟨⟨rest, matched⟩, hrest, hstep⟩ := bind_eq_ok.mp hstep
      injection hstep with hstep
      injection hstep with hpairs hmarks
      subst hpairs hmarks
      obtain ⟨hrest, hlen, hmarks⟩ := ih hrest
      have hlen' : ∀ c : Bool, (if c = true then mark marks (partners build probe buildIdx
          probeIdx row) else marks).length = marks.length := by
        intro c
        split
        · exact length_mark _ _
        · rfl
      refine ⟨by rw [hrest], by rw [hlen, hlen'], ?_⟩
      intro hpb b hb
      rw [hmarks hpb b (by rwa [hlen']), if_pos hpb, mark_getD _ _ _ hb, any_cons,
        Bool.or_assoc]

/-- The second pass: the rows without a mark. -/
theorem unmatchedBuild_eq {marks : List Bool} {b : Nat} (h : unmatchedBuild b marks = .ok pairs) :
  pairs = ((range marks.length).filter (fun i => !marks.getD i false)).map
    (fun i => (some (b + i), none))
  := by
  induction marks generalizing b pairs with
  | nil =>
    injection h with h
    exact h.symm
  | cons found marks ih =>
    have hshift : ((range marks.length).map Nat.succ).filter
        (fun i => !(found :: marks).getD i false) =
        ((range marks.length).filter (fun i => !marks.getD i false)).map Nat.succ := by
      rw [filter_map]
      rfl
    have hmap : (fun i => ((some (b + i), none) : Pair)) ∘ Nat.succ =
        fun i => (some (b + 1 + i), none) := by
      funext i
      simp only [Function.comp_apply, Nat.succ_eq_add_one]
      congr 2
      omega
    rw [length_cons, range_succ_eq_map, filter_cons, hshift]
    cases found with
    | true =>
      rw [unmatchedBuild, if_pos rfl] at h
      simp only [getD_cons_zero, Bool.not_true, Bool.false_eq_true, if_false, map_map,
        hmap]
      exact ih h
    | false =>
      rw [unmatchedBuild, if_neg (by decide)] at h
      obtain ⟨bu, hbu, h⟩ := bind_eq_ok.mp h
      obtain ⟨rest, hrest, h⟩ := bind_eq_ok.mp h
      injection h with h
      subst h
      simp only [getD_cons_zero, Bool.not_false, if_true, map_cons, map_map, hmap,
        rowToU32_eq_ok hbu, Nat.add_zero]
      rw [ih hrest]

end Probe

/-! ### The joined rows -/

/-- The rows of a join, from the positions of the rows that join. -/
theorem joinRows_eq (lhs rhs : Batch) (joinType : JoinType) (m : Row → Row → Bool) :
  joinRows lhs.columns.length rhs.columns.length joinType m lhs.rows rhs.rows =
    (outerJoin joinType.rightMayNull joinType.leftMayNull
      (fun l r => m (lhs.row l) (rhs.row r)) (range lhs.numRows)
      (range rhs.numRows)).map (joinedAt lhs rhs)
  := by
  have hmap : outerJoin joinType.rightMayNull joinType.leftMayNull m lhs.rows rhs.rows =
      (outerJoin joinType.rightMayNull joinType.leftMayNull
        (fun l r => m (lhs.row l) (rhs.row r)) (range lhs.numRows)
        (range rhs.numRows)).map (fun pair => (pair.1.map lhs.row, pair.2.map rhs.row)) :=
    outerJoin_map _ _ (fun _ _ _ _ => rfl)
  rw [joinRows, hmap, map_map]
  rfl

/-- The pairs of positions of a join under a test of rows, in some order. -/
def JoinPairs (lhs rhs : Batch) (joinType : JoinType) (m : Row → Row → Bool) (pairs : List Pair) :
    Prop :=
  pairs.Perm (outerJoin joinType.rightMayNull joinType.leftMayNull
    (fun l r => m (lhs.row l) (rhs.row r)) (range lhs.numRows) (range rhs.numRows))

theorem JoinPairs.rows {lhs rhs : Batch} {joinType : JoinType} {m : Row → Row → Bool}
    (h : JoinPairs lhs rhs joinType m pairs) :
  (pairs.map (joinedAt lhs rhs)).Perm
    (joinRows lhs.columns.length rhs.columns.length joinType m lhs.rows rhs.rows)
  := by
  rw [joinRows_eq]
  exact h.map _

section Oriented

variable {lhs rhs : Batch} {buildIsLeft : Bool} {buildIdx probeIdx : List Nat}

/-- The positions of a probe row and a build row with the same key. -/
def sameKey (lhs rhs : Batch) (buildIsLeft : Bool) (buildIdx probeIdx : List Nat) (p b : Nat) :
    Bool :=
  hashMatch probeIdx buildIdx ((sides buildIsLeft lhs rhs).2.row p)
    ((sides buildIsLeft lhs rhs).1.row b)

/-- The test of the join by keys, with the key columns of the left and the right side. -/
def keyMatch (buildIsLeft : Bool) (buildIdx probeIdx : List Nat) : Row → Row → Bool :=
  hashMatch (sides buildIsLeft buildIdx probeIdx).1 (sides buildIsLeft buildIdx probeIdx).2

/-- Whichever side is probed, the oriented pairs are those of the join. -/
theorem oriented_perm (keepProbe keepBuild : Bool) {same : Nat → Nat → Bool} {m : Row → Row → Bool}
    {joinType : JoinType} (hpairs : (pairs.map Prod.swap).Perm (outerJoin keepProbe keepBuild same
      (range (sides buildIsLeft lhs rhs).2.numRows)
      (range (sides buildIsLeft lhs rhs).1.numRows)))
    (hsame : ∀ p b, same p b = m (lhs.row (sides buildIsLeft b p).1)
      (rhs.row (sides buildIsLeft b p).2))
    (hleft : joinType.rightMayNull = (sides buildIsLeft keepBuild keepProbe).1)
    (hright : joinType.leftMayNull = (sides buildIsLeft keepBuild keepProbe).2) :
  JoinPairs lhs rhs joinType m (pairs.map (orient buildIsLeft))
  := by
  have hfun : same = fun p b => m (lhs.row (sides buildIsLeft b p).1)
      (rhs.row (sides buildIsLeft b p).2) := by
    funext p b
    exact hsame p b
  rw [JoinPairs, hleft, hright]
  subst hfun
  cases buildIsLeft with
  | false => exact hpairs
  | true =>
    have horient : pairs.map (orient true) = (pairs.map Prod.swap).map Prod.swap := by
      rw [map_map]
      rfl
    rw [horient]
    apply (hpairs.map Prod.swap).trans
    exact outerJoin_swap _ _ _ _ _

theorem sameKey_eq (p b : Nat) :
  sameKey lhs rhs buildIsLeft buildIdx probeIdx p b =
    keyMatch buildIsLeft buildIdx probeIdx (lhs.row (sides buildIsLeft b p).1)
      (rhs.row (sides buildIsLeft b p).2)
  := by
  cases buildIsLeft with
  | false => rfl
  | true => apply hashMatch_comm

end Oriented

section Host

variable {lhs rhs : Batch} {buildIsLeft : Bool} {buildIdx probeIdx : List Nat} {schema : Schema}
  {out : Batch}

theorem pairOutput_rows (h : pairOutput lhs rhs buildIsLeft pairs schema = .ok out) :
  out.rows = (pairs.map (orient buildIsLeft)).map (joinedAt lhs rhs)
  := by
  unfold pairOutput at h
  split at h
  · rename_i hempty
    rw [isEmpty_iff.mp hempty, emptyOutput_rows h]
    rfl
  · exact materialise_rows h

theorem innerPairs_eq (build probe : Batch) (buildIdx probeIdx : List Nat) (rows : List Nat) :
  (rows.flatMap (fun p => (partners build probe buildIdx probeIdx p).map
    (fun b => ((some b, some p) : Pair)))).map Prod.swap =
    outerJoin false false
      (fun p b => hashMatch probeIdx buildIdx (probe.row p) (build.row b)) rows
      (range build.numRows)
  := by
  rw [map_flatMap, outerJoin, if_neg (by decide), append_nil]
  apply flatMap_congr
  intro p hp
  rw [map_map]
  rfl

theorem innerPairs_perm
    (hpairs : pairs = (range (sides buildIsLeft lhs rhs).2.numRows).flatMap (fun p =>
      (partners (sides buildIsLeft lhs rhs).1 (sides buildIsLeft lhs rhs).2 buildIdx probeIdx
        p).map (fun b => (some b, some p)))) :
  JoinPairs lhs rhs .inner (keyMatch buildIsLeft buildIdx probeIdx) (pairs.map (orient buildIsLeft))
  := by
  apply oriented_perm false false _ sameKey_eq
  · cases buildIsLeft <;> rfl
  · cases buildIsLeft <;> rfl
  · rw [hpairs, innerPairs_eq]
    exact Perm.refl _

/-- The host part of an inner join returns the join of the sides by their keys. -/
theorem hostInnerJoin_rows (hidx : KeysIn (sides buildIsLeft lhs rhs) buildIdx probeIdx)
    (h : hostInnerJoin lhs rhs buildIsLeft buildIdx probeIdx schema = .ok out) :
  out.rows.Perm (joinRows lhs.columns.length rhs.columns.length .inner
    (keyMatch buildIsLeft buildIdx probeIdx) lhs.rows rhs.rows)
  := by
  obtain ⟨map, hmap, h⟩ := bind_eq_ok.mp h
  split at h
  · rename_i hempty
    rw [List.isEmpty_iff] at hempty
    subst hempty
    rw [emptyOutput_rows h]
    have hnone : ([] : List Pair) = (range (sides buildIsLeft lhs rhs).2.numRows).flatMap
        (fun p => (partners (sides buildIsLeft lhs rhs).1 (sides buildIsLeft lhs rhs).2 buildIdx
          probeIdx p).map (fun b => (some b, some p))) := by
      simp [partners_eq_nil hidx.build hmap]
    exact (innerPairs_perm hnone).rows
  · obtain ⟨pairs, hpairs, h⟩ := bind_eq_ok.mp h
    rw [pairOutput_rows h]
    exact (innerPairs_perm (probeInner_eq hidx hmap hpairs)).rows

theorem outerPairs_eq {build probe : Batch} {joinType : JoinType}
    (hprobe : preserveProbe joinType = true) (rows : List Nat) :
  (rows.flatMap (fun p =>
    if (partners build probe buildIdx probeIdx p).isEmpty then
      if preserveProbe joinType then [((none, some p) : Pair)] else []
    else (partners build probe buildIdx probeIdx p).map (fun b => (some b, some p)))).map
      Prod.swap =
    rows.flatMap (pairsOf true
      (fun p b => hashMatch probeIdx buildIdx (probe.row p) (build.row b))
      (range build.numRows))
  := by
  rw [map_flatMap]
  apply flatMap_congr
  intro p hp
  simp only [hprobe, if_true, pairsOf, Bool.true_and, partners]
  split
  · rfl
  · rw [map_map]
    rfl

/-- The rows that the second pass adds are those no probe row has the key of. -/
theorem unmatchedBuild_swap {build probe : Batch} {marks : List Bool}
    (hlen : marks.length = build.numRows)
    (hmarks : ∀ b < build.numRows, marks.getD b false = (range probe.numRows).any
      (fun p => (partners build probe buildIdx probeIdx p).contains b))
    (h : unmatchedBuild 0 marks = .ok pairs) :
  pairs.map Prod.swap =
    (unmatchedRight
      (fun p b => hashMatch probeIdx buildIdx (probe.row p) (build.row b))
      (range probe.numRows) (range build.numRows)).map (fun b => (none, some b))
  := by
  rw [unmatchedBuild_eq h, map_map, unmatchedRight, hlen]
  have hfilter : (range build.numRows).filter (fun i => !marks.getD i false) =
      (range build.numRows).filter (fun b => !(range probe.numRows).any
        (fun p => hashMatch probeIdx buildIdx (probe.row p) (build.row b))) := by
    apply filter_congr
    intro b hb
    rw [hmarks b (mem_range.mp hb)]
    congr 2
    funext p
    rw [Bool.eq_iff_iff, contains_iff_mem, partners, mem_filter]
    exact and_iff_right hb
  rw [hfilter]
  apply map_congr_left
  intro b hb
  simp

section Outer

variable {joinType : JoinType} {map : KeyMap} {first second : List Pair} {marks : List Bool}

/-- The two passes of an outer join find the pairs of the join. -/
theorem outerPairs_perm (hjoin : preserveProbe joinType = true)
    (hside : buildIsLeft = decide (joinType = .rightOuter))
    (hidx : KeysIn (sides buildIsLeft lhs rhs) buildIdx probeIdx)
    (hmap : buildHashMap (sides buildIsLeft lhs rhs).1 buildIdx = .ok map)
    (hfirst : probeOuter map (sides buildIsLeft lhs rhs).2 probeIdx joinType
      (range (sides buildIsLeft lhs rhs).2.numRows)
      (unmarked joinType (sides buildIsLeft lhs rhs).1.numRows) = .ok (first, marks))
    (hsecond : secondPass joinType marks = .ok second) :
  JoinPairs lhs rhs joinType (keyMatch buildIsLeft buildIdx probeIdx)
    ((first ++ second).map (orient buildIsLeft))
  := by
  obtain ⟨hpairs, hlen, hmarks⟩ := probeOuter_eq hidx hmap hfirst
  have hall : (first ++ second).map Prod.swap = outerJoin true (preserveBuild joinType)
      (sameKey lhs rhs buildIsLeft buildIdx probeIdx)
      (range (sides buildIsLeft lhs rhs).2.numRows)
      (range (sides buildIsLeft lhs rhs).1.numRows) := by
    rw [map_append, hpairs, outerPairs_eq hjoin, outerJoin]
    congr 1
    rw [secondPass] at hsecond
    cases hpb : preserveBuild joinType with
    | false =>
      rw [hpb] at hsecond
      injection hsecond with hsecond
      subst hsecond
      rfl
    | true =>
      rw [hpb] at hsecond
      rw [unmarked, hpb, if_pos rfl, length_replicate] at hlen
      apply unmatchedBuild_swap hlen _ hsecond
      intro b hb
      simp only [unmarked, hpb, if_true, length_replicate] at hmarks
      rw [hmarks trivial b hb, getD_eq_getElem?_getD, getElem?_replicate_of_lt hb]
      rfl
  apply oriented_perm true (preserveBuild joinType) (Perm.of_eq hall) sameKey_eq
  · subst hside
    cases joinType <;> first | rfl | cases hjoin
  · subst hside
    cases joinType <;> rfl

/-- The host part of an outer join returns the join of the sides by their keys. -/
theorem hostOuterJoin_rows (hjoin : preserveProbe joinType = true)
    (hside : buildIsLeft = decide (joinType = .rightOuter))
    (hidx : KeysIn (sides buildIsLeft lhs rhs) buildIdx probeIdx)
    (h : hostOuterJoin lhs rhs joinType buildIsLeft buildIdx probeIdx schema = .ok out) :
  out.rows.Perm (joinRows lhs.columns.length rhs.columns.length joinType
    (keyMatch buildIsLeft buildIdx probeIdx) lhs.rows rhs.rows)
  := by
  obtain ⟨map, hmap, h⟩ := bind_eq_ok.mp h
  obtain ⟨⟨first, marks⟩, hfirst, h⟩ := bind_eq_ok.mp h
  obtain ⟨second, hsecond, h⟩ := bind_eq_ok.mp h
  rw [pairOutput_rows h]
  exact (outerPairs_perm hjoin hside hidx hmap hfirst hsecond).rows

end Outer

end Host

end CratonBolt.Joins
