import Mathlib
import CratonBolt.Semantics.NodeSchemas

/-!
# The names of joined columns

A right column of a join takes the first free of its candidate names: its own, that prefixed by
`right.`, then with the suffixes `__2`, `__3` and so on. The fewer names are taken, the earlier the
candidate.
-/

namespace CratonBolt

open List

section

variable (name : String)

/-- The names a right column may take, in order. -/
def joinCandidate : Nat → String
  | 0 => name
  | 1 => s!"right.{name}"
  | i => s!"right.{name}__{i}"

/-- The suffix that is found is the first one that is free, unless the fuel was too little. -/
theorem freshSuffix_spec (base : String) (taken : List String) (fuel i : Nat) :
  ∃ k, i ≤ k ∧ k ≤ i + fuel ∧ freshSuffix base taken fuel i = s!"{base}__{k}" ∧
    (∀ j, i ≤ j → j < k → s!"{base}__{j}" ∈ taken) ∧
    (s!"{base}__{k}" ∈ taken → k = i + fuel)
  := by
  induction fuel generalizing i with
  | zero => exact ⟨i, Nat.le_refl _, Nat.le_refl _, rfl, by omega, fun _ => rfl⟩
  | succ fuel ih =>
    by_cases hc : s!"{base}__{i}" ∈ taken
    · obtain ⟨k, hik, hk, heq, hbefore, hfuel⟩ := ih (i + 1)
      refine ⟨k, by omega, by omega, ?_, ?_, ?_⟩
      · rw [freshSuffix]
        simp only [contains_iff_mem, hc, if_true]
        exact heq
      · intro j hij hjk
        obtain rfl | hlt := Nat.eq_or_lt_of_le hij
        · exact hc
        · exact hbefore j hlt hjk
      · intro hmem
        have := hfuel hmem
        omega
    · refine ⟨i, Nat.le_refl _, by omega, ?_, by omega, fun hmem => (hc hmem).elim⟩
      rw [freshSuffix]
      simp only [contains_iff_mem, hc, if_false]

theorem suffix_injective {base : String} {i j : Nat} (h : s!"{base}__{i}" = s!"{base}__{j}") :
  i = j
  := by
  rw [String.append_right_inj] at h
  exact Nat.repr_inj.mp h

/-- As many suffixes as there are taken names, and one more, cannot all be taken. -/
theorem exists_free_suffix (base : String) (taken : List String) (i : Nat)
    (h : ∀ j, i ≤ j → j ≤ i + taken.length → s!"{base}__{j}" ∈ taken) :
  False
  := by
  have hnodup : ((List.range (taken.length + 1)).map (fun j => s!"{base}__{i + j}")).Nodup := by
    apply Nodup.map _ nodup_range
    intro j k hjk
    have := suffix_injective hjk
    omega
  have hsub : (List.range (taken.length + 1)).map (fun j => s!"{base}__{i + j}") ⊆ taken := by
    intro c hc
    obtain ⟨j, hj, rfl⟩ := mem_map.mp hc
    rw [mem_range] at hj
    exact h (i + j) (by omega) (by omega)
  have hle := (subperm_of_subset hnodup hsub).length_le
  rw [length_map, length_range] at hle
  omega

/-- A right column takes its first candidate that is free. -/
theorem joinRename_spec (taken : List String) :
  ∃ k, joinRename name taken = joinCandidate name k ∧
    (∀ j < k, joinCandidate name j ∈ taken) ∧ joinCandidate name k ∉ taken
  := by
  by_cases hname : name ∈ taken
  · by_cases hright : s!"right.{name}" ∈ taken
    · obtain ⟨k, h2k, hk, heq, hbefore, hfuel⟩ :=
        freshSuffix_spec s!"right.{name}" taken taken.length 2
      obtain ⟨i, rfl⟩ : ∃ i, k = i + 2 := ⟨k - 2, by omega⟩
      refine ⟨i + 2, ?_, ?_, ?_⟩
      · simp only [joinRename, contains_iff_mem, hname, hright, if_true]
        exact heq
      · intro j hj
        match j with
        | 0 => exact hname
        | 1 => exact hright
        | j + 2 => exact hbefore (j + 2) (by omega) hj
      · intro hmem
        have hlast := hfuel hmem
        apply exists_free_suffix s!"right.{name}" taken 2
        intro j hj hle
        obtain rfl | hlt := Nat.eq_or_lt_of_le hle
        · rw [← hlast]
          exact hmem
        · exact hbefore j hj (by omega)
    · refine ⟨1, ?_, ?_, hright⟩
      · simp only [joinRename, contains_iff_mem, hname, hright, if_true, if_false]
        rfl
      · intro j hj
        obtain rfl : j = 0 := by omega
        exact hname
  · refine ⟨0, ?_, by omega, hname⟩
    simp only [joinRename, contains_iff_mem, hname, if_false]
    rfl

theorem joinRename_not_mem (taken : List String) :
  joinRename name taken ∉ taken
  := by
  obtain ⟨k, hk, -, hfree⟩ := joinRename_spec name taken
  rw [hk]
  exact hfree

end

variable {name : String} {taken taken' required : List String}

theorem joinRightFields_fresh (mayNull : Bool) (fields : List Field) (taken : List String) :
  ((joinRightFields mayNull fields taken).map Field.name).Nodup ∧
    ∀ n ∈ (joinRightFields mayNull fields taken).map Field.name, n ∉ taken
  := by
  induction fields generalizing taken with
  | nil => simp [joinRightFields]
  | cons f fields ih =>
    obtain ⟨hnodup, hfresh⟩ := ih (joinRename f.name taken :: taken)
    rw [joinRightFields, map_cons]
    constructor
    · apply nodup_cons.mpr
      refine ⟨?_, hnodup⟩
      intro hmem
      exact hfresh _ hmem mem_cons_self
    · intro n hn
      obtain rfl | hn := mem_cons.mp hn
      · exact joinRename_not_mem f.name taken
      · exact fun hmem => hfresh n hn (mem_cons_of_mem _ hmem)

theorem position?_of_mem {s : Schema} {n : String} (hn : n ∈ s.names) :
  s.position? n = s.names.findIdx? (fun m => m == n)
  := by
  unfold Schema.position? resolve
  cases hfind : s.names.findIdx? (fun m => m == n) with
  | some i => rfl
  | none =>
    rw [findIdx?_eq_none_iff] at hfind
    simpa using hfind n hn

/-- Where no name repeats, each name resolves to the column at its own position. -/
theorem indexOf_of_nodup {s : Schema} (h : s.names.Nodup) {i : Nat} {n : String}
    (hi : s.names[i]? = some n) :
  s.indexOf n = .ok i
  := by
  obtain ⟨hlt, rfl⟩ := List.getElem?_eq_some_iff.mp hi
  have hfind : s.names.findIdx? (fun m => m == s.names[i]) = some i := by
    apply findIdx?_eq_some_iff_getElem.mpr
    refine ⟨hlt, beq_self_eq_true _, ?_⟩
    intro j hj hbeq
    have := h.getElem_inj_iff.mp (eq_of_beq hbeq)
    omega
  rw [Schema.indexOf, position?_of_mem (getElem_mem hlt), hfind]

theorem joinRightFields_forall₂ (mayNull : Bool) (fields : List Field) (taken : List String) :
  Forall₂ (fun f g => g.dtype = f.dtype ∧ g.nullable = (f.nullable || mayNull)) fields
    (joinRightFields mayNull fields taken)
  := by
  induction fields generalizing taken with
  | nil => exact .nil
  | cons f fields ih => exact .cons ⟨rfl, rfl⟩ (ih _)

/-- Where the left names are distinct, so are the names of the join. -/
theorem joinCombinedSchema_nodup (right : Schema) (joinType : JoinType) {left : Schema}
    (h : left.names.Nodup) :
  (joinCombinedSchema left right joinType).names.Nodup
  := by
  obtain ⟨hright, hfresh⟩ := joinRightFields_fresh joinType.rightMayNull right.fields left.names
  rw [joinCombinedSchema_names]
  apply Nodup.append h hright
  intro n hn hn'
  exact hfresh n hn' hn

/--
The columns of a join are the left ones, then one for each right one. The left columns keep their
names and types and, unless the join may pad them, also say as before whether they hold `NULL`s.
Where the left names are distinct so are all of them, and each denotes its own column.
-/
theorem joinCombinedSchema_unambiguous (left right : Schema) (joinType : JoinType)
    (h : left.names.Nodup) :
  ∃ leftFields rightFields,
    (joinCombinedSchema left right joinType).fields = leftFields ++ rightFields ∧
    leftFields = left.fields.map
      (fun f => { f with nullable := f.nullable || joinType.leftMayNull }) ∧
    (joinType.leftMayNull = false → leftFields = left.fields) ∧
    Forall₂
      (fun f g => g.dtype = f.dtype ∧ g.nullable = (f.nullable || joinType.rightMayNull))
      right.fields rightFields ∧
    (joinCombinedSchema left right joinType).names.Nodup ∧
    ∀ i n, (joinCombinedSchema left right joinType).names[i]? = some n →
      (joinCombinedSchema left right joinType).indexOf n = .ok i
  := by
  have hnodup := joinCombinedSchema_nodup right joinType h
  refine ⟨_, _, rfl, rfl, ?_, joinRightFields_forall₂ _ _ _, hnodup, ?_⟩
  · intro hnull
    simp [hnull]
  · intro i n hi
    exact indexOf_of_nodup hnodup hi

theorem joinCombinedSchema_unambiguous_selfJoin :
  let t : Schema := ⟨[⟨"id", .int64, false⟩, ⟨"right.id", .utf8, true⟩]⟩
  (∃ rightFields, (joinCombinedSchema t t .inner).fields = t.fields ++ rightFields) ∧
    (joinCombinedSchema t t .inner).names[2]? = some "right.id__2" ∧
    (joinCombinedSchema t t .inner).indexOf "right.id__2" = .ok 2
  := by
  intro t
  obtain ⟨leftFields, rightFields, hfields, -, hleft, -, -, hindex⟩ :=
    joinCombinedSchema_unambiguous t t .inner (by decide)
  have hname : (joinCombinedSchema t t .inner).names[2]? = some "right.id__2" := by decide
  rw [hleft rfl] at hfields
  exact ⟨⟨rightFields, hfields⟩, hname, hindex 2 _ hname⟩

/-- A join that may pad its left rows makes a `NOT NULL` column of theirs nullable. -/
theorem joinCombinedSchema_rightOuter_widens :
  let left : Schema := ⟨[⟨"id", .int64, false⟩]⟩
  left.names.Nodup ∧ (joinCombinedSchema left ⟨[]⟩ .rightOuter).fields.take 1 ≠ left.fields
  := by
  decide

end CratonBolt
