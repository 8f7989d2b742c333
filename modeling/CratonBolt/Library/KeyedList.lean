import Mathlib.Data.List.Sort

/-!
# Lists of keyed elements

Operators on lists whose elements are compared through a key: removal of later duplicates, and
multiset difference and intersection. The results count the elements of each key that are left.
-/

namespace KeyedList

open List

variable {α κ : Type} [DecidableEq κ] {key : α → κ} {l : List α}

/-! ### Removal of duplicates -/

/-- The elements whose key is not in `seen` and is not the key of an earlier element. -/
def distinctBy (key : α → κ) : List κ → List α → List α
  | _, [] => []
  | seen, a :: l =>
    if key a ∈ seen then distinctBy key seen l else a :: distinctBy key (key a :: seen) l

variable {seen : List κ}

/-! ### Multiset difference and intersection -/

/-- Each element of the list unless its key is still left in `keys`, which it then uses up. -/
def exceptAll (key : α → κ) : List κ → List α → List α
  | _, [] => []
  | keys, a :: l =>
    if key a ∈ keys then exceptAll key (keys.erase (key a)) l else a :: exceptAll key keys l

/-- Each element of the list whose key is still left in `keys`, which it then uses up. -/
def intersectAll (key : α → κ) : List κ → List α → List α
  | _, [] => []
  | keys, a :: l =>
    if key a ∈ keys then a :: intersectAll key (keys.erase (key a)) l
    else intersectAll key keys l

section

variable (key : α → κ)

theorem count_map (l : List α) (k : κ) :
  (l.map key).count k = l.countP (fun a => key a = k)
  := by
  rw [List.count, countP_map]
  apply countP_congr
  intro a ha
  simp

/-- How many elements of a key are left, and how many are used up. -/
theorem countP_copies (keys : List κ) (l : List α) (k : κ) :
  (exceptAll key keys l).countP (fun a => key a = k) =
      l.countP (fun a => key a = k) - keys.count k ∧
    (intersectAll key keys l).countP (fun a => key a = k) =
      min (l.countP (fun a => key a = k)) (keys.count k)
  := by
  induction l generalizing keys with
  | nil => simp [exceptAll, intersectAll]
  | cons a l ih =>
    by_cases hk : key a ∈ keys
    · have hpos := count_pos_iff.mpr hk
      obtain ⟨hexcept, hintersect⟩ := ih (keys.erase (key a))
      rw [count_erase] at hexcept hintersect
      simp only [exceptAll, intersectAll, hk, if_true, countP_cons, hexcept, hintersect]
      by_cases hak : key a = k
      · subst hak
        simp only [beq_self_eq_true, decide_true, if_true]
        omega
      · simp [hak]
    · obtain ⟨hexcept, hintersect⟩ := ih keys
      simp only [exceptAll, intersectAll, hk, if_false, countP_cons, hexcept, hintersect]
      by_cases hak : key a = k
      · subst hak
        simp [count_eq_zero.mpr hk]
      · simp [hak]

end

/-! ### The keys that are left -/

theorem mem_map_distinctBy {k : κ} :
  k ∈ (distinctBy key seen l).map key ↔ k ∈ l.map key ∧ k ∉ seen
  := by
  induction l generalizing seen with
  | nil => simp [distinctBy]
  | cons a l ih =>
    by_cases ha : key a ∈ seen
    · simp only [distinctBy, ha, if_true, ih, map_cons, mem_cons]
      constructor
      · rintro ⟨hk, hs⟩
        exact ⟨Or.inr hk, hs⟩
      · rintro ⟨rfl | hk, hs⟩
        · exact (hs ha).elim
        · exact ⟨hk, hs⟩
    · simp only [distinctBy, ha, if_false, map_cons, mem_cons, ih, not_or]
      constructor
      · rintro (rfl | ⟨hk, -, hs⟩)
        · exact ⟨Or.inl rfl, ha⟩
        · exact ⟨Or.inr hk, hs⟩
      · rintro ⟨rfl | hk, hs⟩
        · exact Or.inl rfl
        · by_cases hka : k = key a
          · exact Or.inl hka
          · exact Or.inr ⟨hk, hka, hs⟩

theorem nodup_map_distinctBy (key : α → κ) (seen : List κ) (l : List α) :
  ((distinctBy key seen l).map key).Nodup
  := by
  induction l generalizing seen with
  | nil => exact nodup_nil
  | cons a l ih =>
    by_cases ha : key a ∈ seen
    · simp only [distinctBy, ha, if_true]
      exact ih seen
    · simp only [distinctBy, ha, if_false, map_cons]
      refine nodup_cons.mpr ⟨?_, ih (key a :: seen)⟩
      intro hmem
      exact (mem_map_distinctBy.mp hmem).2 mem_cons_self

theorem countP_distinctBy (key : α → κ) (seen : List κ) (l : List α) (k : κ) :
  (distinctBy key seen l).countP (fun a => key a = k) = if k ∈ l.map key ∧ k ∉ seen then 1 else 0
  := by
  rw [← count_map, (nodup_map_distinctBy key seen l).count]
  simp only [mem_map_distinctBy]

/-! ### Lexicographic order -/

/-- The lexicographic order on lists of integers, as a test. -/
def lexLe : List Int → List Int → Bool
  | [], _ => true
  | _ :: _, [] => false
  | a :: as, b :: bs => if a < b then true else if b < a then false else lexLe as bs

theorem lexLe_iff (as bs : List Int) :
  lexLe as bs = true ↔ instLE.le as bs
  := by
  fun_induction lexLe as bs with
  | case1 bs => simp
  | case2 a as => simp
  | case3 a as b bs hab => simp [cons_le_cons_iff, hab]
  | case4 a as b bs hab hba => simp [cons_le_cons_iff, hab, hba.ne']
  | case5 a as b bs hab hba ih =>
    simp [cons_le_cons_iff, ih, Int.le_antisymm (not_lt.mp hba) (not_lt.mp hab)]

theorem lexLe_total (as bs : List Int) :
  lexLe as bs = true ∨ lexLe bs as = true
  := by
  rw [lexLe_iff, lexLe_iff]
  exact List.le_total as bs

theorem lexLe_trans {as bs cs : List Int} (hab : lexLe as bs = true) (hbc : lexLe bs cs = true) :
  lexLe as cs = true
  := by
  rw [lexLe_iff] at *
  exact List.le_trans hab hbc

end KeyedList
