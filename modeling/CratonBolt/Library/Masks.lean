import Mathlib.Data.List.Forall2

/-!
# Selecting from a list by a mask

`select mask l` keeps the elements of `l` at the places where the mask is true.
-/

namespace Masks

open List

variable {α β : Type} {l : List α}

/-- The elements where the mask is true. -/
def select : List Bool → List α → List α
  | true :: mask, a :: l => a :: select mask l
  | false :: mask, _ :: l => select mask l
  | _, _ => []

@[simp]
theorem select_nil (l : List α) :
  select [] l = []
  := by
  cases l <;> rfl

variable (mask : List Bool)

@[simp]
theorem select_nil_right :
  select mask ([] : List α) = []
  := by
  cases mask with
  | nil => rfl
  | cons b mask => cases b <;> rfl

@[simp]
theorem select_true (a : α) (l : List α) :
  select (true :: mask) (a :: l) = a :: select mask l
  := rfl

@[simp]
theorem select_false (a : α) (l : List α) :
  select (false :: mask) (a :: l) = select mask l
  := rfl

theorem map_select (f : α → β) (mask : List Bool) (l : List α) :
  (select mask l).map f = select mask (l.map f)
  := by
  induction mask generalizing l with
  | nil => simp
  | cons b mask ih =>
    cases l with
    | nil => simp
    | cons a l => cases b <;> simp [ih]

theorem select_sublist (l : List α) :
  (select mask l).Sublist l
  := by
  induction mask generalizing l with
  | nil => simp
  | cons b mask ih =>
    cases l with
    | nil => simp
    | cons a l =>
      cases b with
      | false => exact (ih l).cons a
      | true => exact (ih l).cons_cons a

/-! ### Lists related element by element -/

section Pointwise

variable {γ : Type} {R R' : α → β → Prop}

theorem forall₂_of_mem {l' : List β} (h : Forall₂ R l l') (hR : ∀ a ∈ l, ∀ b ∈ l', R a b → R' a b) :
  Forall₂ R' l l'
  := by
  obtain ⟨hlen, hzip⟩ := forall₂_iff_zip.mp h
  apply forall₂_iff_zip.mpr
  refine ⟨hlen, ?_⟩
  intro a b hab
  obtain ⟨ha, hb⟩ := of_mem_zip hab
  exact hR a ha b hb (hzip hab)

end Pointwise

end Masks
