import Mathlib.Data.List.TakeDrop

/-!
# Paging

A window on a list: how many elements are still to be skipped, and how many are still wanted. A list
that arrives in parts is seen through the window part by part, if the window moves with them.
-/

namespace Paging

open List Option

variable {α : Type}

/-- The elements to be skipped, and those wanted behind them; all of them where nothing bounds. -/
structure Window where
  skip : Nat
  remaining : Option Nat
deriving DecidableEq, Repr

namespace Window

variable (w : Window) (l : List α)

/-- What is seen of a list. -/
def page : List α :=
  match w.remaining with
  | some r => (l.drop w.skip).take r
  | none => l.drop w.skip

/-- The window behind so many elements. -/
def after (n : Nat) : Window where
  skip := w.skip - n
  remaining := w.remaining.map (fun r => r - (n - w.skip))

/-- As many elements as the window can reach. -/
def reach : List α :=
  match w.remaining with
  | some r => l.take (r + w.skip)
  | none => l

/-- Nothing more is wanted. -/
def closed : Bool := w.remaining == some 0

theorem page_of_closed {w : Window} (h : w.closed = true) (l : List α) :
  w.page l = []
  := by
  rw [closed, beq_iff_eq] at h
  rw [page, h]
  exact take_zero

@[simp]
theorem page_nil :
  w.page ([] : List α) = []
  := by
  unfold page
  cases w.remaining <;> simp

@[simp]
theorem after_zero :
  w.after 0 = w
  := by
  cases w with
  | mk skip remaining => cases remaining <;> simp [after]

/-- The window moves with the parts of a list. -/
theorem page_append (l l' : List α) :
  w.page (l ++ l') = w.page l ++ (w.after l.length).page l'
  := by
  unfold page after
  cases w.remaining with
  | none => exact drop_append
  | some r =>
    simp only [map_some]
    rw [drop_append, take_append, length_drop]

theorem after_after (m n : Nat) :
  (w.after m).after n = w.after (m + n)
  := by
  unfold after
  cases w.remaining with
  | none => simp [Nat.sub_sub]
  | some r =>
    simp only [map_some, Window.mk.injEq, some_inj]
    omega

/-- What is out of reach makes no difference to the page. -/
theorem page_reach :
  w.page (w.reach l) = w.page l
  := by
  unfold page reach
  cases w.remaining with
  | none => rfl
  | some r =>
    dsimp only
    rw [take_drop, take_drop, take_take, Nat.add_comm r, Nat.min_self]

/-- Nor to where the window is behind the list. -/
theorem after_reach :
  w.after (w.reach l).length = w.after l.length
  := by
  unfold after reach
  cases w.remaining with
  | none => rfl
  | some r =>
    simp only [map_some, List.length_take, Window.mk.injEq, some_inj]
    omega

/-- A window that is open behind some elements was open, and did not reach over them. -/
theorem open_after {skip take n : Nat} (h : ((⟨skip, some take⟩ : Window).after n).closed = false) :
  0 < take ∧ n < take + skip
  := by
  simp only [closed, after, map_some, beq_eq_false_iff_ne, ne_eq, some_inj] at h
  omega

end Window

end Paging
