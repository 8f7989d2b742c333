import Mathlib.Data.Option.Basic

/-!
# Three-valued logic

Strong Kleene connectives on `Option Bool`, where `none` is the unknown truth value. A filter
keeps what is known to be true, so the facts below are mostly about `some true`.
-/

namespace Kleene

/-- Conjunction: false as soon as one side is. -/
def and : Option Bool → Option Bool → Option Bool
  | some false, _ => some false
  | _, some false => some false
  | some true, some true => some true
  | _, _ => none

/-- Disjunction: true as soon as one side is. -/
def or : Option Bool → Option Bool → Option Bool
  | some true, _ => some true
  | _, some true => some true
  | some false, some false => some false
  | _, _ => none

/-- Negation, which leaves the unknown unknown. -/
def not (a : Option Bool) : Option Bool := a.map Bool.not

@[simp]
theorem and_eq_some_true {a b : Option Bool} :
  and a b = some true ↔ a = some true ∧ b = some true
  := by
  cases a with
  | none => cases b with
    | none => simp [and]
    | some b => cases b <;> simp [and]
  | some a => cases a <;> cases b with
    | none => simp [and]
    | some b => cases b <;> simp [and]

@[simp]
theorem or_eq_some_true {a b : Option Bool} :
  or a b = some true ↔ a = some true ∨ b = some true
  := by
  cases a with
  | none => cases b with
    | none => simp [or]
    | some b => cases b <;> simp [or]
  | some a => cases a <;> cases b with
    | none => simp [or]
    | some b => cases b <;> simp [or]

end Kleene
