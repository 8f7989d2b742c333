import Mathlib.Data.List.Infix

/-!
# Patterns with wildcards

A pattern is a list of symbols: a given character, any one character, or any string. `Accepts` is
the language of a pattern, with characters compared by a relation that the patterns do not know.
-/

namespace Wildcards

open List

inductive Symbol (β : Type) where
  | any
  | one
  | exactly (b : β)
deriving DecidableEq, Repr

variable {α β : Type} {eq : α → β → Bool}

/-- The strings that a pattern describes. -/
def Accepts (eq : α → β → Bool) : List (Symbol β) → List α → Prop
  | [], s => s = []
  | .any :: ps, s => ∃ u v, s = u ++ v ∧ Accepts eq ps v
  | .one :: ps, s => ∃ c v, s = c :: v ∧ Accepts eq ps v
  | .exactly b :: ps, s => ∃ c v, s = c :: v ∧ eq c b = true ∧ Accepts eq ps v

/-- The symbol stands for one character. -/
def Symbol.fixed : Symbol β → Bool
  | .any => false
  | _ => true

variable {ps qs rs : List (Symbol β)} {s v : List α}

theorem accepts_one_cons {c : α} :
  Accepts eq (.one :: ps) (c :: v) ↔ Accepts eq ps v
  := by
  simp [Accepts]

theorem accepts_exactly_cons {b : β} {c : α} :
  Accepts eq (.exactly b :: ps) (c :: v) ↔ eq c b = true ∧ Accepts eq ps v
  := by
  simp [Accepts]

theorem accepts_any_iff :
  Accepts eq (.any :: ps) s ↔ ∃ k ≤ s.length, Accepts eq ps (s.drop k)
  := by
  constructor
  · rintro ⟨u, v, rfl, h⟩
    exact ⟨u.length, by simp, by simpa using h⟩
  · rintro ⟨k, -, h⟩
    exact ⟨s.take k, s.drop k, (take_append_drop k s).symm, h⟩

theorem Accepts.any_of_isSuffix (h : Accepts eq (.any :: ps) v) (hv : v <:+ s) :
  Accepts eq (.any :: ps) s
  := by
  obtain ⟨w, rfl⟩ := hv
  obtain ⟨u, v, rfl, h⟩ := h
  exact ⟨w ++ u, v, by rw [append_assoc], h⟩

theorem accepts_any_any :
  Accepts eq (.any :: .any :: ps) s ↔ Accepts eq (.any :: ps) s
  := by
  constructor
  · rintro ⟨u, v, rfl, h⟩
    exact h.any_of_isSuffix (suffix_append u v)
  · intro h
    exact ⟨[], s, rfl, h⟩

/-- Patterns of one language may stand for each other behind a front. -/
theorem accepts_append_congr (h : ∀ s : List α, Accepts eq ps s ↔ Accepts eq qs s)
    (rs : List (Symbol β)) (s : List α) :
  Accepts eq (rs ++ ps) s ↔ Accepts eq (rs ++ qs) s
  := by
  induction rs generalizing s with
  | nil => exact h s
  | cons r rs ih => cases r <;> simp only [cons_append, Accepts, ih]

/-- A front of fixed symbols takes one character for each. -/
theorem Accepts.of_fixed_append (h : Accepts eq (qs ++ ps) s) (hq : ∀ q ∈ qs, q.fixed = true) :
  qs.length ≤ s.length ∧ Accepts eq ps (s.drop qs.length)
  := by
  induction qs generalizing s with
  | nil => exact ⟨Nat.zero_le _, h⟩
  | cons q qs ih =>
    have hrest : ∃ c v, s = c :: v ∧ Accepts eq (qs ++ ps) v := by
      cases q with
      | any => exact absurd (hq .any (by simp)) (by simp [Symbol.fixed])
      | one => exact h
      | exactly b =>
        obtain ⟨c, v, hs, -, h⟩ := h
        exact ⟨c, v, hs, h⟩
    obtain ⟨c, v, rfl, hv⟩ := hrest
    obtain ⟨hlen, hps⟩ := ih hv (fun q hq' => hq q (mem_cons_of_mem _ hq'))
    exact ⟨Nat.succ_le_succ hlen, hps⟩

section Literals

variable [DecidableEq α] {t : List α} {qs : List (Symbol α)}

theorem accepts_exactly_append :
  Accepts (· == ·) (t.map .exactly ++ qs) s ↔ ∃ v, s = t ++ v ∧ Accepts (· == ·) qs v
  := by
  induction t generalizing s with
  | nil => simp
  | cons c t ih =>
    simp only [map_cons, cons_append, Accepts, beq_iff_eq, ih]
    constructor
    · rintro ⟨-, -, rfl, rfl, v, rfl, h⟩
      exact ⟨v, rfl, h⟩
    · rintro ⟨v, rfl, h⟩
      exact ⟨c, t ++ v, rfl, rfl, v, rfl, h⟩

theorem accepts_exactly :
  Accepts (· == ·) (t.map .exactly) s ↔ s = t
  := by
  have h := @accepts_exactly_append α s _ t []
  simpa [Accepts] using h

theorem accepts_exactly_any :
  Accepts (· == ·) (t.map .exactly ++ [.any]) s ↔ t <+: s
  := by
  rw [accepts_exactly_append]
  constructor
  · rintro ⟨v, rfl, -⟩
    exact prefix_append t v
  · rintro ⟨v, rfl⟩
    exact ⟨v, rfl, v, [], (append_nil v).symm, rfl⟩

theorem accepts_any_exactly :
  Accepts (· == ·) (.any :: t.map .exactly) s ↔ t <:+ s
  := by
  simp only [Accepts, accepts_exactly]
  constructor
  · rintro ⟨u, v, rfl, rfl⟩
    exact suffix_append u v
  · rintro ⟨u, rfl⟩
    exact ⟨u, t, rfl, rfl⟩

theorem accepts_any_exactly_any :
  Accepts (· == ·) (.any :: (t.map .exactly ++ [.any])) s ↔ t <:+: s
  := by
  simp only [Accepts, accepts_exactly_any]
  constructor
  · rintro ⟨u, v, rfl, w, rfl⟩
    exact ⟨u, w, append_assoc u t w⟩
  · rintro ⟨u, w, rfl⟩
    exact ⟨u, t ++ w, append_assoc u t w, w, rfl⟩

end Literals

end Wildcards
