import Mathlib.Tactic.Common

/-!
# Loops whose steps work on their own slots

A loop over distinct keys runs a step for each of them. If each step succeeds, changes only the
slot of its key and decides by that slot, then the loop succeeds and every slot is changed by its
own step.
-/

namespace SlotLoops

open List

variable {ε σ α β : Type}

variable {f : α → EStateM ε σ Unit} {l : List α}

theorem forM_cons_ok {a : α} {s s' : σ} (h : f a s = .ok () s') :
  (a :: l).forM f s = l.forM f s'
  := by
  rw [forM_eq_forM, forM_cons, bind, EStateM.instMonad]
  simp only [EStateM.bind, h]

/-- `Keeps` is what all steps leave alone, as a preorder on states. -/
theorem forM_slots {slot : σ → α → β} {Keeps : σ → σ → Prop} {Post : α → β → β → Prop}
    (hrefl : ∀ s, Keeps s s) (htrans : ∀ {s t u}, Keeps s t → Keeps t u → Keeps s u) (hl : l.Nodup)
    (s : σ) (hf : ∀ a ∈ l, ∀ t, Keeps s t → slot t a = slot s a →
      ∃ t', f a t = .ok () t' ∧ Keeps t t' ∧ (∀ b, b ≠ a → slot t' b = slot t b) ∧
        Post a (slot t a) (slot t' a)) :
  ∃ t, l.forM f s = .ok () t ∧ Keeps s t ∧ (∀ b, b ∉ l → slot t b = slot s b) ∧
    ∀ a ∈ l, Post a (slot s a) (slot t a)
  := by
  induction l generalizing s with
  | nil => exact ⟨s, rfl, hrefl s, fun _ _ => rfl, by simp⟩
  | cons a l ih =>
    obtain ⟨hal, hl⟩ := nodup_cons.mp hl
    obtain ⟨s', hs', hkeep, hother, hpost⟩ := hf a mem_cons_self s (hrefl s) rfl
    obtain ⟨t, ht, hkeep', hother', hpost'⟩ := ih hl s' (by
      intro b hb t ht hslot
      have hba : b ≠ a := fun h => hal (h ▸ hb)
      apply hf b (mem_cons_of_mem a hb) t (htrans hkeep ht)
      rw [hslot, hother b hba])
    refine ⟨t, (forM_cons_ok hs').trans ht, htrans hkeep hkeep', ?_, ?_⟩
    · intro b hb
      rw [mem_cons, not_or] at hb
      rw [hother' b hb.2, hother b hb.1]
    · intro b hb
      obtain rfl | hb := mem_cons.mp hb
      · rw [hother' b hal]
        exact hpost
      · have hba : b ≠ a := fun h => hal (h ▸ hb)
        have := hpost' b hb
        rwa [hother b hba] at this

end SlotLoops
