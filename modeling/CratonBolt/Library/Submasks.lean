import Mathlib.Data.Nat.Bitwise

/-!
# Submasks in descending order

The step `s ↦ (s - 1) &&& mask` goes from a submask of a mask to the next smaller one.
-/

namespace Submasks

/-- Every bit of the first number is set in the second. -/
def IsSubmask (s mask : Nat) : Prop := ∀ i, s.testBit i = true → mask.testBit i = true

variable {s u mask : Nat}

theorem IsSubmask.half (h : IsSubmask s mask) :
  IsSubmask (s / 2) (mask / 2)
  := by
  intro i hi
  rw [← Nat.testBit_add_one] at hi ⊢
  exact h (i + 1) hi

theorem IsSubmask.mod_two_le (h : IsSubmask s mask) :
  s % 2 ≤ mask % 2
  := by
  have h0 := h 0
  simp only [Nat.testBit_zero, decide_eq_true_eq] at h0
  omega

theorem IsSubmask.and_eq (h : IsSubmask s mask) :
  s &&& mask = s
  := by
  apply Nat.eq_of_testBit_eq
  intro i
  rw [Nat.testBit_and]
  cases hi : s.testBit i with
  | false => rfl
  | true => simp [h i hi]

theorem isSubmask_and (s mask : Nat) :
  IsSubmask (s &&& mask) mask
  := by
  intro i hi
  rw [Nat.testBit_and, Bool.and_eq_true] at hi
  exact hi.2

theorem IsSubmask.le (h : IsSubmask s mask) :
  s ≤ mask
  := by
  rw [← h.and_eq]
  exact Nat.and_le_right

/-- The rest of a mask is a submask, too. -/
theorem IsSubmask.xor (h : IsSubmask s mask) :
  IsSubmask (mask ^^^ s) mask
  := by
  intro i hi
  have hsi := h i
  rw [Nat.testBit_xor] at hi
  cases hm : mask.testBit i with
  | true => rfl
  | false => simp_all

theorem xor_pos (hne : s ≠ mask) :
  0 < mask ^^^ s
  := by
  rw [Nat.pos_iff_ne_zero]
  intro hzero
  exact hne (Nat.xor_eq_zero_iff.mp hzero).symm

theorem IsSubmask.xor_lt (h : IsSubmask s mask) (hpos : 0 < s) :
  mask ^^^ s < mask
  := by
  apply Nat.lt_of_le_of_ne h.xor.le
  intro heq
  have hzero : s = 0 := by
    have := congrArg (mask ^^^ ·) heq
    simpa [← Nat.xor_assoc] using this
  omega

/-- No submask lies between a submask and the one that the step leads to. -/
theorem IsSubmask.le_pred_and (hs : IsSubmask s mask) (hu : IsSubmask u mask) (hlt : s < u) :
  s ≤ (u - 1) &&& mask
  := by
  -- induction on the bits: the last one decides whether `u - 1` borrows
  induction mask using Nat.strongRecOn generalizing s u with
  | ind mask ih =>
    have hand : ((u - 1) &&& mask) / 2 = (u - 1) / 2 &&& mask / 2 := Nat.and_div_two
    have hmod := Nat.mod_two_eq_zero_or_one u
    have hsm := hs.mod_two_le
    have hum := hu.mod_two_le
    by_cases hzero : mask = 0
    · subst hzero
      have hu0 : u = 0 := by simpa using hu.and_eq.symm
      omega
    obtain hu2 | hu2 := hmod
    · -- an even number borrows from its upper bits
      have hpred : (u - 1) / 2 = u / 2 - 1 := by omega
      have hupper := ih (mask / 2) (by omega) hs.half hu.half (by omega)
      have hlast : ((u - 1) &&& mask) % 2 = mask % 2 := by
        rw [← Nat.and_one_is_mod, Nat.and_assoc, Nat.and_comm mask, ← Nat.and_assoc,
          Nat.and_one_is_mod]
        have : (u - 1) % 2 = 1 := by omega
        rw [this, Nat.and_comm, Nat.and_one_is_mod]
      rw [← hpred, ← hand] at hupper
      omega
    · -- an odd one only loses its last bit
      have hpred : (u - 1) / 2 = u / 2 := by omega
      rw [hpred, hu.half.and_eq] at hand
      omega

end Submasks
