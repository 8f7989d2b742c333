import Mathlib.Data.Nat.Log
import Mathlib.Tactic.Ring

/-!
# Binary floating-point formats by their bit patterns

The magnitude of a float (its bit pattern without the sign) is a natural number, and magnitudes
are ordered as the values they stand for. `ofNat` is the magnitude of a natural number rounded to
nearest, ties to even, in a format with `t` fraction bits whose exponent is stored with `bias`
added; rounding keeps the order. `widen` is the magnitude, in a wider format, of the same finite
value; it is strictly increasing.
-/

namespace CratonBolt.FloatFormat

open Nat (mul_le_mul_right two_pow_pos)

/-! ### Rounding to nearest, ties to even -/

/-- The quotient `n / d` rounded to the nearest natural number, and to the even one of two. -/
def roundDiv (n d : Nat) : Nat :=
  if 2 * (n % d) < d ∨ (2 * (n % d) = d ∧ n / d % 2 = 0) then n / d else n / d + 1

theorem div_le_roundDiv (n d : Nat) :
  n / d ≤ roundDiv n d
  := by
  unfold roundDiv
  split <;> omega

theorem roundDiv_le (n d : Nat) :
  roundDiv n d ≤ n / d + 1
  := by
  unfold roundDiv
  split <;> omega

theorem roundDiv_mono {n m : Nat} (d : Nat) (h : n ≤ m) :
  roundDiv n d ≤ roundDiv m d
  := by
  have hq : n / d ≤ m / d := Nat.div_le_div_right h
  by_cases heq : n / d = m / d
  · -- with equal quotients the remainders are ordered, and so are the roundings
    have hr : n % d ≤ m % d := by
      have hn := Nat.div_add_mod n d
      have hm := Nat.div_add_mod m d
      rw [heq] at hn
      omega
    unfold roundDiv
    rw [heq]
    split <;> split <;> omega
  · have h₁ := roundDiv_le n d
    have h₂ := div_le_roundDiv m d
    omega

/-! ### The magnitude of a natural number -/

/-- The significand of `m`, its leading bit included, rounded to `t` fraction bits. -/
def significand (t m : Nat) : Nat := roundDiv (m * 2 ^ t) (2 ^ m.log2)

/-- The leading bit of the significand is added to the exponent field, which a carry reaches too. -/
def ofNat (t bias m : Nat) : Nat :=
  if m = 0 then 0 else (m.log2 + bias - 1) * 2 ^ t + significand t m

theorem two_pow_le_significand (t : Nat) {m : Nat} (h : m ≠ 0) :
  2 ^ t ≤ significand t m
  := by
  apply Nat.le_trans _ (div_le_roundDiv _ _)
  rw [Nat.le_div_iff_mul_le (two_pow_pos _), Nat.mul_comm]
  apply mul_le_mul_right _ (Nat.log2_self_le h)

theorem significand_le (t m : Nat) :
  significand t m ≤ 2 * 2 ^ t
  := by
  apply Nat.le_trans (roundDiv_le _ _)
  have hlt : m * 2 ^ t < 2 * 2 ^ t * 2 ^ m.log2 := by
    have h : m < 2 * 2 ^ m.log2 := by
      have h := @Nat.lt_log2_self m
      rw [Nat.pow_succ] at h
      omega
    calc m * 2 ^ t < 2 * 2 ^ m.log2 * 2 ^ t := Nat.mul_lt_mul_of_pos_right h (two_pow_pos t)
      _ = 2 * 2 ^ t * 2 ^ m.log2 := by ring
  exact (Nat.div_lt_iff_lt_mul (two_pow_pos _)).mpr hlt

theorem ofNat_le (t : Nat) {bias m : Nat} (hb : 0 < bias) :
  ofNat t bias m ≤ (m.log2 + bias + 1) * 2 ^ t
  := by
  unfold ofNat
  split
  · apply Nat.zero_le
  · have h := significand_le t m
    have hsum : (m.log2 + bias + 1) * 2 ^ t = (m.log2 + bias - 1) * 2 ^ t + 2 * 2 ^ t := by
      rw [← Nat.add_mul]
      congr 1
      omega
    omega

/-- Rounding keeps the order. -/
theorem ofNat_mono (t : Nat) {bias m n : Nat} (hb : 0 < bias) (h : m ≤ n) :
  ofNat t bias m ≤ ofNat t bias n
  := by
  by_cases hm : m = 0
  · simp [ofNat, hm]
  have hn : n ≠ 0 := by omega
  by_cases hlog : m.log2 = n.log2
  · rw [ofNat, ofNat, if_neg hm, if_neg hn, hlog]
    apply Nat.add_le_add_left
    unfold significand
    rw [hlog]
    apply roundDiv_mono
    apply mul_le_mul_right _ h
  · -- the exponents differ, and the rounded significand reaches at most the next exponent
    have hlt : m.log2 + 1 ≤ n.log2 := by
      have hle : m.log2 ≤ n.log2 := (Nat.le_log2 hn).mpr (Nat.le_trans (Nat.log2_self_le hm) h)
      omega
    apply Nat.le_trans (ofNat_le t hb)
    rw [ofNat, if_neg hn]
    have hs := two_pow_le_significand t hn
    have hsum : (n.log2 + bias) * 2 ^ t = (n.log2 + bias - 1) * 2 ^ t + 2 ^ t := by
      rw [← Nat.succ_mul]
      congr 1
      omega
    have hexp : (m.log2 + bias + 1) * 2 ^ t ≤ (n.log2 + bias) * 2 ^ t :=
      mul_le_mul_right _ (by omega)
    omega

/-! ### Finite magnitudes in a wider format -/

/--
The magnitude, with `t'` fraction bits and a bias larger by `shift + t`, of the finite value
that has magnitude `m` with `t` fraction bits. A subnormal value is normalised.
-/
def widen (t t' shift m : Nat) : Nat :=
  if m = 0 then 0
  else if m < 2 ^ t then (m.log2 + shift) * 2 ^ t' + m * 2 ^ (t' - m.log2)
  else m * 2 ^ (t' - t) + (shift + t) * 2 ^ t'

section Widening

variable {t t' shift : Nat}

theorem log2_lt_of_lt_two_pow {m : Nat} (hm : m ≠ 0) (h : m < 2 ^ t) :
  m.log2 < t
  := by
  rwa [Nat.log2_lt hm]

theorem two_pow_le_scaled {m : Nat} (hm : m ≠ 0) (hlog : m.log2 ≤ t') :
  2 ^ t' ≤ m * 2 ^ (t' - m.log2)
  := by
  calc 2 ^ t' = 2 ^ m.log2 * 2 ^ (t' - m.log2) := by rw [← Nat.pow_add]; congr 1; omega
    _ ≤ m * 2 ^ (t' - m.log2) := mul_le_mul_right _ (Nat.log2_self_le hm)

theorem scaled_lt_two_pow {m : Nat} (hlog : m.log2 ≤ t') :
  m * 2 ^ (t' - m.log2) < 2 * 2 ^ t'
  := by
  have h : m < 2 ^ (m.log2 + 1) := Nat.lt_log2_self
  calc m * 2 ^ (t' - m.log2) < 2 ^ (m.log2 + 1) * 2 ^ (t' - m.log2) :=
        Nat.mul_lt_mul_of_pos_right h (two_pow_pos _)
    _ = 2 * 2 ^ t' := by rw [← Nat.pow_add, ← Nat.pow_succ']; congr 1; omega

variable (ht : t ≤ t')
include ht

theorem widen_pos {m : Nat} (hm : m ≠ 0) :
  0 < widen t t' shift m
  := by
  unfold widen
  rw [if_neg hm]
  split
  · next h =>
    have h' := two_pow_le_scaled hm (Nat.le_trans (log2_lt_of_lt_two_pow hm h).le ht)
    have := two_pow_pos t'
    omega
  · have := Nat.mul_pos (Nat.pos_of_ne_zero hm) (two_pow_pos (t' - t))
    omega

theorem widen_subnormal_lt {m : Nat} (hm : m ≠ 0) (h : m < 2 ^ t) :
  widen t t' shift m < (shift + t + 1) * 2 ^ t'
  := by
  have hlog := log2_lt_of_lt_two_pow hm h
  have hs := scaled_lt_two_pow (Nat.le_trans hlog.le ht)
  have hsum : (m.log2 + shift + 2) * 2 ^ t' = (m.log2 + shift) * 2 ^ t' + 2 * 2 ^ t' :=
    Nat.add_mul _ _ _
  have hexp : (m.log2 + shift + 2) * 2 ^ t' ≤ (shift + t + 1) * 2 ^ t' :=
    mul_le_mul_right _ (by omega)
  rw [widen, if_neg hm, if_pos h]
  omega

theorem le_widen_normal {m : Nat} (h : 2 ^ t ≤ m) :
  (shift + t + 1) * 2 ^ t' ≤ widen t t' shift m
  := by
  have hm : m ≠ 0 := by
    have := two_pow_pos t
    omega
  have hs : 2 ^ t' ≤ m * 2 ^ (t' - t) := by
    calc 2 ^ t' = 2 ^ t * 2 ^ (t' - t) := by rw [← Nat.pow_add]; congr 1; omega
      _ ≤ m * 2 ^ (t' - t) := mul_le_mul_right _ h
  rw [widen, if_neg hm, if_neg (by omega), Nat.succ_mul]
  omega

theorem widen_subnormal_mono {m n : Nat} (hm : m ≠ 0) (hmn : m < n) (h : n < 2 ^ t) :
  widen t t' shift m < widen t t' shift n
  := by
  have hn : n ≠ 0 := by omega
  rw [widen, widen, if_neg hm, if_neg hn, if_pos (by omega), if_pos h]
  by_cases hlog : m.log2 = n.log2
  · rw [hlog]
    apply Nat.add_lt_add_left
    apply Nat.mul_lt_mul_of_pos_right hmn (two_pow_pos _)
  · have hlogn := log2_lt_of_lt_two_pow hn h
    have hlt : m.log2 + 1 ≤ n.log2 := by
      have hle : m.log2 ≤ n.log2 :=
        (Nat.le_log2 hn).mpr (Nat.le_trans (Nat.log2_self_le hm) hmn.le)
      omega
    have hs := @scaled_lt_two_pow t' m (by omega)
    have hs' := @two_pow_le_scaled t' n hn (by omega)
    have hsum : (m.log2 + shift + 1) * 2 ^ t' = (m.log2 + shift) * 2 ^ t' + 2 ^ t' :=
      Nat.succ_mul _ _
    have hexp : (m.log2 + shift + 1) * 2 ^ t' ≤ (n.log2 + shift) * 2 ^ t' :=
      mul_le_mul_right _ (by omega)
    omega

/-- Widening is strictly increasing. -/
theorem widen_lt_widen {m n : Nat} (hmn : m < n) :
  widen t t' shift m < widen t t' shift n
  := by
  by_cases hm : m = 0
  · rw [hm, widen, if_pos rfl]
    apply widen_pos ht (by omega)
  by_cases hn : n < 2 ^ t
  · apply widen_subnormal_mono ht hm hmn hn
  · have hle : (shift + t + 1) * 2 ^ t' ≤ widen t t' shift n :=
      le_widen_normal ht (Nat.le_of_not_lt hn)
    by_cases hm' : m < 2 ^ t
    · apply Nat.lt_of_lt_of_le (widen_subnormal_lt ht hm hm') hle
    · rw [widen, widen, if_neg hm, if_neg hm', if_neg (show ¬n = 0 by omega), if_neg hn]
      apply Nat.add_lt_add_right
      apply Nat.mul_lt_mul_of_pos_right hmn (two_pow_pos _)

end Widening

end CratonBolt.FloatFormat
