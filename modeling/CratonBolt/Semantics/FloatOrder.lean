import CratonBolt.Semantics.Value

/-!
# The order of floats under conversions

A float is ordered by its sign and its magnitude. The conversion of integers into 64-bit floats
keeps the order, and the conversion of 32-bit floats into 64-bit ones keeps it strictly, with the
NaNs apart.
-/

namespace CratonBolt

open F32 (widenMagnitude)
open FloatFormat (ofNat widen)
open Value (floatOrder nan32 nan64)

/-! ### Sign and magnitude -/

/-- The order of a float from its sign and its magnitude. -/
def signedOrder (negative : Bool) (m : Nat) : Int := if negative then -(m : Int) else m

/-- The bit pattern of a sign and a magnitude. -/
def signedBits (width : Nat) (negative : Bool) (m : Nat) : Nat :=
  (if negative then 2 ^ (width - 1) else 0) + m

theorem floatOrder_signedBits {width m : Nat} (negative : Bool) (hm : m < 2 ^ (width - 1)) :
  floatOrder width (signedBits width negative m) = signedOrder negative m
  := by
  cases negative with
  | false => simp [floatOrder, signedBits, signedOrder, hm]
  | true => simp [floatOrder, signedBits, signedOrder]

theorem nan64_iff (bits : UInt64) :
  nan64 bits = true ↔ 0x7ff0000000000000 < bits.toNat % 2 ^ 63
  := by
  have hmask : (bits &&& 0x7fffffffffffffff).toNat = bits.toNat % 2 ^ 63 := by
    rw [UInt64.toNat_and]
    apply Nat.and_two_pow_sub_one_eq_mod _ 63
  rw [nan64, decide_eq_true_eq, gt_iff_lt, UInt64.lt_iff_toNat_lt, hmask]
  rfl

theorem nan32_iff (bits : UInt32) :
  nan32 bits = true ↔ 0x7f800000 < bits.toNat % 2 ^ 31
  := by
  have hmask : (bits &&& 0x7fffffff).toNat = bits.toNat % 2 ^ 31 := by
    rw [UInt32.toNat_and]
    apply Nat.and_two_pow_sub_one_eq_mod _ 31
  rw [nan32, decide_eq_true_eq, gt_iff_lt, UInt32.lt_iff_toNat_lt, hmask]
  rfl

/-- The 64-bit float of a sign and a magnitude. -/
structure IsFloat64 (x : F64) (negative : Bool) (m : Nat) : Prop where
  bits : x.bits.toNat = signedBits 64 negative m
  lt : m < 2 ^ 63

namespace IsFloat64

variable {x : F64} {negative : Bool} {m : Nat}

theorem order (h : IsFloat64 x negative m) :
  floatOrder 64 x.bits.toNat = signedOrder negative m
  := by
  rw [h.bits]
  apply floatOrder_signedBits _ h.lt

theorem nan (h : IsFloat64 x negative m) :
  nan64 x.bits = true ↔ 0x7ff0000000000000 < m
  := by
  rw [nan64_iff, h.bits]
  have hm : signedBits 64 negative m % 2 ^ 63 = m := by
    have := h.lt
    cases negative with
    | false => simp [signedBits]; omega
    | true => simp [signedBits]; omega
  rw [hm]

theorem of_bits (hm : m < 2 ^ 63) :
  IsFloat64 ⟨UInt64.ofNat (signedBits 64 negative m)⟩ negative m
  := by
  refine ⟨?_, hm⟩
  have hlt : signedBits 64 negative m < 2 ^ 64 := by
    cases negative with
    | false => simp [signedBits]; omega
    | true => simp [signedBits]; omega
  exact UInt64.toNat_ofNat_of_lt' hlt

end IsFloat64

/-! ### Integers -/

theorem FloatFormat.ofNat_lt_infinity {m : Nat} (h : m < 2 ^ 64) :
  ofNat 52 1023 m < 0x7ff0000000000000
  := by
  have hlog : m.log2 ≤ 63 := by
    by_cases hm : m = 0
    · simp [hm]
    · have := (Nat.log2_lt hm).mpr h
      omega
  calc ofNat 52 1023 m ≤ (m.log2 + 1023 + 1) * 2 ^ 52 :=
        FloatFormat.ofNat_le 52 (by decide)
    _ ≤ (63 + 1023 + 1) * 2 ^ 52 := Nat.mul_le_mul_right _ (by omega)
    _ < 0x7ff0000000000000 := by decide

theorem F64.isFloat64_ofInt {n : Int} (h : n.natAbs < 2 ^ 64) :
  IsFloat64 (F64.ofInt n) (decide (n < 0)) (ofNat 52 1023 n.natAbs)
  := by
  have hm := FloatFormat.ofNat_lt_infinity h
  have hb : IsFloat64 _ (decide (n < 0)) _ := IsFloat64.of_bits (Nat.lt_trans hm (by decide))
  simpa [signedBits, F64.ofInt] using hb

theorem F64.nan_ofInt {n : Int} (h : n.natAbs < 2 ^ 64) :
  Value.nan64 (F64.ofInt n).bits = false
  := by
  have hm := FloatFormat.ofNat_lt_infinity h
  rw [Bool.eq_false_iff, Ne, (F64.isFloat64_ofInt h).nan]
  omega

/-- Integers keep their order as floats, though different integers may meet. -/
theorem F64.order_ofInt_mono {a b : Int} (ha : a.natAbs < 2 ^ 64) (hb : b.natAbs < 2 ^ 64)
    (h : a ≤ b) :
  Value.floatOrder 64 (F64.ofInt a).bits.toNat ≤ Value.floatOrder 64 (F64.ofInt b).bits.toNat
  := by
  rw [(F64.isFloat64_ofInt ha).order, (F64.isFloat64_ofInt hb).order]
  have hmono : ∀ {m n : Nat}, m ≤ n →
      ofNat 52 1023 m ≤ ofNat 52 1023 n :=
    fun hmn => FloatFormat.ofNat_mono 52 (by decide) hmn
  by_cases hna : a < 0
  · by_cases hnb : b < 0
    · have := @hmono b.natAbs a.natAbs (by omega)
      simp only [signedOrder, hna, hnb, decide_true, if_true]
      omega
    · simp only [signedOrder, hna, hnb, decide_true, decide_false, if_true]
      simp only [Bool.false_eq_true, if_false]
      omega
  · have hnb : ¬b < 0 := by omega
    have := @hmono a.natAbs b.natAbs (by omega)
    simp only [signedOrder, hna, hnb, decide_false, Bool.false_eq_true, if_false]
    omega

/-! ### 32-bit floats -/

variable (x : F32)

/-- The sign of a 32-bit float. -/
def F32.negative : Bool := decide (2 ^ 31 ≤ x.bits.toNat)

/-- The magnitude of a 32-bit float. -/
def F32.magnitude : Nat := x.bits.toNat % 2 ^ 31

theorem F32.order_eq :
  floatOrder 32 x.bits.toNat = signedOrder x.negative x.magnitude
  := by
  have hlt : x.bits.toNat < 2 ^ 32 := x.bits.toNat_lt
  unfold floatOrder signedOrder F32.negative F32.magnitude
  by_cases h : x.bits.toNat < 2 ^ 31
  · rw [if_pos h, if_neg (by simp; omega), Nat.mod_eq_of_lt h]
  · rw [if_neg h, if_pos (by simp; omega)]
    omega

theorem F32.widenMagnitude_lt {a b : Nat} (hab : a < b) (hb : b ≤ 0x7f800000) :
  F32.widenMagnitude a < F32.widenMagnitude b
  := by
  have hmono := fun {m n : Nat} (h : m < n) =>
    @FloatFormat.widen_lt_widen 23 52 873 (by decide) m n h
  have ha : F32.widenMagnitude a = widen 23 52 873 a := by
    rw [F32.widenMagnitude, if_neg (by omega), if_neg (by omega)]
  rw [ha]
  by_cases h : b = 0x7f800000
  · have htop : widen 23 52 873 0x7f800000 < 0x7ff0000000000000 := by decide
    rw [F32.widenMagnitude, if_neg (by omega), if_pos h]
    apply Nat.lt_trans _ htop
    apply hmono
    omega
  · rw [F32.widenMagnitude, if_neg (by omega), if_neg h]
    apply hmono hab

theorem F32.widenMagnitude_le {m : Nat} (h : m ≤ 0x7f800000) :
  widenMagnitude m ≤ 0x7ff0000000000000
  := by
  obtain rfl | hlt := Nat.eq_or_lt_of_le h
  · decide
  · exact (F32.widenMagnitude_lt hlt (Nat.le_refl _)).le

theorem F32.lt_widenMagnitude {m : Nat} (h : 0x7f800000 < m) :
  0x7ff0000000000000 < widenMagnitude m
  := by
  rw [widenMagnitude, if_pos h]
  apply Nat.lt_of_lt_of_le _ Nat.left_le_or
  omega

theorem F32.widenMagnitude_lt_two_pow {m : Nat} (h : m < 2 ^ 31) :
  widenMagnitude m < 2 ^ 63
  := by
  by_cases hm : 0x7f800000 < m
  · rw [widenMagnitude, if_pos hm]
    apply Nat.or_lt_two_pow _ (by decide)
    omega
  · have := F32.widenMagnitude_le (Nat.le_of_not_lt hm)
    omega

theorem F32.isFloat64_toF64 :
  IsFloat64 x.toF64 x.negative (widenMagnitude x.magnitude)
  := by
  have hm : widenMagnitude x.magnitude < 2 ^ 63 :=
    F32.widenMagnitude_lt_two_pow (Nat.mod_lt _ (by decide))
  have hx : x.toF64 =
      ⟨UInt64.ofNat (signedBits 64 x.negative (widenMagnitude x.magnitude))⟩ := by
    have hlt : x.bits.toNat < 2 ^ 32 := x.bits.toNat_lt
    unfold F32.toF64 signedBits F32.negative F32.magnitude
    by_cases h : x.bits.toNat < 2 ^ 31
    · rw [if_pos h, if_neg (by simp; omega), Nat.mod_eq_of_lt h, Nat.zero_add]
    · have hmod : x.bits.toNat % 2 ^ 31 = x.bits.toNat - 2 ^ 31 := by omega
      rw [if_neg h, if_pos (by simp; omega), hmod]
  rw [hx]
  apply IsFloat64.of_bits hm

/-- Widening keeps the NaNs apart. -/
theorem F32.nan_toF64 :
  nan64 x.toF64.bits = nan32 x.bits
  := by
  rw [Bool.eq_iff_iff, x.isFloat64_toF64.nan, nan32_iff]
  change _ ↔ 0x7f800000 < x.magnitude
  constructor
  · intro h
    by_contra hle
    have := F32.widenMagnitude_le (Nat.le_of_not_lt hle)
    omega
  · apply F32.lt_widenMagnitude

/-- Widening keeps the order of the floats that are no NaNs, strictly. -/
theorem F32.order_toF64_lt_iff {x y : F32} (hx : nan32 x.bits = false) (hy : nan32 y.bits = false) :
  floatOrder 64 x.toF64.bits.toNat < floatOrder 64 y.toF64.bits.toNat ↔
    floatOrder 32 x.bits.toNat < floatOrder 32 y.bits.toNat
  := by
  have bound : ∀ {z : F32}, nan32 z.bits = false → z.magnitude ≤ 0x7f800000 := by
    intro z hz
    rw [Bool.eq_false_iff, Ne, nan32_iff] at hz
    exact Nat.le_of_not_lt hz
  have hzero : widenMagnitude 0 = 0 := by decide
  have hbx := bound hx
  have hby := bound hy
  rw [x.isFloat64_toF64.order, y.isFloat64_toF64.order, x.order_eq, y.order_eq]
  have hxy := fun h => F32.widenMagnitude_lt (a := x.magnitude) (b := y.magnitude) h hby
  have hyx := fun h => F32.widenMagnitude_lt (a := y.magnitude) (b := x.magnitude) h hbx
  have hx0 := fun h => F32.widenMagnitude_lt (a := 0) (b := x.magnitude) h hbx
  have hy0 := fun h => F32.widenMagnitude_lt (a := 0) (b := y.magnitude) h hby
  have heq : x.magnitude = y.magnitude →
      widenMagnitude x.magnitude = widenMagnitude y.magnitude := fun h => by rw [h]
  have hzx : x.magnitude = 0 → widenMagnitude x.magnitude = 0 := fun h => by rw [h, hzero]
  have hzy : y.magnitude = 0 → widenMagnitude y.magnitude = 0 := fun h => by rw [h, hzero]
  rw [hzero] at hx0 hy0
  cases x.negative <;> cases y.negative <;>
    simp only [signedOrder, Bool.false_eq_true, if_true, if_false] <;> omega

end CratonBolt
