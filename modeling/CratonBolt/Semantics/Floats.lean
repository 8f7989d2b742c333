import CratonBolt.Library.FloatFormat
import CratonBolt.Plan.Types

/-!
# Conversions into floats

The conversions of `as f32` and `as f64`: an integer is rounded to the nearest float, ties to
even, and a 32-bit float is a 64-bit float of the same value.
-/

namespace CratonBolt

/-- The 32-bit float nearest to an integer. -/
def F32.ofInt (n : Int) : F32 :=
  ⟨UInt32.ofNat ((if n < 0 then 2 ^ 31 else 0) + FloatFormat.ofNat 23 127 n.natAbs)⟩

/-- The 64-bit float nearest to an integer. -/
def F64.ofInt (n : Int) : F64 :=
  ⟨UInt64.ofNat ((if n < 0 then 2 ^ 63 else 0) + FloatFormat.ofNat 52 1023 n.natAbs)⟩

/-- The magnitude of a 32-bit float as the magnitude of a 64-bit one; a NaN becomes quiet. -/
def F32.widenMagnitude (m : Nat) : Nat :=
  if 0x7f800000 < m then (m * 2 ^ 29 + 1792 * 2 ^ 52) ||| 2 ^ 51
  else if m = 0x7f800000 then 0x7ff0000000000000
  else FloatFormat.widen 23 52 873 m

/-- A 32-bit float at 64 bits. -/
def F32.toF64 (x : F32) : F64 :=
  ⟨UInt64.ofNat (
    if x.bits.toNat < 2 ^ 31 then F32.widenMagnitude x.bits.toNat
    else 2 ^ 63 + F32.widenMagnitude (x.bits.toNat - 2 ^ 31))⟩

-- 2^24 + 1 lies between two 32-bit floats; -1 and the smallest subnormal keep their values
example : F32.ofInt 16777217 = ⟨0x4b800000⟩ := by decide +kernel
example : F32.toF64 ⟨0xbf800000⟩ = ⟨0xbff0000000000000⟩ := by decide +kernel
example : F32.toF64 ⟨1⟩ = ⟨0x36a0000000000000⟩ := by decide +kernel

end CratonBolt
