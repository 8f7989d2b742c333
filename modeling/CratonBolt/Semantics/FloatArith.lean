import CratonBolt.Semantics.Value

/-!
# Narrowing of floats

The conversion `as f32` of a 64-bit float: the nearest 32-bit float, ties to even.
-/

namespace CratonBolt

open Float.Model (Format UnpackedFloat)

/-- The 32-bit float nearest to an unpacked one. -/
def narrowUnpacked : UnpackedFloat → UnpackedFloat
  | .finite sign mantissa exponent _ => UnpackedFloat.round Format.binary32 sign mantissa exponent
  | x => x

/-- The 32-bit float nearest to a 64-bit one. -/
def F64.toF32 (x : F64) : F32 :=
  ⟨(Float32.Model.pack (narrowUnpacked
    (UnpackedFloat.unpack Format.binary64 x.bits.toBitVec))).toBits⟩

-- 1.5 keeps its value, and 1 + 2^-24 lies half way between 1 and the next float
example : F64.toF32 ⟨0x3ff8000000000000⟩ = ⟨0x3fc00000⟩ := by decide +kernel
example : F64.toF32 ⟨0x3ff0000010000000⟩ = ⟨0x3f800000⟩ := by decide +kernel

end CratonBolt
