import Mathlib.Data.Int.Bitwise
import Mathlib.Tactic.Linarith
import Mathlib.Tactic.LinearCombination
import Mathlib.Tactic.Ring

/-!
# Numbers of two words

A number of `2 w` bits as two words of `w` bits, and arithmetic on it with the instructions of a
machine that has only words: addition and subtraction with a carry, the schoolbook product without
its upper half, and comparison of the upper words as signed and the lower ones as unsigned numbers.
-/

namespace WordPair

variable {w : Nat}

/-- The number of two words. -/
def join (hi lo : BitVec w) : BitVec (w + w) := hi ++ lo

theorem toNat_join (hi lo : BitVec w) :
  (join hi lo).toNat = hi.toNat * 2 ^ w + lo.toNat
  := by
  rw [join, BitVec.toNat_append, ← Nat.shiftLeft_add_eq_or_of_lt lo.isLt, Nat.shiftLeft_eq]

/-- The number of its two halves. -/
theorem join_halves (x : BitVec (w + w)) :
  join (x.extractLsb' w w) (x.extractLsb' 0 w) = x
  := by
  apply BitVec.eq_of_toNat_eq
  have hlt : x.toNat / 2 ^ w < 2 ^ w := by
    rw [Nat.div_lt_iff_lt_mul (Nat.two_pow_pos w), ← Nat.pow_add]
    exact x.isLt
  rw [toNat_join, BitVec.extractLsb'_toNat, BitVec.extractLsb'_toNat, Nat.shiftRight_eq_div_pow,
    Nat.shiftRight_zero, Nat.mod_eq_of_lt hlt, Nat.div_add_mod']

/-- A number with an upper part that may be too long for a word, cut to two words. -/
theorem mod_of_words (x : Nat) (lo : BitVec w) :
  (x * 2 ^ w + lo.toNat) % 2 ^ (w + w) = x % 2 ^ w * 2 ^ w + lo.toNat
  := by
  have hlo := lo.isLt
  have hpos : 0 < 2 ^ w := Nat.two_pow_pos w
  have hmod : (x * 2 ^ w + lo.toNat) % 2 ^ w = lo.toNat := by
    rw [Nat.mul_add_mod_self_right, Nat.mod_eq_of_lt hlo]
  have hdiv : (x * 2 ^ w + lo.toNat) / 2 ^ w = x := by
    rw [Nat.mul_comm, Nat.mul_add_div hpos, Nat.div_eq_of_lt hlo, Nat.add_zero]
  rw [Nat.pow_add, Nat.mod_mul, hmod, hdiv]
  ring

theorem toInt_join (hi lo : BitVec w) (hw : 0 < w) :
  (join hi lo).toInt = hi.toInt * 2 ^ w + lo.toNat
  := by
  have hlo := lo.isLt
  have hhi := hi.isLt
  have hpos : 0 < 2 ^ w := Nat.two_pow_pos w
  have hsplit : (2 : Nat) ^ (w + w) = 2 ^ w * 2 ^ w := Nat.pow_add ..
  rw [BitVec.toInt_eq_toNat_cond, BitVec.toInt_eq_toNat_cond, toNat_join, hsplit]
  by_cases h : 2 * hi.toNat < 2 ^ w
  · obtain ⟨half, hhalf⟩ : ∃ half, 2 ^ w = 2 * half :=
      ⟨2 ^ (w - 1), (Nat.two_pow_pred_mul_two hw).symm.trans (Nat.mul_comm ..)⟩
    have hlt : 2 * (hi.toNat * 2 ^ w + lo.toNat) < 2 ^ w * 2 ^ w := by
      have : hi.toNat + 1 ≤ half := by omega
      calc 2 * (hi.toNat * 2 ^ w + lo.toNat) < 2 * ((hi.toNat + 1) * 2 ^ w) := by linarith
        _ ≤ 2 * (half * 2 ^ w) := by gcongr
        _ = 2 ^ w * 2 ^ w := by rw [← Nat.mul_assoc, ← hhalf]
    rw [if_pos hlt, if_pos h]
    push_cast
    rfl
  · have hge : ¬2 * (hi.toNat * 2 ^ w + lo.toNat) < 2 ^ w * 2 ^ w := by
      have : 2 ^ w * 2 ^ w ≤ 2 * hi.toNat * 2 ^ w := Nat.mul_le_mul_right _ (by omega)
      linarith
    rw [if_neg hge, if_neg h]
    push_cast
    ring

/-! ### Sums and differences -/

/-- The carry out of a sum of two words. -/
def carry (a b : BitVec w) : BitVec w := if 2 ^ w ≤ a.toNat + b.toNat then 1 else 0

/-- The borrow of a difference of two words. -/
def borrow (a b : BitVec w) : BitVec w := if a.toNat < b.toNat then 1 else 0

/-- A sum of two words with its carry. -/
theorem toNat_add_carry (hw : 0 < w) (a b : BitVec w) :
  (carry a b).toNat * 2 ^ w + (a + b).toNat = a.toNat + b.toNat
  := by
  have ha := a.isLt
  have hb := b.isLt
  have hone : (1 : BitVec w).toNat = 1 := by
    rw [BitVec.ofNat_eq_ofNat, BitVec.toNat_ofNat, Nat.mod_eq_of_lt (Nat.one_lt_two_pow hw.ne')]
  rw [carry, BitVec.toNat_add]
  split_ifs with h
  · rw [hone, Nat.mod_eq_sub_mod h, Nat.mod_eq_of_lt (by omega)]
    omega
  · rw [Nat.mod_eq_of_lt (by omega)]
    simp

theorem join_add (hw : 0 < w) (ah al bh bl : BitVec w) :
  join (ah + bh + carry al bl) (al + bl) = join ah al + join bh bl
  := by
  apply BitVec.eq_of_toNat_eq
  have hlow := toNat_add_carry hw al bl
  have hsum : (join ah al).toNat + (join bh bl).toNat =
      (ah.toNat + bh.toNat + (carry al bl).toNat) * 2 ^ w + (al + bl).toNat := by
    rw [toNat_join, toNat_join]
    linarith
  rw [BitVec.toNat_add (join ah al), hsum, mod_of_words, toNat_join]
  congr 2
  simp [BitVec.toNat_add, Nat.add_mod]

theorem carry_sub_self (a b : BitVec w) :
  carry (a - b) b = borrow a b
  := by
  have ha := a.isLt
  have hb := b.isLt
  rw [carry, borrow, BitVec.toNat_sub]
  by_cases h : a.toNat < b.toNat
  · rw [if_pos h, if_pos]
    rw [Nat.mod_eq_of_lt (by omega)]
    omega
  · rw [if_neg h, if_neg]
    rw [Nat.mod_eq_sub_mod (by omega), Nat.mod_eq_of_lt (by omega)]
    omega

theorem join_sub (hw : 0 < w) (ah al bh bl : BitVec w) :
  join (ah - bh - borrow al bl) (al - bl) = join ah al - join bh bl
  := by
  have h := join_add hw (ah - bh - borrow al bl) (al - bl) bh bl
  have hhi : ah - bh - borrow al bl + bh + borrow al bl = ah := by
    rw [BitVec.add_assoc, BitVec.add_comm bh, ← BitVec.add_assoc, BitVec.sub_add_cancel,
      BitVec.sub_add_cancel]
  rw [carry_sub_self, hhi, BitVec.sub_add_cancel] at h
  rw [h, BitVec.add_sub_cancel]

/-! ### Products -/

/-- The upper word of the product of two words. -/
def mulHi (a b : BitVec w) : BitVec w := BitVec.ofNat w (a.toNat * b.toNat / 2 ^ w)

theorem join_mul (ah al bh bl : BitVec w) :
  join (mulHi al bl + al * bh + ah * bl) (al * bl) = join ah al * join bh bl
  := by
  apply BitVec.eq_of_toNat_eq
  have hlow : al.toNat * bl.toNat = al.toNat * bl.toNat / 2 ^ w * 2 ^ w + (al * bl).toNat := by
    rw [BitVec.toNat_mul, Nat.div_add_mod']
  have hprod : (join ah al).toNat * (join bh bl).toNat =
      ah.toNat * bh.toNat * 2 ^ (w + w) + ((al.toNat * bl.toNat / 2 ^ w + al.toNat * bh.toNat +
        ah.toNat * bl.toNat) * 2 ^ w + (al * bl).toNat) := by
    rw [toNat_join, toNat_join, Nat.pow_add]
    linear_combination hlow
  rw [BitVec.toNat_mul (join ah al), hprod, Nat.mul_add_mod_self_right, mod_of_words, toNat_join]
  congr 2
  simp [mulHi, BitVec.toNat_add, BitVec.toNat_mul, Nat.add_mod]

/-! ### Signs and order -/

/-- A word with its sign in every bit of the upper word. -/
theorem toInt_join_sign (hw : 0 < w) (x : BitVec w) :
  (join (x.sshiftRight (w - 1)) x).toInt = x.toInt
  := by
  have hlo := x.isLt
  have hhalf : (2 : Int) ^ (w - 1) * 2 = 2 ^ w := by
    rw [← pow_succ, Nat.sub_add_cancel hw]
  have hpos : (0 : Int) < 2 ^ (w - 1) := by positivity
  rw [toInt_join _ _ hw, BitVec.toInt_sshiftRight, Int.shiftRight_eq_div_pow,
    BitVec.toInt_eq_toNat_cond]
  split_ifs with h
  · rw [Int.ediv_eq_zero_of_lt (by omega) (by push_cast; zify at h; omega)]
    simp
  · have hq : ((x.toNat : Int) - (2 ^ w : Nat)) / (2 ^ (w - 1) : Nat) = -1 := by
      rw [Int.ediv_eq_iff_of_pos (by positivity)]
      push_cast
      zify at h hlo
      constructor <;> linarith
    rw [hq]
    push_cast
    ring

/-- Comparison of the upper words, and of the lower ones when the upper ones agree. -/
theorem join_slt (hw : 0 < w) (ah al bh bl : BitVec w) :
  (join ah al).toInt < (join bh bl).toInt ↔ ah.toInt < bh.toInt ∨ ah = bh ∧ al.toNat < bl.toNat
  := by
  have ha := al.isLt
  have hb := bl.isLt
  have hpos : (0 : Int) < 2 ^ w := by positivity
  rw [toInt_join _ _ hw, toInt_join _ _ hw]
  obtain hlt | heq | hgt := lt_trichotomy ah.toInt bh.toInt
  · refine iff_of_true ?_ (.inl hlt)
    have : (ah.toInt + 1) * 2 ^ w ≤ bh.toInt * 2 ^ w := by gcongr; omega
    zify at ha
    linarith
  · have heq' := BitVec.eq_of_toInt_eq heq
    simp [heq']
  · refine iff_of_false ?_ ?_
    · have : (bh.toInt + 1) * 2 ^ w ≤ ah.toInt * 2 ^ w := by gcongr; omega
      zify at hb
      linarith
    · rintro (h | ⟨h, -⟩)
      · omega
      · rw [h] at hgt
        omega

theorem join_sle (hw : 0 < w) (ah al bh bl : BitVec w) :
  (join ah al).toInt ≤ (join bh bl).toInt ↔ ah.toInt < bh.toInt ∨ ah = bh ∧ al.toNat ≤ bl.toNat
  := by
  rw [← not_lt, join_slt hw]
  have hne : ah = bh ↔ ah.toInt = bh.toInt := BitVec.toInt_inj.symm
  rw [eq_comm, hne]
  omega

theorem join_inj {ah al bh bl : BitVec w} :
  join ah al = join bh bl ↔ ah = bh ∧ al = bl
  := by
  refine ⟨fun h => ?_, fun ⟨hh, hl⟩ => by rw [hh, hl]⟩
  have hnat := congrArg BitVec.toNat h
  rw [toNat_join, toNat_join] at hnat
  have hlo := congrArg (· % 2 ^ w) hnat
  have hhi := congrArg (· / 2 ^ w) hnat
  simp only [Nat.mul_add_mod_self_right, Nat.mod_eq_of_lt (BitVec.isLt _)] at hlo
  simp only [Nat.mul_comm _ (2 ^ w), Nat.mul_add_div (Nat.two_pow_pos w),
    Nat.div_eq_of_lt (BitVec.isLt _), Nat.add_zero] at hhi
  exact ⟨BitVec.eq_of_toNat_eq hhi, BitVec.eq_of_toNat_eq hlo⟩

end WordPair
