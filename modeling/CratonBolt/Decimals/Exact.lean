import CratonBolt.Decimals.Operations

/-!
# Exactness of decimal operations

A sum, difference or product of decimals is to be the exact number, with no more digits than its
type declares, and a comparison is to agree with the order of the numbers. Products are exact. Sums
and differences of one scale are too, but the declared precision of a sum does not count the digits
that the operand of the smaller scale gains when it is rescaled; and a comparison rescales without
a check that the digits still fit in 128 bits.
-/

namespace CratonBolt.Decimals

open WordPair

variable {c c' : Codegen} {v lv rv : Value} {l r : DataType} {p₁ p₂ : UInt8} {s₁ s₂ : Int8}

/-! ### Numbers and their digits -/

/-- The number that a value denotes: its digits at its scale. -/
def Value.denotes (v : Value) (ρ : Regs) : ℚ :=
  v.content ρ * (10 : ℚ) ^ (-((scaleOf v.dtype).getD 0).toInt)

/-- The largest magnitude of a value of the given type. -/
def maxMagnitude : DataType → Nat
  | .int64 => 2 ^ 63
  | .decimal128 p _ => 10 ^ p.toNat - 1
  | _ => 2 ^ 31

/-- The digits of a value are within its declared precision. -/
def Value.Within (v : Value) (ρ : Regs) : Prop := (v.content ρ).natAbs ≤ maxMagnitude v.dtype

/-- The sum, difference or product of two numbers. -/
def exactResult (op : BinaryOp) (x y : ℚ) : ℚ :=
  match op with
  | .add => x + y
  | .sub => x - y
  | _ => x * y

/-- The precision of the result is cut at 38. -/
def clamped (op : BinaryOp) (l r : DataType) : Bool :=
  match intAsDecimal l, intAsDecimal r with
  | some (p₁, _), some (p₂, _) =>
    match op with
    | .mul => 38 < p₁.toNat + p₂.toNat
    | _ => 38 < max p₁.toNat p₂.toNat + 1
  | _, _ => false

/--
Wherever the operation is emitted, on operands within their precision, its result is the exact
number and within its own precision.
-/
def Exact (op : BinaryOp) (l r : DataType) : Prop :=
  ∀ c lv rv v c', c.Holds lv → c.Holds rv → lv.dtype = l → rv.dtype = r →
    emitBinary op lv rv c = .ok v c' → ∀ ρ, lv.Within ρ → rv.Within ρ →
      v.denotes (run (added c c') ρ) = exactResult op (lv.denotes ρ) (rv.denotes ρ) ∧
        v.Within (run (added c c') ρ)

/-- Wherever a comparison is emitted, on operands within their precision, it orders the numbers. -/
def Agrees (l r : DataType) : Prop :=
  ∀ op, op.isComparison = true → ∀ c lv rv v c', c.Holds lv → c.Holds rv → lv.dtype = l →
    rv.dtype = r → emitBinary op lv rv c = .ok v c' → ∀ ρ, lv.Within ρ → rv.Within ρ →
      v.content (run (added c c') ρ) = if ordered op (lv.denotes ρ) (rv.denotes ρ) then 1 else 0

/-- Decimal arithmetic on two types is exact and typed wide enough, and comparisons are right. -/
structure DecimalsExact (l r : DataType) : Prop where
  arithmetic : ∀ op ∈ [BinaryOp.add, .sub, .mul], clamped op l r = false → Exact op l r
  comparison : Agrees l r

/-! ### Types for which they are -/

/--
The largest operands, brought to the larger scale, have a sum of no more digits than the result
declares, unless the scales are too far apart or the precision is cut.
-/
def sumFits (l r : DataType) : Bool :=
  match intAsDecimal l, intAsDecimal r with
  | some (p₁, s₁), some (p₂, s₂) =>
    let s := maxScale s₁ s₂
    clamped .add l r || 38 < shift s₁ s || 38 < shift s₂ s ||
      maxMagnitude l * 10 ^ shift s₁ s + maxMagnitude r * 10 ^ shift s₂ s <
        10 ^ (max p₁.toNat p₂.toNat + 1)
  | _, _ => true

/-- An operand that is rescaled stays below `2 ^ 127`. -/
def rescaleFits (t : DataType) (k : Nat) : Bool := k = 0 || maxMagnitude t * 10 ^ k < 2 ^ 127

/-- No rescaled operand of a comparison leaves the 128 bits. -/
def comparisonFits (l r : DataType) : Bool :=
  match scaleOf l, scaleOf r with
  | some s₁, some s₂ =>
    let s := maxScale s₁ s₂
    38 < shift s₁ s || 38 < shift s₂ s ||
      (rescaleFits l (shift s₁ s) && rescaleFits r (shift s₂ s))
  | _, _ => true

/-! ### From digits to numbers -/

/-- A number at a larger scale. -/
theorem zpow_shift {s t : Int8} (h : s.toInt ≤ t.toInt) :
  (10 : ℚ) ^ (-s.toInt) = 10 ^ shift s t * 10 ^ (-t.toInt)
  := by
  have hcast : (shift s t : Int) = t.toInt - s.toInt := Int.toNat_of_nonneg (by omega)
  rw [← zpow_natCast, hcast, ← zpow_add₀ (by norm_num)]
  congr 1
  omega

theorem toInt_ofInt_of_natAbs_lt {n : Int} (h : n.natAbs < 2 ^ 127) :
  (BitVec.ofInt (64 + 64) n).toInt = n
  := by
  rw [BitVec.toInt_ofInt_eq_self (by norm_num)] <;> omega

/-- The scale of the result. -/
def resultScale (op : BinaryOp) (s₁ s₂ : Int8) : Int :=
  match op with
  | .mul => s₁.toInt + s₂.toInt
  | _ => (maxScale s₁ s₂).toInt

/-- The precision of the result, before it is cut. -/
def resultPrecision (op : BinaryOp) (p₁ p₂ : UInt8) : Nat :=
  match op with
  | .mul => p₁.toNat + p₂.toNat
  | _ => max p₁.toNat p₂.toNat + 1

theorem maxScale_eq (s₁ s₂ : Int8) :
  maxScale s₁ s₂ = if s₁.toInt ≤ s₂.toInt then s₂ else s₁
  := by
  rw [maxScale]
  split_ifs with h₁ h₂ h₂ <;> rw [Int8.lt_iff_toInt_lt] at h₁
  · omega
  · exact Int8.toInt_inj.mp (by omega)

/-- The type of a result whose precision is not cut; a product's scale may be too large. -/
theorem arithResult_cases {op : BinaryOp} (hop : op ∈ [BinaryOp.add, .sub, .mul])
    (hdec : (l.isDecimal || r.isDecimal) = true) (hl : intAsDecimal l = some (p₁, s₁))
    (hr : intAsDecimal r = some (p₂, s₂)) (hclamp : clamped op l r = false) :
  (op = .mul ∧ ∃ e, decimal128ArithResult op l r = some (.error e)) ∨
    ∃ p s, decimal128ArithResult op l r = some (.ok (.decimal128 p s)) ∧
      p.toNat = resultPrecision op p₁ p₂ ∧ p.toNat ≤ 38 ∧ s.toInt = resultScale op s₁ s₂
  := by
  have hnone : ¬(!l.isDecimal && !r.isDecimal) = true := by
    simpa [Bool.or_eq_true_iff, imp_iff_not_or] using hdec
  have hofNat {n : Nat} (hn : n ≤ 38) : (UInt8.ofNat (min n 38)).toNat = n := by
    rw [Nat.min_eq_left hn, UInt8.toNat_ofNat', Nat.mod_eq_of_lt (by omega)]
  have hprecision : resultPrecision op p₁ p₂ ≤ 38 := by
    cases op <;> simpa [clamped, hl, hr, resultPrecision] using hclamp
  have hp := hofNat hprecision
  simp only [List.mem_cons, List.not_mem_nil, or_false] at hop
  rcases hop with rfl | rfl | rfl
  · refine .inr ⟨_, maxScale s₁ s₂, ?_, hp, hp.trans_le hprecision, rfl⟩
    rw [decimal128ArithResult, if_neg hnone, hl, hr, maxScale_eq]
    rfl
  · refine .inr ⟨_, maxScale s₁ s₂, ?_, hp, hp.trans_le hprecision, rfl⟩
    rw [decimal128ArithResult, if_neg hnone, hl, hr, maxScale_eq]
    rfl
  · rw [decimal128ArithResult, if_neg hnone, hl, hr]
    by_cases hs : -128 ≤ s₁.toInt + s₂.toInt ∧ s₁.toInt + s₂.toInt ≤ 127
    · refine .inr ⟨_, Int8.ofInt (s₁.toInt + s₂.toInt), if_pos hs, hp, hp.trans_le hprecision, ?_⟩
      exact Int8.toInt_ofInt_of_le (by omega) (by omega)
    · exact .inl ⟨rfl, _, if_neg hs⟩

/-- The numbers of the operands from their digits at the scales of an operation. -/
theorem exactResult_denotes {op : BinaryOp} (hop : op ∈ [BinaryOp.add, .sub, .mul])
    (hls : scaleOf lv.dtype = some s₁) (hrs : scaleOf rv.dtype = some s₂) (ρ : Regs) :
  exactResult op (lv.denotes ρ) (rv.denotes ρ) = combine op
    (lv.content ρ * 10 ^ shift s₁ (operandScales op s₁ s₂).1)
    (rv.content ρ * 10 ^ shift s₂ (operandScales op s₁ s₂).2) * (10 : ℚ) ^ (-resultScale op s₁ s₂)
  := by
  have hle := toInt_le_maxScale s₁ s₂
  rw [Value.denotes, Value.denotes, hls, hrs, Option.getD_some, Option.getD_some]
  simp only [List.mem_cons, List.not_mem_nil, or_false] at hop
  rcases hop with rfl | rfl | rfl
  · rw [zpow_shift hle.1, zpow_shift hle.2]
    simp only [exactResult, combine, operandScales, resultScale]
    push_cast
    ring
  · rw [zpow_shift hle.1, zpow_shift hle.2]
    simp only [exactResult, combine, operandScales, resultScale]
    push_cast
    ring
  · have hz (s : Int8) : shift s s = 0 := by simp [shift]
    simp only [exactResult, combine, operandScales, resultScale, hz]
    rw [neg_add, zpow_add₀ (by norm_num)]
    push_cast
    ring

/-! ### Arithmetic -/

/-- Digits within the precision of the result make an operation exact. -/
theorem exact_of_bound {op : BinaryOp} (hop : op ∈ [BinaryOp.add, .sub, .mul])
    (hdec : (l.isDecimal || r.isDecimal) = true) (hl : intAsDecimal l = some (p₁, s₁))
    (hr : intAsDecimal r = some (p₂, s₂)) (hclamp : clamped op l r = false)
    (hbound : shift s₁ (operandScales op s₁ s₂).1 ≤ 38 → shift s₂ (operandScales op s₁ s₂).2 ≤ 38 →
      ∀ x y : Int, x.natAbs ≤ maxMagnitude l → y.natAbs ≤ maxMagnitude r →
        (combine op (x * 10 ^ shift s₁ (operandScales op s₁ s₂).1)
          (y * 10 ^ shift s₂ (operandScales op s₁ s₂).2)).natAbs < 10 ^ resultPrecision op p₁ p₂) :
  Exact op l r
  := by
  rintro c lv rv v c' hlv hrv rfl rfl hv ρ hlw hrw
  have hls : scaleOf lv.dtype = some s₁ := by rw [scaleOf_eq, hl]; rfl
  have hrs : scaleOf rv.dtype = some s₂ := by rw [scaleOf_eq, hr]; rfl
  obtain ⟨-, e, he⟩ | ⟨p, s, ht, hp, hp38, hs⟩ := arithResult_cases hop hdec hl hr hclamp
  · obtain ⟨e', c₂, he'⟩ := emitBinary_error hop hlv hrv hls hrs he
    simp [he'] at hv
  · have hspec := emitBinary_spec hop hlv hrv hls hrs ht
    split_ifs at hspec with hshift
    · obtain ⟨v', c₂, hv', htype, hy⟩ := hspec
      obtain ⟨rfl, rfl⟩ : v' = v ∧ c₂ = c' := by simpa [hv'] using hv
      have hlt := hbound hshift.1 hshift.2 _ _ hlw hrw
      have hle : (10 : Nat) ^ resultPrecision op p₁ p₂ ≤ 10 ^ 38 :=
        Nat.pow_le_pow_right (by norm_num) (hp ▸ hp38)
      have hcontent := hy.content ρ
      rw [toInt_ofInt_of_natAbs_lt (hlt.trans (hle.trans_lt (by norm_num)))] at hcontent
      constructor
      · rw [exactResult_denotes hop hls hrs, Value.denotes, hcontent, htype, ← hs]
        rfl
      · rw [Value.Within, hcontent, htype, maxMagnitude, hp]
        omega
    · obtain ⟨e, c₂, he⟩ := hspec
      simp [he] at hv

theorem maxMagnitude_lt {t : DataType} {p : UInt8} {s : Int8} (h : intAsDecimal t = some (p, s)) :
  maxMagnitude t < 10 ^ p.toNat
  := by
  cases t with
  | decimal128 p' s' =>
    obtain ⟨rfl, rfl⟩ : p' = p ∧ s' = s := Prod.mk.inj (Option.some.inj h)
    exact Nat.sub_lt (Nat.pow_pos (by norm_num)) one_pos
  | int32 | int64 | date32 =>
    obtain ⟨rfl, rfl⟩ := Prod.mk.inj (Option.some.inj h)
    decide
  | _ => cases h

/-- The digits of a product are at most those of both factors. -/
theorem exact_mul (hdec : (l.isDecimal || r.isDecimal) = true) (hl : intAsDecimal l = some (p₁, s₁))
    (hr : intAsDecimal r = some (p₂, s₂)) (hclamp : clamped .mul l r = false) :
  Exact .mul l r
  := by
  apply exact_of_bound (by simp) hdec hl hr hclamp
  intro _ _ x y hx hy
  have hz (s : Int8) : shift s s = 0 := by simp [shift]
  simp only [operandScales, hz, pow_zero, mul_one, combine, resultPrecision, Int.natAbs_mul,
    Nat.pow_add]
  have hx' := hx.trans_lt (maxMagnitude_lt hl)
  have hy' := hy.trans_lt (maxMagnitude_lt hr)
  exact Nat.mul_lt_mul'' hx' hy'

theorem natAbs_combine_le {op : BinaryOp} (hop : op = .add ∨ op = .sub) (x y : Int) :
  (combine op x y).natAbs ≤ x.natAbs + y.natAbs
  := by
  rcases hop with rfl | rfl <;> simp only [combine] <;> omega

/-! ### Operands of any digits -/

/-- The lower register of a number of the given type. -/
def loadLo (t : DataType) (x : Int) : BitVec 64 :=
  match t with
  | .int64 => BitVec.ofInt 64 x
  | .decimal128 _ _ => (BitVec.ofInt (64 + 64) x).extractLsb' 0 64
  | _ => (BitVec.ofInt 32 x).setWidth 64

/-- Registers 0 to 3 with two numbers of the given types. -/
def load (l r : DataType) (x y : Int) : Regs
  | 0 => loadLo l x
  | 1 => (BitVec.ofInt (64 + 64) x).extractLsb' 64 64
  | 2 => loadLo r y
  | _ => (BitVec.ofInt (64 + 64) y).extractLsb' 64 64

/-- The numbers that fit in the registers of a type. -/
def Representable (t : DataType) (x : Int) : Prop :=
  match t with
  | .int64 => -2 ^ 63 ≤ x ∧ x < 2 ^ 63
  | .decimal128 _ _ => -2 ^ 127 ≤ x ∧ x < 2 ^ 127
  | _ => -2 ^ 31 ≤ x ∧ x < 2 ^ 31

/-- A value of the given type at a register, with the next one for its upper half. -/
def operand (reg : Reg) (t : DataType) : Value :=
  if t.isDecimal then .pair reg (reg + 1) t else .single reg t

theorem operand_dtype (reg : Reg) (t : DataType) :
  (operand reg t).dtype = t
  := by
  rw [operand]
  split_ifs <;> rfl

theorem operand_content {reg : Reg} {t : DataType} {x : Int} {ρ : Regs} (hlo : ρ reg = loadLo t x)
    (hhi : ρ (reg + 1) = (BitVec.ofInt (64 + 64) x).extractLsb' 64 64) (hx : Representable t x) :
  (operand reg t).content ρ = x
  := by
  have hint32 (h : -2 ^ 31 ≤ x ∧ x < 2 ^ 31) (hreg : ρ reg = (BitVec.ofInt 32 x).setWidth 64) :
      ((ρ reg).setWidth 32).toInt = x := by
    rw [hreg, BitVec.setWidth_setWidth_of_le _ (by norm_num), BitVec.setWidth_eq,
      BitVec.toInt_ofInt_eq_self (by norm_num)] <;> omega
  cases t with
  | decimal128 p s =>
    obtain ⟨h₁, h₂⟩ : -2 ^ 127 ≤ x ∧ x < 2 ^ 127 := hx
    change (join (ρ (reg + 1)) (ρ reg)).toInt = x
    rw [hlo, hhi, loadLo, join_halves (w := 64), BitVec.toInt_ofInt_eq_self (by norm_num)] <;> omega
  | int64 =>
    obtain ⟨h₁, h₂⟩ : -2 ^ 63 ≤ x ∧ x < 2 ^ 63 := hx
    change (ρ reg).toInt = x
    rw [hlo, loadLo, BitVec.toInt_ofInt_eq_self (by norm_num)] <;> omega
  | _ => exact hint32 hx hlo

/-- A kernel in which only the registers of two operands are in use. -/
def twoOperands : Codegen := ⟨4, []⟩

theorem twoOperands_holds {reg : Nat} (h : reg ≤ 2) (t : DataType) :
  twoOperands.Holds (operand reg t)
  := by
  have hlt : reg + 1 < twoOperands.next := Nat.lt_of_le_of_lt (Nat.succ_le_succ h) (by decide)
  rw [operand]
  split_ifs with hd
  · exact ⟨(Nat.lt_succ_self _).trans hlt, fun _ => ⟨reg + 1, rfl, hlt⟩⟩
  · exact ⟨(Nat.lt_succ_self _).trans hlt, fun h => absurd h hd⟩

section Loaded

variable {x y : Int} (hx : Representable l x) (hy : Representable r y)

include hx in
theorem left_content :
  (operand 0 l).content (load l r x y) = x
  := operand_content rfl rfl hx

include hy in
theorem right_content :
  (operand 2 r).content (load l r x y) = y
  := operand_content rfl rfl hy

end Loaded

/-! ### Sums and differences -/

/-- The smallest number of a type, and of a decimal also the largest, is in its registers. -/
theorem representable_neg {t : DataType} {p : UInt8} {s : Int8} (h : intAsDecimal t = some (p, s))
    (hp : p.toNat ≤ 38) :
  Representable t (-maxMagnitude t) ∧ (t.isDecimal = true → Representable t (maxMagnitude t))
  := by
  cases t with
  | decimal128 p' s' =>
    have hlt := maxMagnitude_lt h
    have hle : 10 ^ p.toNat ≤ 10 ^ 38 := Nat.pow_le_pow_right (by norm_num) hp
    refine ⟨⟨?_, ?_⟩, fun _ => ⟨?_, ?_⟩⟩ <;> omega
  | int32 | int64 | date32 =>
    exact ⟨⟨by decide, by decide⟩, fun h => by simp [DataType.isDecimal] at h⟩
  | _ => cases h

/-- Two operands whose sum, or difference, is as far from zero as it can be. -/
theorem exists_extremes {op : BinaryOp} (hop : op = .add ∨ op = .sub)
    (hdec : (l.isDecimal || r.isDecimal) = true) (hl : intAsDecimal l = some (p₁, s₁))
    (hr : intAsDecimal r = some (p₂, s₂)) (hp₁ : p₁.toNat ≤ 38) (hp₂ : p₂.toNat ≤ 38) :
  ∃ x y, Representable l x ∧ Representable r y ∧ x.natAbs = maxMagnitude l ∧
    y.natAbs = maxMagnitude r ∧ ∀ f g : Nat, (combine op (x * 10 ^ f) (y * 10 ^ g)).natAbs =
      maxMagnitude l * 10 ^ f + maxMagnitude r * 10 ^ g
  := by
  obtain ⟨hln, hlp⟩ := representable_neg hl hp₁
  obtain ⟨hrn, hrp⟩ := representable_neg hr hp₂
  rcases hop with rfl | rfl
  · refine ⟨_, _, hln, hrn, Int.natAbs_neg _, Int.natAbs_neg _, fun f g => ?_⟩
    rw [combine, neg_mul, neg_mul, ← neg_add, Int.natAbs_neg]
    exact_mod_cast Int.natAbs_natCast _
  · -- an integer is taken at its negative end
    cases hrd : r.isDecimal with
    | true =>
      refine ⟨_, _, hln, hrp hrd, Int.natAbs_neg _, Int.natAbs_natCast _, fun f g => ?_⟩
      rw [combine, neg_mul, ← neg_add', Int.natAbs_neg]
      exact_mod_cast Int.natAbs_natCast _
    | false =>
      have hld : l.isDecimal = true := by simpa [hrd] using hdec
      refine ⟨_, _, hlp hld, hrn, Int.natAbs_natCast _, Int.natAbs_neg _, fun f g => ?_⟩
      rw [combine, neg_mul, sub_neg_eq_add]
      exact_mod_cast Int.natAbs_natCast _

/-- Sums and differences are exact for the types whose largest operands have an exact sum. -/
theorem exact_sum_iff {op : BinaryOp} (hop : op = .add ∨ op = .sub)
    (hdec : (l.isDecimal || r.isDecimal) = true) (hl : intAsDecimal l = some (p₁, s₁))
    (hr : intAsDecimal r = some (p₂, s₂)) (hclamp : clamped op l r = false) :
  Exact op l r ↔ sumFits l r = true
  := by
  have hmem : op ∈ [BinaryOp.add, .sub, .mul] := by rcases hop with rfl | rfl <;> simp
  have hscales : operandScales op s₁ s₂ = (maxScale s₁ s₂, maxScale s₁ s₂) := by
    rcases hop with rfl | rfl <;> rfl
  have hprecision : resultPrecision op p₁ p₂ = max p₁.toNat p₂.toNat + 1 := by
    rcases hop with rfl | rfl <;> rfl
  have hclamp' : clamped .add l r = false := by
    rcases hop with rfl | rfl
    · exact hclamp
    · simpa [clamped, hl, hr] using hclamp
  have hfits : sumFits l r = true ↔ (shift s₁ (maxScale s₁ s₂) ≤ 38 →
      shift s₂ (maxScale s₁ s₂) ≤ 38 → maxMagnitude l * 10 ^ shift s₁ (maxScale s₁ s₂) +
        maxMagnitude r * 10 ^ shift s₂ (maxScale s₁ s₂) < 10 ^ resultPrecision op p₁ p₂) := by
    simp only [sumFits, hl, hr, hclamp', hprecision, Bool.false_or, Bool.or_eq_true,
      decide_eq_true_eq]
    omega
  rw [hfits]
  constructor
  · intro hexact h₁ h₂
    obtain ⟨rfl, -⟩ | ⟨p, s, ht, hp, hp38, hs⟩ := arithResult_cases hmem hdec hl hr hclamp
    · simp at hop
    obtain ⟨x, y, hx, hy, hxm, hym, hsum⟩ :=
      exists_extremes hop hdec hl hr (by omega) (by omega)
    rw [← hsum, ← hp]
    -- the kernel with the two operands in its registers
    have hlv := twoOperands_holds (by decide : 0 ≤ 2) l
    have hrv := twoOperands_holds (by decide : 2 ≤ 2) r
    have hlt := operand_dtype 0 l
    have hrt := operand_dtype 2 r
    have hls : scaleOf (operand 0 l).dtype = some s₁ := by rw [hlt, scaleOf_eq, hl]; rfl
    have hrs : scaleOf (operand 2 r).dtype = some s₂ := by rw [hrt, scaleOf_eq, hr]; rfl
    have hlc := left_content (r := r) (y := y) hx
    have hrc := right_content (l := l) (x := x) hy
    have hspec := emitBinary_spec hmem hlv hrv hls hrs (by rw [hlt, hrt]; exact ht)
    rw [hscales, if_pos ⟨h₁, h₂⟩] at hspec
    obtain ⟨v, c', hv, htype, -⟩ := hspec
    obtain ⟨hden, hwithin⟩ := hexact _ _ _ v c' hlv hrv hlt hrt hv (load l r x y)
      (by rw [Value.Within, hlc, hlt, hxm]) (by rw [Value.Within, hrc, hrt, hym])
    rw [exactResult_denotes hmem hls hrs, hlc, hrc, hscales, ← hs, Value.denotes, htype] at hden
    have hcontent := Int.cast_injective (mul_right_cancel₀ (zpow_ne_zero _ (by norm_num)) hden)
    rw [Value.Within, hcontent, htype, maxMagnitude] at hwithin
    exact hwithin.trans_lt (Nat.sub_lt (Nat.pow_pos (by norm_num)) one_pos)
  · intro h
    apply exact_of_bound hmem hdec hl hr hclamp
    rw [hscales]
    intro h₁ h₂ x y hx hy
    have hlt := h h₁ h₂
    refine lt_of_le_of_lt ((natAbs_combine_le hop _ _).trans ?_) hlt
    rw [Int.natAbs_mul, Int.natAbs_mul, Int.natAbs_pow, Int.natAbs_pow]
    exact Nat.add_le_add (Nat.mul_le_mul_right _ hx) (Nat.mul_le_mul_right _ hy)

/-! ### Comparisons -/

theorem ordered_mul_right (op : BinaryOp) {x y z : ℚ} (hz : 0 < z) :
  ordered op (x * z) (y * z) = ordered op x y
  := by
  cases op <;> simp [ordered, hz, hz.ne']

/-- The order of two numbers is that of their digits at the larger scale. -/
theorem ordered_denotes (op : BinaryOp) (hls : scaleOf lv.dtype = some s₁)
    (hrs : scaleOf rv.dtype = some s₂) (ρ : Regs) :
  ordered op (lv.denotes ρ) (rv.denotes ρ) =
    ordered op ((lv.content ρ * 10 ^ shift s₁ (maxScale s₁ s₂) : Int) : ℚ)
      ((rv.content ρ * 10 ^ shift s₂ (maxScale s₁ s₂) : Int) : ℚ)
  := by
  have hle := toInt_le_maxScale s₁ s₂
  have hpos : (0 : ℚ) < 10 ^ (-(maxScale s₁ s₂).toInt) := zpow_pos (by norm_num) _
  rw [Value.denotes, Value.denotes, hls, hrs, Option.getD_some, Option.getD_some,
    zpow_shift hle.1, zpow_shift hle.2, ← mul_assoc, ← mul_assoc, ordered_mul_right op hpos]
  push_cast
  rfl

theorem Value.content_range (v : Value) (ρ : Regs) :
  -2 ^ 127 ≤ v.content ρ ∧ v.content ρ < 2 ^ 127
  := by
  rw [Value.content]
  split
  · have h₁ := BitVec.le_toInt (ρ v.reg)
    have h₂ := BitVec.toInt_lt (x := ρ v.reg)
    omega
  · exact ⟨BitVec.le_toInt _, BitVec.toInt_lt⟩
  · have h₁ := BitVec.le_toInt ((ρ v.reg).setWidth 32)
    have h₂ := BitVec.toInt_lt (x := (ρ v.reg).setWidth 32)
    omega

/-- A rescaled operand that cannot overflow keeps its number. -/
theorem toInt_rescaled {k : Nat} {ρ : Regs} (hv : v.Within ρ) (hk : rescaleFits v.dtype k = true) :
  (BitVec.ofInt (64 + 64) (v.content ρ * 10 ^ k)).toInt = v.content ρ * 10 ^ k
  := by
  simp only [rescaleFits, Bool.or_eq_true, decide_eq_true_eq] at hk
  rcases hk with rfl | hk
  · obtain ⟨h₁, h₂⟩ := v.content_range ρ
    rw [pow_zero, mul_one, BitVec.toInt_ofInt_eq_self (by norm_num)] <;> omega
  · apply toInt_ofInt_of_natAbs_lt
    rw [Int.natAbs_mul, Int.natAbs_pow]
    exact (Nat.mul_le_mul_right _ hv).trans_lt hk

/-- An operand that overflows when it is rescaled: a negative number becomes positive. -/
theorem exists_overflow {t : DataType} {k : Nat} (hk : k ≤ 38) (h : rescaleFits t k = false) :
  ∃ x, Representable t x ∧ x.natAbs ≤ maxMagnitude t ∧ x < 0 ∧
    0 < (BitVec.ofInt (64 + 64) (x * 10 ^ k)).toInt
  := by
  simp only [rescaleFits, Bool.or_eq_false_iff, decide_eq_false_iff_not, not_lt] at h
  obtain ⟨hk0, hge⟩ := h
  have hpos : 0 < 10 ^ k := Nat.pow_pos (by norm_num)
  have hpow : 10 ^ k ≤ 10 ^ 38 := Nat.pow_le_pow_right (by norm_num) hk
  obtain ⟨a, ha⟩ : ∃ a, a = 2 ^ 127 / 10 ^ k + 1 := ⟨_, rfl⟩
  -- `2 ^ 127` is no multiple of ten, so the magnitude is past it
  have hle : a ≤ maxMagnitude t := by
    have hdiv : 2 ^ 127 / 10 ^ k ≤ maxMagnitude t := Nat.div_le_of_le_mul (by rwa [Nat.mul_comm])
    rw [ha]
    refine lt_of_le_of_ne hdiv fun heq => ?_
    have hdvd : 10 ^ k ∣ 2 ^ 127 :=
      ⟨maxMagnitude t, le_antisymm (by rwa [Nat.mul_comm]) (heq ▸ Nat.mul_div_le ..)⟩
    have h5 : 5 ∣ 2 ^ 127 := ((by norm_num : 5 ∣ 10).trans (dvd_pow_self 10 hk0)).trans hdvd
    exact absurd h5 (by decide)
  have hlt : 2 ^ 127 < a * 10 ^ k := ha ▸ Nat.lt_mul_of_div_lt (Nat.lt_succ_self _) hpos
  have hub : a * 10 ^ k ≤ 2 ^ 127 + 10 ^ k := by
    rw [ha, Nat.add_mul, Nat.one_mul]
    exact Nat.add_le_add_right (Nat.div_mul_le_self ..) _
  have hapos : 0 < a := ha ▸ Nat.succ_pos _
  have hten : a * 10 ≤ a * 10 ^ k := Nat.mul_le_mul_left a (Nat.le_self_pow hk0 10)
  refine ⟨-a, ?_, by rwa [Int.natAbs_neg, Int.natAbs_natCast], by omega, ?_⟩
  · cases t with
    | decimal128 p s => exact ⟨by omega, by omega⟩
    | int64 =>
      have hle : a ≤ 2 ^ 63 := hle
      exact ⟨by omega, by omega⟩
    | _ =>
      have hle : a ≤ 2 ^ 31 := hle
      exact ⟨by omega, by omega⟩
  · have hcast : -(a : Int) * 10 ^ k = -((a * 10 ^ k : Nat) : Int) := by push_cast; ring
    rw [hcast, BitVec.toInt_ofInt, Int.bmod_def]
    omega

/-- Comparisons agree with the order of the numbers when no rescaled operand can overflow. -/
theorem agrees_iff (hls : scaleOf l = some s₁) (hrs : scaleOf r = some s₂) :
  Agrees l r ↔ comparisonFits l r = true
  := by
  have hfits : comparisonFits l r = true ↔ (shift s₁ (maxScale s₁ s₂) ≤ 38 ∧
      shift s₂ (maxScale s₁ s₂) ≤ 38 → rescaleFits l (shift s₁ (maxScale s₁ s₂)) = true ∧
        rescaleFits r (shift s₂ (maxScale s₁ s₂)) = true) := by
    simp only [comparisonFits, hls, hrs, Bool.or_eq_true, Bool.and_eq_true, decide_eq_true_eq,
      ← not_le]
    tauto
  rw [hfits]
  constructor
  · intro hagrees hshift
    have hlv := twoOperands_holds (by decide : 0 ≤ 2) l
    have hrv := twoOperands_holds (by decide : 2 ≤ 2) r
    have hlt := operand_dtype 0 l
    have hrt := operand_dtype 2 r
    have hzero (t : DataType) : Representable t 0 := by
      cases t <;> exact ⟨by decide, by decide⟩
    have hofInt : (BitVec.ofInt (64 + 64) 0).toInt = 0 := rfl
    -- the comparison of two loaded operands, as emitted and as it should be
    have hboth (op : BinaryOp) (hop : op.isComparison = true) {x y : Int}
        (hx : Representable l x) (hy : Representable r y) (hxm : x.natAbs ≤ maxMagnitude l)
        (hym : y.natAbs ≤ maxMagnitude r) :
        ordered op (BitVec.ofInt (64 + 64) (x * 10 ^ shift s₁ (maxScale s₁ s₂))).toInt
            (BitVec.ofInt (64 + 64) (y * 10 ^ shift s₂ (maxScale s₁ s₂))).toInt =
          ordered op ((x * 10 ^ shift s₁ (maxScale s₁ s₂) : Int) : ℚ)
            ((y * 10 ^ shift s₂ (maxScale s₁ s₂) : Int) : ℚ) := by
      have hls' : scaleOf (operand 0 l).dtype = some s₁ := by rw [hlt, hls]
      have hrs' : scaleOf (operand 2 r).dtype = some s₂ := by rw [hrt, hrs]
      have hlc := left_content (r := r) (y := y) hx
      have hrc := right_content (l := l) (x := x) hy
      have hspec := emitBinary_comparison hop hlv hrv hls' hrs'
      rw [if_pos hshift] at hspec
      obtain ⟨v, c', hv, hcontent⟩ := hspec
      have hright := hagrees op hop _ _ _ v c' hlv hrv hlt hrt hv (load l r x y)
        (by rwa [Value.Within, hlc, hlt]) (by rwa [Value.Within, hrc, hrt])
      rw [hcontent, ordered_denotes op hls' hrs', hlc, hrc] at hright
      rw [Bool.eq_iff_iff]
      split_ifs at hright <;> simp_all
    constructor
    · by_contra h
      obtain ⟨x, hx, hxm, hneg, hpos⟩ := exists_overflow hshift.1 (by simpa using h)
      have h := hboth .lt rfl hx (hzero r) hxm (Nat.zero_le _)
      have hlt : x * 10 ^ shift s₁ (maxScale s₁ s₂) < 0 :=
        mul_neg_of_neg_of_pos hneg (by positivity)
      simp only [ordered, zero_mul, Int.cast_lt, hlt, decide_true, hofInt, decide_eq_true_eq] at h
      omega
    · by_contra h
      obtain ⟨y, hy, hym, hneg, hpos⟩ := exists_overflow hshift.2 (by simpa using h)
      have h := hboth .gt rfl (hzero l) hy (Nat.zero_le _) hym
      have hlt : y * 10 ^ shift s₂ (maxScale s₁ s₂) < 0 :=
        mul_neg_of_neg_of_pos hneg (by positivity)
      simp only [ordered, zero_mul, Int.cast_lt, hlt, decide_true, hofInt, decide_eq_true_eq] at h
      omega
  · rintro h op hop c lv rv v c' hlv hrv rfl rfl hv ρ hlw hrw
    have hspec := emitBinary_comparison hop hlv hrv hls hrs
    split_ifs at hspec with hshift
    · obtain ⟨v', c₂, hv', hcontent⟩ := hspec
      obtain ⟨rfl, rfl⟩ : v' = v ∧ c₂ = c' := by simpa [hv'] using hv
      obtain ⟨hl, hr⟩ := h hshift
      rw [hcontent, toInt_rescaled hlw hl, toInt_rescaled hrw hr, ordered_denotes op hls hrs]
    · obtain ⟨e, c₂, he⟩ := hspec
      simp [he] at hv

example : comparisonFits (.decimal128 38 0) (.decimal128 38 2) = false := by decide

/-! ### All operations -/

/-- Decimals that the type checker lets a query compare have one scale, and nothing is rescaled. -/
theorem comparisonFits_of_comparable (hdec : (l.isDecimal || r.isDecimal) = true)
    (h : comparable l r = true) :
  comparisonFits l r = true
  := by
  have hz (s : Int8) : shift s s = 0 := by simp [shift]
  have heq : l = r := by
    rw [comparable, Bool.or_eq_true, beq_iff_eq] at h
    refine h.resolve_right fun hnum => ?_
    cases l <;> cases r <;>
      simp [DataType.isDecimal, DataType.isNumeric, DataType.isInt, DataType.isFloat] at hdec hnum
  subst heq
  cases l <;> simp_all [DataType.isDecimal, comparisonFits, scaleOf, maxScale, rescaleFits]

/--
Decimal operations on two types are exact, typed wide enough and ordered as the numbers are, if and
only if the largest operands have a sum of no more digits than declared, and no operand of a
comparison overflows when it is rescaled; none does where the type checker accepts the comparison.
-/
theorem decimals_exact_iff (l r : DataType) (hdec : (l.isDecimal || r.isDecimal) = true) :
  (DecimalsExact l r ↔ sumFits l r = true ∧ comparisonFits l r = true) ∧
    (comparable l r = true → comparisonFits l r = true)
  := by
  refine ⟨?_, comparisonFits_of_comparable hdec⟩
  by_cases hsome : ∃ p₁ s₁ p₂ s₂, intAsDecimal l = some (p₁, s₁) ∧ intAsDecimal r = some (p₂, s₂)
  · obtain ⟨p₁, s₁, p₂, s₂, hl, hr⟩ := hsome
    have hagrees := agrees_iff (l := l) (r := r) (by rw [scaleOf_eq, hl]; rfl)
      (by rw [scaleOf_eq, hr]; rfl)
    have hsub : clamped .sub l r = clamped .add l r := by simp [clamped, hl, hr]
    constructor
    · intro h
      refine ⟨?_, hagrees.mp h.comparison⟩
      cases hc : clamped .add l r with
      | true => simp [sumFits, hl, hr, hc]
      | false =>
        exact (exact_sum_iff (.inl rfl) hdec hl hr hc).mp (h.arithmetic .add (by simp) hc)
    · rintro ⟨hsum, hcmp⟩
      refine ⟨fun op hop hc => ?_, hagrees.mpr hcmp⟩
      simp only [List.mem_cons, List.not_mem_nil, or_false] at hop
      rcases hop with rfl | rfl | rfl
      · exact (exact_sum_iff (.inl rfl) hdec hl hr hc).mpr hsum
      · exact (exact_sum_iff (.inr rfl) hdec hl hr hc).mpr hsum
      · exact exact_mul hdec hl hr hc
  · -- one operand is neither a decimal nor an integer: nothing is emitted
    have hnone : intAsDecimal l = none ∨ intAsDecimal r = none := by
      by_contra h
      rw [not_or, ← ne_eq, ← ne_eq, Option.ne_none_iff_exists', Option.ne_none_iff_exists'] at h
      obtain ⟨⟨⟨p₁, s₁⟩, hl⟩, ⟨⟨p₂, s₂⟩, hr⟩⟩ := h
      exact hsome ⟨p₁, s₁, p₂, s₂, hl, hr⟩
    have hscale : scaleOf l = none ∨ scaleOf r = none := by
      simpa [scaleOf_eq] using hnone
    refine iff_of_true ⟨fun op hop _ => ?_, fun op hop => ?_⟩ ⟨?_, ?_⟩
    · rintro c lv rv v c' - - rfl rfl hv
      have harith : op.isArithmetic = true := by
        simp only [List.mem_cons, List.not_mem_nil, or_false] at hop
        rcases hop with rfl | rfl | rfl <;> rfl
      obtain ⟨e, c₂, he⟩ := emitBinary_refused (.inl harith) hscale c
      simp [he] at hv
    · rintro c lv rv v c' - - rfl rfl hv
      obtain ⟨e, c₂, he⟩ := emitBinary_refused (.inr hop) hscale c
      simp [he] at hv
    · rcases hnone with h | h
      · simp [sumFits, h]
      · rw [sumFits, h]
        split <;> simp_all
    · rcases hscale with h | h
      · simp [comparisonFits, h]
      · rw [comparisonFits, h]
        split <;> simp_all

/-- Amounts of ten digits, two of them fractional. -/
theorem decimals_exact_amounts :
  (DataType.decimal128 10 2).isDecimal = true ∧
    DecimalsExact (.decimal128 10 2) (.decimal128 10 2)
  := ⟨rfl, (decimals_exact_iff _ _ rfl).1.mpr ⟨by decide, by decide⟩⟩

/-- The sum of 99 and 0.99 is 99.99, of four digits, and is given a type of three. -/
theorem decimals_not_exact :
  ∃ v c', emitBinary .add (operand 0 (.decimal128 2 0)) (operand 2 (.decimal128 2 2)) twoOperands
      = .ok v c' ∧
    v.dtype = .decimal128 3 2 ∧
    v.content (run (added twoOperands c') (load (.decimal128 2 0) (.decimal128 2 2) 99 99)) = 9999 ∧
    ¬DecimalsExact (.decimal128 2 0) (.decimal128 2 2)
  := by
  refine ⟨_, _, rfl, rfl, by decide, fun h => ?_⟩
  have hsum := h.arithmetic .add (by simp) (by decide) twoOperands _ _ _ _
    (twoOperands_holds (by decide : 0 ≤ 2) (.decimal128 2 0))
    (twoOperands_holds (by decide : 2 ≤ 2) (.decimal128 2 2)) rfl rfl rfl
    (load (.decimal128 2 0) (.decimal128 2 2) 99 99) (by unfold Value.Within; decide)
    (by unfold Value.Within; decide)
  have hwithin := hsum.2
  revert hwithin
  unfold Value.Within
  decide

end CratonBolt.Decimals
