import CratonBolt.Decimals.Lowering
import Mathlib.Algebra.Order.Field.Rat
import Mathlib.Tactic.FieldSimp

/-!
# The results of decimal operations

What a sum, difference, product or comparison leaves in its registers: the operation on the digits
of both operands at the scales it brings them to, modulo `2 ^ 128`.
-/

namespace CratonBolt.Decimals

open WordPair

variable {c c' : Codegen} {v lv rv : Value} {s₁ s₂ : Int8}

/-! ### Arithmetic -/

/-- The instructions that an emission added. -/
def added (c c' : Codegen) : List Op := c'.ops.drop c.ops.length

theorem scaleOf_eq (t : DataType) :
  scaleOf t = (intAsDecimal t).map Prod.snd
  := by
  cases t <;> rfl

theorem toInt_le_maxScale (a b : Int8) :
  a.toInt ≤ (maxScale a b).toInt ∧ b.toInt ≤ (maxScale a b).toInt
  := by
  rw [maxScale]
  split_ifs with h <;> rw [Int8.lt_iff_toInt_lt] at h <;> omega

theorem Extends.added {new : List Op} (h : Extends c c' new) :
  added c c' = new
  := by
  rw [Decimals.added, h.ops, List.drop_left]

/-- The operation on the digits. -/
def combine (op : BinaryOp) (x y : Int) : Int :=
  match op with
  | .add => x + y
  | .sub => x - y
  | _ => x * y

/-- The instruction of an operation on two decimals. -/
def pairOp (op : BinaryOp) : Reg → Reg → Reg → Reg → Reg → Reg → Op :=
  match op with
  | .add => .add128
  | .sub => .sub128
  | _ => .mul128

/-- The scales that the operands of an operation are brought to. -/
def operandScales (op : BinaryOp) (s₁ s₂ : Int8) : Int8 × Int8 :=
  match op with
  | .mul => (s₁, s₂)
  | _ => (maxScale s₁ s₂, maxScale s₁ s₂)

/-- An operation on the digits, modulo `2 ^ 128`. -/
theorem pairOp_computes (op : BinaryOp) :
  ∃ f, Computes (pairOp op) f ∧
    ∀ x y, f (BitVec.ofInt _ x) (BitVec.ofInt _ y) = BitVec.ofInt _ (combine op x y)
  := by
  cases op with
  | add => exact ⟨_, add128_computes, fun x y => (BitVec.ofInt_add x y).symm⟩
  | sub =>
    refine ⟨_, sub128_computes, fun x y => ?_⟩
    change _ - _ = BitVec.ofInt _ (x - y)
    rw [← BitVec.add_sub_cancel (BitVec.ofInt _ (x - y)) (BitVec.ofInt _ y), ← BitVec.ofInt_add,
      Int.sub_add_cancel]
  | _ => exact ⟨_, mul128_computes, fun x y => (BitVec.ofInt_mul x y).symm⟩

section Arithmetic

variable {op : BinaryOp} (hop : op ∈ [BinaryOp.add, .sub, .mul])
  (hl : c.Holds lv) (hr : c.Holds rv) (hls : scaleOf lv.dtype = some s₁)
  (hrs : scaleOf rv.dtype = some s₂)

include hop hls hrs in
theorem emitBinary_arithmetic :
  emitBinary op lv rv c = (do
    let lv' ← coerceToDecimalScale lv (operandScales op s₁ s₂).1
    let rv' ← coerceToDecimalScale rv (operandScales op s₁ s₂).2
    let dtype ← ofResult (decimalArithResultViaLogical op lv.dtype rv.dtype)
    emitPairOp (pairOp op) lv' rv' dtype : Emit Value) c
  := by
  simp only [List.mem_cons, List.not_mem_nil, or_false] at hop
  rcases hop with rfl | rfl | rfl <;>
    simp [emitBinary, BinaryOp.isArithmetic, emitBinaryDecimal128, scaleOr, hls, hrs, pairOp,
      operandScales]

theorem toInt_le_operandScales (op : BinaryOp) (s₁ s₂ : Int8) :
  s₁.toInt ≤ (operandScales op s₁ s₂).1.toInt ∧ s₂.toInt ≤ (operandScales op s₁ s₂).2.toInt
  := by
  cases op with
  | mul => exact ⟨le_rfl, le_rfl⟩
  | _ => exact toInt_le_maxScale s₁ s₂

include hop hl hr hls hrs in
/-- An operation once its operands are decimals of the right scales. -/
theorem emitBinary_coerced :
  if shift s₁ (operandScales op s₁ s₂).1 ≤ 38 ∧ shift s₂ (operandScales op s₁ s₂).2 ≤ 38 then
    ∃ lv' rv' c₁ new, Coerced lv rv (shift s₁ (operandScales op s₁ s₂).1)
        (shift s₂ (operandScales op s₁ s₂).2) c lv' rv' c₁ new ∧
      emitBinary op lv rv c = (do
        emitPairOp (pairOp op) lv' rv'
          (← ofResult (decimalArithResultViaLogical op lv.dtype rv.dtype)) : Emit Value) c₁
  else ∃ e c', emitBinary op lv rv c = .error e c'
  := by
  have hle := toInt_le_operandScales op s₁ s₂
  rw [emitBinary_arithmetic hop hls hrs]
  exact coerce_both hl hr hls hrs hle.1 hle.2 _

include hop hl hr hls hrs in
/-- What an operation leaves in the registers. -/
theorem emitBinary_spec {p : UInt8} {s : Int8}
    (ht : decimal128ArithResult op lv.dtype rv.dtype = some (.ok (.decimal128 p s))) :
  if shift s₁ (operandScales op s₁ s₂).1 ≤ 38 ∧ shift s₂ (operandScales op s₁ s₂).2 ≤ 38 then
    ∃ v c', emitBinary op lv rv c = .ok v c' ∧ v.dtype = .decimal128 p s ∧
      Yields c v c' (fun ρ => BitVec.ofInt _ (combine op
        (lv.content ρ * 10 ^ shift s₁ (operandScales op s₁ s₂).1)
        (rv.content ρ * 10 ^ shift s₂ (operandScales op s₁ s₂).2)))
  else ∃ e c', emitBinary op lv rv c = .error e c'
  := by
  have h := emitBinary_coerced hop hl hr hls hrs
  split_ifs at h ⊢
  · obtain ⟨lv', rv', c₁, new, hc, heq⟩ := h
    obtain ⟨f, hf, hcombine⟩ := pairOp_computes op
    obtain ⟨v, c₂, hv, htype, hy⟩ :=
      emitPairOp_spec hf hc.left hc.left_decimal hc.right hc.right_decimal p s
    refine ⟨v, c₂, ?_, htype, hy.trans hc.emitted fun ρ => ?_⟩
    · rw [heq]
      simp only [decimalArithResultViaLogical, ht, ofResult, pure_bind, hv]
    · rw [hc.left_bits, hc.right_bits, hcombine]
  · exact h

include hop hl hr hls hrs in
/-- An operation without a result type is not emitted. -/
theorem emitBinary_error {e : BoltError}
    (ht : decimal128ArithResult op lv.dtype rv.dtype = some (.error e)) :
  ∃ e' c', emitBinary op lv rv c = .error e' c'
  := by
  have h := emitBinary_coerced hop hl hr hls hrs
  split_ifs at h
  · obtain ⟨lv', rv', c₁, new, -, heq⟩ := h
    refine ⟨e, c₁, heq.trans ?_⟩
    simp [decimalArithResultViaLogical, ht, ofResult]
  · exact h

end Arithmetic

/-- The number that an operation leaves in its result. -/
theorem Yields.content {x : Regs → BitVec (64 + 64)} (h : Yields c v c' x) (ρ : Regs) :
  v.content (run (added c c') ρ) = (x ρ).toInt
  := by
  obtain ⟨new, he, -, hd, hx⟩ := h
  rw [he.added]
  cases ht : v.dtype with
  | decimal128 p s => simp only [Value.content, ht, hx]
  | _ => simp [ht, DataType.isDecimal] at hd

/-! ### Comparisons -/

/-- A comparison of two numbers. -/
def ordered (op : BinaryOp) (x y : ℚ) : Bool :=
  match op with
  | .eq => x = y
  | .notEq => x ≠ y
  | .lt => x < y
  | .ltEq => x ≤ y
  | .gt => y < x
  | _ => y ≤ x

/-- The comparison of the halves is that of the whole numbers. -/
theorem compareHalves_eq {op : BinaryOp} (hop : op.isComparison = true) (ah al bh bl : BitVec 64) :
  compareHalves op ah al bh bl = ordered op (join ah al).toInt (join bh bl).toInt
  := by
  have hw : 0 < 64 := by norm_num
  have hinj : join ah al = join bh bl ↔ ah = bh ∧ al = bl := join_inj
  rw [Bool.eq_iff_iff]
  cases op with
  | eq => simp [compareHalves, ordered, BitVec.toInt_inj, hinj, and_comm]
  | notEq => simp [compareHalves, ordered, BitVec.toInt_inj, hinj, imp_iff_not_or, or_comm]
  | lt =>
    simp [compareHalves, ordered, join_slt hw, BitVec.slt_iff_toInt_lt, BitVec.ult_iff_lt,
      BitVec.lt_def]
  | ltEq =>
    simp [compareHalves, ordered, join_sle hw, BitVec.slt_iff_toInt_lt, BitVec.ule_iff_le,
      BitVec.le_def]
  | gt =>
    simp [compareHalves, ordered, join_slt hw, BitVec.slt_iff_toInt_lt, BitVec.ult_iff_lt,
      BitVec.lt_def, @eq_comm _ bh ah]
  | gtEq =>
    simp [compareHalves, ordered, join_sle hw, BitVec.slt_iff_toInt_lt, BitVec.ule_iff_le,
      BitVec.le_def, @eq_comm _ bh ah]
  | _ => simp [BinaryOp.isComparison] at hop

/-- What a comparison leaves in its register. -/
theorem emitBinary_comparison {op : BinaryOp} (hop : op.isComparison = true) (hl : c.Holds lv)
    (hr : c.Holds rv) (hls : scaleOf lv.dtype = some s₁) (hrs : scaleOf rv.dtype = some s₂) :
  if shift s₁ (maxScale s₁ s₂) ≤ 38 ∧ shift s₂ (maxScale s₁ s₂) ≤ 38 then
    ∃ v c', emitBinary op lv rv c = .ok v c' ∧ ∀ ρ, v.content (run (added c c') ρ) =
      if ordered op (BitVec.ofInt (64 + 64) (lv.content ρ * 10 ^ shift s₁ (maxScale s₁ s₂))).toInt
        (BitVec.ofInt (64 + 64) (rv.content ρ * 10 ^ shift s₂ (maxScale s₁ s₂))).toInt then 1 else 0
  else ∃ e c', emitBinary op lv rv c = .error e c'
  := by
  have hle := toInt_le_maxScale s₁ s₂
  have h := coerce_both hl hr hls hrs hle.1 hle.2 (emitCmp128 op)
  have harith : op.isArithmetic = false := by
    cases op <;> first | rfl | simp [BinaryOp.isComparison] at hop
  have hemit : emitBinary op lv rv c = (do
      emitCmp128 op (← coerceToDecimalScale lv (maxScale s₁ s₂))
        (← coerceToDecimalScale rv (maxScale s₁ s₂)) : Emit Value) c := by
    simp [emitBinary, harith, hop, emitBinaryDecimal128Cmp, scaleOr, hls, hrs]
  rw [hemit]
  split_ifs at h ⊢
  · obtain ⟨lv', rv', c₁, new, hc, heq⟩ := h
    obtain ⟨lHi, hlHi, -⟩ := hc.left.hi hc.left_decimal
    obtain ⟨rHi, hrHi, -⟩ := hc.right.hi hc.right_decimal
    let cmp := Op.cmp128 c₁.next op lv'.reg lHi rv'.reg rHi
    refine ⟨.single c₁.next .bool, ⟨c₁.next + 1, c₁.ops ++ [cmp]⟩, ?_, fun ρ => ?_⟩
    · rw [heq]
      simp only [emitCmp128, hiOf, hlHi, hrHi, hop, if_true]
      rfl
    · have hadded : added c ⟨c₁.next + 1, c₁.ops ++ [cmp]⟩ = new ++ [cmp] := by
        simp [added, hc.emitted.ops]
      have hlb := hc.left_bits ρ
      have hrb := hc.right_bits ρ
      simp only [Value.bits, hlHi, hrHi] at hlb hrb
      rw [hadded, run_append]
      change ((Function.update (run new ρ) c₁.next (if compareHalves op (run new ρ lHi)
        (run new ρ lv'.reg) (run new ρ rHi) (run new ρ rv'.reg) then 1 else 0) c₁.next).setWidth
          32).toInt = _
      rw [Function.update_self, compareHalves_eq hop, hlb, hrb]
      split_ifs <;> rfl
  · exact h

/-- An operand that is neither a decimal nor an integer is refused. -/
theorem emitBinary_refused {op : BinaryOp} (hop : op.isArithmetic = true ∨ op.isComparison = true)
    (h : scaleOf lv.dtype = none ∨ scaleOf rv.dtype = none) (c : Codegen) :
  ∃ e c', emitBinary op lv rv c = .error e c'
  := by
  have hstart (e₁ e₂ : BoltError) (rest : Int8 → Int8 → Emit Value) :
      ∃ e c', (do rest (← scaleOr e₁ lv.dtype) (← scaleOr e₂ rv.dtype)) c = .error e c' := by
    cases hl : scaleOf lv.dtype with
    | none => exact ⟨e₁, c, by simp [scaleOr, hl]⟩
    | some s =>
      have hr : scaleOf rv.dtype = none := by simpa [hl] using h
      exact ⟨e₂, c, by simp [scaleOr, hl, hr]⟩
  rw [emitBinary]
  split_ifs with h₁ h₂
  · exact hstart _ _ _
  · exact hstart _ _ _
  · simp [h₁, h₂] at hop

end CratonBolt.Decimals
