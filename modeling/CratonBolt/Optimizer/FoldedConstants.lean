import CratonBolt.Optimizer.ConstantFold
import CratonBolt.Semantics.Expr
import CratonBolt.Semantics.FloatOrder

/-!
# Constants computed by constant folding

An operator on two constants is folded only where its exact result can be represented: the folded
constant has the type of the operator then.
-/

namespace CratonBolt

open Value (compareFloat compareOrd floatOrder nan32)

/-- The exact result of integer arithmetic; none for a division by zero. -/
def exactArith (op : BinaryOp) (a b : Int) : Option Int :=
  match op with
  | .add => some (a + b)
  | .sub => some (a - b)
  | .mul => some (a * b)
  | .div => if b = 0 then none else some (a.tdiv b)
  | _ => none

/-- The conversion of the value to the type loses nothing. -/
def Value.lossless (t : DataType) (v : Value) : Bool :=
  match v, t with
  | .int32 _, .int64 => true
  | .int64 n, .int32 => decide (-2 ^ 31 ≤ n.toInt ∧ n.toInt < 2 ^ 31)
  | .float32 _, .float64 => true
  | v, t => v.dtype == some t

variable {op : BinaryOp} {l r v : Literal}

/-! ### Integers -/

theorem checked64_eq_some {n : Int} {m : Int64} (h : checked64 n = some m) :
  m.toInt = n
  := by
  unfold checked64 at h
  split at h
  · next hn =>
    cases h
    exact Int64.toInt_ofInt_of_le hn.1 hn.2
  · cases h

/-- Integer operators that fold are exact arithmetic or comparisons. -/
theorem foldInt_cases {a b : Int64} {v : FoldVal} (h : foldInt op a b = some v) :
  (op.isArithmetic = true ∧ ∃ n, v = .int n ∧ exactArith op a.toInt b.toInt = some n.toInt) ∨
    (op.isComparison = true ∧ v = .bool (Value.compareOrd op a b))
  := by
  have hle : ∀ c d : Int64, decide (c ≤ d) = (decide (c < d) || decide (c = d)) := by
    intro c d
    rw [← Bool.decide_or]
    exact decide_eq_decide.mpr Int64.le_iff_lt_or_eq
  cases op <;> simp only [foldInt, Option.map_eq_some_iff, Option.some.injEq, reduceCtorEq,
    Option.ite_none_left_eq_some] at h
  case add | sub | mul =>
    obtain ⟨n, hn, rfl⟩ := h
    exact Or.inl ⟨rfl, n, rfl, by rw [checked64_eq_some hn]; rfl⟩
  case div =>
    obtain ⟨hb, n, hn, rfl⟩ := h
    have hne : b.toInt ≠ 0 := fun h0 => hb (Int64.toInt_inj.mp h0)
    exact Or.inl ⟨rfl, n, rfl, by rw [checked64_eq_some hn, exactArith, if_neg hne]⟩
  all_goals
    refine Or.inr ⟨rfl, ?_⟩
    rw [← h]
    simp [compareOrd, Value.compareWith, hle, eq_comm]

theorem compareOrd_toInt64 (op : BinaryOp) (a b : Int32) :
  compareOrd op a.toInt64 b.toInt64 = compareOrd op a b
  := by
  have heq : a.toInt64 = b.toInt64 ↔ a = b := by
    rw [← Int64.toInt_inj, Int32.toInt_toInt64, Int32.toInt_toInt64, Int32.toInt_inj]
  simp only [compareOrd, heq, Int32.toInt64_lt]

theorem isNull_of_dtype {v : Value} {t : DataType} (h : v.dtype = some t) :
  v.isNull = false
  := by
  cases v with
  | null => cases h
  | _ => rfl

/-- Widened floats compare as the floats do. -/
theorem compareFloat_toF64 (op : BinaryOp) (a b : F32) :
  compareFloat op (Value.nan64 a.toF64.bits || Value.nan64 b.toF64.bits)
      (Value.floatOrder 64 a.toF64.bits.toNat) (Value.floatOrder 64 b.toF64.bits.toNat) =
    compareFloat op (Value.nan32 a.bits || nan32 b.bits)
      (Value.floatOrder 32 a.bits.toNat) (Value.floatOrder 32 b.bits.toNat)
  := by
  rw [F32.nan_toF64, F32.nan_toF64]
  cases hab : nan32 a.bits || nan32 b.bits with
  | true => simp only [compareFloat, Bool.not_true, Bool.false_and]
  | false =>
    obtain ⟨ha, hb⟩ := Bool.or_eq_false_iff.mp hab
    have hlt := F32.order_toF64_lt_iff ha hb
    have hgt := F32.order_toF64_lt_iff hb ha
    have heq : floatOrder 64 a.toF64.bits.toNat = floatOrder 64 b.toF64.bits.toNat ↔
        floatOrder 32 a.bits.toNat = floatOrder 32 b.bits.toNat := by
      omega
    simp only [compareFloat, hlt, hgt, heq]

/-! ### Operators on constants -/

theorem binaryDtype_of_isArithmetic {t : DataType} (h : op.isArithmetic = true)
    (ht : t.isNumeric = true) :
  binaryDtype op t t = .ok t
  := by
  rw [binaryDtype, if_pos h]
  cases t with
  | int32 | int64 | float32 | float64 => rfl
  | _ => cases ht

theorem binaryDtype_of_isComparison (t : DataType) (h : op.isComparison = true) :
  binaryDtype op t t = .ok .bool
  := by
  have ha : ¬ op.isArithmetic = true := by
    cases op <;> first | decide | cases h
  rw [binaryDtype, if_neg ha, if_pos h, if_pos (by simp [comparable])]

/-- What becomes of an operator on two constants. -/
inductive LiteralFold : BinaryOp → Literal → Literal → Literal → Prop
  | int32 (op : BinaryOp) (a b : Int32) (n : Int) (hop : op.isArithmetic = true)
      (h : exactArith op a.toInt b.toInt = some n) (hlo : -2 ^ 31 ≤ n) (hhi : n < 2 ^ 31) :
    LiteralFold op (.int32 a) (.int32 b) (.int32 (Int32.ofInt n))
  | int64 (op : BinaryOp) (a b : Int64) (n : Int) (hop : op.isArithmetic = true)
      (h : exactArith op a.toInt b.toInt = some n) (hlo : -2 ^ 63 ≤ n) (hhi : n < 2 ^ 63) :
    LiteralFold op (.int64 a) (.int64 b) (.int64 (Int64.ofInt n))
  | float32 (op : BinaryOp) (a b : F32) (hop : op.isArithmetic = true) :
    LiteralFold op (.float32 a) (.float32 b) (narrowFloat (Value.arithF64 op a.toF64 b.toF64))
  | float64 (op : BinaryOp) (a b : F64) (hop : op.isArithmetic = true) :
    LiteralFold op (.float64 a) (.float64 b) (Value.arithF64 op a b)
  | compare (op : BinaryOp) (l r : Literal) (t : DataType) (x : Bool)
      (hop : op.isComparison = true) (hl : l.dtype = some t) (hr : r.dtype = some t)
      (h : Value.compareSame op l r = some x) :
    LiteralFold op l r (.bool x)
  | and (a b : Bool) : LiteralFold .and (.bool a) (.bool b) (.bool (a && b))
  | or (a b : Bool) : LiteralFold .or (.bool a) (.bool b) (.bool (a || b))

theorem foldLiteralBinary_fold (h : foldLiteralBinary op l r = some v) :
  LiteralFold op l r v
  := by
  unfold foldLiteralBinary at h
  split at h
  case h_1 a b =>
    split at h
    · next n hn =>
      obtain ⟨hop, m, hm, hexact⟩ | ⟨-, hx⟩ := foldInt_cases hn
      · cases hm
        split at h
        · next hfits =>
          cases h
          rw [Int32.toInt_toInt64, Int32.toInt_toInt64] at hexact
          have hrange := of_decide_eq_true hfits
          exact .int32 op a b n.toInt hop hexact hrange.1 hrange.2
        · cases h
      · cases hx
    · next x hx =>
      obtain ⟨-, _, hn, -⟩ | ⟨hop, hx⟩ := foldInt_cases hx
      · cases hn
      · cases h
        cases hx
        refine .compare op _ _ .int32 _ hop rfl rfl ?_
        rw [compareOrd_toInt64]
        rfl
    · cases h
  case h_2 a b =>
    split at h
    · next n hn =>
      obtain ⟨hop, m, hm, hexact⟩ | ⟨-, hx⟩ := foldInt_cases hn
      · cases hm
        cases h
        rw [← Int64.ofInt_toInt n]
        exact .int64 op a b n.toInt hop hexact n.le_toInt n.toInt_lt
      · cases hx
    · next x hx =>
      obtain ⟨-, _, hn, -⟩ | ⟨hop, hx⟩ := foldInt_cases hx
      · cases hn
      · cases h
        cases hx
        exact .compare op _ _ .int64 _ hop rfl rfl rfl
    · cases h
  case h_3 a b =>
    unfold foldFloat at h
    split at h
    · next hop =>
      cases h
      exact .float64 op a b hop
    split at h
    · next hop =>
      cases h
      exact .compare op _ _ .float64 _ hop rfl rfl rfl
    · cases h
  case h_4 a b =>
    obtain ⟨w, hw, rfl⟩ := Option.map_eq_some_iff.mp h
    unfold foldFloat at hw
    split at hw
    · next hop =>
      cases hw
      exact .float32 op a b hop
    split at hw
    · next hop =>
      cases hw
      refine .compare op _ _ .float32 _ hop rfl rfl ?_
      rw [compareFloat_toF64]
      rfl
    · cases hw
  case h_5 a b =>
    split at h
    · cases h
      exact .and a b
    · cases h
      exact .or a b
    · cases h
      exact .compare .eq _ _ .bool _ rfl rfl rfl (by cases a <;> cases b <;> rfl)
    · cases h
      exact .compare .notEq _ _ .bool _ rfl rfl rfl (by cases a <;> cases b <;> rfl)
    · cases h
  case h_6 => cases h

/-- A folded constant has the type of the operator. -/
theorem LiteralFold.dtype (h : LiteralFold op l r v) :
  ∃ t u, l.dtype = some t ∧ r.dtype = some t ∧ v.dtype = some u ∧ binaryDtype op t t = .ok u
  := by
  cases h with
  | int32 _ _ _ _ hop | int64 _ _ _ _ hop =>
    exact ⟨_, _, rfl, rfl, rfl, binaryDtype_of_isArithmetic hop rfl⟩
  | float32 op a b hop =>
    refine ⟨.float32, .float32, rfl, rfl, ?_, binaryDtype_of_isArithmetic hop rfl⟩
    cases op <;> first | rfl | cases hop
  | float64 op a b hop =>
    refine ⟨.float64, .float64, rfl, rfl, ?_, binaryDtype_of_isArithmetic hop rfl⟩
    cases op <;> first | rfl | cases hop
  | compare op l r t x hop hl hr =>
    exact ⟨t, .bool, hl, hr, rfl, binaryDtype_of_isComparison t hop⟩
  | and a b | or a b => exact ⟨.bool, .bool, rfl, rfl, rfl, rfl⟩

/-! ### Casts of constants -/

/-- A constant is cast only where nothing is lost. -/
theorem foldLiteralCast_lossless {lit v : Literal} {target : DataType}
    (h : foldLiteralCast lit target = some v) :
  v.dtype = some target ∧ Value.lossless target lit = true ∧
    ∀ B safe, Value.cast B safe target lit = v
  := by
  unfold foldLiteralCast at h
  split at h
  · next hl =>
    cases h
    refine ⟨hl, ?_, ?_⟩
    · unfold Value.lossless
      split <;> first | rfl | cases hl | simpa using hl
    · intro B safe
      unfold Value.cast
      rw [isNull_of_dtype hl, if_neg (by decide), if_pos hl]
  split at h
  · cases h
    exact ⟨rfl, rfl, fun B safe => by cases safe <;> rfl⟩
  · next n _ =>
    split at h
    · next hfits =>
      cases h
      refine ⟨rfl, hfits, ?_⟩
      have hrange := of_decide_eq_true hfits
      have hback : n.toInt32.toInt64 = n := by
        rw [← Int64.toInt_inj, Int32.toInt_toInt64, Int64.toInt_toInt32]
        exact Int.bmod_eq_of_le (by omega) (by omega)
      intro B safe
      cases safe with
      | false => rfl
      | true =>
        change Value.narrowSafe n = _
        rw [Value.narrowSafe, if_pos hback]
    · cases h
  · cases h
    exact ⟨rfl, rfl, fun B safe => by cases safe <;> rfl⟩
  · cases h

end CratonBolt
