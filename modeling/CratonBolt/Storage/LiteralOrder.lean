import CratonBolt.Storage.Statistics
import Mathlib.Data.String.Basic

/-!
# The order of constants

Among the values of one column, NaNs and `NULL` apart, `compareLiterals` is a total order, and
comparison with a constant of a comparable type is monotone in it. It says what a comparison of the
plan says, except for an `Int32` against a `Float32`: the plan compares them as 32-bit floats, which
rounds the integer, and `compareLiterals` as 64-bit floats, which does not.
-/

namespace CratonBolt.Storage

open Value Option
open DataType (isFloat isInt isNumeric)
open Literal (dtype)

variable {a b : Value} {o : Ordering} {x y : F64} {v : Literal}

/-- A value that the bounds of a column take in. -/
def isOrdinary (v : Value) : Bool := !v.isNull && !isNan v

/-- A comparison that the plan makes after rounding an integer to 24 bits. -/
def roundsTo32 : Value → Value → Bool
  | .int32 _, .float32 _ => true
  | .float32 _, .int32 _ => true
  | _, _ => false

/-- The outcome of a comparison from the order of its sides. -/
def holdsFor (op : BinaryOp) (o : Ordering) : Bool :=
  compareWith op (o == .eq) (o == .lt) (o == .gt)

/-- The types of two values may be compared. -/
def comparableValues (a b : Value) : Bool :=
  match a.dtype, b.dtype with
  | some t, some u => comparable t u
  | _, _ => false

/-! ### Linear orders -/

section LinearOrders

variable {K : Type} [LinearOrder K]

theorem holdsFor_compare (op : BinaryOp) (p q : K) :
  holdsFor op (compare p q) =
    compareWith op (decide (p = q)) (decide (p < q)) (decide (q < p))
  := by
  unfold holdsFor
  obtain h | h | h := lt_trichotomy p q
  · simp [compare_lt_iff_lt.mpr h, h, h.ne, h.not_gt]
  · simp [h]
  · simp [compare_gt_iff_gt.mpr h, h, h.ne', h.not_gt]

/-- What follows for the order with a third element when an element grows. -/
structure Grows (o o' : Ordering) : Prop where
  gt : o = .gt → o' = .gt
  lt : o' = .lt → o = .lt

theorem grows_compare {p q : K} (r : K) (h : p ≤ q) :
  Grows (compare p r) (compare q r)
  := by
  constructor
  · intro hp
    rw [compare_gt_iff_gt] at hp ⊢
    apply lt_of_lt_of_le hp h
  · intro hq
    rw [compare_lt_iff_lt] at hq ⊢
    apply lt_of_le_of_lt h hq

end LinearOrders

/-! ### Floats -/

theorem partialCmp_eq_some :
  partialCmp x y = some o ↔ nan64 x.bits = false ∧ nan64 y.bits = false ∧
    compare (floatOrder 64 x.bits.toNat) (floatOrder 64 y.bits.toNat) = o
  := by
  unfold partialCmp
  cases nan64 x.bits <;> cases nan64 y.bits <;> simp

variable (op : BinaryOp)

/-- The floats compare as constants as they do in a plan. -/
theorem compareFloat_of_partialCmp (h : partialCmp x y = some o) :
  compareFloat op (nan64 x.bits || nan64 y.bits) (floatOrder 64 x.bits.toNat)
    (floatOrder 64 y.bits.toNat) = holdsFor op o
  := by
  obtain ⟨hx, hy, rfl⟩ := partialCmp_eq_some.mp h
  rw [holdsFor_compare, hx, hy]
  rfl

theorem compareFloat32_of_partialCmp {x y : F32} (op : BinaryOp)
    (h : partialCmp x.toF64 y.toF64 = some o) :
  compareFloat op (nan32 x.bits || nan32 y.bits) (floatOrder 32 x.bits.toNat)
    (floatOrder 32 y.bits.toNat) = holdsFor op o
  := by
  obtain ⟨hx, hy, rfl⟩ := partialCmp_eq_some.mp h
  rw [F32.nan_toF64] at hx hy
  rw [holdsFor_compare, hx, hy]
  have hlt := F32.order_toF64_lt_iff hx hy
  have hgt := F32.order_toF64_lt_iff hy hx
  have heq : floatOrder 64 x.toF64.bits.toNat = floatOrder 64 y.toF64.bits.toNat ↔
      floatOrder 32 x.bits.toNat = floatOrder 32 y.bits.toNat := by omega
  simp only [compareFloat, hlt, hgt, heq, Bool.or_self, Bool.not_false, Bool.true_and]

/-! ### Integers -/

theorem natAbs_toInt_int32 (n : Int32) :
  n.toInt.natAbs < 2 ^ 64
  := by
  have h₁ := n.toInt_lt
  have h₂ := n.le_toInt
  omega

theorem natAbs_toInt_int64 (n : Int64) :
  n.toInt.natAbs < 2 ^ 64
  := by
  have h₁ := n.toInt_lt
  have h₂ := n.le_toInt
  omega

theorem compareOrd_int32 (a b : Int32) :
  compareOrd op a b = holdsFor op (compare a.toInt b.toInt)
  := by
  rw [holdsFor_compare]
  simp only [compareOrd, Int32.toInt_inj, Int32.lt_iff_toInt_lt]

theorem compareOrd_int64 (a b : Int64) :
  compareOrd op a b = holdsFor op (compare a.toInt b.toInt)
  := by
  rw [holdsFor_compare]
  simp only [compareOrd, Int64.toInt_inj, Int64.lt_iff_toInt_lt]

/-! ### Constants -/

theorem compareDecimals_self_scale (x y : Int) (s : Int8) :
  compareDecimals x s y s = some (compare x y)
  := by
  simp [compareDecimals, rescalePair]

/-- Numeric constants that are not both integers compare as floats. -/
theorem compareLiterals_float {a b : Literal} (ha : float a = some x) (hb : float b = some y)
    (h : int a = none ∨ int b = none) :
  compareLiterals a b = partialCmp x y
  := by
  unfold compareLiterals
  rw [ha, hb]
  cases hia : int a with
  | none => rfl
  | some m =>
    cases hib : int b with
    | none => rfl
    | some n => simp [hia, hib] at h

theorem compareLiterals_int {a b : Literal} {x y : Int} (ha : int a = some x)
    (hb : int b = some y) :
  compareLiterals a b = some (compare x y)
  := by
  unfold compareLiterals
  rw [ha, hb]

/-! ### Comparison in a plan -/

theorem convert_float64 {x : F64} (h : float v = some x) :
  convert .float64 v = .float64 x
  := by
  cases v <;> simp_all [float, convert]

theorem compare_float64 {a b : Literal} (op : BinaryOp) (ha : float a = some x)
    (hb : float b = some y) (hcommon : commonType a b = some .float64)
    (h : partialCmp x y = some o) :
  compare op a b = .bool (holdsFor op o)
  := by
  unfold Value.compare
  rw [hcommon]
  simp only [convert_float64 ha, convert_float64 hb, compareSame, compareFloat_of_partialCmp op h,
    ofTruth]

/-- Values of a type that is not numeric compare in the order of the type. -/
theorem compare_of_compareLiterals_same (ht : a.dtype = b.dtype)
    (hn : float a = none) (hnull : a.isNull = false) (h : compareLiterals a b = some o) :
  Value.compare op a b = .bool (holdsFor op o)
  := by
  cases a <;> cases b <;> simp [Literal.dtype, float, isNull] at ht hn hnull
  case bool.bool x y =>
    obtain rfl : compare x y = o := by simpa [compareLiterals, int, float] using h
    rw [holdsFor_compare]
    rfl
  case utf8.utf8 x y =>
    obtain rfl : compareOfLessAndEq x y = o := by simpa [compareLiterals, int, float] using h
    rw [← LinearOrder.compare_eq_compareOfLessAndEq, holdsFor_compare]
    rfl
  case date32.date32 x y =>
    obtain rfl : compare x.toInt y.toInt = o := by simpa [compareLiterals, int, float] using h
    rw [← compareOrd_int32]
    rfl
  case timestamp.timestamp x ux tx y uy ty =>
    obtain rfl : compare x.toInt y.toInt = o := by simpa [compareLiterals, int, float, ht] using h
    rw [← compareOrd_int64]
    simp [Value.compare, commonType, Literal.dtype, unifyNumeric, isNumeric, isInt,
      isFloat, compareSame, ofTruth, Except.toOption]
  case decimal128.decimal128 x px sx y py sy =>
    obtain rfl : compare x.toInt y.toInt = o := by
      simpa [compareLiterals, int, float, ht, compareDecimals_self_scale] using h
    rw [holdsFor_compare]
    simp [Value.compare, commonType, Literal.dtype, unifyNumeric, isNumeric, isInt,
      isFloat, compareSame, ofTruth, Except.toOption, compareOrd]


/-- The types of two numeric values that are compared as 64-bit floats. -/
theorem commonType_float64 {a b : Literal} (ha : float a = some x) (hb : float b = some y)
    (h : int a = none ∨ int b = none) (hr : roundsTo32 a b = false) :
  commonType a b = some .float64 ∨ ∃ x y, a = .float32 x ∧ b = .float32 y
  := by
  cases a <;> cases b <;> simp [float, int, roundsTo32] at ha hb h hr ⊢ <;> rfl

theorem int_isSome_cases {n : Int} (h : int v = some n) :
  (∃ m : Int32, v = .int32 m ∧ m.toInt = n) ∨ ∃ m : Int64, v = .int64 m ∧ m.toInt = n
  := by
  cases v <;> simp [int] at h ⊢ <;> exact h

/-- Integers compare in a plan as they do as constants. -/
theorem compare_of_int {a b : Literal} {x y : Int} (op : BinaryOp) (ha : int a = some x)
    (hb : int b = some y) :
  compare op a b = .bool (holdsFor op (Ord.compare x y))
  := by
  obtain ⟨m, rfl, rfl⟩ | ⟨m, rfl, rfl⟩ := int_isSome_cases ha <;>
    obtain ⟨n, rfl, rfl⟩ | ⟨n, rfl, rfl⟩ := int_isSome_cases hb
  · rw [← compareOrd_int32]
    rfl
  · rw [← Int32.toInt_toInt64 m, ← compareOrd_int64]
    rfl
  · rw [← Int32.toInt_toInt64 n, ← compareOrd_int64]
    rfl
  · rw [← compareOrd_int64]
    rfl

/-- How values of comparable types are compared. -/
theorem comparableValues_cases (h : comparableValues a b = true) :
  (∃ x y, int a = some x ∧ int b = some y) ∨
    (∃ x y, float a = some x ∧ float b = some y ∧ (int a = none ∨ int b = none)) ∨
    (a.dtype = b.dtype ∧ float a = none ∧ a.isNull = false)
  := by
  cases a <;> cases b <;>
    simp [comparableValues, comparable, dtype, isNumeric, isInt,
      isFloat] at h <;>
    simp [int, float, dtype, isNull, h]

theorem compare_of_compareLiterals (hc : comparableValues a b = true)
    (hr : roundsTo32 a b = false) (h : compareLiterals a b = some o) :
  compare op a b = .bool (holdsFor op o)
  := by
  obtain ⟨x, y, ha, hb⟩ | ⟨x, y, ha, hb, hi⟩ | ⟨ht, hf, hn⟩ := comparableValues_cases hc
  · rw [compareLiterals_int ha hb] at h
    obtain rfl := some.inj h
    apply compare_of_int op ha hb
  · rw [compareLiterals_float ha hb hi] at h
    obtain hcommon | ⟨x, y, rfl, rfl⟩ := commonType_float64 ha hb hi hr
    · apply compare_float64 op ha hb hcommon h
    · obtain rfl := some.inj ha
      obtain rfl := some.inj hb
      change ofTruth (some (compareFloat _ _ _ _)) = _
      rw [compareFloat32_of_partialCmp op h]
      rfl
  · apply compare_of_compareLiterals_same op ht hf hn h

/-! ### The order within a column -/

theorem nan_float {x : F64} (h : float v = some x) :
  nan64 x.bits = isNan v
  := by
  cases v <;> simp [float] at h <;> subst h
  · apply F64.nan_ofInt (natAbs_toInt_int32 _)
  · apply F64.nan_ofInt (natAbs_toInt_int64 _)
  · apply F32.nan_toF64
  · rfl

/-- Values of comparable types that are no NaNs are ordered. -/
theorem compareLiterals_isSome (hc : comparableValues a b = true) (ha : isNan a = false)
    (hb : isNan b = false) :
  ∃ o, compareLiterals a b = some o
  := by
  obtain ⟨x, y, hx, hy⟩ | ⟨x, y, hx, hy, hi⟩ | ⟨ht, hf, hn⟩ := comparableValues_cases hc
  · exact ⟨_, compareLiterals_int hx hy⟩
  · rw [compareLiterals_float hx hy hi]
    exact ⟨_, partialCmp_eq_some.mpr ⟨(nan_float hx).trans ha, (nan_float hy).trans hb, rfl⟩⟩
  · cases a <;> cases b <;> simp [dtype, float, isNull] at ht hf hn <;>
      simp [compareLiterals, int, float, ht, compareDecimals_self_scale]

/-- A NaN is ordered with nothing. -/
theorem not_isNan_of_compareLiterals (hc : comparableValues a b = true)
    (h : compareLiterals a b = some o) :
  isNan a = false ∧ isNan b = false
  := by
  obtain ⟨x, y, hx, hy⟩ | ⟨x, y, hx, hy, hi⟩ | ⟨ht, hf, hn⟩ := comparableValues_cases hc
  · obtain ⟨m, rfl, -⟩ | ⟨m, rfl, -⟩ := int_isSome_cases hx <;>
      obtain ⟨n, rfl, -⟩ | ⟨n, rfl, -⟩ := int_isSome_cases hy <;> simp [isNan]
  · rw [compareLiterals_float hx hy hi, partialCmp_eq_some] at h
    exact ⟨(nan_float hx).symm.trans h.1, (nan_float hy).symm.trans h.2.1⟩
  · cases a <;> cases b <;> simp [dtype, float, isNull] at ht hf hn <;> simp [isNan]

theorem le_of_compare_ne_gt {K : Type} [LinearOrder K] {p q : K} (h : Ord.compare p q ≠ .gt) :
  p ≤ q
  := by
  rw [Ne, compare_gt_iff_gt] at h
  exact le_of_not_gt h

theorem grows_same {a x v : Value} {o o' : Ordering} (hax : a.dtype = x.dtype)
    (hv : a.dtype = v.dtype) (hf : float a = none) (hn : a.isNull = false)
    (hle : compareLiterals a x ≠ some .gt) (ha : compareLiterals a v = some o)
    (hx : compareLiterals x v = some o') :
  Grows o o'
  := by
  cases a <;> cases x <;> simp [dtype, float, isNull] at hax hf hn <;> cases v <;>
    simp [dtype] at hv
  case bool.bool.bool p q r =>
    simp only [compareLiterals, int, float, some.injEq, ne_eq] at ha hx hle
    subst ha hx
    apply grows_compare _ (le_of_compare_ne_gt hle)
  case utf8.utf8.utf8 p q r =>
    simp only [compareLiterals, int, float, some.injEq, ne_eq,
      ← LinearOrder.compare_eq_compareOfLessAndEq] at ha hx hle
    subst ha hx
    apply grows_compare _ (le_of_compare_ne_gt hle)
  case decimal128.decimal128.decimal128 p pp sp q pq sq r pr sr =>
    obtain ⟨⟨rfl, rfl⟩, -, rfl⟩ := And.intro hax hv
    simp only [compareLiterals, int, float, some.injEq, ne_eq,
      compareDecimals_self_scale] at ha hx hle
    subst ha hx
    apply grows_compare _ (le_of_compare_ne_gt hle)
  case date32.date32.date32 p q r =>
    simp only [compareLiterals, int, float, some.injEq, ne_eq] at ha hx hle
    subst ha hx
    apply grows_compare _ (le_of_compare_ne_gt hle)
  case timestamp.timestamp.timestamp p up tp q uq tq r ur tr =>
    obtain ⟨⟨rfl, -⟩, rfl, -⟩ := And.intro hax hv
    simp only [compareLiterals, int, float, some.injEq, ne_eq, if_true] at ha hx hle
    subst ha hx
    apply grows_compare _ (le_of_compare_ne_gt hle)

theorem comparableValues_congr {a x v : Value} (h : a.dtype = x.dtype) :
  comparableValues a v = comparableValues x v
  := by
  simp only [comparableValues, h]

theorem int_isSome_congr {a x : Value} (h : a.dtype = x.dtype) :
  (int a).isSome = (int x).isSome
  := by
  cases a <;> cases x <;> simp [dtype] at h <;> simp [int]

theorem float_of_int {n : Int} (h : int v = some n) :
  float v = some (F64.ofInt n) ∧ n.natAbs < 2 ^ 64
  := by
  obtain ⟨m, rfl, rfl⟩ | ⟨m, rfl, rfl⟩ := int_isSome_cases h
  · exact ⟨rfl, natAbs_toInt_int32 m⟩
  · exact ⟨rfl, natAbs_toInt_int64 m⟩

theorem float_isSome_congr {a x : Value} (h : a.dtype = x.dtype) :
  (float a).isSome = (float x).isSome
  := by
  cases a <;> cases x <;> simp [dtype] at h <;> simp [float]

/-- As a value of a column grows, so does its order with a constant. -/
theorem grows_compareLiterals {a x v : Value} {o o' : Ordering} (hax : a.dtype = x.dtype)
    (hc : comparableValues a v = true) (hle : compareLiterals a x ≠ some .gt)
    (ha : compareLiterals a v = some o) (hx : compareLiterals x v = some o') :
  Grows o o'
  := by
  obtain ⟨m, r, hm, hr⟩ | ⟨m, r, hm, hr, hi⟩ | ⟨ht, hf, hn⟩ := comparableValues_cases hc
  · obtain ⟨n, hn⟩ : ∃ n, int x = some n := by
      rw [← isSome_iff_exists, ← int_isSome_congr hax, hm]
      rfl
    rw [compareLiterals_int hm hr] at ha
    rw [compareLiterals_int hn hr] at hx
    rw [compareLiterals_int hm hn, Ne, some.injEq] at hle
    obtain rfl := some.inj ha
    obtain rfl := some.inj hx
    apply grows_compare _ (le_of_compare_ne_gt hle)
  · obtain ⟨n, hn⟩ : ∃ n, float x = some n := by
      rw [← isSome_iff_exists, ← float_isSome_congr hax, hm]
      rfl
    have hi' : int x = none ∨ int v = none := by
      simpa only [← isNone_iff_eq_none, ← not_isSome, int_isSome_congr hax] using hi
    rw [compareLiterals_float hm hr hi, partialCmp_eq_some] at ha
    rw [compareLiterals_float hn hr hi', partialCmp_eq_some] at hx
    obtain ⟨hma, -, rfl⟩ := ha
    obtain ⟨hxa, -, rfl⟩ := hx
    apply grows_compare
    -- a column of integers is ordered exactly, and rounding to floats keeps its order
    cases hia : int a with
    | some p =>
      obtain ⟨q, hq⟩ : ∃ q, int x = some q := by
        rw [← isSome_iff_exists, ← int_isSome_congr hax, hia]
        rfl
      obtain ⟨hp, hpb⟩ := float_of_int hia
      obtain ⟨hq', hqb⟩ := float_of_int hq
      obtain rfl := some.inj (hm.symm.trans hp)
      obtain rfl := some.inj (hn.symm.trans hq')
      rw [compareLiterals_int hia hq, Ne, some.injEq] at hle
      apply F64.order_ofInt_mono hpb hqb (le_of_compare_ne_gt hle)
    | none =>
      rw [compareLiterals_float hm hn (.inl hia)] at hle
      apply le_of_compare_ne_gt
      intro hgt
      exact hle (partialCmp_eq_some.mpr ⟨hma, hxa, hgt⟩)
  · apply grows_same hax ht hf hn hle ha hx

section Order

variable {K : Type} [LinearOrder K]

theorem compare_gt_iff_swap {p q : K} :
  Ord.compare p q = .gt ↔ Ord.compare q p = .lt
  := by
  rw [compare_gt_iff_gt, compare_lt_iff_lt]

end Order

theorem comparableValues_self (h : a.dtype = b.dtype) (ha : a.isNull = false) :
  comparableValues a b = true
  := by
  unfold comparableValues
  rw [h]
  cases hb : b.dtype with
  | none =>
    cases a <;> simp_all [dtype, isNull]
  | some t => simp [comparable]

/-- A value is above another one exactly when that one is below it. -/
theorem compareLiterals_gt_iff (h : a.dtype = b.dtype) (ha : a.isNull = false) :
  compareLiterals a b = some .gt ↔ compareLiterals b a = some .lt
  := by
  have hc := comparableValues_self h ha
  obtain ⟨x, y, hx, hy⟩ | ⟨x, y, hx, hy, hi⟩ | ⟨ht, hf, hn⟩ := comparableValues_cases hc
  · rw [compareLiterals_int hx hy, compareLiterals_int hy hx, some.injEq, some.injEq]
    apply compare_gt_iff_swap
  · rw [compareLiterals_float hx hy hi, compareLiterals_float hy hx hi.symm, partialCmp_eq_some,
      partialCmp_eq_some, compare_gt_iff_swap]
    tauto
  · cases a <;> cases b <;> simp [dtype, float, isNull] at ht hf hn
    case bool.bool p q =>
      simp only [compareLiterals, int, float, some.injEq]
      apply compare_gt_iff_swap
    case utf8.utf8 p q =>
      simp only [compareLiterals, int, float, some.injEq,
        ← LinearOrder.compare_eq_compareOfLessAndEq]
      apply compare_gt_iff_swap
    case decimal128.decimal128 p pp sp q pq sq =>
      obtain ⟨rfl, rfl⟩ := ht
      simp only [compareLiterals, int, float, some.injEq, compareDecimals_self_scale]
      apply compare_gt_iff_swap
    case date32.date32 p q =>
      simp only [compareLiterals, int, float, some.injEq]
      apply compare_gt_iff_swap
    case timestamp.timestamp p up tp q uq tq =>
      obtain ⟨rfl, rfl⟩ := ht
      simp only [compareLiterals, int, float, some.injEq, if_true]
      apply compare_gt_iff_swap

theorem partialCmp_congr (h : partialCmp x y = some .eq) (z : F64) :
  partialCmp x z = partialCmp y z
  := by
  obtain ⟨hx, hy, heq⟩ := partialCmp_eq_some.mp h
  rw [compare_eq_iff_eq] at heq
  simp only [partialCmp, hx, hy, heq]

/-- A float compares as a float with everything numeric, and with nothing else. -/
theorem compareLiterals_of_float {a : Literal} {x : F64} (ha : float a = some x)
    (hi : int a = none) (v : Literal) :
  compareLiterals a v = (float v).bind (partialCmp x)
  := by
  cases hv : float v with
  | some y => rw [compareLiterals_float ha hv (.inl hi), bind_some]
  | none =>
    cases a <;> simp [float, int] at ha hi <;> cases v <;>
      simp [compareLiterals, int, float] at hv ⊢

/-- Values of one type between which neither is above the other compare alike with any constant. -/
theorem compareLiterals_congr (h : a.dtype = b.dtype) (ha : a.isNull = false)
    (hab : compareLiterals a b = some .eq) (v : Literal) :
  compareLiterals a v = compareLiterals b v
  := by
  cases a <;> cases b <;> simp [dtype, isNull] at h ha
  case bool.bool p q =>
    simp only [compareLiterals, int, float, some.injEq, compare_eq_iff_eq] at hab
    rw [hab]
  case int32.int32 p q =>
    simp only [compareLiterals, int, some.injEq, compare_eq_iff_eq, Int32.toInt_inj] at hab
    rw [hab]
  case int64.int64 p q =>
    simp only [compareLiterals, int, some.injEq, compare_eq_iff_eq, Int64.toInt_inj] at hab
    rw [hab]
  case utf8.utf8 p q =>
    simp only [compareLiterals, int, float, some.injEq,
      ← LinearOrder.compare_eq_compareOfLessAndEq, compare_eq_iff_eq] at hab
    rw [hab]
  case date32.date32 p q =>
    simp only [compareLiterals, int, float, some.injEq, compare_eq_iff_eq,
      Int32.toInt_inj] at hab
    rw [hab]
  case timestamp.timestamp p up tp q uq tq =>
    obtain ⟨rfl, rfl⟩ := h
    simp only [compareLiterals, int, float, some.injEq, compare_eq_iff_eq,
      Int64.toInt_inj, if_true] at hab
    rw [hab]
  case decimal128.decimal128 p pp sp q pq sq =>
    obtain ⟨rfl, rfl⟩ := h
    simp only [compareLiterals, int, float, some.injEq, compareDecimals_self_scale,
      compare_eq_iff_eq, BitVec.toInt_inj] at hab
    rw [hab]
  case float32.float32 p q =>
    rw [compareLiterals_of_float rfl rfl] at hab
    rw [compareLiterals_of_float rfl rfl, compareLiterals_of_float rfl rfl]
    congr 1
    funext z
    apply partialCmp_congr hab
  case float64.float64 p q =>
    rw [compareLiterals_of_float rfl rfl] at hab
    rw [compareLiterals_of_float rfl rfl, compareLiterals_of_float rfl rfl]
    congr 1
    funext z
    apply partialCmp_congr hab

end CratonBolt.Storage
