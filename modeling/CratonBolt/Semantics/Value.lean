import CratonBolt.Library.KeyedList
import CratonBolt.Library.Kleene
import CratonBolt.Plan.Typing
import CratonBolt.Semantics.Floats

/-!
# Values and the meaning of the operators

A cell of a table holds a `Value`: a constant of some type, or `NULL`. The operators below give
SQL's meaning at the level of one value: integers wrap around, a division or remainder without
an integer result is `NULL`, floats follow IEEE 754, comparisons and connectives are
three-valued.

The string functions, calendar functions, text conversions, decimal arithmetic, aggregates and
window functions are a parameter, `Builtins`: the results about plans hold whatever they
compute.
-/

namespace CratonBolt

/-- The content of a cell. -/
abbrev Value := Literal

/-- A row of cells. -/
abbrev Row := List Value

namespace Value

/-- The truth value of a cell; anything but a Boolean is unknown. -/
def truth : Value → Option Bool
  | .bool b => some b
  | _ => none

/-- The cell holding a truth value. -/
def ofTruth : Option Bool → Value
  | some b => .bool b
  | none => .null

/-- A filter keeps a row on which its predicate is true. -/
def isTrue (v : Value) : Bool := v.truth == some true

def isNull : Value → Bool
  | .null => true
  | _ => false

@[simp]
theorem truth_ofTruth (t : Option Bool) :
  (ofTruth t).truth = t
  := by
  cases t <;> rfl

/-! ### Conversions -/

/-- Conversion of a cell between the types that `CAST` relates; `NULL` stays `NULL`. -/
def convert (t : DataType) (v : Value) : Value :=
  match v, t with
  | .bool b, .bool => .bool b
  | .bool b, .int32 => .int32 (if b then 1 else 0)
  | .bool b, .int64 => .int64 (if b then 1 else 0)
  | .int32 n, .bool => .bool (n != 0)
  | .int32 n, .int32 => .int32 n
  | .int32 n, .int64 => .int64 n.toInt64
  | .int32 n, .float32 => .float32 (F32.ofInt n.toInt)
  | .int32 n, .float64 => .float64 (F64.ofInt n.toInt)
  | .int64 n, .bool => .bool (n != 0)
  | .int64 n, .int32 => .int32 n.toInt32
  | .int64 n, .int64 => .int64 n
  | .int64 n, .float32 => .float32 (F32.ofInt n.toInt)
  | .int64 n, .float64 => .float64 (F64.ofInt n.toInt)
  | .float32 x, .float32 => .float32 x
  | .float32 x, .float64 => .float64 x.toF64
  | .float64 x, .float32 => .float32 ⟨(Float.ofBits x.bits).toFloat32.toBits⟩
  | .float64 x, .float64 => .float64 x
  | v, t => if v.dtype = some t then v else .null

/-- The type two cells of numeric type are brought to before they are combined. -/
def commonType (a b : Value) : Option DataType :=
  match a.dtype, b.dtype with
  | some s, some t => (unifyNumeric s t).toOption
  | _, _ => none

/-! ### Arithmetic -/

variable (op : BinaryOp)

/-- `+ - * /` on 32-bit integers. -/
def arith32 (a b : Int32) : Value :=
  match op with
  | .add => .int32 (a + b)
  | .sub => .int32 (a - b)
  | .mul => .int32 (a * b)
  | .div => if b = 0 ∨ (a = Int32.minValue ∧ b = -1) then .null else .int32 (a / b)
  | _ => .null

/-- `+ - * /` on 64-bit integers. -/
def arith64 (a b : Int64) : Value :=
  match op with
  | .add => .int64 (a + b)
  | .sub => .int64 (a - b)
  | .mul => .int64 (a * b)
  | .div => if b = 0 ∨ (a = Int64.minValue ∧ b = -1) then .null else .int64 (a / b)
  | _ => .null

/-- `+ - * /` on 32-bit floats. -/
def arithF32 (a b : F32) : Value :=
  let x := Float32.ofBits a.bits
  let y := Float32.ofBits b.bits
  match op with
  | .add => .float32 ⟨(x + y).toBits⟩
  | .sub => .float32 ⟨(x - y).toBits⟩
  | .mul => .float32 ⟨(x * y).toBits⟩
  | .div => .float32 ⟨(x / y).toBits⟩
  | _ => .null

/-- `+ - * /` on 64-bit floats. -/
def arithF64 (a b : F64) : Value :=
  let x := Float.ofBits a.bits
  let y := Float.ofBits b.bits
  match op with
  | .add => .float64 ⟨(x + y).toBits⟩
  | .sub => .float64 ⟨(x - y).toBits⟩
  | .mul => .float64 ⟨(x * y).toBits⟩
  | .div => .float64 ⟨(x / y).toBits⟩
  | _ => .null

/-- `+ - * /` on cells of the same primitive numeric type. -/
def arithSame : Value → Value → Value
  | .int32 a, .int32 b => arith32 op a b
  | .int64 a, .int64 b => arith64 op a b
  | .float32 a, .float32 b => arithF32 op a b
  | .float64 a, .float64 b => arithF64 op a b
  | _, _ => .null

/-- Arithmetic on dates and timestamps; a count of days is read as a 32-bit integer. -/
def arithTemporal : Value → Value → Value
  | .date32 a, .date32 b => arith32 op a b
  | .date32 a, .int32 n => (match op with | .add => .date32 (a + n) | _ => .date32 (a - n))
  | .date32 a, .int64 n =>
    (match op with | .add => .date32 (a + n.toInt32) | _ => .date32 (a - n.toInt32))
  | .int32 n, .date32 a => .date32 (n + a)
  | .int64 n, .date32 a => .date32 (n.toInt32 + a)
  | .timestamp a _ _, .timestamp b _ _ => arith64 op a b
  | _, _ => .null

/-! ### Integer operators -/

/-- `% & | ^ << >>` on 32-bit integers; a shift outside the width saturates. -/
def integerOp32 (a b : Int32) : Value :=
  match op with
  | .mod => if b = 0 ∨ (a = Int32.minValue ∧ b = -1) then .null else .int32 (a % b)
  | .bitAnd => .int32 (a &&& b)
  | .bitOr => .int32 (a ||| b)
  | .bitXor => .int32 (a ^^^ b)
  | .shl => .int32 (if 0 ≤ b ∧ b < 32 then a <<< b else 0)
  | .shr => .int32 (if 0 ≤ b ∧ b < 32 then a >>> b else a >>> 31)
  | _ => .null

/-- `% & | ^ << >>` on 64-bit integers; a shift outside the width saturates. -/
def integerOp64 (a b : Int64) : Value :=
  match op with
  | .mod => if b = 0 ∨ (a = Int64.minValue ∧ b = -1) then .null else .int64 (a % b)
  | .bitAnd => .int64 (a &&& b)
  | .bitOr => .int64 (a ||| b)
  | .bitXor => .int64 (a ^^^ b)
  | .shl => .int64 (if 0 ≤ b ∧ b < 64 then a <<< b else 0)
  | .shr => .int64 (if 0 ≤ b ∧ b < 64 then a >>> b else a >>> 63)
  | _ => .null

/-- An integer operator; the count of a shift is read at the width of the shifted value. -/
def integerOp (a b : Value) : Value :=
  let target := if op.isShift then a.dtype else commonType a b
  match target with
  | none => .null
  | some t =>
    match a.convert t, b.convert t with
    | .int32 x, .int32 y => integerOp32 op x y
    | .int64 x, .int64 y => integerOp64 op x y
    | _, _ => .null

/-! ### Comparison -/

/-- The outcome of a comparison from the three facts it may look at. -/
def compareWith (eq lt gt : Bool) : Bool :=
  match op with
  | .eq => eq
  | .notEq => !eq
  | .lt => lt
  | .ltEq => lt || eq
  | .gt => gt
  | .gtEq => gt || eq
  | _ => false

/-- Comparison in a linear order. -/
def compareOrd {α : Type} [DecidableEq α] [LT α] [DecidableLT α] (op : BinaryOp) (a b : α) :
    Bool :=
  compareWith op (decide (a = b)) (decide (a < b)) (decide (b < a))

/-- The bit patterns of the NaNs of a 32-bit float. -/
def nan32 (bits : UInt32) : Bool := (bits &&& 0x7fffffff) > 0x7f800000

/-- The bit patterns of the NaNs of a 64-bit float. -/
def nan64 (bits : UInt64) : Bool := (bits &&& 0x7fffffffffffffff) > 0x7ff0000000000000

/-- The value is a NaN. -/
def isNan : Value → Bool
  | .float32 x => nan32 x.bits
  | .float64 x => nan64 x.bits
  | _ => false

/-- The sign and the magnitude of a float as an integer; both zeros are `0`. -/
def floatOrder (width : Nat) (bits : Nat) : Int :=
  if bits < 2 ^ (width - 1) then bits else -(bits - 2 ^ (width - 1) : Int)

/-- Comparison of floats, which are ordered by sign and magnitude unless one is a NaN. -/
def compareFloat (unordered : Bool) (a b : Int) : Bool :=
  compareWith op (!unordered && decide (a = b)) (!unordered && decide (a < b))
    (!unordered && decide (b < a))

/-- Comparison of two cells of the same type, neither of them `NULL`. -/
def compareSame : Value → Value → Option Bool
  | .bool a, .bool b => some (compareOrd op a b)
  | .int32 a, .int32 b => some (compareOrd op a b)
  | .int64 a, .int64 b => some (compareOrd op a b)
  | .float32 a, .float32 b =>
    some (compareFloat op (nan32 a.bits || nan32 b.bits) (floatOrder 32 a.bits.toNat)
      (floatOrder 32 b.bits.toNat))
  | .float64 a, .float64 b =>
    some (compareFloat op (nan64 a.bits || nan64 b.bits) (floatOrder 64 a.bits.toNat)
      (floatOrder 64 b.bits.toNat))
  | .utf8 a, .utf8 b => some (compareOrd op a b)
  | .decimal128 a _ _, .decimal128 b _ _ => some (compareOrd op a.toInt b.toInt)
  | .date32 a, .date32 b => some (compareOrd op a b)
  | .timestamp a _ _, .timestamp b _ _ => some (compareOrd op a b)
  | _, _ => none

/-- A comparison, unknown when a side is `NULL`. -/
def compare (a b : Value) : Value :=
  ofTruth <| match commonType a b with
    | some t => compareSame op (a.convert t) (b.convert t)
    | none => compareSame op a b

theorem unifyNumeric_comm_toOption (s t : DataType) :
  (unifyNumeric s t).toOption = (unifyNumeric t s).toOption
  := by
  unfold unifyNumeric
  rw [Bool.or_comm (!s.isNumeric)]
  split
  · rfl
  · simp only [Bool.or_comm s.isFloat]
    congr 3
    cases s == DataType.int64 <;> cases s == DataType.float64 <;> cases t == DataType.int64 <;>
      cases t == DataType.float64 <;> rfl

theorem commonType_comm (a b : Value) :
  commonType a b = commonType b a
  := by
  unfold commonType
  cases a.dtype with
  | none => cases b.dtype <;> rfl
  | some s =>
    cases b.dtype with
    | none => rfl
    | some t => exact unifyNumeric_comm_toOption s t

theorem compareSame_eq_comm (a b : Value) :
  compareSame .eq a b = compareSame .eq b a
  := by
  cases a <;> cases b <;>
    simp [compareSame, compareOrd, compareFloat, compareWith, eq_comm, Bool.or_comm]

/-- Equality is symmetric. -/
theorem compare_eq_comm (a b : Value) :
  compare .eq a b = compare .eq b a
  := by
  unfold compare
  rw [commonType_comm a b]
  cases commonType b a with
  | none => exact congrArg ofTruth (compareSame_eq_comm a b)
  | some t => exact congrArg ofTruth (compareSame_eq_comm (convert t a) (convert t b))

/-! ### Keys -/

/--
What a cell is compared by in `DISTINCT`, `GROUP BY` and the set operators: `NULL` is equal to
`NULL`, the two zeros of a float are one key, and so are all its NaNs.
-/
def key : Value → Value
  | .float32 ⟨bits⟩ =>
    if nan32 bits then .float32 ⟨0x7fc00000⟩
    else if bits = 0x80000000 then .float32 ⟨0⟩ else .float32 ⟨bits⟩
  | .float64 ⟨bits⟩ =>
    if nan64 bits then .float64 ⟨0x7ff8000000000000⟩
    else if bits = 0x8000000000000000 then .float64 ⟨0⟩ else .float64 ⟨bits⟩
  | v => v

/-- The position of a float among the floats ordered from `-NaN` to `NaN`. -/
def floatRank (width : Nat) (bits : Nat) : Int :=
  if bits < 2 ^ (width - 1) then bits else -(bits - 2 ^ (width - 1) : Int) - 1

/-- What a cell is ordered by within a column; only cells of one type are ever compared. -/
def orderKey : Value → List Int
  | .null => []
  | .bool b => [if b then 1 else 0]
  | .int32 n => [n.toInt]
  | .int64 n => [n.toInt]
  | .float32 x => [floatRank 32 x.bits.toNat]
  | .float64 x => [floatRank 64 x.bits.toNat]
  | .utf8 s => s.toList.map (fun c => (c.toNat : Int))
  | .decimal128 raw _ _ => [raw.toInt]
  | .date32 n => [n.toInt]
  | .timestamp n _ _ => [n.toInt]

/-- One cell may stand before another under a sort key with the given direction. -/
def sortsBefore (descending nullsFirst : Bool) (a b : Value) : Bool :=
  match a.isNull, b.isNull with
  | true, true => true
  | true, false => nullsFirst
  | false, true => !nullsFirst
  | false, false =>
    if descending then KeyedList.lexLe b.orderKey a.orderKey
    else KeyedList.lexLe a.orderKey b.orderKey

end Value

end CratonBolt
