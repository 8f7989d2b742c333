import CratonBolt.Library.StateErrors
import CratonBolt.Library.WordPairs
import CratonBolt.Plan.Typing

/-!
# Decimal operations of a kernel

How `Codegen` of `plan/physical_plan.rs` lowers an operation on decimals, or on a decimal and an
integer, to instructions on pairs of 64-bit registers, and what those instructions compute, as
`jit/ptx_gen.rs` translates them. An operand of a smaller scale is multiplied by a power of ten
first; all arithmetic is modulo `2 ^ 128`.
-/

namespace CratonBolt.Decimals

/-! ### Kernels under construction -/

/-- A register of the kernel. -/
abbrev Reg := Nat

/-- A value of the kernel: its register, for a decimal the one of its lower half. -/
structure Value where
  reg : Reg
  dtype : DataType
  hiReg : Option Reg
deriving DecidableEq, Repr

def Value.single (reg : Reg) (dtype : DataType) : Value := ⟨reg, dtype, none⟩

def Value.pair (lo hi : Reg) (dtype : DataType) : Value := ⟨lo, dtype, some hi⟩

/-- The instructions that decimal operations use. -/
inductive Op where
  | const128 (dstLo dstHi : Reg) (lo hi : BitVec 64)
  | widenToI128 (dstLo dstHi src : Reg) (source : DataType)
  | add128 (dstLo dstHi aLo aHi bLo bHi : Reg)
  | sub128 (dstLo dstHi aLo aHi bLo bHi : Reg)
  | mul128 (dstLo dstHi aLo aHi bLo bHi : Reg)
  | div128 (dstLo dstHi aLo aHi bLo bHi : Reg)
  | cmp128 (dst : Reg) (op : BinaryOp) (aLo aHi bLo bHi : Reg)
deriving DecidableEq, Repr

/-- The next free register and the instructions emitted so far. -/
structure Codegen where
  next : Reg
  ops : List Op
deriving DecidableEq, Repr

/-- An emission: it adds instructions, or fails. -/
abbrev Emit := EStateM BoltError Codegen

def fresh : Emit Reg := do
  let c ← get
  set (⟨c.next + 1, c.ops⟩ : Codegen)
  pure c.next

def push (op : Op) : Emit PUnit := modify (fun c => ⟨c.next, c.ops ++ [op]⟩)

/-- The result of a planner function, as an emission without instructions. -/
def ofResult {α : Type} : BoltResult α → Emit α
  | .ok a => pure a
  | .error e => throw e

/-! ### Powers of ten -/

/-- The loop of `pow10_i128`: `n` more multiplications by ten, while the product is an `i128`. -/
def pow10Loop : Nat → Int → Option Int
  | 0, acc => some acc
  | n + 1, acc => if acc * 10 < 2 ^ 127 then pow10Loop n (acc * 10) else none

def pow10I128 (exp : Nat) : BoltResult Int :=
  match pow10Loop exp 1 with
  | some v => .ok v
  | none => .error (.plan s!"Decimal128 rescale factor 10^{exp} overflows i128 (max ~38 digits)")

/-- `as u32` of an `i8`: the sign is extended. -/
def asU32 (d : Int8) : Nat := (d.toInt % 2 ^ 32).toNat

/-! ### Lowering -/

/-- The register of the upper half. -/
def hiOf (v : Value) (msg : String) : Emit Reg :=
  match v.hiReg with
  | some hi => pure hi
  | none => throw (.other msg)

def emitConst128Raw (value : Int) : Emit Value := do
  let bits := BitVec.ofInt 128 value
  let lo ← fresh
  let hi ← fresh
  push (.const128 lo hi (bits.extractLsb' 0 64) (bits.extractLsb' 64 64))
  pure (.pair lo hi (.decimal128 38 0))

/-- An instruction on two pairs of registers, with its result in a new pair. -/
def emitPairOp (make : Reg → Reg → Reg → Reg → Reg → Reg → Op) (a b : Value) (dtype : DataType) :
    Emit Value := do
  let aHi ← hiOf a "coerced decimal has hi_reg"
  let bHi ← hiOf b "coerced decimal has hi_reg"
  let lo ← fresh
  let hi ← fresh
  push (make lo hi a.reg aHi b.reg bHi)
  pure (.pair lo hi dtype)

/-- A decimal at a larger scale: its digits are multiplied by a power of ten. -/
def emitRescaleDecimalUp (v : Value) (fromS toS : Int8) (outP : UInt8) : Emit Value := do
  if toS = fromS then
    let hi ← hiOf v "physical_plan: decimal rescale operand has no hi_reg"
    pure (.pair v.reg hi (.decimal128 outP toS))
  else
    let factor ← ofResult (pow10I128 (asU32 (toS - fromS)))
    let hi ← hiOf v "physical_plan: decimal rescale operand has no hi_reg"
    let factorV ← emitConst128Raw factor
    emitPairOp .mul128 (.pair v.reg hi v.dtype) factorV (.decimal128 outP toS)

def emitIntToDecimal (v : Value) (outP : UInt8) : Emit Value := do
  let lo ← fresh
  let hi ← fresh
  push (.widenToI128 lo hi v.reg v.dtype)
  pure (.pair lo hi (.decimal128 outP 0))

/-- An operand as a decimal of the given scale. -/
def coerceToDecimalScale (v : Value) (target : Int8) : Emit Value :=
  match v.dtype with
  | .int32 | .int64 | .date32 => do
    let d ← emitIntToDecimal v 38
    emitRescaleDecimalUp d 0 target 38
  | .decimal128 p s =>
    if target < s then
      throw (.plan <| s!"physical_plan: decimal coerce target scale {target} < operand " ++
        s!"scale {s} — producer bug (target should be max of operand scales)")
    else emitRescaleDecimalUp v s target p
  | other =>
    throw (.plan <| s!"mixed Decimal128 arithmetic with {other.debug} is not supported on the " ++
      s!"GPU path; CAST the {other.debug} side to Decimal128 explicitly (float/decimal mixing " ++
      "would lose exactness)")

/-- The scale an operand is read at; integers have scale 0. -/
def scaleOf : DataType → Option Int8
  | .int32 | .int64 | .date32 => some 0
  | .decimal128 _ s => some s
  | _ => none

def maxScale (a b : Int8) : Int8 := if a < b then b else a

/-- The type that `decimal128_arith_result` gives the result. -/
def decimalArithResultViaLogical (op : BinaryOp) (l r : DataType) : BoltResult DataType :=
  match decimal128ArithResult op l r with
  | some result => result
  | none => .error (.plan <| s!"Decimal128 {op.debug} result-dtype resolution: logical helper " ++
      s!"returned None for operands {l.debug} / {r.debug} — producer bug (neither side is " ++
      "Decimal128)")

/-- The error for an operand that is neither a decimal nor an integer. -/
def notCoerced (op : BinaryOp) (side : String) (t : DataType) : BoltError :=
  .plan <| s!"Decimal128 {op.debug}: {side} operand {t.debug} cannot be coerced to Decimal128 " ++
    "(only integer peers are auto-coerced; CAST floats explicitly)"

/-- The same for a comparison. -/
def notCompared (op : BinaryOp) (side : String) (t : DataType) : BoltError :=
  .plan <| s!"Decimal128 {op.debug}: {side} operand {t.debug} cannot be compared with a " ++
    "Decimal128 (only decimal and integer peers are auto-coerced; CAST floats explicitly)"

def scaleOr (e : BoltError) (t : DataType) : Emit Int8 :=
  match scaleOf t with
  | some s => pure s
  | none => throw e

/-- A sum, difference, product or quotient. -/
def emitBinaryDecimal128 (op : BinaryOp) (l r : Value) : Emit Value := do
  let ls ← scaleOr (notCoerced op "left" l.dtype) l.dtype
  let rs ← scaleOr (notCoerced op "right" r.dtype) r.dtype
  match op with
  | .add | .sub =>
    let common := maxScale ls rs
    let lv ← coerceToDecimalScale l common
    let rv ← coerceToDecimalScale r common
    let dtype ← ofResult (decimalArithResultViaLogical op l.dtype r.dtype)
    emitPairOp (if op = .add then .add128 else .sub128) lv rv dtype
  | .mul =>
    let lv ← coerceToDecimalScale l ls
    let rv ← coerceToDecimalScale r rs
    let dtype ← ofResult (decimalArithResultViaLogical op l.dtype r.dtype)
    emitPairOp .mul128 lv rv dtype
  | .div =>
    let resultScale := maxScale ls 6
    let preExp := resultScale.toInt + rs.toInt - ls.toInt
    if preExp < 0 then
      throw (.plan <| s!"Decimal128 Div: negative dividend pre-scale ({preExp}) for scales " ++
        s!"l={ls}, r={rs}, result={resultScale} — unsupported shape (CAST to align scales first)")
    else
      let lv ← coerceToDecimalScale l ls
      let rv ← coerceToDecimalScale r rs
      let scaled := ls.toInt + (Int8.ofInt preExp).toInt
      if -128 ≤ scaled ∧ scaled ≤ 127 then
        let lv ← emitRescaleDecimalUp lv ls (Int8.ofInt scaled) 38
        let dtype ← ofResult (decimalArithResultViaLogical op l.dtype r.dtype)
        emitPairOp .div128 lv rv dtype
      else throw (.plan "Decimal128 Div: dividend pre-scale overflow")
  | other =>
    throw (.plan <| s!"Decimal128 {other.debug} not lowered to GPU; only Add/Sub/Mul/Div " ++
      "are wired")

/-- The comparison of two pairs of registers. -/
def emitCmp128 (op : BinaryOp) (lv rv : Value) : Emit Value := do
  let lHi ← hiOf lv "coerced decimal cmp lhs has hi_reg"
  let rHi ← hiOf rv "coerced decimal cmp rhs has hi_reg"
  if op.isComparison then
    let dst ← fresh
    push (.cmp128 dst op lv.reg lHi rv.reg rHi)
    pure (.single dst .bool)
  else
    throw (.plan <| s!"Decimal128 {op.debug} is not a comparison op; only =, !=, <, >, <=, >= " ++
      "are wired through `Op::Cmp128`")

/-- A comparison, of both operands at the larger scale. -/
def emitBinaryDecimal128Cmp (op : BinaryOp) (l r : Value) : Emit Value := do
  let ls ← scaleOr (notCompared op "left" l.dtype) l.dtype
  let rs ← scaleOr (notCompared op "right" r.dtype) r.dtype
  let common := maxScale ls rs
  let lv ← coerceToDecimalScale l common
  let rv ← coerceToDecimalScale r common
  emitCmp128 op lv rv

/-- `emit_binary` on two values of which one is a decimal. -/
def emitBinary (op : BinaryOp) (l r : Value) : Emit Value :=
  if op.isArithmetic then emitBinaryDecimal128 op l r
  else if op.isComparison then emitBinaryDecimal128Cmp op l r
  else
    throw (.plan <| s!"Decimal128 {op.debug} not yet lowered to GPU; only Add/Sub/Mul and " ++
      "comparisons (=, !=, <, >, <=, >=) on Decimal128 are wired in v0.7 (Div, logical ops, and " ++
      "CAST involving Decimal128 stay on the host fallback — coming in a follow-up)")

/-! ### What the instructions compute -/

/-- The contents of the registers. -/
abbrev Regs := Reg → BitVec 64

open WordPair

/-- Two registers written at once. -/
def setPair (ρ : Regs) (lo hi : Reg) (x y : BitVec 64) : Regs :=
  Function.update (Function.update ρ lo x) hi y

/-- The comparison of two pairs, from the order of their halves. -/
def compareHalves (op : BinaryOp) (ah al bh bl : BitVec 64) : Bool :=
  match op with
  | .eq => al == bl && ah == bh
  | .notEq => al != bl || ah != bh
  | .lt => ah.slt bh || (ah == bh && al.ult bl)
  | .gt => bh.slt ah || (ah == bh && bl.ult al)
  | .ltEq => ah.slt bh || (ah == bh && al.ule bl)
  | .gtEq => bh.slt ah || (ah == bh && bl.ule al)
  | _ => false

/--
One instruction. Its results go to registers that none of its operands is in, so the order of its
own steps does not matter. The long division of `Div128` is given by its result.
-/
def Op.exec (ρ : Regs) : Op → Regs
  | const128 dstLo dstHi lo hi => setPair ρ dstLo dstHi lo hi
  | widenToI128 dstLo dstHi src source =>
    let lo :=
      match source with
      | .int32 | .date32 | .bool => ((ρ src).setWidth 32).signExtend 64
      | _ => ρ src
    setPair ρ dstLo dstHi lo (lo.sshiftRight 63)
  | add128 dstLo dstHi aLo aHi bLo bHi =>
    setPair ρ dstLo dstHi (ρ aLo + ρ bLo) (ρ aHi + ρ bHi + carry (ρ aLo) (ρ bLo))
  | sub128 dstLo dstHi aLo aHi bLo bHi =>
    setPair ρ dstLo dstHi (ρ aLo - ρ bLo) (ρ aHi - ρ bHi - borrow (ρ aLo) (ρ bLo))
  | mul128 dstLo dstHi aLo aHi bLo bHi =>
    setPair ρ dstLo dstHi (ρ aLo * ρ bLo)
      (mulHi (ρ aLo) (ρ bLo) + ρ aLo * ρ bHi + ρ aHi * ρ bLo)
  | div128 dstLo dstHi aLo aHi bLo bHi =>
    let quotient := (join (ρ aHi) (ρ aLo)).sdiv (join (ρ bHi) (ρ bLo))
    setPair ρ dstLo dstHi (quotient.extractLsb' 0 64) (quotient.extractLsb' 64 64)
  | cmp128 dst op aLo aHi bLo bHi =>
    Function.update ρ dst (if compareHalves op (ρ aHi) (ρ aLo) (ρ bHi) (ρ bLo) then 1 else 0)

/-- Instructions one after another. -/
def run (ops : List Op) (ρ : Regs) : Regs := ops.foldl Op.exec ρ

/-- The 128 bits of a decimal. -/
def Value.bits (v : Value) (ρ : Regs) : BitVec (64 + 64) :=
  match v.hiReg with
  | some hi => join (ρ hi) (ρ v.reg)
  | none => 0

/-- The number in the registers of a value: the digits of a decimal, or an integer. -/
def Value.content (v : Value) (ρ : Regs) : Int :=
  match v.dtype with
  | .int64 => (ρ v.reg).toInt
  | .decimal128 _ _ => (v.bits ρ).toInt
  | _ => ((ρ v.reg).setWidth 32).toInt

end CratonBolt.Decimals
