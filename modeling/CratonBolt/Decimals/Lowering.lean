import CratonBolt.Decimals.Codegen

/-!
# The instructions of a decimal operation

What the emitted instructions leave in the registers. An operand brought to a larger scale holds its
digits times a power of ten, modulo `2 ^ 128`, and a sum, difference or product is that of the two
operands so scaled. Scales more than 38 apart are refused.
-/

namespace CratonBolt.Decimals

open WordPair

variable {c c' c₁ c₂ : Codegen} {v v' l r : Value} {new new' : List Op} {s target : Int8}

/-! ### Emissions -/

/-- The registers of a value are in use. -/
structure Codegen.Holds (c : Codegen) (v : Value) : Prop where
  reg_lt : v.reg < c.next
  hi : v.dtype.isDecimal = true → ∃ hi, v.hiReg = some hi ∧ hi < c.next

/-- New instructions that leave the registers in use as they are. -/
structure Extends (c c' : Codegen) (new : List Op) : Prop where
  ops : c'.ops = c.ops ++ new
  grows : c.next ≤ c'.next
  frame : ∀ ρ, ∀ r < c.next, run new ρ r = ρ r

theorem Extends.refl (c : Codegen) :
  Extends c c []
  := ⟨(List.append_nil _).symm, le_rfl, fun _ _ _ => rfl⟩

theorem run_append (ρ : Regs) :
  run (new ++ new') ρ = run new' (run new ρ)
  := List.foldl_append

theorem Extends.trans (h : Extends c c₁ new) (h' : Extends c₁ c₂ new') :
  Extends c c₂ (new ++ new')
  := by
  refine ⟨by rw [h'.ops, h.ops, List.append_assoc], h.grows.trans h'.grows, fun ρ r hr => ?_⟩
  rw [run_append, h'.frame _ r (hr.trans_le h.grows), h.frame ρ r hr]

theorem Codegen.Holds.mono (h : c.Holds v) (hle : c.next ≤ c'.next) :
  c'.Holds v
  := by
  refine ⟨h.reg_lt.trans_le hle, fun hd => ?_⟩
  obtain ⟨hi, hhi, hlt⟩ := h.hi hd
  exact ⟨hi, hhi, hlt.trans_le hle⟩

/-- A value keeps its contents while instructions are added. -/
theorem Extends.content (h : Extends c c' new) (hv : c.Holds v) (ρ : Regs) :
  v.content (run new ρ) = v.content ρ
  := by
  rw [Value.content, Value.content]
  split
  · rw [h.frame ρ _ hv.reg_lt]
  · next p s hd =>
    obtain ⟨hi, hhi, hlt⟩ := hv.hi (by rw [hd]; rfl)
    simp only [Value.bits, hhi, h.frame ρ _ hlt, h.frame ρ _ hv.reg_lt]
  · rw [h.frame ρ _ hv.reg_lt]

theorem Extends.bits (h : Extends c c' new) (hv : c.Holds v) (hd : v.dtype.isDecimal = true)
    (ρ : Regs) :
  v.bits (run new ρ) = v.bits ρ
  := by
  obtain ⟨hi, hhi, hlt⟩ := hv.hi hd
  simp only [Value.bits, hhi, h.frame ρ _ hlt, h.frame ρ _ hv.reg_lt]

/-- An emission leaves the given bits in a decimal of the kernel. -/
def Yields (c : Codegen) (v : Value) (c' : Codegen) (x : Regs → BitVec (64 + 64)) : Prop :=
  ∃ new, Extends c c' new ∧ c'.Holds v ∧ v.dtype.isDecimal = true ∧
    ∀ ρ, v.bits (run new ρ) = x ρ

theorem Yields.trans {x y : Regs → BitVec (64 + 64)} (h : Extends c c₁ new)
    (h' : Yields c₁ v c₂ y) (hxy : ∀ ρ, y (run new ρ) = x ρ) :
  Yields c v c₂ x
  := by
  obtain ⟨new', he, hv, hd, hy⟩ := h'
  refine ⟨new ++ new', h.trans he, hv, hd, fun ρ => ?_⟩
  rw [run_append, hy, hxy]

/-! ### Single instructions -/

theorem setPair_lo {lo hi : Reg} (h : lo ≠ hi) (ρ : Regs) (x y : BitVec 64) :
  setPair ρ lo hi x y lo = x
  := by
  rw [setPair, Function.update_of_ne h, Function.update_self]

theorem setPair_hi (ρ : Regs) (lo hi : Reg) (x y : BitVec 64) :
  setPair ρ lo hi x y hi = y
  := by
  rw [setPair, Function.update_self]

theorem setPair_of_lt {n r : Reg} (h : r < n) (ρ : Regs) (x y : BitVec 64) :
  setPair ρ n (n + 1) x y r = ρ r
  := by
  rw [setPair, Function.update_of_ne (Nat.lt_succ_of_lt h).ne, Function.update_of_ne h.ne]

/-- An instruction that writes a new pair of registers. -/
theorem yields_pair (op : Op) {x y : Regs → BitVec 64} (p : UInt8) (s : Int8)
    (hop : ∀ ρ, op.exec ρ = setPair ρ c.next (c.next + 1) (x ρ) (y ρ)) :
  Yields c (.pair c.next (c.next + 1) (.decimal128 p s)) ⟨c.next + 2, c.ops ++ [op]⟩
    (fun ρ => join (y ρ) (x ρ))
  := by
  refine ⟨[op], ⟨rfl, Nat.le_add_right .., fun ρ r hr => ?_⟩, ⟨by simp [Value.pair], ?_⟩, rfl,
    fun ρ => ?_⟩
  · change op.exec ρ r = ρ r
    rw [hop, setPair_of_lt hr]
  · exact fun _ => ⟨c.next + 1, rfl, Nat.lt_succ_self _⟩
  · change join (op.exec ρ (c.next + 1)) (op.exec ρ c.next) = _
    rw [hop, setPair_hi, setPair_lo (Nat.lt_succ_self _).ne]

theorem emitConst128Raw_spec (x : Int) (c : Codegen) :
  ∃ v c', emitConst128Raw x c = .ok v c' ∧ Yields c v c' (fun _ => BitVec.ofInt _ x)
  := by
  refine ⟨_, _, rfl, ?_⟩
  have h := yields_pair (c := c) (.const128 c.next (c.next + 1)
    ((BitVec.ofInt 128 x).extractLsb' 0 64) ((BitVec.ofInt 128 x).extractLsb' 64 64)) 38 0
    (fun _ => rfl)
  have hjoin : join ((BitVec.ofInt 128 x).extractLsb' 64 64) ((BitVec.ofInt 128 x).extractLsb' 0 64)
      = BitVec.ofInt (64 + 64) x := join_halves (w := 64) (BitVec.ofInt (64 + 64) x)
  rw [hjoin] at h
  exact h

/-- The bits that an instruction on two pairs of registers computes. -/
structure Computes (make : Reg → Reg → Reg → Reg → Reg → Reg → Op)
    (f : BitVec (64 + 64) → BitVec (64 + 64) → BitVec (64 + 64)) : Prop where
  exec : ∀ lo hi aLo aHi bLo bHi ρ, ∃ x y,
    (make lo hi aLo aHi bLo bHi).exec ρ = setPair ρ lo hi x y ∧
      join y x = f (join (ρ aHi) (ρ aLo)) (join (ρ bHi) (ρ bLo))

theorem add128_computes :
  Computes .add128 (· + ·)
  := ⟨fun _ _ _ _ _ _ _ => ⟨_, _, rfl, join_add (by norm_num) ..⟩⟩

theorem sub128_computes :
  Computes .sub128 (· - ·)
  := ⟨fun _ _ _ _ _ _ _ => ⟨_, _, rfl, join_sub (by norm_num) ..⟩⟩

theorem mul128_computes :
  Computes .mul128 (· * ·)
  := ⟨fun _ _ _ _ _ _ _ => ⟨_, _, rfl, join_mul ..⟩⟩

theorem emitPairOp_spec {make : Reg → Reg → Reg → Reg → Reg → Reg → Op}
    {f : BitVec (64 + 64) → BitVec (64 + 64) → BitVec (64 + 64)} (hmake : Computes make f)
    (hl : c.Holds l) (hld : l.dtype.isDecimal = true) (hr : c.Holds r)
    (hrd : r.dtype.isDecimal = true) (p : UInt8) (s : Int8) :
  ∃ v c', emitPairOp make l r (.decimal128 p s) c = .ok v c' ∧ v.dtype = .decimal128 p s ∧
    Yields c v c' (fun ρ => f (l.bits ρ) (r.bits ρ))
  := by
  obtain ⟨lHi, hlHi, -⟩ := hl.hi hld
  obtain ⟨rHi, hrHi, -⟩ := hr.hi hrd
  choose x y hop hf using hmake.exec c.next (c.next + 1) l.reg lHi r.reg rHi
  refine ⟨_, _, by simp only [emitPairOp, hiOf, hlHi, hrHi]; rfl, rfl, ?_⟩
  have h := yields_pair (c := c) _ p s hop
  simpa only [Value.bits, hlHi, hrHi, hf] using h

/-! ### Scales -/

/-- The number of digits between two scales. -/
def shift (fromS toS : Int8) : Nat := (toS.toInt - fromS.toInt).toNat

theorem pow10Loop_eq (n k : Nat) (hk : k ≤ 38) :
  pow10Loop n (10 ^ k) = if k + n ≤ 38 then some (10 ^ (k + n)) else none
  := by
  induction n generalizing k with
  | zero => rw [pow10Loop, Nat.add_zero, if_pos hk]
  | succ n ih =>
    rw [pow10Loop, ← pow_succ]
    by_cases h : k + 1 ≤ 38
    · have hlt : (10 : Int) ^ (k + 1) < 2 ^ 127 :=
        (pow_le_pow_right₀ (by norm_num) h).trans_lt (by norm_num)
      rw [if_pos hlt, ih (k + 1) h, Nat.add_right_comm, Nat.add_assoc]
    · have hge : ¬(10 : Int) ^ (k + 1) < 2 ^ 127 := by
        obtain rfl : k = 38 := by omega
        norm_num
      rw [if_neg hge, if_neg (by omega)]

theorem asU32_sub (h : s.toInt ≤ target.toInt) :
  if shift s target ≤ 38 then asU32 (target - s) = shift s target else 38 < asU32 (target - s)
  := by
  have h₁ := s.toInt_lt
  have h₂ := s.le_toInt
  have h₃ := target.toInt_lt
  have h₄ := target.le_toInt
  rw [asU32, shift, Int8.toInt_sub, Int.bmod_def]
  split_ifs <;> omega

/-- The factor between two scales, as long as they are at most 38 digits apart. -/
theorem pow10_of_shift (h : s.toInt ≤ target.toInt) (hle : shift s target ≤ 38) :
  pow10I128 (asU32 (target - s)) = .ok (10 ^ shift s target)
  := by
  have heq := asU32_sub h
  rw [if_pos hle] at heq
  have hloop := pow10Loop_eq (shift s target) 0 (by omega)
  rw [pow_zero, Nat.zero_add, if_pos hle] at hloop
  rw [pow10I128, heq, hloop]

theorem pow10_error (h : s.toInt ≤ target.toInt) (hlt : 38 < shift s target) :
  ∃ e, pow10I128 (asU32 (target - s)) = .error e
  := by
  have hgt := asU32_sub h
  rw [if_neg (by omega)] at hgt
  have hloop := pow10Loop_eq (asU32 (target - s)) 0 (by omega)
  rw [pow_zero, Nat.zero_add, if_neg (by omega)] at hloop
  exact ⟨_, by rw [pow10I128, hloop]⟩

/-! ### Operands at a larger scale -/

theorem emitRescaleDecimalUp_spec (hv : c.Holds v) (hd : v.dtype.isDecimal = true)
    (h : s.toInt ≤ target.toInt) (p : UInt8) :
  if shift s target ≤ 38 then
    ∃ v' c', emitRescaleDecimalUp v s target p c = .ok v' c' ∧
      Yields c v' c' (fun ρ => v.bits ρ * BitVec.ofInt _ (10 ^ shift s target))
  else ∃ e c', emitRescaleDecimalUp v s target p c = .error e c'
  := by
  obtain ⟨hi, hhi, hlt⟩ := hv.hi hd
  by_cases heq : target = s
  · subst heq
    have hz : shift target target = 0 := by simp [shift]
    rw [if_pos (by omega), hz]
    refine ⟨.pair v.reg hi (.decimal128 p target), c, ?_, [], .refl c, ?_, rfl, fun ρ => ?_⟩
    · simp [emitRescaleDecimalUp, hiOf, hhi]
    · exact ⟨hv.reg_lt, fun _ => ⟨hi, rfl, hlt⟩⟩
    · simp [run, Value.bits, Value.pair, hhi]
  · split_ifs with hle
    · have hpow := pow10_of_shift h hle
      obtain ⟨factor, c₁, hconst, hyields⟩ := emitConst128Raw_spec (10 ^ shift s target) c
      obtain ⟨new, he, hf, hfd, hbits⟩ := hyields
      -- the operand, still in its registers when the factor is in its own
      have hv' : c₁.Holds (.pair v.reg hi v.dtype) :=
        ⟨hv.reg_lt.trans_le he.grows, fun _ => ⟨hi, rfl, hlt.trans_le he.grows⟩⟩
      obtain ⟨v', c₂, hmul, -, hy⟩ := emitPairOp_spec mul128_computes hv' hd hf hfd p target
      refine ⟨v', c₂, ?_, hy.trans he fun ρ => ?_⟩
      · simp only [emitRescaleDecimalUp, if_neg heq, StateErrors.run_bind, hpow, ofResult,
          StateErrors.run_pure, hiOf, hhi, hconst, hmul]
      · rw [hbits]
        congr 1
        simp only [Value.bits, Value.pair, hhi, he.frame ρ _ hlt, he.frame ρ _ hv.reg_lt]
    · obtain ⟨e, he⟩ := pow10_error h (by omega)
      exact ⟨e, c, by simp [emitRescaleDecimalUp, heq, he, ofResult]⟩

/-- An integer with its sign in every bit of the upper half. -/
theorem emitIntToDecimal_spec (ht : v.dtype = .int32 ∨ v.dtype = .int64 ∨ v.dtype = .date32)
    (p : UInt8) (c : Codegen) :
  ∃ v' c', emitIntToDecimal v p c = .ok v' c' ∧
    Yields c v' c' (fun ρ => BitVec.ofInt _ (v.content ρ))
  := by
  have hsign (x : BitVec 64) : join (x.sshiftRight 63) x = BitVec.ofInt _ x.toInt := by
    rw [← toInt_join_sign (by norm_num) x, BitVec.ofInt_toInt]
  refine ⟨_, _, rfl, ?_⟩
  have h := yields_pair (c := c) (.widenToI128 c.next (c.next + 1) v.reg v.dtype) p 0
    (fun _ => rfl)
  rcases ht with ht | ht | ht <;>
    simpa only [Value.content, ht, hsign, BitVec.toInt_signExtend_of_le (by norm_num : 32 ≤ 64)]
      using h

/-- An operand at a larger scale: its number times a power of ten. -/
theorem coerceToDecimalScale_spec (hv : c.Holds v) (hs : scaleOf v.dtype = some s)
    (h : s.toInt ≤ target.toInt) :
  if shift s target ≤ 38 then
    ∃ v' c', coerceToDecimalScale v target c = .ok v' c' ∧
      Yields c v' c' (fun ρ => BitVec.ofInt _ (v.content ρ * 10 ^ shift s target))
  else ∃ e c', coerceToDecimalScale v target c = .error e c'
  := by
  have hint (ht : v.dtype = .int32 ∨ v.dtype = .int64 ∨ v.dtype = .date32) (hz : s = 0)
      (hcoerce : coerceToDecimalScale v target =
        emitIntToDecimal v 38 >>= fun d => emitRescaleDecimalUp d 0 target 38) :
      if shift s target ≤ 38 then
        ∃ v' c', coerceToDecimalScale v target c = .ok v' c' ∧
          Yields c v' c' (fun ρ => BitVec.ofInt _ (v.content ρ * 10 ^ shift s target))
      else ∃ e c', coerceToDecimalScale v target c = .error e c' := by
    subst hz
    obtain ⟨d, c₁, hd, new, he, hd₁, hdd, hbits⟩ := emitIntToDecimal_spec ht 38 c
    have hscale := emitRescaleDecimalUp_spec hd₁ hdd h 38
    split_ifs at hscale ⊢ with hle
    · obtain ⟨v', c₂, hv', hy⟩ := hscale
      refine ⟨v', c₂, ?_, hy.trans he fun ρ => ?_⟩
      · simp only [hcoerce, StateErrors.run_bind, hd, hv']
      · rw [hbits, BitVec.ofInt_mul]
    · obtain ⟨e, c₂, he'⟩ := hscale
      exact ⟨e, c₂, by simp only [hcoerce, StateErrors.run_bind, hd, he']⟩
  cases ht : v.dtype with
  | decimal128 p s' =>
    obtain rfl : s' = s := by simpa [scaleOf, ht] using hs
    have hscale := emitRescaleDecimalUp_spec hv (by rw [ht]; rfl) h p
    have hle : ¬target < s' := by
      rw [Int8.lt_iff_toInt_lt]
      omega
    simpa only [coerceToDecimalScale, ht, if_neg hle, Value.content, BitVec.ofInt_mul,
      BitVec.ofInt_toInt] using hscale
  | int32 | int64 | date32 =>
    have hz : s = 0 := by simpa [scaleOf, ht, eq_comm] using hs
    exact hint (by simp [ht]) hz (by rw [coerceToDecimalScale, ht])
  | _ => simp [scaleOf, ht] at hs

/-- Both operands at larger scales, each in registers of its own. -/
structure Coerced (l r : Value) (kl kr : Nat) (c : Codegen) (lv rv : Value) (c' : Codegen)
    (new : List Op) : Prop where
  emitted : Extends c c' new
  left : c'.Holds lv
  left_decimal : lv.dtype.isDecimal = true
  right : c'.Holds rv
  right_decimal : rv.dtype.isDecimal = true
  left_bits : ∀ ρ, lv.bits (run new ρ) = BitVec.ofInt _ (l.content ρ * 10 ^ kl)
  right_bits : ∀ ρ, rv.bits (run new ρ) = BitVec.ofInt _ (r.content ρ * 10 ^ kr)

/-- The start of every decimal operation: both operands are coerced, or an error ends it. -/
theorem coerce_both {ls rs tl tr : Int8} (hl : c.Holds l) (hr : c.Holds r)
    (hls : scaleOf l.dtype = some ls) (hrs : scaleOf r.dtype = some rs) (hlt : ls.toInt ≤ tl.toInt)
    (hrt : rs.toInt ≤ tr.toInt) (rest : Value → Value → Emit Value) :
  if shift ls tl ≤ 38 ∧ shift rs tr ≤ 38 then
    ∃ lv rv c' new, Coerced l r (shift ls tl) (shift rs tr) c lv rv c' new ∧
      (do rest (← coerceToDecimalScale l tl) (← coerceToDecimalScale r tr)) c = rest lv rv c'
  else ∃ e c', (do rest (← coerceToDecimalScale l tl) (← coerceToDecimalScale r tr)) c = .error e c'
  := by
  have hleft := coerceToDecimalScale_spec hl hls hlt
  by_cases h₁ : shift ls tl ≤ 38
  · rw [if_pos h₁] at hleft
    obtain ⟨lv, c₁, hlv, new, he, hlv₁, hld, hlbits⟩ := hleft
    have hright := coerceToDecimalScale_spec (hr.mono he.grows) hrs hrt
    by_cases h₂ : shift rs tr ≤ 38
    · rw [if_pos h₂] at hright
      rw [if_pos ⟨h₁, h₂⟩]
      obtain ⟨rv, c₂, hrv, new', he', hrv₂, hrd, hrbits⟩ := hright
      refine ⟨lv, rv, c₂, new ++ new', ⟨he.trans he', hlv₁.mono he'.grows, hld, hrv₂, hrd,
        fun ρ => ?_, fun ρ => ?_⟩, ?_⟩
      · rw [run_append, he'.bits hlv₁ hld, hlbits]
      · simp only [run_append, hrbits, he.content hr]
      · simp only [StateErrors.run_bind, hlv, hrv]
    · rw [if_neg h₂] at hright
      rw [if_neg (fun h => h₂ h.2)]
      obtain ⟨e, c₂, he₂⟩ := hright
      exact ⟨e, c₂, by simp only [StateErrors.run_bind, hlv, he₂]⟩
  · rw [if_neg h₁] at hleft
    rw [if_neg (fun h => h₁ h.1)]
    obtain ⟨e, c₁, he₁⟩ := hleft
    exact ⟨e, c₁, by simp only [StateErrors.run_bind, he₁]⟩

end CratonBolt.Decimals
