import CratonBolt.Joins.HashJoin

/-!
# Keys and SQL equality

The key of a row as a function of the row, and the two tests of a pair of rows: equality of the
keys, by which the hash table finds a row, and equality of the key columns under SQL's `=`. On
columns of the same type they differ on NaNs alone, which the hash table takes for equal when
their bits are, and SQL never.
-/

namespace CratonBolt.Joins

open Outcome List Option
open Value (commonType compareSame floatOrder nan32 nan64 ofTruth truth)
open Column (cell cells dtype typed_cell)

variable {indices : List Nat} {b : Batch}

/-- The column of a key is a NaN. -/
def JoinKeyValue.isNan : JoinKeyValue → Bool
  | f32 bits => nan32 bits
  | f64 bits => nan64 bits
  | _ => false

/-- What a cell is as a column of a key; `NULL` and the types no key has are none. -/
def keyValue? : Value → Option JoinKeyValue
  | .int32 n => some (.i32 n)
  | .int64 n => some (.i64 n)
  | .float32 x => some (.f32 (canonicaliseF32 x).bits)
  | .float64 x => some (.f64 (canonicaliseF64 x).bits)
  | .bool v => some (.bool v)
  | .utf8 s => some (.utf8 s)
  | _ => none

/-- The key of a row. -/
def rowKey (indices : List Nat) (r : Row) : Option (List JoinKeyValue) :=
  indices.mapM (fun i => keyValue? (r.getD i .null))

section

variable (leftIdx rightIdx : List Nat)

/-- Two rows have the same key. -/
def hashMatch (l r : Row) : Bool :=
  match rowKey leftIdx l with
  | none => false
  | some k => decide (rowKey rightIdx r = some k)

/-- `=` on two cells, as `eval_comparison` computes it, is true. -/
def sqlEq (a b : Value) : Bool := (Value.compare .eq a b).isTrue

/-- Two rows are equal in every pair of key columns. -/
def sqlMatch (l r : Row) : Bool :=
  (leftIdx.zip rightIdx).all (fun ij => sqlEq (l.getD ij.1 .null) (r.getD ij.2 .null))

theorem hashMatch_comm (l r : Row) :
  hashMatch leftIdx rightIdx l r = hashMatch rightIdx leftIdx r l
  := by
  unfold hashMatch
  cases rowKey leftIdx l with
  | none => cases rowKey rightIdx r <;> simp
  | some k =>
    cases rowKey rightIdx r with
    | none => simp
    | some k' => simp [eq_comm]

end

/-! ### The key that is extracted -/

/-- The types of the columns that may be keys. -/
def isKeyType : ArrowType → Bool
  | .plain .bool | .plain .int32 | .plain .int64 | .plain .float32 | .plain .float64
  | .plain .utf8 => true
  | .dictionary .int32 | .dictionary .int64 => true
  | _ => false

variable {idx row : Nat} {t : DataType} {build probe : Batch}
variable {buildIdx probeIdx leftIdx rightIdx : List Nat} {k : List JoinKeyValue}

/-- The columns of a key are there, and they hold their values themselves. -/
def KeyColumns (b : Batch) (indices : List Nat) : Prop :=
  ∀ i ∈ indices, i < b.columns.length ∧ (b.column i).isFlat = true

theorem extractKeyValue_spec {o : Option JoinKeyValue} (hflat : (b.column idx).isFlat = true)
    (h : extractKeyValue b idx row = .ok o) :
  o = keyValue? ((b.column idx).cell row) ∧ (o = none → (b.column idx).cell row = .null)
  := by
  unfold extractKeyValue at h
  cases hc : b.column idx with
  | flat arr =>
    simp only [hc] at h
    simp only [cell, cells]
    cases hv : arr.cells.getD row .null <;>
      simp only [hv, Except.ok.injEq, reduceCtorEq] at h <;> subst h <;> simp [keyValue?]
  | dictionary key values codes =>
    rw [hc] at hflat
    cases hflat

/-- A column of a key type gives every row its key. -/
theorem extractKeyValue_ok (hkey : isKeyType (b.column idx).dtype = true) (row : Nat) :
  ∃ o, extractKeyValue b idx row = .ok o
  := by
  unfold extractKeyValue
  cases hc : b.column idx with
  | flat arr =>
    rw [hc] at hkey
    have htyped := typed_cell (.flat arr) row
    simp only [cell, cells, dtype, ArrowType.valueType] at htyped
    simp only
    cases hv : arr.cells.getD row .null with
    | decimal128 _ _ _ | date32 _ | timestamp _ _ _ =>
      rw [hv] at htyped
      simp only [Literal.dtype, some.injEq, reduceCtorEq, false_or] at htyped
      rw [dtype, ← htyped] at hkey
      cases hkey
    | _ => exact ⟨_, rfl⟩
  | dictionary key values codes =>
    rw [hc] at hkey
    simp only
    cases codes.getD row none with
    | none => exact ⟨_, rfl⟩
    | some code =>
      cases key with
      | other name => simp [dtype, isKeyType] at hkey
      | int32 => exact ⟨_, rfl⟩
      | int64 => exact ⟨_, rfl⟩

theorem extractKeyValues_spec (hidx : KeyColumns b indices)
    {o : Option (List JoinKeyValue)} (h : extractKeyValues b row indices = .ok o) :
  o = rowKey indices (b.row row) ∧ (o = none → ∃ i ∈ indices, (b.row row).getD i .null = .null)
  := by
  induction indices generalizing o with
  | nil =>
    injection h with h
    subst h
    exact ⟨rfl, by simp⟩
  | cons idx indices ih =>
    obtain ⟨v, hv, h⟩ := bind_eq_ok.mp h
    obtain ⟨hlt, hflat⟩ := hidx idx mem_cons_self
    obtain ⟨rfl, hnull⟩ := extractKeyValue_spec hflat hv
    have hcell := Batch.getD_row hlt row
    rw [rowKey, mapM_cons, hcell]
    cases hk : keyValue? ((b.column idx).cell row) with
    | none =>
      rw [hk] at h hnull
      injection h with h
      subst h
      exact ⟨rfl, fun _ => ⟨idx, mem_cons_self, hcell.trans (hnull rfl)⟩⟩
    | some w =>
      rw [hk] at h
      obtain ⟨rest, hrest, h⟩ := bind_eq_ok.mp h
      injection h with h
      subst h
      obtain ⟨rfl, hnone⟩ := ih (fun i hi => hidx i (mem_cons_of_mem idx hi)) hrest
      constructor
      · rw [rowKey]
        cases mapM (fun i => keyValue? ((b.row row).getD i .null)) indices <;> rfl
      · intro he
        obtain ⟨i, hi, hi'⟩ := hnone (map_eq_none_iff.mp he)
        exact ⟨i, mem_cons_of_mem idx hi, hi'⟩

/-- The key that is extracted is the key of the row, and there is none for a `NULL` alone. -/
theorem extractKey_spec (hidx : KeyColumns b indices)
    {o : Option JoinKey} (h : extractKey b indices row = .ok o) :
  o.map JoinKey.asSlice = rowKey indices (b.row row) ∧
    (o = none → ∃ i ∈ indices, (b.row row).getD i .null = .null)
  := by
  unfold extractKey at h
  split at h
  · rename_i idx
    obtain ⟨v, hv, h⟩ := bind_eq_ok.mp h
    injection h with h
    subst h
    obtain ⟨hlt, hflat⟩ := hidx idx mem_cons_self
    obtain ⟨rfl, hnull⟩ := extractKeyValue_spec hflat hv
    have hcell := Batch.getD_row hlt row
    rw [rowKey, mapM_cons, hcell]
    constructor
    · cases keyValue? ((b.column idx).cell row) <;> rfl
    · intro he
      exact ⟨idx, mem_cons_self, hcell.trans (hnull (map_eq_none_iff.mp he))⟩
  · obtain ⟨vs, hvs, h⟩ := bind_eq_ok.mp h
    injection h with h
    subst h
    obtain ⟨rfl, hnone⟩ := extractKeyValues_spec hidx hvs
    constructor
    · cases rowKey indices (b.row row) <;> rfl
    · intro he
      exact hnone (map_eq_none_iff.mp he)

theorem extractKeyValues_ok (hkey : ∀ i ∈ indices, isKeyType (b.column i).dtype = true)
    (row : Nat) :
  ∃ o, extractKeyValues b row indices = .ok o
  := by
  induction indices with
  | nil => exact ⟨_, rfl⟩
  | cons idx indices ih =>
    obtain ⟨v, hv⟩ := extractKeyValue_ok (hkey idx mem_cons_self) row
    obtain ⟨rest, hrest⟩ := ih (fun i hi => hkey i (mem_cons_of_mem idx hi))
    rw [extractKeyValues, hv]
    cases v with
    | none => exact ⟨_, rfl⟩
    | some v =>
      simp only [bind, Except.bind, hrest]
      exact ⟨_, rfl⟩

theorem extractKey_ok (hkey : ∀ i ∈ indices, isKeyType (b.column i).dtype = true) (row : Nat) :
  ∃ o, extractKey b indices row = .ok o
  := by
  unfold extractKey
  split
  · rename_i idx
    obtain ⟨v, hv⟩ := extractKeyValue_ok (hkey idx mem_cons_self) row
    rw [hv]
    exact ⟨_, rfl⟩
  · obtain ⟨vs, hvs⟩ := extractKeyValues_ok hkey row
    rw [hvs]
    exact ⟨_, rfl⟩

/-! ### Equal keys and equal columns -/

theorem floatOrder_eq_iff (width a b : Nat) (hw : 0 < width) (ha : a < 2 ^ width)
    (hb : b < 2 ^ width) :
  floatOrder width a = floatOrder width b ↔
    a = b ∨ (a % 2 ^ (width - 1) = 0 ∧ b % 2 ^ (width - 1) = 0)
  := by
  obtain ⟨w, rfl⟩ : ∃ w, width = w + 1 := ⟨width - 1, by omega⟩
  rw [Nat.pow_succ] at ha hb
  have hcast : ((2 : Int) ^ w) = ((2 ^ w : Nat) : Int) := by push_cast; rfl
  simp only [floatOrder, Nat.add_sub_cancel, hcast]
  generalize 2 ^ w = p at ha hb ⊢
  have hmod : ∀ n, n < p * 2 → n % p = if n < p then n else n - p := by
    intro n hn
    split
    · exact Nat.mod_eq_of_lt (by assumption)
    · rw [Nat.mod_eq_sub_mod (by omega), Nat.mod_eq_of_lt (by omega)]
  rw [hmod a ha, hmod b hb]
  split <;> split <;> omega

theorem F32.isZero_iff (x : F32) :
  x.isZero = true ↔ x.bits.toNat % 2 ^ 31 = 0
  := by
  have hand : (x.bits &&& 0x7FFFFFFF).toNat = x.bits.toNat % 2 ^ 31 := by
    rw [UInt32.toNat_and]
    exact Nat.and_two_pow_sub_one_eq_mod x.bits.toNat 31
  rw [F32.isZero, beq_iff_eq, ← UInt32.toNat_inj, hand]
  rfl

theorem F64.isZero_iff (x : F64) :
  x.isZero = true ↔ x.bits.toNat % 2 ^ 63 = 0
  := by
  have hand : (x.bits &&& 0x7FFFFFFFFFFFFFFF).toNat = x.bits.toNat % 2 ^ 63 := by
    rw [UInt64.toNat_and]
    exact Nat.and_two_pow_sub_one_eq_mod x.bits.toNat 63
  rw [F64.isZero, beq_iff_eq, ← UInt64.toNat_inj, hand]
  rfl

theorem F32.bits_ne_of_isZero {x y : F32} (hx : x.isZero = false) (hy : y.isZero = true) :
  x.bits ≠ y.bits
  := by
  intro he
  rw [F32.isZero, he, ← F32.isZero, hy] at hx
  cases hx

theorem F64.bits_ne_of_isZero {x y : F64} (hx : x.isZero = false) (hy : y.isZero = true) :
  x.bits ≠ y.bits
  := by
  intro he
  rw [F64.isZero, he, ← F64.isZero, hy] at hx
  cases hx

/-- Two 32-bit floats are one key exactly when they have one place in the order of floats. -/
theorem canonicaliseF32_eq_iff (x y : F32) :
  (canonicaliseF32 x).bits = (canonicaliseF32 y).bits ↔
    floatOrder 32 x.bits.toNat = floatOrder 32 y.bits.toNat
  := by
  rw [floatOrder_eq_iff 32 _ _ (by omega) x.bits.toNat_lt y.bits.toNat_lt, ← F32.isZero_iff,
    ← F32.isZero_iff, UInt32.toNat_inj]
  have hzero : (⟨0⟩ : F32).isZero = true := rfl
  unfold canonicaliseF32
  cases hx : x.isZero <;> cases hy : y.isZero
  · simp
  · simp [F32.bits_ne_of_isZero hx hy, F32.bits_ne_of_isZero hx hzero]
  · simp [(F32.bits_ne_of_isZero hy hx).symm, (F32.bits_ne_of_isZero hy hzero).symm]
  · simp

/-- Two 64-bit floats are one key exactly when they have one place in the order of floats. -/
theorem canonicaliseF64_eq_iff (x y : F64) :
  (canonicaliseF64 x).bits = (canonicaliseF64 y).bits ↔
    floatOrder 64 x.bits.toNat = floatOrder 64 y.bits.toNat
  := by
  rw [floatOrder_eq_iff 64 _ _ (by omega) x.bits.toNat_lt y.bits.toNat_lt, ← F64.isZero_iff,
    ← F64.isZero_iff, UInt64.toNat_inj]
  have hzero : (⟨0⟩ : F64).isZero = true := rfl
  unfold canonicaliseF64
  cases hx : x.isZero <;> cases hy : y.isZero
  · simp
  · simp [F64.bits_ne_of_isZero hx hy, F64.bits_ne_of_isZero hx hzero]
  · simp [(F64.bits_ne_of_isZero hy hx).symm, (F64.bits_ne_of_isZero hy hzero).symm]
  · simp

theorem nan32_canonicalise (x : F32) :
  nan32 (canonicaliseF32 x).bits = nan32 x.bits
  := by
  unfold canonicaliseF32
  split
  · rename_i hz
    rw [F32.isZero, beq_iff_eq] at hz
    rw [nan32, nan32, hz]
    rfl
  · rfl

theorem nan64_canonicalise (x : F64) :
  nan64 (canonicaliseF64 x).bits = nan64 x.bits
  := by
  unfold canonicaliseF64
  split
  · rename_i hz
    rw [F64.isZero, beq_iff_eq] at hz
    rw [nan64, nan64, hz]
    rfl
  · rfl

/-- Equality of floats that may be NaNs. -/
theorem compareFloat_eq_iff {a b : Bool} {x y : Int} (h : x = y → a = b) :
  Value.compareFloat .eq (a || b) x y = true ↔ y = x ∧ a = false
  := by
  simp only [Value.compareFloat, Value.compareWith, Bool.and_eq_true, Bool.not_eq_true',
    Bool.or_eq_false_iff, decide_eq_true_eq]
  constructor
  · rintro ⟨⟨ha, -⟩, hxy⟩
    exact ⟨hxy.symm, ha⟩
  · rintro ⟨hyx, ha⟩
    exact ⟨⟨ha, (h hyx.symm).symm.trans ha⟩, hyx.symm⟩

theorem unifyNumeric_self (h : t.isNumeric = true) :
  (unifyNumeric t t).toOption = some t
  := by
  cases t <;> first | rfl | cases h

/-- Comparison of two cells of one type. -/
theorem compare_of_dtype {a b : Value} (ha : a.dtype = some t)
    (hb : b.dtype = some t) (op : BinaryOp) :
  Value.compare op a b = ofTruth (Value.compareSame op a b)
  := by
  have hconv : ∀ v : Value, v.dtype = some t → t.isNumeric = true → v.convert t = v := by
    intro v hv hnum
    cases v <;> cases hv <;> first | rfl | cases hnum
  unfold Value.compare
  cases hnum : t.isNumeric with
  | true =>
    have hcommon : commonType a b = some t := by
      rw [commonType, ha, hb]
      exact unifyNumeric_self hnum
    rw [hcommon]
    simp only [hconv a ha hnum, hconv b hb hnum]
  | false =>
    have hcommon : commonType a b = none := by
      rw [commonType, ha, hb]
      simp [unifyNumeric, hnum, Except.toOption]
    rw [hcommon]

@[simp]
theorem sqlEq_null_left (v : Value) :
  sqlEq .null v = false
  := by
  cases v <;> rfl

@[simp]
theorem sqlEq_null_right (v : Value) :
  sqlEq v .null = false
  := by
  rw [sqlEq, Value.compare_eq_comm]
  exact sqlEq_null_left v

/-- Two cells of one type are equal under `=` exactly when they are one key and no NaN. -/
theorem sqlEq_iff {a b : Value} (ha : a.dtype = some t) (hb : b.dtype = some t)
    {k : JoinKeyValue} (hk : keyValue? a = some k) :
  sqlEq a b = true ↔ keyValue? b = some k ∧ k.isNan = false
  := by
  rw [sqlEq, compare_of_dtype ha hb]
  cases a <;> cases b <;> cases ha <;> cases hb
  all_goals
    simp only [keyValue?, some.injEq, reduceCtorEq] at hk
    try subst hk
  case float32.float32.refl.refl x y =>
    have hnan : floatOrder 32 x.bits.toNat = floatOrder 32 y.bits.toNat →
        nan32 x.bits = nan32 y.bits := by
      rw [← canonicaliseF32_eq_iff]
      intro he
      rw [← nan32_canonicalise, he, nan32_canonicalise]
    simp only [compareSame, ofTruth, Value.isTrue, truth, keyValue?,
      JoinKeyValue.isNan, nan32_canonicalise, beq_iff_eq, some.injEq,
      JoinKeyValue.f32.injEq, canonicaliseF32_eq_iff]
    exact compareFloat_eq_iff hnan
  case float64.float64.refl.refl x y =>
    have hnan : floatOrder 64 x.bits.toNat = floatOrder 64 y.bits.toNat →
        nan64 x.bits = nan64 y.bits := by
      rw [← canonicaliseF64_eq_iff]
      intro he
      rw [← nan64_canonicalise, he, nan64_canonicalise]
    simp only [compareSame, ofTruth, Value.isTrue, truth, keyValue?,
      JoinKeyValue.isNan, nan64_canonicalise, beq_iff_eq, some.injEq,
      JoinKeyValue.f64.injEq, canonicaliseF64_eq_iff]
    exact compareFloat_eq_iff hnan
  all_goals
    simp [compareSame, Value.compareOrd, Value.compareWith, ofTruth, Value.isTrue,
      truth, keyValue?, JoinKeyValue.isNan, eq_comm]

/-- Key columns of the same types on both sides. -/
def SameTypes (build probe : Batch) (buildIdx probeIdx : List Nat) : Prop :=
  Forall₂ (fun i j => (build.column i).dtype = (probe.column j).dtype) buildIdx probeIdx

theorem SameTypes.symm (h : SameTypes build probe buildIdx probeIdx) :
  SameTypes probe build probeIdx buildIdx
  := by
  apply Forall₂.flip
  exact h.imp (fun _ _ => Eq.symm)

theorem exists_of_forall₂ {α β : Type} {R : α → β → Prop} {as : List α} {bs : List β}
    (h : Forall₂ R as bs) {a : α} (ha : a ∈ as) :
  ∃ b ∈ bs, R a b
  := by
  induction h with
  | nil => cases ha
  | @cons a' b as bs hab _ ih =>
    obtain rfl | ha := mem_cons.mp ha
    · exact ⟨b, mem_cons_self, hab⟩
    · obtain ⟨b', hb', hab'⟩ := ih ha
      exact ⟨b', mem_cons_of_mem b hb', hab'⟩

theorem sqlMatch_cons (i j : Nat) (leftIdx rightIdx : List Nat) (l r : Row) :
  sqlMatch (i :: leftIdx) (j :: rightIdx) l r =
    (sqlEq (l.getD i .null) (r.getD j .null) && sqlMatch leftIdx rightIdx l r)
  := by
  rw [sqlMatch, zip_cons_cons, all_cons]
  rfl

theorem rowKey_cons_eq_some {i : Nat} {r : Row} :
  rowKey (i :: indices) r = some k ↔
    ∃ v vs, keyValue? (r.getD i .null) = some v ∧ rowKey indices r = some vs ∧ k = v :: vs
  := by
  rw [rowKey, mapM_cons]
  simp only [bind, bind_eq_some_iff, pure, some.injEq, rowKey]
  constructor
  · rintro ⟨v, hv, vs, hvs, rfl⟩
    exact ⟨v, vs, hv, hvs, rfl⟩
  · rintro ⟨v, vs, hv, hvs, rfl⟩
    exact ⟨v, hv, vs, hvs, rfl⟩

theorem sqlMatch_comm (l r : Row) :
  sqlMatch leftIdx rightIdx l r = sqlMatch rightIdx leftIdx r l
  := by
  induction leftIdx generalizing rightIdx with
  | nil => cases rightIdx <;> rfl
  | cons i leftIdx ih =>
    cases rightIdx with
    | nil => rfl
    | cons j rightIdx =>
      rw [sqlMatch_cons, sqlMatch_cons, ih, sqlEq, sqlEq, Value.compare_eq_comm]

/-- A row with a `NULL` in a key column is equal to no row. -/
theorem sqlMatch_of_null (hlen : leftIdx.length = rightIdx.length)
    {l : Row} (hnull : ∃ i ∈ leftIdx, l.getD i .null = .null) (r : Row) :
  sqlMatch leftIdx rightIdx l r = false
  := by
  induction leftIdx generalizing rightIdx with
  | nil => simp at hnull
  | cons i leftIdx ih =>
    cases rightIdx with
    | nil => cases hlen
    | cons j rightIdx =>
      rw [sqlMatch_cons]
      obtain ⟨i', hi', hnull⟩ := hnull
      obtain rfl | hi' := mem_cons.mp hi'
      · rw [hnull, sqlEq_null_left, Bool.false_and]
      · rw [ih (Nat.succ.inj hlen) ⟨i', hi', hnull⟩, Bool.and_false]

/-- Rows are equal in all key columns exactly when they have one key and no NaN in it. -/
theorem sqlMatch_iff (hbuild : KeyColumns build buildIdx) (hprobe : KeyColumns probe probeIdx)
    (htypes : SameTypes build probe buildIdx probeIdx) (b p : Nat)
    (hk : rowKey buildIdx (build.row b) = some k) :
  sqlMatch buildIdx probeIdx (build.row b) (probe.row p) = true ↔
    rowKey probeIdx (probe.row p) = some k ∧ ∀ v ∈ k, v.isNan = false
  := by
  induction htypes generalizing k with
  | nil =>
    rw [rowKey] at hk ⊢
    obtain rfl : [] = k := some.inj hk
    simp [sqlMatch]
  | @cons i j buildIdx probeIdx hij _ ih =>
    obtain ⟨v, vs, hv, hvs, rfl⟩ := rowKey_cons_eq_some.mp hk
    have ih := ih (fun i hi => hbuild i (mem_cons_of_mem _ hi))
      (fun i hi => hprobe i (mem_cons_of_mem _ hi)) hvs
    have hcell : sqlEq ((build.row b).getD i .null) ((probe.row p).getD j .null) = true ↔
        keyValue? ((probe.row p).getD j .null) = some v ∧ v.isNan = false := by
      rw [Batch.getD_row (hbuild i mem_cons_self).1] at hv ⊢
      rw [Batch.getD_row (hprobe j mem_cons_self).1]
      obtain ha | ha := typed_cell (build.column i) b
      · rw [ha] at hv
        cases hv
      · obtain hb | hb := typed_cell (probe.column j) p
        · rw [hb]
          simp [keyValue?]
        · rw [← hij] at hb
          exact sqlEq_iff ha hb hv
    rw [sqlMatch_cons, Bool.and_eq_true, hcell, ih, rowKey_cons_eq_some, forall_mem_cons]
    constructor
    · rintro ⟨⟨hj, hnan⟩, hrest, hnans⟩
      exact ⟨⟨v, vs, hj, hrest, rfl⟩, hnan, hnans⟩
    · rintro ⟨⟨v', vs', hj, hrest, heq⟩, hnan, hnans⟩
      obtain ⟨rfl, rfl⟩ := cons.inj heq
      exact ⟨⟨hj, hnan⟩, hrest, hnans⟩

end CratonBolt.Joins
