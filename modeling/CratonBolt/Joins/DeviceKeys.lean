import CratonBolt.Joins.DeviceJoin
import CratonBolt.Joins.Keys

/-!
# Encoded keys

What the encodings of the device tell of two keys. The exact shapes give one integer to two keys
exactly when they are equal after all NaNs are made one; the folded shapes give equal integers to
equal keys, and the comparison on the host takes out the rest.
-/

namespace CratonBolt.Joins

open List

variable {cells : List Value}

/-! ### Keys with one NaN -/

/-- A column of a key with one NaN of each width. -/
def nanKey : JoinKeyValue → JoinKeyValue
  | .f32 bits => .f32 (if Value.nan32 bits then 0x7FC00000 else bits)
  | .f64 bits => .f64 (if Value.nan64 bits then 0x7FF8000000000000 else bits)
  | v => v

/-- The key of some cells. -/
def cellsKey (cells : List Value) : Option (List JoinKeyValue) := cells.mapM keyValue?

/-- The key of some cells, with one NaN. -/
def canonCellsKey (cells : List Value) : Option (List JoinKeyValue) :=
  (cellsKey cells).map (map nanKey)

theorem rowKey_eq (indices : List Nat) (r : Row) :
  rowKey indices r = cellsKey (indices.map (fun i => r.getD i .null))
  := by
  rw [cellsKey, mapM_map]
  rfl

theorem nanKey_f32 (x : F32) :
  nanKey (.f32 (canonicaliseF32 x).bits) =
    .f32 (if x.isNan then 0x7FC00000 else if x.isZero then 0 else x.bits)
  := by
  have hnan : x.isNan = Value.nan32 x.bits := rfl
  simp only [nanKey, nan32_canonicalise, hnan]
  split
  · rfl
  · unfold canonicaliseF32
    split <;> rfl

theorem nanKey_f64 (x : F64) :
  nanKey (.f64 (canonicaliseF64 x).bits) = .f64 (canonicalF64Bits x)
  := by
  have hnan : x.isNan = Value.nan64 x.bits := rfl
  simp only [nanKey, nan64_canonicalise, canonicalF64Bits, hnan]
  split
  · rfl
  · unfold canonicaliseF64
    split <;> rfl

theorem canonicalF32Bits_eq_iff (x y : F32) :
  canonicalF32Bits x = canonicalF32Bits y ↔
    nanKey (.f32 (canonicaliseF32 x).bits) = nanKey (.f32 (canonicaliseF32 y).bits)
  := by
  rw [nanKey_f32, nanKey_f32, JoinKeyValue.f32.injEq, canonicalF32Bits, canonicalF32Bits,
    UInt32.toUInt64_inj]

theorem canonicalF64Bits_eq_iff (x y : F64) :
  canonicalF64Bits x = canonicalF64Bits y ↔
    nanKey (.f64 (canonicaliseF64 x).bits) = nanKey (.f64 (canonicaliseF64 y).bits)
  := by
  rw [nanKey_f64, nanKey_f64, JoinKeyValue.f64.injEq]

/-! ### Encoded rows -/

/-- The cells of a key of some shape and their encoding. -/
inductive Encodes : KeyShape → List Value → Int64 → Prop where
  | i32 (n : Int32) : Encodes .singleI32 [.int32 n] n.toInt64
  | i64 (n : Int64) : Encodes .singleI64 [.int64 n] n
  | bool (b : Bool) : Encodes .singleBool [.bool b] (if b then 1 else 0)
  | f32 (x : F32) : Encodes .singleF32 [.float32 x] (canonicalF32Bits x).toInt64
  | f64 (x : F64) : Encodes .singleF64 [.float64 x] (canonicalF64Bits x).toInt64
  | two (hi lo : Int32) : Encodes .twoI32 [.int32 hi, .int32 lo]
      (hi.toUInt32.toUInt64 <<< 32 ||| lo.toUInt32.toUInt64).toInt64
  | fold {shape : KeyShape} {cells : List Value} {h : UInt64}
      (hshape : shape.needsHostPostVerify = true) (hfold : foldBits 0 cells = some h) :
      Encodes shape cells h.toInt64

theorem unlessSentinel_eq_some {key e : Int64} (h : unlessSentinel key = some e) :
  e = key
  := by
  unfold unlessSentinel at h
  split at h
  · cases h
  · injection h with h
    exact h.symm

variable {e : Int64} {v : Value} {shape : KeyShape} {m n : Int32}
variable {buildCols probeCols : List Column}

theorem encodeI64_eq_some {dtype : DataType} (h : encodeI64 dtype v = some e) :
  (∃ n, dtype = .int32 ∧ v = .int32 n ∧ e = n.toInt64) ∨ (dtype = .int64 ∧ v = .int64 e)
  := by
  unfold encodeI64 at h
  split at h
  · rename_i n
    injection h with h
    exact .inl ⟨n, rfl, rfl, h.symm⟩
  · rw [unlessSentinel_eq_some h]
    exact .inr ⟨rfl, rfl⟩
  · cases h

theorem encodes_of_encodeRow (h : encodeRow shape cells = some e) :
  Encodes shape cells e
  := by
  unfold encodeRow at h
  split at h
  · obtain ⟨n, -, rfl, rfl⟩ | ⟨hd, -⟩ := encodeI64_eq_some h
    · exact .i32 n
    · cases hd
  · obtain ⟨n, hd, -, -⟩ | ⟨-, rfl⟩ := encodeI64_eq_some h
    · cases hd
    · exact .i64 e
  · injection h with h
    subst h
    exact .bool _
  · rw [unlessSentinel_eq_some h]
    exact .f32 _
  · rw [unlessSentinel_eq_some h]
    exact .f64 _
  · rw [unlessSentinel_eq_some h]
    exact .two _ _
  · obtain ⟨b, hb, h⟩ := Option.bind_eq_some_iff.mp h
    rw [unlessSentinel_eq_some h]
    exact .fold rfl hb
  · obtain ⟨b, hb, h⟩ := Option.bind_eq_some_iff.mp h
    rw [unlessSentinel_eq_some h]
    exact .fold rfl hb
  · cases h

theorem toInt64_inj :
  m.toInt64 = n.toInt64 ↔ m = n
  := by
  rw [← Int64.toInt_inj, Int32.toInt_toInt64, Int32.toInt_toInt64, Int32.toInt_inj]

theorem toUInt32_inj :
  m.toUInt32 = n.toUInt32 ↔ m = n
  := by
  constructor
  · intro h
    cases m
    cases n
    exact congrArg Int32.ofUInt32 h
  · exact congrArg Int32.toUInt32

/-- The exact shapes encode two keys alike exactly when they are equal up to the NaNs. -/
theorem Encodes.eq_iff {cells cells' : List Value} {e e' : Int64}
    (hexact : shape.needsHostPostVerify = false) (h : Encodes shape cells e)
    (h' : Encodes shape cells' e') :
  e = e' ↔ canonCellsKey cells = canonCellsKey cells'
  := by
  cases h with
  | i32 n =>
    cases h' with
    | i32 m => simp [toInt64_inj, canonCellsKey, cellsKey, keyValue?, nanKey]
    | fold hshape _ => cases hshape
  | i64 =>
    cases h' with
    | i64 => simp [canonCellsKey, cellsKey, keyValue?, nanKey]
    | fold hshape _ => cases hshape
  | bool b =>
    cases h' with
    | bool c => cases b <;> cases c <;> decide
    | fold hshape _ => cases hshape
  | f32 x =>
    cases h' with
    | f32 y =>
      rw [GroupBy.toInt64_eq_iff, canonicalF32Bits_eq_iff]
      simp [canonCellsKey, cellsKey, keyValue?]
    | fold hshape _ => cases hshape
  | f64 x =>
    cases h' with
    | f64 y =>
      rw [GroupBy.toInt64_eq_iff, canonicalF64Bits_eq_iff]
      simp [canonCellsKey, cellsKey, keyValue?]
    | fold hshape _ => cases hshape
  | two hi lo =>
    cases h' with
    | two hi' lo' =>
      rw [GroupBy.toInt64_eq_iff, GroupBy.pair_eq_iff]
      simp [canonCellsKey, cellsKey, keyValue?, nanKey, toUInt32_inj]
    | fold hshape _ => cases hshape
  | fold hshape _ =>
    rw [hexact] at hshape
    cases hshape

/-! ### Folded keys -/

/-- An integer, as the folded keys have them. -/
def IsInt (v : Value) : Prop := (foldedBits v).isSome = true

theorem isInt_cases (h : IsInt v) :
  (∃ n, v = .int32 n) ∨ ∃ n, v = .int64 n
  := by
  cases v <;> first | exact .inl ⟨_, rfl⟩ | exact .inr ⟨_, rfl⟩ | cases h

theorem foldBits_isInt {h h' : UInt64} (hfold : foldBits h cells = some h') :
  ∀ v ∈ cells, IsInt v
  := by
  induction cells generalizing h with
  | nil => simp
  | cons v cells ih =>
    obtain ⟨bits, hbits, hfold⟩ := Option.bind_eq_some_iff.mp hfold
    rw [forall_mem_cons]
    refine ⟨?_, ih hfold⟩
    rw [IsInt, hbits]
    rfl

theorem canonCellsKey_cons (v : Value) (cells : List Value) :
  canonCellsKey (v :: cells) =
    (keyValue? v).bind (fun k => (canonCellsKey cells).map (nanKey k :: ·))
  := by
  rw [canonCellsKey, cellsKey, mapM_cons, canonCellsKey, cellsKey]
  cases keyValue? v with
  | none => rfl
  | some k =>
    cases cells.mapM keyValue? with
    | none => rfl
    | some ks => rfl

theorem canonCellsKey_isSome (h : ∀ v ∈ cells, IsInt v) :
  ∃ ks, canonCellsKey cells = some ks
  := by
  induction cells with
  | nil => exact ⟨[], rfl⟩
  | cons v cells ih =>
    rw [forall_mem_cons] at h
    obtain ⟨ks, hks⟩ := ih h.2
    rw [canonCellsKey_cons, hks]
    obtain ⟨n, rfl⟩ | ⟨n, rfl⟩ := isInt_cases h.1
    · exact ⟨_, rfl⟩
    · exact ⟨_, rfl⟩

/-- Keys of integers are equal exactly when the integers are. -/
theorem canonCellsKey_eq_iff {cells cells' : List Value} (h : ∀ v ∈ cells, IsInt v)
    (h' : ∀ v ∈ cells', IsInt v) :
  canonCellsKey cells = canonCellsKey cells' ↔ cells = cells'
  := by
  induction cells generalizing cells' with
  | nil =>
    cases cells' with
    | nil => simp
    | cons w cells' =>
      rw [forall_mem_cons] at h'
      obtain ⟨ks, hks⟩ := canonCellsKey_isSome h'.2
      rw [canonCellsKey_cons, hks]
      obtain ⟨n, rfl⟩ | ⟨n, rfl⟩ := isInt_cases h'.1 <;> simp [canonCellsKey, cellsKey, keyValue?]
  | cons v cells ih =>
    rw [forall_mem_cons] at h
    obtain ⟨ks, hks⟩ := canonCellsKey_isSome h.2
    cases cells' with
    | nil =>
      rw [canonCellsKey_cons, hks]
      obtain ⟨n, rfl⟩ | ⟨n, rfl⟩ := isInt_cases h.1 <;> simp [canonCellsKey, cellsKey, keyValue?]
    | cons w cells' =>
      rw [forall_mem_cons] at h'
      obtain ⟨ks', hks'⟩ := canonCellsKey_isSome h'.2
      rw [cons.injEq, ← ih h.2 h'.2, canonCellsKey_cons, canonCellsKey_cons, hks, hks']
      obtain ⟨n, rfl⟩ | ⟨n, rfl⟩ := isInt_cases h.1 <;>
        obtain ⟨m, rfl⟩ | ⟨m, rfl⟩ := isInt_cases h'.1 <;> simp [keyValue?, nanKey]

/-! ### The comparison on the host -/

/-- Two values that are no `NULL`, in arrays of one type of key, are compared. -/
theorem arrowRowEq_eq {a b : Column} {ai bi : Nat} {t : DataType} (hdtype : a.dtype = b.dtype)
    (ht : a.dtype = .plain t) (hkey : isKeyType (.plain t) = true) (ha : a.cell ai ≠ .null)
    (hb : b.cell bi ≠ .null) :
  arrowRowEq a ai b bi = some (decide (a.cell ai = b.cell bi))
  := by
  have hnull : ¬ (a.cell ai = .null ∨ b.cell bi = .null) := not_or.mpr ⟨ha, hb⟩
  rw [arrowRowEq, if_neg hnull, if_neg (not_not.mpr hdtype), ht]
  cases t <;> first | rfl | cases hkey

theorem dtype_of_isInt {c : Column} {row : Nat} (h : IsInt (c.cell row)) :
  c.cell row ≠ .null ∧ ∃ t, c.dtype = .plain t ∧ isKeyType (.plain t) = true
  := by
  have htyped := c.typed_cell row
  have hnull : c.cell row ≠ .null := by
    intro hn
    rw [IsInt, hn] at h
    cases h
  have hdtype := htyped.resolve_left hnull
  refine ⟨hnull, ?_⟩
  cases hc : c.dtype with
  | plain t =>
    refine ⟨t, rfl, ?_⟩
    rw [hc] at hdtype
    obtain ⟨n, hv⟩ | ⟨n, hv⟩ := isInt_cases h
    all_goals
      rw [hv] at hdtype
      injection hdtype with hdtype
      change _ = t at hdtype
      subst hdtype
      rfl
  | dictionary key =>
    rw [hc] at hdtype
    obtain ⟨n, hv⟩ | ⟨n, hv⟩ := isInt_cases h
    all_goals
      rw [hv] at hdtype
      cases hdtype

/-- Rows of integers are compared in all columns. -/
theorem rowsEq_eq (hdtypes : Forall₂ (fun b p => b.dtype = p.dtype) buildCols probeCols)
    {pair : RowPair} (hb : ∀ v ∈ buildCols.map (fun c => c.cell pair.1), IsInt v)
    (hp : ∀ v ∈ probeCols.map (fun c => c.cell pair.2), IsInt v) :
  rowsEq buildCols probeCols pair = some (decide
    (buildCols.map (fun c => c.cell pair.1) = probeCols.map (fun c => c.cell pair.2)))
  := by
  induction hdtypes with
  | nil => rfl
  | @cons b p buildCols probeCols hbp _ ih =>
    rw [map_cons, forall_mem_cons] at hb hp
    obtain ⟨hbn, t, ht, hkey⟩ := dtype_of_isInt hb.1
    rw [rowsEq, arrowRowEq_eq hbp ht hkey hbn (dtype_of_isInt hp.1).1]
    simp only [Option.bind_eq_bind, Option.bind_some, decide_eq_true_eq, map_cons,
      cons.injEq]
    split
    · rename_i heq
      rw [ih hb.2 hp.2]
      simp [heq]
    · rename_i hne
      simp [hne]

/-- The comparison keeps the pairs that are equal, in order. -/
theorem verifyPairsOnHost_eq {same : RowPair → Bool} {pairs : List RowPair}
    (h : ∀ pair ∈ pairs, rowsEq buildCols probeCols pair = some (same pair)) :
  verifyPairsOnHost buildCols probeCols pairs = some (pairs.filter same)
  := by
  induction pairs with
  | nil => rfl
  | cons pair pairs ih =>
    rw [forall_mem_cons] at h
    rw [verifyPairsOnHost, h.1, ih h.2, filter_cons]
    rfl

end CratonBolt.Joins
