import CratonBolt.GroupBy.SqlKeys

/-!
# What the packed keys hold

Packing is exact. The keys of one column, or of two of 32 bits, are the encodings of the rows'
values; a packed key decodes to the values it encodes. Of the encodings, the two reserved keys
are those of the extreme 64-bit integers and of one pair of 32-bit integers each.
-/

namespace CratonBolt.GroupBy

open List
open Literal (dtype)

variable {cols : List (ColumnIo × KeyArray)} {aggregate : AggregateSpec} {batch : RecordBatch}
variable {arr : KeyArray} {v : Literal}

/-! ### Encoding and decoding -/

section Words

theorem toUInt32_mask (x : UInt64) :
  (x &&& 0xFFFFFFFF).toUInt32 = x.toUInt32
  := by
  have h : x.toNat &&& 4294967295 = x.toNat % 4294967296 :=
    Nat.and_two_pow_sub_one_eq_mod x.toNat 32
  apply UInt32.toNat_inj.mp
  rw [UInt64.toNat_toUInt32, UInt64.toNat_toUInt32, UInt64.toNat_and]
  change (x.toNat &&& 4294967295) % 4294967296 = x.toNat % 4294967296
  rw [h, Nat.mod_mod]

variable (a b : UInt32)

theorem toNat_pair :
  (a.toUInt64 <<< 32 ||| b.toUInt64).toNat = a.toNat * 2 ^ 32 + b.toNat
  := by
  have ha := a.toNat_lt
  have h := Nat.shiftLeft_add_eq_or_of_lt b.toNat_lt a.toNat
  have hm : a.toNat <<< 32 % 18446744073709551616 = a.toNat <<< 32 := by
    rw [Nat.shiftLeft_eq]
    omega
  simp only [UInt64.toNat_or, UInt64.toNat_shiftLeft, UInt32.toNat_toUInt64]
  change a.toNat <<< 32 % 18446744073709551616 ||| b.toNat = _
  rw [hm, ← h, Nat.shiftLeft_eq]

theorem pair_low :
  (a.toUInt64 <<< 32 ||| b.toUInt64).toUInt32 = b
  := by
  have hb := b.toNat_lt
  apply UInt32.toNat_inj.mp
  rw [UInt64.toNat_toUInt32, toNat_pair]
  omega

theorem pair_high :
  ((a.toUInt64 <<< 32 ||| b.toUInt64) >>> 32).toUInt32 = a
  := by
  have ha := a.toNat_lt
  have hb := b.toNat_lt
  have h32 : (32 : UInt64).toNat % 64 = 32 := rfl
  apply UInt32.toNat_inj.mp
  rw [UInt64.toNat_toUInt32, UInt64.toNat_shiftRight, toNat_pair, h32, Nat.shiftRight_eq_div_pow]
  omega

variable {a b}

theorem toInt64_eq_iff {x y : UInt64} :
  x.toInt64 = y.toInt64 ↔ x = y
  := ⟨fun h => by simpa using congrArg Int64.toUInt64 h, congrArg _⟩

theorem pair_eq_iff {c d : UInt32} :
  a.toUInt64 <<< 32 ||| b.toUInt64 = c.toUInt64 <<< 32 ||| d.toUInt64 ↔ a = c ∧ b = d
  := by
  constructor
  · intro h
    exact ⟨by rw [← pair_high a b, h, pair_high], by rw [← pair_low a b, h, pair_low]⟩
  · rintro ⟨rfl, rfl⟩
    rfl

end Words

/-- The bits of a key. -/
def encodeLiteral : Literal → UInt64
  | .int32 v => v.toUInt32.toUInt64
  | .int64 v => v.toUInt64
  | .float32 x => x.bits.toUInt64
  | .float64 x => x.bits
  | _ => 0

/-- The packed key of a row. -/
def encodeTuple : List Literal → Int64
  | [a] => (encodeLiteral a).toInt64
  | [a, b] => (encodeLiteral a <<< 32 ||| encodeLiteral b).toInt64
  | _ => 0

/-- Where the key columns are packed. -/
def packComponents : List ColumnIo → List KeyComponent
  | [io] => [⟨io.name, io.dtype, 0⟩]
  | [hi, lo] => [⟨hi.name, hi.dtype, 32⟩, ⟨lo.name, lo.dtype, 0⟩]
  | _ => []

/-- A key of 32 bits; a string is one by its code. -/
def isNarrow (dtype : DataType) : Bool := dtype = .int32 || dtype = .float32 || dtype = .utf8

/-- The keys are packed: they are one column, or two of 32 bits. -/
def packable : List DataType → Bool
  | [_] => true
  | [hi, lo] => isNarrow hi && isNarrow lo
  | _ => false

/-- A float that stands for the values equal to it. -/
def IsCanonical : Literal → Prop
  | .float32 x => canonicaliseF32 x = x
  | .float64 x => canonicaliseF64 x = x
  | _ => True

/-- The bits of a 32-bit key. -/
def narrowBits : Literal → UInt32
  | .int32 v => v.toUInt32
  | .float32 x => x.bits
  | _ => 0

theorem encodeLiteral_narrow (h : v.dtype = some .int32 ∨ v.dtype = some .float32) :
  encodeLiteral v = (narrowBits v).toUInt64
  := by
  cases v <;> simp_all [dtype, encodeLiteral, narrowBits]

/-- The types that are packed as they are. -/
def isNumericKey (dtype : DataType) : Bool :=
  match dtype with
  | .int32 | .int64 | .float32 | .float64 => true
  | _ => false

variable {d : DataType} {w : UInt32}

theorem decodeComponent_single (hv : v.dtype = some d) (hd : isNumericKey d) (name : String) :
  decodeComponent (encodeLiteral v) ⟨name, d, 0⟩ = v
  := by
  cases v <;> simp_all only [dtype, Option.some.injEq, reduceCtorEq] <;> subst hv <;>
    simp only [isNumericKey, Bool.false_eq_true] at hd <;>
    simp only [decodeComponent, encodeLiteral, toUInt32_mask, UInt64.shiftRight_zero,
      UInt32.toUInt32_toUInt64, Int32.toInt32_toUInt32, Int64.toInt64_toUInt64]

/-- The 32 bits at the place of a component. -/
theorem decodeComponent_narrow (hv : v.dtype = some d) (hd : d = .int32 ∨ d = .float32)
    {w s : UInt64} (hw : (w >>> s).toUInt32 = narrowBits v) (name : String) :
  decodeComponent w ⟨name, d, s⟩ = v
  := by
  cases v <;> simp_all only [dtype, Option.some.injEq, reduceCtorEq] <;> subst hv <;>
    simp only [reduceCtorEq, or_self] at hd <;>
    simp only [decodeComponent, toUInt32_mask, hw, narrowBits, Int32.toInt32_toUInt32]

/-- Types of the values of a key. -/
def HasDtypes (t : List Literal) (dtypes : List DataType) : Prop :=
  t.map dtype = dtypes.map some

/-- A packed key decodes to what it encodes. -/
theorem decodeKey_encodeTuple {t : List Literal} {ios : List ColumnIo}
    (ht : HasDtypes t (ios.map ColumnIo.dtype)) (hnum : ∀ io ∈ ios, isNumericKey io.dtype)
    (hp : packable (ios.map ColumnIo.dtype)) :
  decodeKey (encodeTuple t) (packComponents ios) = t
  := by
  match ios, t with
  | [io], [v] =>
    have hv : v.dtype = some io.dtype := by simpa [HasDtypes] using ht
    simp [decodeKey, encodeTuple, packComponents, decodeComponent_single hv (hnum io (by simp))]
  | [hi, lo], [a, b] =>
    have hab : a.dtype = some hi.dtype ∧ b.dtype = some lo.dtype := by simpa [HasDtypes] using ht
    have hhi := hnum hi (by simp)
    have hlo := hnum lo (by simp)
    have hn : (hi.dtype = .int32 ∨ hi.dtype = .float32) ∧ (lo.dtype = .int32 ∨ lo.dtype = .float32)
        := by
      simp only [map_cons, map_nil, packable, isNarrow, Bool.and_eq_true, Bool.or_eq_true,
        decide_eq_true_eq] at hp
      constructor
      · obtain ⟨h | h, -⟩ := hp
        · exact h
        · simp [h, isNumericKey] at hhi
      · obtain ⟨-, h | h⟩ := hp
        · exact h
        · simp [h, isNumericKey] at hlo
    have ha : a.dtype = some .int32 ∨ a.dtype = some .float32 := by simpa [hab.1] using hn.1
    have hb : b.dtype = some .int32 ∨ b.dtype = some .float32 := by simpa [hab.2] using hn.2
    have hw : encodeLiteral a <<< 32 ||| encodeLiteral b
        = (narrowBits a).toUInt64 <<< 32 ||| (narrowBits b).toUInt64 := by
      rw [encodeLiteral_narrow ha, encodeLiteral_narrow hb]
    simp only [decodeKey, encodeTuple, packComponents, map_cons, map_nil,
      UInt64.toUInt64_toInt64, hw]
    rw [decodeComponent_narrow hab.1 hn.1 (pair_high _ _),
      decodeComponent_narrow hab.2 hn.2 (by simpa using pair_low (narrowBits a) (narrowBits b))]
  | [], _ => cases hp
  | [_], [] => simp [HasDtypes] at ht
  | [_], _ :: _ :: _ => simp [HasDtypes] at ht
  | [_, _], [] => simp [HasDtypes] at ht
  | [_, _], [_] => simp [HasDtypes] at ht
  | [_, _], _ :: _ :: _ :: _ => simp [HasDtypes] at ht
  | _ :: _ :: _ :: _, _ => cases hp

/-! ### The reserved keys -/

theorem canonicaliseF32_idem (x : F32) :
  canonicaliseF32 (canonicaliseF32 x) = canonicaliseF32 x
  := by
  by_cases hn : x.isNan
  · have h : canonicaliseF32 x = ⟨0x7FC00000⟩ := by simp [canonicaliseF32, hn]
    rw [h]
    decide
  · by_cases hz : x.isZero
    · have h : canonicaliseF32 x = ⟨0⟩ := by simp [canonicaliseF32, hn, hz]
      rw [h]
      decide
    · have h : canonicaliseF32 x = x := by simp [canonicaliseF32, hn, hz]
      rw [h, h]

theorem canonicaliseF64_idem (x : F64) :
  canonicaliseF64 (canonicaliseF64 x) = canonicaliseF64 x
  := by
  by_cases hn : x.isNan
  · have h : canonicaliseF64 x = ⟨0x7FF8000000000000⟩ := by simp [canonicaliseF64, hn]
    rw [h]
    decide
  · by_cases hz : x.isZero
    · have h : canonicaliseF64 x = ⟨0⟩ := by simp [canonicaliseF64, hn, hz]
      rw [h]
      decide
    · have h : canonicaliseF64 x = x := by simp [canonicaliseF64, hn, hz]
      rw [h, h]

/-- A word that no canonical float has. -/
theorem bits_ne_of_not_canonical {x : F32} (hx : canonicaliseF32 x = x)
    (hw : canonicaliseF32 ⟨w⟩ ≠ ⟨w⟩) :
  x.bits ≠ w
  := by
  rintro rfl
  exact hw hx

/-- A single key is encoded by a word that is no canonical float's and too large for 32 bits. -/
theorem encodeTuple_single_eq_iff (hv : v.dtype = some d) (hd : isNumericKey d)
    (hc : IsCanonical v) {w : Int64} (hlarge : 2 ^ 32 ≤ w.toUInt64.toNat)
    (hw : canonicaliseF64 ⟨w.toUInt64⟩ ≠ ⟨w.toUInt64⟩) :
  encodeTuple [v] = w ↔ v = .int64 w
  := by
  have hnarrow : ∀ u : UInt32, u.toUInt64.toInt64 ≠ w := by
    intro u h
    have hu := u.toNat_lt
    rw [← h] at hlarge
    simp only [UInt64.toUInt64_toInt64, UInt32.toNat_toUInt64] at hlarge
    omega
  cases v with
  | int32 _ | float32 _ => simp [encodeTuple, encodeLiteral, hnarrow]
  | int64 n => simp [encodeTuple, encodeLiteral]
  | float64 x =>
    simp only [encodeTuple, encodeLiteral, reduceCtorEq, iff_false]
    rintro rfl
    simp only [UInt64.toUInt64_toInt64] at hw
    exact hw hc
  | _ => simp_all [dtype, isNumericKey] <;> subst hv <;> simp at hd

/-- The words of a pair of 32-bit keys. -/
theorem encodeTuple_pair {a b : Literal} (ha : a.dtype = some .int32 ∨ a.dtype = some .float32)
    (hb : b.dtype = some .int32 ∨ b.dtype = some .float32) :
  encodeTuple [a, b] = ((narrowBits a).toUInt64 <<< 32 ||| (narrowBits b).toUInt64).toInt64
  := by
  rw [encodeTuple, encodeLiteral_narrow ha, encodeLiteral_narrow hb]

/-- A 32-bit key is encoded by a word that is no canonical float's. -/
theorem narrowBits_eq_iff (hv : v.dtype = some .int32 ∨ v.dtype = some .float32)
    (hc : IsCanonical v) (hw : canonicaliseF32 ⟨w⟩ ≠ ⟨w⟩) :
  narrowBits v = w ↔ v = .int32 w.toInt32
  := by
  cases v <;> simp_all [dtype, narrowBits]
  case int32 n =>
    constructor
    · rintro rfl
      simp
    · rintro rfl
      simp
  case float32 x => exact bits_ne_of_not_canonical hc hw

/-- The single keys that are packed into the two reserved keys. -/
theorem encodeTuple_single_reserved (hv : v.dtype = some d) (hd : isNumericKey d)
    (hc : IsCanonical v) :
  (encodeTuple [v] = emptyKey ↔ v = .int64 emptyKey) ∧
    (encodeTuple [v] = nullGroupKey ↔ v = .int64 nullGroupKey)
  :=
  ⟨encodeTuple_single_eq_iff hv hd hc (by decide) (by decide),
    encodeTuple_single_eq_iff hv hd hc (by decide) (by decide)⟩

/-- The pair of keys that is packed into the key of the `NULL` group. -/
theorem encodeTuple_pair_nullGroupKey {a b : Literal}
    (ha : a.dtype = some .int32 ∨ a.dtype = some .float32)
    (hb : b.dtype = some .int32 ∨ b.dtype = some .float32) (hca : IsCanonical a)
    (hcb : IsCanonical b) :
  encodeTuple [a, b] = nullGroupKey ↔ a = .int32 Int32.maxValue ∧ b = .int32 (-1)
  := by
  have hw : nullGroupKey =
      ((0x7FFFFFFF : UInt32).toUInt64 <<< 32 ||| (0xFFFFFFFF : UInt32).toUInt64).toInt64
      := by decide
  rw [encodeTuple_pair ha hb, hw, toInt64_eq_iff, pair_eq_iff,
    narrowBits_eq_iff ha hca (by decide), narrowBits_eq_iff hb hcb (by decide)]
  rfl

/-- The pairs of keys that are packed into the marker of an empty slot. -/
theorem encodeTuple_pair_emptyKey {a b : Literal}
    (ha : a.dtype = some .int32 ∨ a.dtype = some .float32)
    (hb : b.dtype = some .int32 ∨ b.dtype = some .float32) (hca : IsCanonical a) :
  encodeTuple [a, b] = emptyKey ↔ a = .int32 Int32.minValue ∧ narrowBits b = 0
  := by
  have hw : emptyKey =
      ((0x80000000 : UInt32).toUInt64 <<< 32 ||| (0 : UInt32).toUInt64).toInt64 := by
    decide
  rw [encodeTuple_pair ha hb, hw, toInt64_eq_iff, pair_eq_iff,
    narrowBits_eq_iff ha hca (by decide)]
  rfl

/-! ### The packed columns -/

/-- The keys of an aggregate are columns of the batch, none of them strings. -/
structure NumericKeys (aggregate : AggregateSpec) (batch : RecordBatch)
    (cols : List (ColumnIo × KeyArray)) : Prop where
  columns : keyColumns aggregate batch = some cols
  nonempty : cols ≠ []
  dtypes : ∀ c ∈ cols, c.2.keyDtype = some c.1.dtype
  numeric : ∀ c ∈ cols, isNumericKey c.1.dtype

/-- The positions of the keys and the columns they denote. -/
theorem keyColumns_forall₂ (h : keyColumns aggregate batch = some cols) :
  Forall₂ (fun ord c => aggregate.inputs[ord]? = some c.1 ∧ batch.column? c.1.name = some c.2)
    aggregate.groupBy cols
  := by
  apply (Outcome.mapM_eq_some_iff.mp h).imp
  intro ord c hc
  simp only [Option.bind_eq_bind, Option.bind_eq_some_iff, Option.pure_def, Option.some.injEq] at hc
  obtain ⟨io, hio, arr, harr, rfl⟩ := hc
  exact ⟨hio, harr⟩

theorem keyColumns_length (h : keyColumns aggregate batch = some cols) :
  aggregate.groupBy.length = cols.length
  := (keyColumns_forall₂ h).length_eq

/-- A column of a batch has the batch's length. -/
theorem RecordBatch.length_of_column? {name : String} (h : batch.column? name = some arr) :
  arr.length = batch.numRows
  := by
  simp only [column?, Option.map_eq_some_iff] at h
  obtain ⟨c, hc, rfl⟩ := h
  exact batch.lengths c (mem_of_find?_eq_some hc)

theorem keyColumns_column (h : keyColumns aggregate batch = some cols) {c : ColumnIo × KeyArray}
    (hc : c ∈ cols) :
  batch.column? c.1.name = some c.2
  := by
  have h' := keyColumns_forall₂ h
  generalize aggregate.groupBy = ords at h'
  clear h
  induction h' with
  | nil => cases hc
  | cons hhead _ ih =>
    obtain rfl | hc := mem_cons.mp hc
    · exact hhead.2
    · exact ih hc

theorem keyColumns_lengths (h : keyColumns aggregate batch = some cols) :
  ∀ c ∈ cols.map Prod.snd, c.length = batch.numRows
  := by
  intro arr harr
  obtain ⟨c, hc, rfl⟩ := mem_map.mp harr
  exact RecordBatch.length_of_column? (keyColumns_column h hc)

/-- The width of a key that is not a string. -/
def keyWidth (dtype : DataType) : Nat := if isNarrow dtype then 32 else 64

theorem keyBitWidth_eq (hd : isNumericKey d) :
  keyBitWidth d = .ok (keyWidth d)
  := by
  cases d <;> simp_all [isNumericKey, keyBitWidth, keyWidth, isNarrow]

/-- The sum of the widths, as far as 32 bits hold it. -/
def totalWidth (start : Nat) (dtypes : List DataType) : Nat :=
  dtypes.foldl (fun total d => min (total + keyWidth d) (2 ^ 32 - 1)) start

theorem keyColumnIos_eq (h : NumericKeys aggregate batch cols) :
  keyColumnIos aggregate
    = .ok (cols.map Prod.fst, totalWidth 0 (cols.map (fun c => c.1.dtype)))
  := by
  have h' := keyColumns_forall₂ h.columns
  have hnum := h.numeric
  obtain ⟨step, hrun, hstep⟩ : ∃ step : List ColumnIo × Nat → Nat → BoltResult _,
      keyColumnIos aggregate = aggregate.groupBy.foldlM step ([], 0) ∧
        ∀ acc ord io, aggregate.inputs[ord]? = some io → isNumericKey io.dtype →
          step acc ord = .ok (acc.1 ++ [io], min (acc.2 + keyWidth io.dtype) (2 ^ 32 - 1)) := by
    refine ⟨_, rfl, ?_⟩
    intro acc ord io hio hnum
    simp only [hio, keyBitWidth_eq hnum, bind, Except.bind, pure, Except.pure]
  rw [hrun]
  -- The accumulator holds the inputs and the width of the keys before.
  suffices hacc : ∀ acc : List ColumnIo × Nat, aggregate.groupBy.foldlM step acc
      = .ok (acc.1 ++ cols.map Prod.fst, totalWidth acc.2 (cols.map (fun c => c.1.dtype))) by
    exact hacc ([], 0)
  generalize aggregate.groupBy = ords at h'
  clear h
  induction h' with
  | nil =>
    intro acc
    simp [totalWidth, pure, Except.pure]
  | cons hhead _ ih =>
    intro acc
    rw [foldlM_cons, hstep acc _ _ hhead.1 (hnum _ mem_cons_self)]
    simp only [bind, Except.bind]
    rw [ih (fun c hc => hnum c (mem_cons_of_mem _ hc))]
    simp [totalWidth]

theorem isNumericKey_iff (hd : arr.keyDtype = some d) :
  isNumericKey d ↔ arr.asStringArray = none
  := by
  cases arr <;> simp_all [KeyArray.keyDtype, KeyArray.asStringArray] <;> subst hd <;>
    simp [isNumericKey]

theorem arrowDtypeToPlan_eq (hd : arr.keyDtype = some d) (hnum : isNumericKey d) :
  arr.arrowDtypeToPlan = .ok d
  := by
  cases arr <;> simp_all [KeyArray.keyDtype, KeyArray.arrowDtypeToPlan]
  subst hd
  cases hnum

theorem keyBits_eq (hd : arr.keyDtype = some d) (hnum : isNumericKey d) :
  keyBits d arr = .ok ((range arr.length).map (fun i => encodeLiteral (keyValueAt arr i)))
  := by
  cases arr with
  | int32 cells | int64 cells | float32 cells | float64 cells =>
    simp only [keyBits, KeyArray.length, KeyArray.nulls, length_map]
    rw [map_eq_map_range cells _ 0]
    congr 2
    funext i
    cases h : cells[i]? <;> simp [keyValueAt, encodeLiteral, h]
  | utf8 cells | dictionary values codes =>
    cases hd
    cases hnum
  | other dtype nulls => cases hd

/-- The rows of a column without `NULL`s. -/
def columnMask (numRows : Nat) (arr : KeyArray) : Option (List Bool) :=
  if arr.hasNulls then some ((range numRows).map (fun i => !arr.isNullAt i)) else none

theorem loadKeyColumnBits_eq {io : ColumnIo} (harr : batch.column? io.name = some arr)
    (hd : arr.keyDtype = some io.dtype) (hnum : isNumericKey io.dtype) :
  loadKeyColumnBits io batch = .ok
    ((List.range batch.numRows).map (fun i => encodeLiteral (keyValueAt arr i)),
      columnMask batch.numRows arr)
  := by
  have hlen := RecordBatch.length_of_column? harr
  simp only [loadKeyColumnBits, harr, arrowDtypeToPlan_eq hd hnum, bind, Except.bind, ne_eq,
    not_true, if_false, keyBits_eq hd hnum, pure, Except.pure, columnMask, hlen]
  rw [KeyArray.nulls_eq, hlen, map_map]
  rfl

theorem packStream_map_range (n : Nat) (f : Nat → Int64) (s : UInt64) (g : Nat → UInt64) :
  packStream ((range n).map f) s ((range n).map g)
    = (range n).map (fun i => ((f i).toUInt64 ||| g i <<< s).toInt64)
  := by
  rw [packStream, zipWith_map, zipWith_self]

theorem packStream_replicate (n : Nat) (s : UInt64) (g : Nat → UInt64) :
  packStream (replicate n 0) s ((range n).map g)
    = (range n).map (fun i => (g i <<< s).toInt64)
  := by
  have hzero : replicate n (0 : Int64) = (range n).map (fun _ => 0) := by simp
  rw [hzero, packStream_map_range]
  simp

/-- The rows of several columns without `NULL`s. -/
def rowMask (numRows : Nat) (cols : List KeyArray) : Option (List Bool) :=
  if cols.any KeyArray.hasNulls then
    some ((range numRows).map (fun i => !cols.any (fun c => c.isNullAt i)))
  else none

theorem columnMask_eq (n : Nat) (arr : KeyArray) :
  columnMask n arr = rowMask n [arr]
  := by
  simp [columnMask, rowMask]

theorem isNullAt_eq_false (h : arr.hasNulls = false) (i : Nat) :
  arr.isNullAt i = false
  := by
  by_contra hi
  rw [Bool.not_eq_false] at hi
  have hlt : i < arr.length := by
    by_contra hge
    simp [KeyArray.isNullAt, KeyArray.length] at hi hge
    simp [hge] at hi
  rw [KeyArray.hasNulls_iff.mpr ⟨i, hlt, hi⟩] at h
  cases h

theorem andMasks_columnMask (n : Nat) (a b : KeyArray) :
  andMasks (columnMask n a) (columnMask n b) = rowMask n [a, b]
  := by
  cases ha : a.hasNulls <;> cases hb : b.hasNulls <;>
    simp [columnMask, rowMask, andMasks, ha, hb, isNullAt_eq_false, zipWith_map,
      zipWith_self]

/-- The packed keys of the rows. -/
def packedKeys (cols : List (ColumnIo × KeyArray)) (numRows : Nat) : PackedKeys where
  keysI64 := (range numRows).map (fun i => encodeTuple (cols.map (fun c => keyValueAt c.2 i)))
  components := packComponents (cols.map Prod.fst)
  keyValid := rowMask numRows (cols.map Prod.snd)

theorem packKeys_packable (h : NumericKeys aggregate batch cols)
    (hp : packable (cols.map (fun c => c.1.dtype))) :
  packKeys aggregate batch = .ok (packedKeys cols batch.numRows)
  := by
  have hlen := keyColumns_length h.columns
  have hload := fun c hc => loadKeyColumnBits_eq (keyColumns_column h.columns (c := c) hc)
    (h.dtypes c hc) (h.numeric c hc)
  have hios := keyColumnIos_eq h
  match cols with
  | [] => cases hp
  | [c] =>
    have hempty : aggregate.groupBy.isEmpty = false := by
      rw [isEmpty_eq_false_iff]
      rintro he
      simp [he] at hlen
    have hw : ¬ 64 < totalWidth 0 [c.1.dtype] := by
      simp only [totalWidth, foldl_cons, foldl_nil, keyWidth]
      split <;> omega
    simp only [packKeys, hempty, hios, bind, Except.bind, Bool.false_eq_true, if_false, hlen,
      map_cons, map_nil, length_singleton, hw, hload c (by simp), pure, Except.pure]
    simp [packStream_replicate, packedKeys, encodeTuple, packComponents, columnMask_eq]
  | [hi, lo] =>
    have hempty : aggregate.groupBy.isEmpty = false := by
      rw [isEmpty_eq_false_iff]
      rintro he
      simp [he] at hlen
    have hw : ¬ 64 < totalWidth 0 [hi.1.dtype, lo.1.dtype] := by
      simp only [map_cons, map_nil, packable, Bool.and_eq_true] at hp
      simp [totalWidth, keyWidth, hp.1, hp.2]
    simp only [packKeys, hempty, hios, bind, Except.bind, Bool.false_eq_true, if_false, hlen,
      map_cons, map_nil, length_cons, length_nil, hw, hload hi (by simp),
      hload lo (by simp), pure, Except.pure]
    simp [packStream_replicate, packStream_map_range, packedKeys, encodeTuple, packComponents,
      andMasks_columnMask]
  | _ :: _ :: _ :: _ => cases hp

/-- The texts of the errors for a key that is too wide. -/
theorem tooWide_other (rest : String) :
  tooWide (.other ("multi-column GROUP BY with > 64 bits of key width not yet supported " ++ rest))
  := by
  simp only [tooWide, contains, Bool.or_eq_true, decide_eq_true_eq]
  left
  rw [String.toList_append]
  apply infix_append_of_infix_left
  decide

/-- Keys that are not packed are reported to be too wide. -/
theorem packKeys_wide (h : NumericKeys aggregate batch cols)
    (hp : packable (cols.map (fun c => c.1.dtype)) = false) :
  ∃ e, packKeys aggregate batch = .error e ∧ tooWide e
  := by
  have hlen := keyColumns_length h.columns
  have hios := keyColumnIos_eq h
  have hempty : aggregate.groupBy.isEmpty = false := by
    rw [isEmpty_eq_false_iff]
    intro he
    rw [he, length_nil] at hlen
    exact h.nonempty (length_eq_zero_iff.mp hlen.symm)
  have hmsg : ∃ rest, packKeys aggregate batch = .error (.other
      ("multi-column GROUP BY with > 64 bits of key width not yet supported " ++ rest)) := by
    match cols with
    | [] => exact absurd rfl h.nonempty
    | [c] => cases hp
    | [hi, lo] =>
      have hw : 64 < totalWidth 0 [hi.1.dtype, lo.1.dtype] := by
        simp only [map_cons, map_nil, packable] at hp
        simp only [totalWidth, foldl_cons, foldl_nil, keyWidth]
        cases hhi : isNarrow hi.1.dtype <;> cases hlo : isNarrow lo.1.dtype <;> simp_all
      have hfew : ¬ 2 < [hi, lo].length := by simp
      simp only [packKeys, hempty, hios, bind, Except.bind, hlen, hfew, Bool.false_eq_true,
        if_false, map_cons, map_nil, hw, if_true]
      exact ⟨_, rfl⟩
    | c₀ :: c₁ :: c₂ :: rest =>
      have hmany : 2 < (c₀ :: c₁ :: c₂ :: rest).length := by simp
      simp only [packKeys, hempty, hios, bind, Except.bind, hlen, hmany, if_true,
        Bool.false_eq_true, if_false]
      exact ⟨_, rfl⟩
  obtain ⟨rest, hrest⟩ := hmsg
  exact ⟨_, hrest, tooWide_other rest⟩

end CratonBolt.GroupBy
