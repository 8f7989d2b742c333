import CratonBolt.Plan.Types

/-!
# Key columns and packed keys

The key columns of a `GROUP BY` and their packing into one 64-bit key per row, as
`exec/groupby_common.rs` does it: one column occupies the low bits of the key, of two 32-bit
columns the first occupies the high half. A row with a `NULL` in a key column is marked in a
mask beside the keys; its own key is whatever the value buffers hold there.
-/

namespace CratonBolt

def F32.isNan (x : F32) : Bool := 0x7F800000 < (x.bits &&& 0x7FFFFFFF)

/-- `x == 0.0`, of either sign. -/
def F32.isZero (x : F32) : Bool := (x.bits &&& 0x7FFFFFFF) == 0

def F64.isNan (x : F64) : Bool := 0x7FF0000000000000 < (x.bits &&& 0x7FFFFFFFFFFFFFFF)

/-- `x == 0.0`, of either sign. -/
def F64.isZero (x : F64) : Bool := (x.bits &&& 0x7FFFFFFFFFFFFFFF) == 0

namespace GroupBy

/-! ### Arrays and batches -/

/-- A slot of an Arrow array. The value of a `NULL` slot is arbitrary. -/
structure Cell (α : Type) where
  value : α
  isNull : Bool
deriving DecidableEq, Repr

/--
An Arrow array in the role of a key column. A dictionary array holds positions of its values, some
of which may be `NULL`; `other` is an array of a type that no executor groups by, of which only the
`NULL` slots are kept.
-/
inductive KeyArray where
  | int32 (cells : List (Cell Int32))
  | int64 (cells : List (Cell Int64))
  | float32 (cells : List (Cell F32))
  | float64 (cells : List (Cell F64))
  | utf8 (cells : List (Option String))
  | dictionary (values : List (Option String)) (codes : List (Option (Fin values.length)))
  | other (dtype : DataType) (nulls : List Bool)
deriving DecidableEq, Repr

namespace KeyArray

/--
Which slots are `NULL`. A slot of a dictionary array is that holds the position of a `NULL`; no
executor asks such an array for its null bits, all of them cast it first.
-/
def nulls : KeyArray → List Bool
  | int32 cells => cells.map Cell.isNull
  | int64 cells => cells.map Cell.isNull
  | float32 cells => cells.map Cell.isNull
  | float64 cells => cells.map Cell.isNull
  | utf8 cells => cells.map Option.isNone
  | dictionary values codes => codes.map (fun c => (c.bind values.get).isNone)
  | other _ nulls => nulls

def length (arr : KeyArray) : Nat := arr.nulls.length

/-- `Array::is_null`. -/
def isNullAt (arr : KeyArray) (row : Nat) : Bool := arr.nulls.getD row false

/-- `Array::null_count() > 0`. -/
def hasNulls (arr : KeyArray) : Bool := arr.nulls.any id

/-- `arrow_dtype_to_plan`. -/
def arrowDtypeToPlan : KeyArray → BoltResult DataType
  | int32 _ => .ok .int32
  | int64 _ => .ok .int64
  | float32 _ => .ok .float32
  | float64 _ => .ok .float64
  | utf8 _ => .ok .utf8
  | dictionary _ _ => .error (.type "unsupported Arrow dtype Dictionary(Int32, Utf8)")
  | other dtype _ => .ok dtype

/-- A string column as a flat list of strings; a dictionary column is cast to one. -/
def asStringArray : KeyArray → Option (List (Option String))
  | utf8 cells => some cells
  | dictionary values codes => some (codes.map (fun c => c.bind values.get))
  | _ => none

end KeyArray

/-- Named columns of one length. -/
structure RecordBatch where
  columns : List (String × KeyArray)
  numRows : Nat
  lengths : ∀ c ∈ columns, c.2.length = numRows

namespace RecordBatch

/-- The first column of a name. -/
def column? (batch : RecordBatch) (name : String) : Option KeyArray :=
  (batch.columns.find? (fun c => c.1 == name)).map Prod.snd

/-- The batch of some columns, which have to be of one length. -/
def tryNew (columns : List (String × KeyArray)) : Option RecordBatch :=
  match columns with
  | [] => none
  | c :: rest =>
    if h : ∀ d ∈ c :: rest, d.2.length = c.2.length then some ⟨c :: rest, c.2.length, h⟩ else none

end RecordBatch

/-- A named, typed input of an aggregate. -/
structure ColumnIo where
  name : String
  dtype : DataType
deriving DecidableEq, Repr

/-- What the executors read of an aggregate to form its groups. -/
structure AggregateSpec where
  inputs : List ColumnIo
  groupBy : List Nat
  /-- The key columns in the order of `groupBy`, then the aggregates. -/
  outputSchema : Schema
deriving DecidableEq, Repr

/-! ### Floats as keys -/

/-- All NaNs are one key, and so are the two zeros. -/
def canonicaliseF32 (x : F32) : F32 :=
  if x.isNan then ⟨0x7FC00000⟩ else if x.isZero then ⟨0⟩ else x

/-- All NaNs are one key, and so are the two zeros. -/
def canonicaliseF64 (x : F64) : F64 :=
  if x.isNan then ⟨0x7FF8000000000000⟩ else if x.isZero then ⟨0⟩ else x

/-! ### Packing -/

def keyBitWidth (dtype : DataType) : BoltResult Nat :=
  match dtype with
  | .int32 | .float32 => .ok 32
  | .int64 | .float64 => .ok 64
  | _ => .error (.type s!"GROUP BY key dtype {dtype.debug} not supported in v1")

/-- Where a key column sits in the packed key. -/
structure KeyComponent where
  name : String
  originalDtype : DataType
  bitOffset : UInt64
deriving DecidableEq, Repr

structure PackedKeys where
  keysI64 : List Int64
  components : List KeyComponent
  /-- The rows whose key columns are all non-`NULL`; absent when all are. -/
  keyValid : Option (List Bool)
deriving DecidableEq, Repr

/-- The bits of the values of a key column. -/
def keyBits (dtype : DataType) (arr : KeyArray) : BoltResult (List UInt64) :=
  match arr with
  | .int32 cells => .ok (cells.map (fun c => c.value.toUInt32.toUInt64))
  | .int64 cells => .ok (cells.map (fun c => c.value.toUInt64))
  | .float32 cells => .ok (cells.map (fun c => (canonicaliseF32 c.value).bits.toUInt64))
  | .float64 cells => .ok (cells.map (fun c => (canonicaliseF64 c.value).bits))
  | _ => .error (.type s!"GROUP BY key dtype {dtype.debug} not supported in v1")

/-- The bits of a key column and, if it has `NULL`s, the rows without. -/
def loadKeyColumnBits (keyIo : ColumnIo) (batch : RecordBatch) :
    BoltResult (List UInt64 × Option (List Bool)) :=
  match batch.column? keyIo.name with
  | none => .error (.plan s!"GROUP BY key '{keyIo.name}' not present in table batch")
  | some arr => do
    let arrDtype ← arr.arrowDtypeToPlan
    if arrDtype ≠ keyIo.dtype then
      throw (.type (s!"GROUP BY key '{keyIo.name}' dtype mismatch: plan says " ++
        s!"{keyIo.dtype.debug}, batch has {arrDtype.debug}"))
    let bits ← keyBits keyIo.dtype arr
    return (bits, if arr.hasNulls then some (arr.nulls.map not) else none)

/-- The rows valid under both masks; an absent mask is valid everywhere. -/
def andMasks (a b : Option (List Bool)) : Option (List Bool) :=
  match a, b with
  | none, none => none
  | some m, none | none, some m => some m
  | some ma, some mb => some (List.zipWith and ma mb)

/-- The inputs that the group-by positions denote, with the sum of their widths. -/
def keyColumnIos (aggregate : AggregateSpec) : BoltResult (List ColumnIo × Nat) :=
  aggregate.groupBy.foldlM (fun acc ord =>
    match aggregate.inputs[ord]? with
    | none => .error (.plan
        s!"pack_keys: group_by ordinal {ord} out of range (only {aggregate.inputs.length} inputs)")
    | some io => do
      let bits ← keyBitWidth io.dtype
      return (acc.1 ++ [io], min (acc.2 + bits) (2 ^ 32 - 1))) ([], 0)

/-- One column's bits, shifted to their place and added to the keys packed so far. -/
def packStream (keys : List Int64) (bitOffset : UInt64) (stream : List UInt64) : List Int64 :=
  List.zipWith (fun key raw => (key.toUInt64 ||| raw <<< bitOffset).toInt64) keys stream

/-- One key for every row, out of the key columns of the row. -/
def packKeys (aggregate : AggregateSpec) (batch : RecordBatch) : BoltResult PackedKeys := do
  if aggregate.groupBy.isEmpty then
    throw (.other "pack_keys: aggregate has no GROUP BY columns")
  let (colIos, totalBits) ← keyColumnIos aggregate
  if 2 < aggregate.groupBy.length then
    throw (.other ("multi-column GROUP BY with > 64 bits of key width not yet supported " ++
      s!"({aggregate.groupBy.length} columns requested)"))
  if 64 < totalBits then
    throw (.other ("multi-column GROUP BY with > 64 bits of key width not yet supported " ++
      s!"(requested columns total {totalBits} bits)"))
  match colIos with
  | [] => throw (.other "pack_keys: aggregate has no GROUP BY columns")
  | [io] =>
    let (bits, mask) ← loadKeyColumnBits io batch
    return {
      keysI64 := packStream (List.replicate bits.length 0) 0 bits
      components := [⟨io.name, io.dtype, 0⟩]
      keyValid := mask }
  | ioHi :: ioLo :: _ =>
    let (bitsHi, maskHi) ← loadKeyColumnBits ioHi batch
    let (bitsLo, maskLo) ← loadKeyColumnBits ioLo batch
    if bitsHi.length ≠ bitsLo.length then
      throw (.other (s!"pack_keys: group-by columns '{ioHi.name}' and '{ioLo.name}' have " ++
        s!"different row counts ({bitsHi.length} vs {bitsLo.length})"))
    return {
      keysI64 := packStream (packStream (List.replicate bitsHi.length 0) 32 bitsHi) 0 bitsLo
      components := [⟨ioHi.name, ioHi.dtype, 32⟩, ⟨ioLo.name, ioLo.dtype, 0⟩]
      keyValid := andMasks maskHi maskLo }

/-- The value of one component of a packed key. -/
def decodeComponent (packed : UInt64) (comp : KeyComponent) : Literal :=
  match comp.originalDtype with
  | .int32 => .int32 ((packed >>> comp.bitOffset) &&& 0xFFFFFFFF).toUInt32.toInt32
  | .float32 => .float32 ⟨((packed >>> comp.bitOffset) &&& 0xFFFFFFFF).toUInt32⟩
  | .int64 => .int64 packed.toInt64
  | .float64 => .float64 ⟨packed⟩
  | _ => .int64 0

/-- The key columns' values of a packed key. -/
def decodeKey (packed : Int64) (components : List KeyComponent) : List Literal :=
  components.map (decodeComponent packed.toUInt64)

end GroupBy

end CratonBolt
