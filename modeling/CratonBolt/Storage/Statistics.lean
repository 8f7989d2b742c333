import CratonBolt.Semantics.FloatOrder

/-!
# Column statistics

The zone maps of a stored table, as `storage/stats.rs` computes them: for every column of a chunk
the number of `NULL`s and the least and the largest value. Bounds are constants, so that they
compare with the constant of a predicate by `compareLiterals`.

A chunk is held by its rows. A cell of a stored column is an `Entry`: its value, and the bit that
Arrow keeps for `NULL`. In a dictionary column an entry may point at a `NULL` of the dictionary
without having that bit set; `null_count` counts bits.
-/

namespace CratonBolt.Storage

/-! ### Comparison of constants -/

/-- The integer a constant holds. -/
def int : Literal → Option Int
  | .int32 v => some v.toInt
  | .int64 v => some v.toInt
  | _ => none

/-- The constant as a 64-bit float. -/
def float : Literal → Option F64
  | .int32 v => some (F64.ofInt v.toInt)
  | .int64 v => some (F64.ofInt v.toInt)
  | .float32 v => some v.toF64
  | .float64 v => some v
  | _ => none

/-- The order of two floats; none when one is a NaN. -/
def partialCmp (x y : F64) : Option Ordering :=
  if Value.nan64 x.bits || Value.nan64 y.bits then none
  else some (compare (Value.floatOrder 64 x.bits.toNat) (Value.floatOrder 64 y.bits.toNat))

/-- A number that fits into 128 bits. -/
def checkedI128 (v : Int) : Option Int := if -2 ^ 127 ≤ v ∧ v < 2 ^ 127 then some v else none

/-- A decimal with more places; `10 ^ 39` no longer fits. -/
def rescaleUp (v : Int) (places : Int) : Option Int :=
  if places ≤ 38 then checkedI128 (v * 10 ^ places.toNat) else none

/-- Two decimals at the larger of their scales. -/
def rescalePair (x : Int) (sx : Int8) (y : Int) (sy : Int8) : Option (Int × Int) :=
  if sx = sy then some (x, y)
  else if sx.toInt < sy.toInt then (rescaleUp x (sy.toInt - sx.toInt)).map (fun x => (x, y))
  else (rescaleUp y (sx.toInt - sy.toInt)).map (fun y => (x, y))

/-- The order of two decimals of their own scales. -/
def compareDecimals (x : Int) (sx : Int8) (y : Int) (sy : Int8) : Option Ordering :=
  (rescalePair x sx y sy).map (fun p => compare p.1 p.2)

/-- The order of two constants of one family, or none when they cannot be compared. -/
def compareLiterals (a b : Literal) : Option Ordering :=
  match int a, int b with
  | some x, some y => some (compare x y)
  | _, _ =>
    match float a, float b with
    | some x, some y => partialCmp x y
    | _, _ =>
      match a, b with
      | .bool x, .bool y => some (compare x y)
      | .utf8 x, .utf8 y => some (compareOfLessAndEq x y)
      | .date32 x, .date32 y => some (compare x.toInt y.toInt)
      | .timestamp x ux _, .timestamp y uy _ =>
        if ux = uy then some (compare x.toInt y.toInt) else none
      | .decimal128 x _ sx, .decimal128 y _ sy => compareDecimals x.toInt sx y.toInt sy
      | .decimal128 x _ s, other => (int other).bind (fun v => compareDecimals x.toInt s v 0)
      | other, .decimal128 x _ s =>
        ((int other).bind (fun v => compareDecimals x.toInt s v 0)).map Ordering.swap
      | _, _ => none

/-! ### Stored cells -/

/-- A cell of a stored column. -/
structure Entry where
  nullBit : Bool
  value : Value
  null_of_nullBit : nullBit = true → value = .null

namespace Entry

/-- The cell of an array that keeps no dictionary. -/
def plain (v : Value) : Entry where
  nullBit := v.isNull
  value := v
  null_of_nullBit h := by
    cases v <;> first | rfl | simp [Value.isNull] at h

/-- The value of a cell that is not `NULL`. -/
def arrayValue (e : Entry) : Option Literal := if e.value.isNull then none else some e.value

end Entry

/-! ### The accumulator -/

/-- Statistics of one column. The estimate of distinct values plays no part in pruning. -/
structure ColumnStatistics where
  nullCount : Option Nat
  min : Option Literal
  max : Option Literal
deriving DecidableEq, Repr

structure ColumnAccumulator where
  nulls : Nat
  min : Option Literal
  max : Option Literal
  supported : Bool
deriving DecidableEq, Repr

namespace ColumnAccumulator

def new : ColumnAccumulator := ⟨0, none, none, true⟩

/-- A bound moves to a value that is `want` of it. -/
def bound (want : Ordering) (bound : Option Literal) (v : Literal) : Option Literal :=
  match bound with
  | none => some v
  | some m => if compareLiterals v m = some want then some v else some m

/-- The loop of `update`, which stops at a cell that it cannot read. -/
def scan (acc : ColumnAccumulator) : List Entry → ColumnAccumulator
  | [] => acc
  | e :: es =>
    match e.arrayValue with
    | none => if e.nullBit then acc.scan es else { acc with supported := false }
    | some v =>
      if Value.isNan v then acc.scan es
      else ColumnAccumulator.scan
        { acc with min := bound .lt acc.min v, max := bound .gt acc.max v } es

/-- Take in one array of the column. -/
def update (acc : ColumnAccumulator) (col : List Entry) : ColumnAccumulator :=
  scan { acc with nulls := acc.nulls + col.countP Entry.nullBit } col

def finish (acc : ColumnAccumulator) : ColumnStatistics :=
  if acc.supported then ⟨some acc.nulls, acc.min, acc.max⟩ else ⟨some acc.nulls, none, none⟩

end ColumnAccumulator

/-! ### Chunks -/

/-- A row of stored cells. -/
abbrev StoredRow := List Entry

/-- A chunk of a stored table: some batches of rows, all of one width. -/
structure Chunk where
  width : Nat
  batches : List (List StoredRow)
  row_length : ∀ batch ∈ batches, ∀ row ∈ batch, row.length = width

namespace Chunk

/-- The rows of the chunk. -/
def rows (chunk : Chunk) : List StoredRow := chunk.batches.flatten

/-- A cell by its position; the default is never read within the width. -/
def cellAt (i : Nat) (row : StoredRow) : Entry := row.getD i (Entry.plain .null)

/-- A column of some rows. -/
def columnOf (rows : List StoredRow) (i : Nat) : List Entry := rows.map (cellAt i)

/-- The statistics of one column, batch after batch. -/
def columnStatistics (chunk : Chunk) (i : Nat) : ColumnStatistics :=
  (chunk.batches.foldl (fun acc batch => acc.update (columnOf batch i))
    ColumnAccumulator.new).finish

/-- The zone map of the chunk: `from_batches` without the sizes. Without batches there is none. -/
def statistics (chunk : Chunk) : List ColumnStatistics :=
  if chunk.batches.isEmpty then [] else (List.range chunk.width).map chunk.columnStatistics

end Chunk

end CratonBolt.Storage
