import CratonBolt.GroupBy.Keys
import CratonBolt.Joins.Batch

/-!
# The host hash join

`exec/join.rs`: `INNER`, `LEFT`, `RIGHT` and `FULL` equi-joins by a hash table over the rows of
one side, the build side, which the rows of the other side, the probe side, are looked up in. A
row with a `NULL` in a key column is not entered and not looked up. Where a side is preserved,
its rows without a partner are returned with `NULL` for the other side.

Before its own work the executor offers the join to the device. What is here is the host part,
which runs when the device declines.
-/

namespace CratonBolt.Joins

/-! ### Keys -/

/-- One column of a key. Floats are held by their bits, with one zero. -/
inductive JoinKeyValue where
  | i32 (n : Int32)
  | i64 (n : Int64)
  | f32 (bits : UInt32)
  | f64 (bits : UInt64)
  | bool (b : Bool)
  | utf8 (s : String)
deriving DecidableEq, Repr

/-- The key of a row. Keys are compared by `asSlice`, whichever form they have. -/
inductive JoinKey where
  | one (v : JoinKeyValue)
  | many (vs : List JoinKeyValue)
deriving Repr

def JoinKey.asSlice : JoinKey → List JoinKeyValue
  | one v => [v]
  | many vs => vs

/-- `-0.0` becomes `0.0`; every other bit pattern stays, those of the NaNs included. -/
def canonicaliseF32 (x : F32) : F32 := if x.isZero then ⟨0⟩ else x

def canonicaliseF64 (x : F64) : F64 := if x.isZero then ⟨0⟩ else x

/-- `extract_key_value`: one column of the key of a row, none for a `NULL`. -/
def extractKeyValue (b : Batch) (idx row : Nat) : BoltResult (Option JoinKeyValue) :=
  match b.column idx with
  | .flat arr =>
    match arr.cells.getD row .null with
    | .null => .ok none
    | .int32 n => .ok (some (.i32 n))
    | .int64 n => .ok (some (.i64 n))
    | .float32 x => .ok (some (.f32 (canonicaliseF32 x).bits))
    | .float64 x => .ok (some (.f64 (canonicaliseF64 x).bits))
    | .bool v => .ok (some (.bool v))
    | .utf8 s => .ok (some (.utf8 s))
    | _ => .error (.type s!"JOIN: unsupported key dtype {(ArrowType.plain arr.dtype).debug}")
  | .dictionary key values codes =>
    match codes.getD row none with
    | none => .ok none
    | some code =>
      -- A string is a key by its text, whichever dictionary holds it.
      match key with
      | .other name =>
        .error (.type s!"JOIN: unsupported dict key dtype {name} (expected Int32/Int64)")
      -- Only the position is tested for `NULL`: a `NULL` value is read as an empty text.
      | _ => .ok (some (.utf8 ((values.get code).getD "")))

/-- The columns of the key of a row, up to the first `NULL`. -/
def extractKeyValues (b : Batch) (row : Nat) : List Nat → BoltResult (Option (List JoinKeyValue))
  | [] => .ok (some [])
  | idx :: indices => do
    match ← extractKeyValue b idx row with
    | none => .ok none
    | some v =>
      let rest ← extractKeyValues b row indices
      .ok (rest.map (v :: ·))

/-- `extract_key`: the key of a row, none if a key column is `NULL`. -/
def extractKey (b : Batch) (indices : List Nat) (row : Nat) : BoltResult (Option JoinKey) :=
  match indices with
  | [idx] => do
    let v ← extractKeyValue b idx row
    .ok (v.map .one)
  | _ => do
    let vs ← extractKeyValues b row indices
    .ok (vs.map .many)

/-! ### The hash table -/

/-- The rows of one key: one inline, more on the heap. -/
inductive BuildSlot where
  | inline (row : Nat)
  | heap (rows : List Nat)
deriving DecidableEq, Repr

namespace BuildSlot

def push : BuildSlot → Nat → BuildSlot
  | inline a, v => heap [a, v]
  | heap rows, v => heap (rows ++ [v])

def asSlice : BuildSlot → List Nat
  | inline a => [a]
  | heap rows => rows

end BuildSlot

/-- The hash table: each key with its slot. -/
abbrev KeyMap := List (JoinKey × BuildSlot)

namespace KeyMap

/-- Add a row to the slot of its key, which is opened if there is none. -/
def insert (key : JoinKey) (row : Nat) : KeyMap → KeyMap
  | [] => [(key, .inline row)]
  | (k, slot) :: map =>
    if k.asSlice = key.asSlice then (k, slot.push row) :: map
    else (k, slot) :: insert key row map

/-- `HashMap::get`. -/
def get (key : JoinKey) : KeyMap → Option BuildSlot
  | [] => none
  | (k, slot) :: map => if k.asSlice = key.asSlice then some slot else get key map

/-- The rows found under a key. -/
def rowsOf (map : KeyMap) (key : JoinKey) : List Nat :=
  ((map.get key).map BuildSlot.asSlice).getD []

end KeyMap

/-- `row_to_u32`. -/
def rowToU32 (row : Nat) : BoltResult Nat :=
  if row < 2 ^ 32 then .ok row
  else .error (.other s!"JOIN row index {row} exceeds the u32 take-indices limit (4294967295)")

/-- The rows of a side with a key, entered one after the other. -/
def buildRows (b : Batch) (indices : List Nat) : List Nat → KeyMap → BoltResult KeyMap
  | [], map => .ok map
  | row :: rows, map => do
    match ← extractKey b indices row with
    | none => buildRows b indices rows map
    | some key =>
      let r ← rowToU32 row
      buildRows b indices rows (map.insert key r)

/-- `build_hash_map`. -/
def buildHashMap (b : Batch) (indices : List Nat) : BoltResult KeyMap :=
  buildRows b indices (List.range b.numRows) []

/-! ### Column lookup -/

section Plan

variable {Q : Type}

/-- `column_name`; the text of the rejected expression is left out of the message. -/
def columnName (side : String) : Expr Q → BoltResult String
  | .column name => .ok name
  | .aliased e _ => columnName side e
  | _ => .error (.plan (s!"JOIN {side}-side key must be a column reference; computed join keys " ++
      "are a 0.4 target"))

/-- `split_keys`: the key columns of each side. -/
def splitKeys : List (Expr Q × Expr Q) → BoltResult (List String × List String)
  | [] => .ok ([], [])
  | (l, r) :: on => do
    let left ← columnName "left" l
    let right ← columnName "right" r
    let (lefts, rights) ← splitKeys on
    .ok (left :: lefts, right :: rights)

end Plan

/-- The position of a key column; Arrow's own text is left out of the message. -/
def lookupColumn (b : Batch) (name : String) : BoltResult Nat :=
  match b.indexOf name with
  | some i => .ok i
  | none => .error (.plan s!"JOIN: key column '{name}' not in batch")

/-- `lookup_columns`. -/
def lookupColumns (b : Batch) (names : List String) : BoltResult (List Nat) :=
  names.mapM (lookupColumn b)

/-- `check_key_dtypes`: the key columns have the same types on both sides. -/
def checkKeyDtypes (build : Batch) (probe : Batch) (kind : String) :
    List Nat → List Nat → BoltResult Unit
  | b :: buildIdx, p :: probeIdx =>
    if (build.column b).dtype = (probe.column p).dtype then
      checkKeyDtypes build probe kind buildIdx probeIdx
    else
      .error (.plan (s!"{kind} key dtype mismatch: build side {(build.column b).dtype.debug}, " ++
        s!"probe side {(probe.column p).dtype.debug}; cross-dtype equi-join is not yet supported"))
  | _, _ => .ok ()

/-! ### Inner joins -/

/-- The build side and the probe side. -/
def sides {α : Type} (buildIsLeft : Bool) (left right : α) : α × α :=
  if buildIsLeft then (left, right) else (right, left)

/-- A build and a probe position as a left and a right one. -/
def orient (buildIsLeft : Bool) (pair : Pair) : Pair := if buildIsLeft then pair else pair.swap

/-- The rows of the probe side looked up in the table, with what they find. -/
def probeInner (map : KeyMap) (b : Batch) (indices : List Nat) : List Nat → BoltResult (List Pair)
  | [] => .ok []
  | row :: rows => do
    match ← extractKey b indices row with
    | none => probeInner map b indices rows
    | some key =>
      match map.get key with
      | none => probeInner map b indices rows
      | some slot =>
        let p ← rowToU32 row
        let rest ← probeInner map b indices rows
        .ok (slot.asSlice.map (fun b => (some b, some p)) ++ rest)

/-- The batch of some build and probe positions. -/
def pairOutput (lhs rhs : Batch) (buildIsLeft : Bool) (pairs : List Pair) (schema : Schema) :
    BoltResult Batch :=
  if pairs.isEmpty then emptyOutput schema
  else materialise lhs rhs (pairs.map (orient buildIsLeft)) schema

/-- The host part of `execute_inner_join`. -/
def hostInnerJoin (lhs rhs : Batch) (buildIsLeft : Bool) (buildIdx probeIdx : List Nat)
    (schema : Schema) : BoltResult Batch := do
  let map ← buildHashMap (sides buildIsLeft lhs rhs).1 buildIdx
  if map.isEmpty then emptyOutput schema
  else
    let pairs ← probeInner map (sides buildIsLeft lhs rhs).2 probeIdx
      (List.range (sides buildIsLeft lhs rhs).2.numRows)
    pairOutput lhs rhs buildIsLeft pairs schema

/-! ### Outer joins -/

def preserveProbe : JoinType → Bool
  | .leftOuter | .rightOuter | .fullOuter => true
  | _ => false

def preserveBuild : JoinType → Bool
  | .fullOuter => true
  | _ => false

/-- The rows found for a row of the probe side; a row without a key finds none. -/
def hitsOf (map : KeyMap) : Option JoinKey → List Nat
  | none => []
  | some key => map.rowsOf key

/-- Mark the rows that were found. -/
def mark (matched : List Bool) (hits : List Nat) : List Bool :=
  hits.foldl (fun m b => m.set b true) matched

/-- The first pass: what the rows of the probe side find, and which rows are found. -/
def probeOuter (map : KeyMap) (b : Batch) (indices : List Nat) (joinType : JoinType) :
    List Nat → List Bool → BoltResult (List Pair × List Bool)
  | [], matched => .ok ([], matched)
  | row :: rows, matched => do
    let p ← rowToU32 row
    let key ← extractKey b indices row
    let hits := hitsOf map key
    if hits.isEmpty then
      let (rest, matched) ← probeOuter map b indices joinType rows matched
      .ok ((if preserveProbe joinType then [(none, some p)] else []) ++ rest, matched)
    else
      let marked := if preserveBuild joinType then mark matched hits else matched
      let (rest, matched) ← probeOuter map b indices joinType rows marked
      .ok (hits.map (fun b => (some b, some p)) ++ rest, matched)

/-- The rows of the build side that were not found, from row `b` on. -/
def unmatchedBuild (b : Nat) : List Bool → BoltResult (List Pair)
  | [] => .ok []
  | found :: matched =>
    if found then unmatchedBuild (b + 1) matched
    else do
      let bu ← rowToU32 b
      let rest ← unmatchedBuild (b + 1) matched
      .ok ((some bu, none) :: rest)

/-- The second pass: a preserved build side adds its rows that were not found. -/
def secondPass (joinType : JoinType) (matched : List Bool) : BoltResult (List Pair) :=
  if preserveBuild joinType then unmatchedBuild 0 matched else .ok []

/-- No row of the build side is marked; the marks are kept for a preserved build side only. -/
def unmarked (joinType : JoinType) (numRows : Nat) : List Bool :=
  if preserveBuild joinType then List.replicate numRows false else []

/-- The host part of `execute_outer_join`. -/
def hostOuterJoin (lhs rhs : Batch) (joinType : JoinType) (buildIsLeft : Bool)
    (buildIdx probeIdx : List Nat) (schema : Schema) : BoltResult Batch := do
  let map ← buildHashMap (sides buildIsLeft lhs rhs).1 buildIdx
  let (first, matched) ← probeOuter map (sides buildIsLeft lhs rhs).2 probeIdx joinType
    (List.range (sides buildIsLeft lhs rhs).2.numRows)
    (unmarked joinType (sides buildIsLeft lhs rhs).1.numRows)
  let second ← secondPass joinType matched
  pairOutput lhs rhs buildIsLeft (first ++ second) schema

/-- The rows of one side alone, `NULL`-padded. -/
def onlySide (lhs rhs : Batch) (buildIsLeft ofBuild : Bool) (n : Nat) (schema : Schema) :
    BoltResult Batch :=
  if n < 2 ^ 32 then
    materialise lhs rhs ((List.range n).map (fun i =>
      orient buildIsLeft (if ofBuild then (some i, none) else (none, some i)))) schema
  else .error (.other s!"OUTER JOIN row count {n} exceeds u32 take-indices limit")

def outerKind : JoinType → String
  | .leftOuter => "LEFT OUTER"
  | .rightOuter => "RIGHT OUTER"
  | .fullOuter => "FULL OUTER"
  | _ => "OUTER"

end CratonBolt.Joins
