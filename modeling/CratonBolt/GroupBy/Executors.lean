import CratonBolt.GroupBy.Keys
import CratonBolt.Library.Grouping
import Mathlib.Data.List.Infix
import Mathlib.Data.List.Sort

/-!
# The executors of `GROUP BY`

How `exec/groupby.rs` chooses among its executors and what each of them reports as the groups:
the packed keys with their two reserved values, the executor without reserved values of
`exec/groupby_valid.rs`, the host executor for wide keys of `exec/groupby_wide.rs`, and the
dictionary coding of string keys with its host fallback. The device kernels are a parameter, and so
are the shape-specific fast paths that `execute_groupby` tries before the packed keys. A group is
reported with its key and the rows whose values were accumulated for it.
-/

namespace CratonBolt.GroupBy

open Grouping

/-- The marker of an empty slot in the packed executor's hash table, `i64::MIN`. -/
def emptyKey : Int64 := Int64.minValue

/-- The packed executor's key of the `NULL` group, `i64::MAX`. -/
def nullGroupKey : Int64 := Int64.maxValue

/-- A plan `PhysicalPlan::Aggregate`; `pre` tells whether it has a pre-kernel. -/
structure AggregatePlan where
  pre : Bool
  aggregate : AggregateSpec
deriving DecidableEq, Repr

/-- The key columns of a result: their types and, for each group, its key and its rows. -/
structure Grouped where
  dtypes : List DataType
  groups : List (List Literal × List Nat)
deriving DecidableEq, Repr

/--
The device: its kernels lead from the rows uploaded with their packed keys to the occupied slots of
the hash table with the rows accumulated there. Both group equal keys exactly, the packed executor's
as long as no key is the marker of an empty slot. `fastPath` is what the first of the fast paths
returns that takes a plan; one that spills gives the plan up.
-/
structure Kernels where
  classic : List (Nat × Int64) → List (Int64 × List Nat)
  valid : List (Nat × Int64) → List (Int64 × List Nat)
  fastPath : AggregatePlan → RecordBatch → Option (BoltResult Grouped)
  classic_exact : ∀ rows, (∀ r ∈ rows, r.2 ≠ emptyKey) → IsGrouping rows (classic rows)
  valid_exact : ∀ rows, IsGrouping rows (valid rows)

/-- Kernels that do as they should, without fast paths. -/
def Kernels.exact : Kernels where
  classic := collect
  valid := collect
  fastPath _ _ := none
  classic_exact rows _ := collect_isGrouping rows
  valid_exact := collect_isGrouping

/-- The key columns fit the fields of a schema. -/
def Grouped.fits (g : Grouped) (fields : List Field) : Bool :=
  (fields.map Field.dtype == g.dtypes) &&
    g.groups.all (fun group => (fields.zip group.1).all (fun p => p.1.nullable || p.2 != .null))

/--
`RecordBatch::try_new` on the key columns: their types have to be those of the output schema,
and a `NULL` needs a nullable field.
-/
def Grouped.tryNew (ctx : String) (outputSchema : Schema) (g : Grouped) : BoltResult Grouped :=
  if g.fits (outputSchema.fields.take g.dtypes.length) then .ok g else .error (.other ctx)

/-- The rows of a column of keys. -/
def rowsOf {κ : Type} (keys : List κ) : List (Nat × κ) := keys.zipIdx.map Prod.swap

/-- The rows that a mask keeps. -/
def keepValid {κ : Type} (mask : Option (List Bool)) (rows : List (Nat × κ)) : List (Nat × κ) :=
  match mask with
  | none => rows
  | some mask => (rows.zip mask).filterMap (fun p => if p.2 then some p.1 else none)

/-- The groups of a hash table, sorted by key. -/
def sortGroups (groups : List (Int64 × List Nat)) : List (Int64 × List Nat) :=
  groups.insertionSort (fun a b => a.1 ≤ b.1)

/-- The types of the key columns, as far as they can be emitted. -/
def keyDtypes (components : List KeyComponent) : BoltResult (List DataType) :=
  components.mapM (fun comp =>
    match comp.originalDtype with
    | .int32 | .int64 | .float32 | .float64 => .ok comp.originalDtype
    | dtype => .error (.type s!"GROUP BY key dtype {dtype.debug} not supported on output"))

/-! ### The shape of a launch -/

/-- `unique_count`. -/
def uniqueCount (keys : List Int64) : Nat := keys.dedup.length

/-- The loop of `next_pow2`: `p` is doubled while it is below `n`, as often as 64 bits allow. -/
def doubleUpTo (n : Nat) : Nat → Nat → Nat
  | 0, p => p
  | fuel + 1, p => if p < n then doubleUpTo n fuel (2 * p) else p

/-- The least power of two that is at least `n`, as far as 64 bits reach. -/
def nextPow2 (n : Nat) : Nat := doubleUpTo n 63 1

/-- The number of slots of the hash table. Sums and products stop at the largest 64-bit number. -/
def tableSize (keys : List Int64) : Nat :=
  max (nextPow2 (min (min (uniqueCount keys * 2) (2 ^ 64 - 1) + 16) (2 ^ 64 - 1))) 64

/-- The size of the hash table and the number of rows are passed to the kernels in 32 bits. -/
def launchShape (hostKeys : List (Nat × Int64)) : BoltResult Unit := do
  let k := tableSize (hostKeys.map Prod.snd)
  if 2 ^ 32 ≤ k then
    throw (.other s!"GROUP BY hash table size {k} exceeds u32::MAX")
  if 2 ^ 32 ≤ hostKeys.length then
    throw (.other (s!"row count {hostKeys.length} exceeds the u32 launch-shape limit " ++
      "(4294967295)"))

/-! ### The executor without reserved keys -/

variable (kernels : Kernels)

/-- Group by packed keys of any value. Rows with a `NULL` key are dropped. -/
def executeGroupbyValid (plan : AggregatePlan) (batch : RecordBatch) :
    BoltResult Grouped := do
  if plan.aggregate.groupBy.isEmpty then
    throw (.other "execute_groupby_valid: aggregate has no GROUP BY columns; use execute_aggregate")
  if plan.pre then
    throw (.other "GROUP BY (valid-flag) with projection/filter pre-kernel not yet implemented")
  let packed ← packKeys plan.aggregate batch
  let hostKeys := keepValid packed.keyValid (rowsOf packed.keysI64)
  launchShape hostKeys
  let groups := sortGroups (kernels.valid hostKeys)
  let dtypes ← keyDtypes packed.components
  Grouped.tryNew "failed to build GROUP BY (valid-flag) RecordBatch" plan.aggregate.outputSchema
    ⟨dtypes, groups.map (Prod.map (decodeKey · packed.components) id)⟩

/-! ### The host executor for wide keys -/

/-- The error for a key type that the host executor does not take. -/
def wideKeyError (io : ColumnIo) : Option BoltError :=
  match io.dtype with
  | .int32 | .int64 | .float32 | .float64 => none
  | .utf8 => some (.type s!"Utf8 keys in wide GROUP BY not yet supported (column '{io.name}')")
  | .bool => some (.type s!"Bool keys not supported (column '{io.name}')")
  | .decimal128 _ _ => some (.plan ("Decimal128 not yet lowered to GPU; coming in a follow-up " ++
      s!"(column '{io.name}' in GROUP BY)"))
  | .date32 | .timestamp _ _ => some (.type
      s!"Date/Timestamp keys in wide GROUP BY not yet supported (column '{io.name}')")

/-- The key columns, each with its input. -/
def resolveKeyColumns (aggregate : AggregateSpec) (batch : RecordBatch) :
    BoltResult (List (ColumnIo × KeyArray)) :=
  aggregate.groupBy.mapM (fun ord =>
    match aggregate.inputs[ord]? with
    | none => .error (.plan (s!"wide GROUP BY: group_by ordinal {ord} out of range " ++
        s!"({aggregate.inputs.length} inputs)"))
    | some io =>
      match wideKeyError io with
      | some e => .error e
      | none =>
        match batch.column? io.name with
        | none => .error (.plan s!"wide GROUP BY: key column '{io.name}' not in batch")
        | some arr => do
          let arrDtype ← arr.arrowDtypeToPlan
          if arrDtype ≠ io.dtype then
            throw (.type (s!"wide GROUP BY: key '{io.name}' dtype mismatch: plan says " ++
              s!"{io.dtype.debug}, batch has {arrDtype.debug}"))
          return (io, arr))

/--
The key of a row in one column. The other types are rejected before; a `NULL` slot is not read.
-/
def keyValueAt (arr : KeyArray) (row : Nat) : Literal :=
  match arr with
  | .int32 cells => (cells[row]?).elim .null (fun c => .int32 c.value)
  | .int64 cells => (cells[row]?).elim .null (fun c => .int64 c.value)
  | .float32 cells => (cells[row]?).elim .null (fun c => .float32 (canonicaliseF32 c.value))
  | .float64 cells => (cells[row]?).elim .null (fun c => .float64 (canonicaliseF64 c.value))
  | _ => .null

def variantRank : Literal → Nat
  | .int32 _ => 0
  | .int64 _ => 1
  | .float32 _ => 2
  | _ => 3

/-- The order of key values; floats are ordered by their bits. -/
def cmpKeyValue (a b : Literal) : Ordering :=
  match a, b with
  | .int32 x, .int32 y => compare x y
  | .int64 x, .int64 y => compare x y
  | .float32 x, .float32 y => compare x.bits y.bits
  | .float64 x, .float64 y => compare x.bits y.bits
  | a, b => compare (variantRank a) (variantRank b)

/-- The order of key tuples, position by position. -/
def cmpTuple : List Literal → List Literal → Ordering
  | a :: as, b :: bs => (cmpKeyValue a b).then (cmpTuple as bs)
  | _, _ => .eq

variable (plan : AggregatePlan)

/-- Group by tuples of any number and width. Rows with a `NULL` in a key column are dropped. -/
def executeGroupbyWide (batch : RecordBatch) : BoltResult Grouped := do
  if plan.pre then
    throw (.other "wide GROUP BY with pre kernel not yet supported")
  if plan.aggregate.groupBy.isEmpty then
    throw (.other "execute_groupby_wide: aggregate has no GROUP BY columns")
  let keyCols ← resolveKeyColumns plan.aggregate batch
  let anyKeyNullable := keyCols.any (fun kc => kc.2.hasNulls)
  let rows := (List.range batch.numRows).filterMap (fun row =>
    if anyKeyNullable && keyCols.any (fun kc => kc.2.isNullAt row) then none
    else some (row, keyCols.map (fun kc => keyValueAt kc.2 row)))
  let sorted := (collect rows).insertionSort (fun a b => cmpTuple a.1 b.1 ≠ .gt)
  Grouped.tryNew "failed to build wide GROUP BY RecordBatch" plan.aggregate.outputSchema
    ⟨keyCols.map (fun kc => kc.1.dtype), sorted⟩

/-! ### Packed keys and the choice of executor -/

/-- A non-`NULL` key is the marker of an empty slot. Only 64-bit integers are looked at. -/
def keyArrayContainsSentinel : KeyArray → Bool
  | .int64 cells => cells.any (fun c => !c.isNull && c.value == emptyKey)
  | _ => false

/-- One key column holds the marker of an empty slot, or cannot be found. -/
def scanSentinel (aggregate : AggregateSpec) (batch : RecordBatch) : BoltResult Bool :=
  go aggregate.groupBy
where
  go : List Nat → BoltResult Bool
    | [] => .ok false
    | ord :: rest =>
      match aggregate.inputs[ord]? with
      | none => .error (.plan (s!"execute_groupby: group_by ordinal {ord} out of range " ++
          s!"(only {aggregate.inputs.length} inputs)"))
      | some io =>
        match batch.column? io.name with
        | none => .error (.plan
            s!"execute_groupby: GROUP BY key '{io.name}' not present in input batch schema")
        | some arr => if keyArrayContainsSentinel arr then .ok true else go rest

/-- `str::contains`. -/
def contains (s needle : String) : Bool := needle.toList <:+: s.toList

/-- `pack_keys` failed because the key is too wide. -/
def tooWide : BoltError → Bool
  | .other msg => contains msg "> 64 bits" || contains msg "not yet supported"
  | _ => false

/-- The key that the packed executor reports: the reserved key stands for `NULL`s. -/
def reportedKey (components : List KeyComponent) (k : Int64) : List Literal :=
  if k = nullGroupKey then components.map (fun _ => .null) else decodeKey k components

/-- The key columns of the packed executor's groups. -/
def buildKeyArrays (groups : List (Int64 × List Nat)) (components : List KeyComponent) :
    BoltResult Grouped := do
  let dtypes ← keyDtypes components
  return ⟨dtypes, groups.map (Prod.map (reportedKey components) id)⟩

/-- Group by packed keys, of which two are reserved. -/
def executeGroupbyPacked (batch : RecordBatch)
    (packed : PackedKeys) : BoltResult Grouped :=
  -- `NULL` keys of a single column become the reserved key, those of several are dropped.
  let synthesiseNullGroup := packed.components.length == 1 && packed.keyValid.isSome
  let mask := packed.keyValid.getD (List.replicate packed.keysI64.length true)
  if synthesiseNullGroup && (packed.keysI64.zip mask).any (fun p => p.2 && p.1 == nullGroupKey) then
    executeGroupbyValid kernels plan batch
  else
    let hostKeys :=
      if synthesiseNullGroup then
        rowsOf (List.zipWith (fun k keep => if keep then k else nullGroupKey) packed.keysI64 mask)
      else keepValid packed.keyValid (rowsOf packed.keysI64)
    if hostKeys.any (fun r => r.2 == emptyKey) then executeGroupbyValid kernels plan batch
    else do
      launchShape hostKeys
      let grouped ← buildKeyArrays (sortGroups (kernels.classic hostKeys)) packed.components
      Grouped.tryNew "failed to build GROUP BY RecordBatch" plan.aggregate.outputSchema grouped

/-- `execute_groupby` from where no key is a string and every fast path has missed. -/
def executeGroupbyNumeric (batch : RecordBatch) :
    BoltResult Grouped := do
  if plan.aggregate.groupBy.isEmpty then
    throw (.other "execute_groupby: aggregate has no GROUP BY columns; use execute_aggregate")
  if plan.pre then
    throw (.other "GROUP BY with projection/filter pre-kernel not yet implemented")
  if ← scanSentinel plan.aggregate batch then
    executeGroupbyValid kernels plan batch
  else
    match packKeys plan.aggregate batch with
    | .ok packed => executeGroupbyPacked kernels plan batch packed
    | .error e => if tooWide e then executeGroupbyWide plan batch else throw e

/-- `execute_groupby` from where no key is a string. -/
def executeGroupbyFast (batch : RecordBatch) : BoltResult Grouped :=
  match kernels.fastPath plan batch with
  | some res => res
  | none => executeGroupbyNumeric kernels plan batch

/-! ### String keys -/

/-- The number of distinct strings above which the dictionary coding is given up. -/
def maxDictCardinality : Nat := 2 ^ 24

/-- A slot of a string column is seen; a string that is new is added. -/
def seeString (seen : List String) (s : Option String) : List String :=
  match s with
  | none => seen
  | some s => if s ∈ seen then seen else seen ++ [s]

/-- The distinct strings of a column, in the order in which they first occur. -/
def distinctStrings (arr : List (Option String)) : List String := arr.foldl seeString []

/-- The strings of a key column in lexicographic order: a string's code is its position. -/
structure LexDict where
  decode : List String
deriving DecidableEq, Repr

namespace LexDict

def ofColumn (arr : List (Option String)) : LexDict :=
  ⟨(distinctStrings arr).insertionSort (fun a b => a ≤ b)⟩

/-- The code of a string of the column. -/
def codeOf (dict : LexDict) (s : String) : Int32 := Int32.ofNat (dict.decode.idxOf s)

/-- The column of the codes. -/
def codes (dict : LexDict) (arr : List (Option String)) : KeyArray :=
  .int32 (arr.map (fun s => ⟨(s.map dict.codeOf).getD 0, s.isNone⟩))

/-- The string of a code. -/
def stringOf (dict : LexDict) (code : Int32) : Option String :=
  if code < 0 then none else dict.decode[code.toInt.toNat]?

end LexDict

section

variable (aggregate : AggregateSpec) (batch : RecordBatch)

/-- The key columns that are strings, as flat strings. -/
def stringKeys :
    Option (List (Option (List (Option String)))) :=
  aggregate.groupBy.mapM (fun ord => do
    let io ← aggregate.inputs[ord]?
    let arr ← batch.column? io.name
    match arr.asStringArray with
    | some sa => some (some sa)
    | none => if io.dtype = .utf8 then none else some none)

/-- The dictionary of a key if it is a string; the outer option is empty if it is too large. -/
def buildDict (key : Option (List (Option String))) : Option (Option LexDict) :=
  match key with
  | none => some none
  | some arr =>
    let dict := LexDict.ofColumn arr
    if maxDictCardinality < dict.decode.length then none else some (some dict)

variable (keys : List (Option (List (Option String))))

/-- The dictionary of each string key; none if one of them has too many strings. -/
def buildDicts : Option (List (Option LexDict)) :=
  keys.mapM buildDict

/-- The key of a row in the host fallback, in which a non-string key is a 64-bit integer. -/
inductive HostKey where
  | str (s : Option String)
  | int (n : Option Int64)
deriving DecidableEq, Repr

/-- `NULL` comes before the values. -/
def cmpOption {α : Type} (cmp : α → α → Ordering) : Option α → Option α → Ordering
  | none, none => .eq
  | none, some _ => .lt
  | some _, none => .gt
  | some a, some b => cmp a b

def HostKey.cmp : HostKey → HostKey → Ordering
  | .str a, .str b => cmpOption compare a b
  | .int a, .int b => cmpOption compare a b
  | .str _, .int _ => .lt
  | .int _, .str _ => .gt

/-- The order of the host fallback's tuples, position by position. -/
def HostKey.cmpTuple : List HostKey → List HostKey → Ordering
  | a :: as, b :: bs => (HostKey.cmp a b).then (cmpTuple as bs)
  | _, _ => .eq

/-- A non-string key column as 64-bit integers. -/
def int64KeyView (name : String) (arr : KeyArray) : BoltResult (List (Option Int64)) :=
  match arr with
  | .int32 cells => .ok (cells.map (fun c => if c.isNull then none else some c.value.toInt64))
  | .int64 cells => .ok (cells.map (fun c => if c.isNull then none else some c.value))
  | _ => .error (.type (s!"execute_groupby (utf8 host): non-string GROUP BY key '{name}' has " ++
      "a dtype which the host fallback does not support alongside a string key"))

/-- The column of host keys of one group-by position. -/
def hostKeyColumn (key : Nat × Option (List (Option String))) : BoltResult (List HostKey) :=
  match key.2 with
  | some arr => .ok (arr.map HostKey.str)
  | none =>
    match aggregate.inputs[key.1]? with
    | none => .error (.plan "execute_groupby (utf8 host): group_by ordinal out of range")
    | some io =>
      match batch.column? io.name with
      | none => .error (.plan s!"execute_groupby (utf8 host): key '{io.name}' not in batch")
      | some arr => (int64KeyView io.name arr).map (List.map HostKey.int)

/-- The cell of a host key in a column of the kind that the first group has there. -/
def HostKey.toLiteral : HostKey → Literal
  | .str s => s.elim .null .utf8
  | .int n => n.elim .null .int64

/-- The type of a key column of the host fallback, which the first group decides. -/
def hostKeyDtype (keysInOrder : List (List HostKey)) (j : Nat) : DataType :=
  match keysInOrder.head?.bind (fun t => t[j]?) with
  | some (.int _) => .int64
  | _ => .utf8

/-- Group on the host by tuples of strings and integers; `NULL` is a key like any other. -/
def executeGroupbyUtf8Host : BoltResult Grouped := do
  let columns ← (aggregate.groupBy.zip keys).mapM (hostKeyColumn aggregate batch)
  let rows := (List.range batch.numRows).map (fun row =>
    (row, columns.map (fun c => c.getD row (.str none))))
  let groups := collect rows
  let sorted := groups.insertionSort (fun a b => HostKey.cmpTuple a.1 b.1 ≠ .gt)
  Grouped.tryNew "execute_groupby (utf8 host): failed to build result batch" aggregate.outputSchema
    ⟨(List.range aggregate.groupBy.length).map (hostKeyDtype (groups.map Prod.fst)),
      sorted.map (Prod.map (List.map HostKey.toLiteral) id)⟩

/-- The inputs with every string key turned into its codes. -/
def rewriteInputs (dicts : List (Option LexDict)) : List ColumnIo :=
  (aggregate.groupBy.zip dicts).foldl (fun inputs p =>
    if p.2.isSome then inputs.modify p.1 (fun io => { io with dtype := .int32 }) else inputs)
    aggregate.inputs

/-- The output schema with every string key turned into its codes. -/
def rewriteFields (fields : List Field) (dicts : List (Option LexDict)) : List Field :=
  List.zipWith (fun f dict => if dict.isSome then { f with dtype := .int32 } else f) fields dicts
    ++ fields.drop dicts.length

/-- The aggregate with every string key turned into its codes. -/
def rewriteAggregate (dicts : List (Option LexDict)) : AggregateSpec where
  inputs := rewriteInputs aggregate dicts
  groupBy := aggregate.groupBy
  outputSchema := ⟨rewriteFields aggregate.outputSchema.fields dicts⟩

/-- The code columns by the names of the inputs they replace; a later one replaces an earlier. -/
def codeColumns (dicts : List (Option LexDict)) : List (String × KeyArray) :=
  ((aggregate.groupBy.zip (keys.zip dicts)).filterMap (fun p => do
    let io ← aggregate.inputs[p.1]?
    let arr ← p.2.1
    let dict ← p.2.2
    return (io.name, dict.codes arr))).reverse

end

/-- The batch with the string key columns replaced by their codes. -/
def rewriteBatch (batch : RecordBatch) (replace : List (String × KeyArray)) :
    BoltResult RecordBatch :=
  match RecordBatch.tryNew (batch.columns.map (fun c => (c.1, (replace.lookup c.1).getD c.2))) with
  | some b => .ok b
  | none => .error (.other "execute_groupby (utf8): failed to build dict-coded batch")

/-- A cell of a key column with a code turned back into its string. -/
def reconstructCell (dict : Option LexDict) (v : Literal) : BoltResult Literal :=
  match dict, v with
  | none, v => .ok v
  | some _, .null => .ok .null
  | some dict, .int32 c =>
    match dict.stringOf c with
    | some s => .ok (.utf8 s)
    | none => .error (.other ("execute_groupby (utf8): group key code " ++
        s!"{c} out of dictionary range ({dict.decode.length} entries)"))
  | some _, _ => .error (.other
      "execute_groupby (utf8): key column of the integer result was not Int32")

/-- A reported key with the codes turned back into strings. -/
def reconstructKey (dicts : List (Option LexDict)) (key : List Literal) :
    BoltResult (List Literal) :=
  (dicts.zip key).mapM (fun p => reconstructCell p.1 p.2)

/-- The result with the codes turned back into strings. -/
def reconstruct (intResult : Grouped) (dicts : List (Option LexDict)) (outputSchema : Schema) :
    BoltResult Grouped := do
  let groups ← intResult.groups.mapM (fun g => do
    let key ← reconstructKey dicts g.1
    return (key, g.2))
  Grouped.tryNew "execute_groupby (utf8): failed to rebuild Utf8-keyed result" outputSchema
    ⟨List.zipWith (fun dict dtype => if dict.isSome then .utf8 else dtype) dicts intResult.dtypes,
      groups⟩

variable (kernels : Kernels) (plan : AggregatePlan) (batch : RecordBatch)

/-- Group by string keys through their dictionary codes. -/
def runUtf8 (keys : List (Option (List (Option String)))) : BoltResult Grouped :=
  let aggregate := plan.aggregate
  if plan.pre then executeGroupbyUtf8Host aggregate batch keys
  else
    match buildDicts keys with
    | none => executeGroupbyUtf8Host aggregate batch keys
    | some dicts => do
      if aggregate.outputSchema.fields.length < aggregate.groupBy.length then
        throw (.other "execute_groupby (utf8): output_schema has fewer fields than GROUP BY keys")
      let newBatch ← rewriteBatch batch (codeColumns aggregate keys dicts)
      -- The source calls `execute_groupby` again, which finds no string key any more.
      let intResult ← executeGroupbyFast kernels ⟨false, rewriteAggregate aggregate dicts⟩ newBatch
      reconstruct intResult dicts aggregate.outputSchema

/-- The plan is taken over when a key column is a string. -/
def tryExecuteGroupbyUtf8 :
    Option (BoltResult Grouped) :=
  match stringKeys plan.aggregate batch with
  | none => none
  | some keys => if keys.any Option.isSome then some (runUtf8 kernels plan batch keys) else none

/-- The groups of an aggregate with keys. -/
def executeGroupby :
    BoltResult Grouped :=
  match tryExecuteGroupbyUtf8 kernels plan batch with
  | some res => res
  | none => executeGroupbyFast kernels plan batch

end CratonBolt.GroupBy
