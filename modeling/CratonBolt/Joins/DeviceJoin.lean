import CratonBolt.GroupBy.Packing
import CratonBolt.Joins.HashJoin
import CratonBolt.Library.Interning

/-!
# Joins on the device

`try_gpu_inner_join`, `try_gpu_outer_join`, `execute_cross_join_on_gpu` and what they call in
`exec/gpu_join.rs`. The host
encodes the key of each row as one 64-bit integer, the kernels pair the rows whose integers are
equal, and the host picks the paired rows. Where the encoding may give one integer to two keys,
the host compares the keys of each pair again.

The kernels are a parameter. All failures of the device path are one refusal, after which the
caller tries the next path and at last the host; the texts, which are only logged, are left out.
-/

namespace CratonBolt.Joins

/-! ### Kernels -/

/-- The positions of a build row and a probe row. -/
abbrev RowPair := Nat × Nat

/-- The kernels over the encoded keys of the build and the probe side; none is a refusal. -/
structure Kernels where
  /-- `hash_join_indices_on_gpu_resident`: one slot for each key. -/
  unique : List Int64 → List Int64 → Option (List RowPair)
  /-- `hash_join_indices_on_gpu_aos`: one slot for each key, in another layout. -/
  uniqueAos : List Int64 → List Int64 → Option (List RowPair)
  /-- The kernels with collision lists, and the matched bits of the build rows. -/
  collide : List Int64 → List Int64 → Option (List RowPair × List Bool)
  /-- `launch_unmatched_build_kernel`: the rows whose matched bit is not set. -/
  unmatchedBuild : List Bool → Option (List Nat)
  /-- The kernel of a cross join, on the numbers of rows of the left and the right side. -/
  cross : Nat → Nat → Option (List RowPair)

/-- A machine without a device. -/
def Kernels.refusing : Kernels where
  unique _ _ := none
  uniqueAos _ _ := none
  collide _ _ := none
  unmatchedBuild _ := none
  cross _ _ := none

/-- The pairs of rows with equal encoded keys. -/
def equalPairs (build probe : List Int64) : List RowPair :=
  ListJoin.matched (fun b p => decide (build[b]? = probe[p]?)) (List.range build.length)
    (List.range probe.length)

/-- A unique-key kernel pairs each probe row with one build row of its key, if there is one. -/
structure PairsOnce (build probe : List Int64) (pairs : List RowPair) : Prop where
  equal : ∀ pair ∈ pairs, pair ∈ equalPairs build probe
  once : (pairs.map Prod.snd).Nodup
  found : ∀ pair ∈ equalPairs build probe, pair.2 ∈ pairs.map Prod.snd

/-- The documented contracts of the kernels. -/
structure Kernels.Contract (kernels : Kernels) : Prop where
  unique : ∀ {build probe pairs}, kernels.unique build probe = some pairs →
    PairsOnce build probe pairs
  uniqueAos : ∀ {build probe pairs}, kernels.uniqueAos build probe = some pairs →
    PairsOnce build probe pairs
  collide : ∀ {build probe pairs matched}, kernels.collide build probe = some (pairs, matched) →
    pairs.Perm (equalPairs build probe) ∧ matched.length = build.length ∧
    ∀ b < build.length, matched.getD b false =
      (List.range probe.length).any (fun p => decide (build[b]? = probe[p]?))
  unmatchedBuild : ∀ {matched rows}, kernels.unmatchedBuild matched = some rows →
    rows.Perm ((List.range matched.length).filter (fun b => !matched.getD b false))
  cross : ∀ {lefts rights pairs}, kernels.cross lefts rights = some pairs →
    pairs = List.range lefts ×ˢ List.range rights

theorem refusing_contract : Kernels.refusing.Contract where
  unique h := by cases h
  uniqueAos h := by cases h
  collide h := by cases h
  unmatchedBuild h := by cases h
  cross h := by cases h

/-! ### Encodings -/

/-- The shape of a key. -/
inductive KeyShape where
  | singleI32
  | singleI64
  | singleBool
  | singleF32
  | singleF64
  | singleUtf8
  | twoI32
  | twoI64
  | multiI32 (arity : Nat)
deriving DecidableEq, Repr

/-- `needs_host_post_verify`: two keys of this shape may have one encoding. -/
def KeyShape.needsHostPostVerify : KeyShape → Bool
  | twoI64 | multiI32 _ => true
  | _ => false

/-- The key of an empty slot, which no row may have. -/
def sentinel : Int64 := Int64.minValue

def unlessSentinel (key : Int64) : Option Int64 := if key = sentinel then none else some key

/-- One value under `encode_keys_i64`. -/
def encodeI64 : DataType → Value → Option Int64
  | .int32, .int32 n => some n.toInt64
  | .int64, .int64 n => unlessSentinel n
  | _, _ => none

/-- `encode_keys_i64`. -/
def encodeKeysI64 (column : Column) (dtype : DataType) : Option (List Int64) :=
  column.cells.mapM (encodeI64 dtype)

/-- `host_splitmix`. -/
def hostSplitmix (h : UInt64) : UInt64 :=
  let h := h ^^^ (h >>> 33)
  let h := h * 0x9E3779B97F4A7C15
  let h := h ^^^ (h >>> 29)
  let h := h * 0x9E3779B97F4A7C15
  h ^^^ (h >>> 32)

/-- `canonical_f64_bits`: one NaN and one zero. -/
def canonicalF64Bits (x : F64) : UInt64 :=
  if x.isNan then 0x7FF8000000000000 else if x.isZero then 0 else x.bits

/-- `canonical_f32_bits`. -/
def canonicalF32Bits (x : F32) : UInt64 :=
  (if x.isNan then 0x7FC00000 else if x.isZero then 0 else x.bits : UInt32).toUInt64

/-- The bits of a column of a folded key. -/
def foldedBits : Value → Option UInt64
  | .int32 n => some n.toUInt32.toUInt64
  | .int64 n => some n.toUInt64
  | _ => none

/-- The columns of a key folded into one integer. -/
def foldBits : UInt64 → List Value → Option UInt64
  | h, [] => some h
  | h, v :: vs => do
    let bits ← foldedBits v
    foldBits (hostSplitmix (h ^^^ bits)) vs

/-- The key of one row under `encode_keys_for_shape`. Strings are numbered before. -/
def encodeRow : KeyShape → List Value → Option Int64
  | .singleI32, [v] => encodeI64 .int32 v
  | .singleI64, [v] => encodeI64 .int64 v
  | .singleBool, [.bool b] => some (if b then 1 else 0)
  | .singleF32, [.float32 x] => unlessSentinel (canonicalF32Bits x).toInt64
  | .singleF64, [.float64 x] => unlessSentinel (canonicalF64Bits x).toInt64
  | .twoI32, [.int32 hi, .int32 lo] =>
    unlessSentinel (hi.toUInt32.toUInt64 <<< 32 ||| lo.toUInt32.toUInt64).toInt64
  | .twoI64, vs => do
    let h ← foldBits 0 vs
    unlessSentinel h.toInt64
  | .multiI32 _, vs => do
    let h ← foldBits 0 vs
    unlessSentinel h.toInt64
  | _, _ => none

/-- `encode_keys_for_shape`, for `n` rows. -/
def encodeKeysForShape (columns : List Column) (n : Nat) (shape : KeyShape) :
    Option (List Int64) :=
  (List.range n).mapM (fun row => encodeRow shape (columns.map (fun c => c.cell row)))

/-! ### Numbered strings -/

/-- The string of a slot; `NULL` is none. -/
def stringOf : Value → Option String
  | .utf8 s => some s
  | _ => none

/-- The strings of a `StringArray`; another array is none. -/
def asStrings (c : Column) : Option (List (Option String)) :=
  if c.dtype = .plain .utf8 then some (c.cells.map stringOf) else none

/-- The numbers a dictionary has room for. -/
def maxInterned : Nat := 2 ^ 31 - 1

/-- A number as an `Int32`; `NULL` is `-1`. -/
def codeOf (code : Option Nat) : Int32 := (code.map Int32.ofNat).getD (-1)

/-- The columns of the numbers of some keys, under one dictionary. -/
def internKeys {κ : Type} [DecidableEq κ] (build probe : List (Option κ)) :
    Option (List Int32 × List Int32) := do
  let b ← Interning.enterAll maxInterned [] build
  let p ← Interning.enterAll maxInterned b.1 probe
  some (b.2.map codeOf, p.2.map codeOf)

/-- `intern_utf8_columns`: strings numbered by their text. -/
def internUtf8Columns (build probe : Column) : Option (List Int32 × List Int32) := do
  let b ← asStrings build
  let p ← asStrings probe
  internKeys b p

/-- `utf8_hash64`. -/
def utf8Hash64 (s : String) : UInt64 :=
  hostSplitmix (s.toUTF8.toList.foldl (fun h byte => (h ^^^ byte.toUInt64) * 0x100000001b3)
    0xcbf29ce484222325)

/--
`intern_utf8_columns_streaming`: strings numbered by their hashes. The parallel variant takes the
hashes first and then numbers them in the same order.
-/
def internUtf8ColumnsStreaming (build probe : Column) : Option (List Int32 × List Int32) := do
  let b ← asStrings build
  let p ← asStrings probe
  internKeys (b.map (Option.map utf8Hash64)) (p.map (Option.map utf8Hash64))

/-- An `Int32Array` without `NULL`. -/
def int32Column (values : List Int32) : Column :=
  .flat ⟨.int32, values.map .int32, by
    intro v hv
    obtain ⟨n, -, rfl⟩ := List.mem_map.mp hv
    exact .inr rfl⟩

/-! ### Comparing the keys again -/

/-- `arrow_row_eq`: two slots hold equal values; `NULL` is equal to nothing. -/
def arrowRowEq (a : Column) (ai : Nat) (b : Column) (bi : Nat) : Option Bool :=
  if a.cell ai = .null ∨ b.cell bi = .null then some false
  else if a.dtype ≠ b.dtype then none
  else
    match a.dtype with
    | .plain .int32 | .plain .int64 | .plain .float32 | .plain .float64 | .plain .bool
    | .plain .utf8 => some (decide (a.cell ai = b.cell bi))
    | _ => none

/-- A pair of rows is equal in all key columns. -/
def rowsEq : List Column → List Column → RowPair → Option Bool
  | b :: buildCols, p :: probeCols, pair => do
    let equal ← arrowRowEq b pair.1 p pair.2
    if equal then rowsEq buildCols probeCols pair else some false
  | _, _, _ => some true

/-- `verify_pairs_on_host`: the pairs whose keys are equal. -/
def verifyPairsOnHost (buildCols probeCols : List Column) : List RowPair → Option (List RowPair)
  | [] => some []
  | pair :: pairs => do
    let equal ← rowsEq buildCols probeCols pair
    let kept ← verifyPairsOnHost buildCols probeCols pairs
    some (if equal then pair :: kept else kept)

/-- The pairs a shape may trust. -/
def trustedPairs (shape : KeyShape) (buildCols probeCols : List Column) (pairs : List RowPair) :
    Option (List RowPair) :=
  if shape.needsHostPostVerify then verifyPairsOnHost buildCols probeCols pairs else some pairs

/-! ### Inner joins -/

/-- `n_rows_to_u32` on both sides. -/
def rowsFitU32 (nBuild nProbe : Nat) : Option Unit :=
  if nBuild < 2 ^ 32 ∧ nProbe < 2 ^ 32 then some () else none

/-- `hash_join_indices_on_gpu` and its variant for the other layout. -/
def hashJoinIndicesOnGpu (kernel : List Int64 → List Int64 → Option (List RowPair))
    (build probe : Column) (dtype : DataType) : Option (List RowPair) := do
  rowsFitU32 build.length probe.length
  let buildKeys ← encodeKeysI64 build dtype
  let probeKeys ← encodeKeysI64 probe dtype
  kernel buildKeys probeKeys

variable (kernels : Kernels)

/-- `hash_join_indices_on_gpu_with_shape_unverified`, and the pairs that stand. -/
def hashJoinIndicesWithShape (buildCols probeCols : List Column)
    (nBuild nProbe : Nat) (shape : KeyShape) : Option (List RowPair) := do
  rowsFitU32 nBuild nProbe
  let buildKeys ← encodeKeysForShape buildCols nBuild shape
  let probeKeys ← encodeKeysForShape probeCols nProbe shape
  let found ← kernels.collide buildKeys probeKeys
  trustedPairs shape buildCols probeCols found.1

variable (streaming : Bool)

/-- The strings numbered for an inner join. -/
def internForInner (build probe : Column) : Option (List Int32 × List Int32) :=
  if streaming then internUtf8ColumnsStreaming build probe else internUtf8Columns build probe

/-- The pairs of a join by strings: numbers by hash are compared again by their texts. -/
def utf8Pairs (build probe : Column) :
    Option (List RowPair) := do
  let interned ← internForInner streaming build probe
  let pairs ← hashJoinIndicesOnGpu kernels.unique (int32Column interned.1)
    (int32Column interned.2) .int32
  if streaming then verifyPairsOnHost [build] [probe] pairs else some pairs

variable (lhs rhs : Batch) (buildIsLeft : Bool)

/-- The batch of some pairs of positions. -/
def deviceOutput (pairs : List Pair) (schema : Schema) :
    Option Batch :=
  (materialise lhs rhs (pairs.map (orient buildIsLeft)) schema).toOption

def bothSides (pair : RowPair) : Pair := (some pair.1, some pair.2)

/-- The batch of the pairs an inner join finds. -/
def innerOutput (schema : Schema)
    (pairs : Option (List RowPair)) : Option Batch :=
  pairs.bind (fun pairs => deviceOutput lhs rhs buildIsLeft (pairs.map bothSides) schema)

/-- `GPU_JOIN_MIN_ROWS`. -/
def gpuJoinMinRows : Nat := 1024

/-- The first gates: the arity, the numbers of rows, and no `NULL` in a key column. -/
def passesGates (build probe : Batch) (buildIdx probeIdx : List Nat) : Bool :=
  decide (buildIdx.length = probeIdx.length) && !buildIdx.isEmpty &&
    decide (gpuJoinMinRows ≤ build.numRows) && decide (gpuJoinMinRows ≤ probe.numRows) &&
    buildIdx.all (fun b => !(build.column b).hasNulls) &&
    probeIdx.all (fun p => !(probe.column p).hasNulls)

/-- The key columns have the same types on both sides. -/
def sameDtypes (build probe : Batch) (buildIdx probeIdx : List Nat) : Bool :=
  (buildIdx.zip probeIdx).all
    (fun bp => decide ((build.column bp.1).dtype = (probe.column bp.2).dtype))

/-- `gpu_key_shape_for`. -/
def gpuKeyShapeFor (b : Batch) (indices : List Nat) : Option KeyShape :=
  match indices.map (fun i => (b.column i).dtype) with
  | [.plain .int32] => some .singleI32
  | [.plain .int64] => some .singleI64
  | [.plain .bool] => some .singleBool
  | [.plain .float32] => some .singleF32
  | [.plain .float64] => some .singleF64
  | [.plain .utf8] => some .singleUtf8
  | [.plain .int32, .plain .int32] => some .twoI32
  | [.plain .int64, .plain .int64] => some .twoI64
  | dtypes =>
    if 3 ≤ dtypes.length ∧ dtypes.length ≤ 255 ∧ dtypes.all (fun d => decide (d = .plain .int32))
    then some (.multiI32 dtypes.length) else none

/-- `build_keys_are_unique`. -/
def buildKeysAreUnique (c : Column) : Bool := decide c.cells.Nodup

/-- A join by one integer key whose build keys are distinct. -/
def uniqueIntJoin (kernel : List Int64 → List Int64 → Option (List RowPair)) (build probe : Batch) :
    List Nat → List Nat → Option (List RowPair)
  | [b], [p] =>
    match (build.column b).dtype with
    | .plain dtype =>
      if (dtype = .int32 ∨ dtype = .int64) ∧ buildKeysAreUnique (build.column b) then
        hashJoinIndicesOnGpu kernel (build.column b) (probe.column p) dtype
      else none
    | _ => none
  | _, _ => none

/-- `should_route_aos`; a product that overflows counts as larger. -/
def shouldRouteAos (nProbe nBuild : Nat) : Bool :=
  if nBuild = 0 then false
  else if 8 * nBuild < 2 ^ 64 then decide (8 * nBuild < nProbe) else true

/-- The key columns of a batch. -/
def keyColumnsOf (b : Batch) (indices : List Nat) : List Column := indices.map b.column

/-- The pairs of an inner join by strings. -/
def utf8Join (build probe : Batch) :
    List Nat → List Nat → Option (List RowPair)
  | [b], [p] => utf8Pairs kernels streaming (build.column b) (probe.column p)
  | _, _ => none

/-- The stages after the first: another shape, or build keys that are not distinct. -/
def laterStages (buildIdx probeIdx : List Nat) (schema : Schema) : Option Batch :=
  let build := (sides buildIsLeft lhs rhs).1
  let probe := (sides buildIsLeft lhs rhs).2
  match gpuKeyShapeFor build buildIdx with
  | none => none
  | some shape =>
    if sameDtypes build probe buildIdx probeIdx = false then none
    else if shape = .singleUtf8 then
      innerOutput lhs rhs buildIsLeft schema
        (utf8Join kernels streaming build probe buildIdx probeIdx)
    else
      (if shouldRouteAos probe.numRows build.numRows then
        innerOutput lhs rhs buildIsLeft schema
          (uniqueIntJoin kernels.uniqueAos build probe buildIdx probeIdx) else none) <|>
      innerOutput lhs rhs buildIsLeft schema
        (hashJoinIndicesWithShape kernels (keyColumnsOf build buildIdx)
          (keyColumnsOf probe probeIdx) build.numRows probe.numRows shape)

/-- `try_gpu_inner_join`; none declines. -/
def tryGpuInnerJoin (buildIdx probeIdx : List Nat) (schema : Schema) : Option Batch :=
  let build := (sides buildIsLeft lhs rhs).1
  let probe := (sides buildIsLeft lhs rhs).2
  if passesGates build probe buildIdx probeIdx then
    innerOutput lhs rhs buildIsLeft schema
      (uniqueIntJoin kernels.unique build probe buildIdx probeIdx) <|>
    laterStages kernels streaming lhs rhs buildIsLeft buildIdx probeIdx schema
  else none

/-! ### Outer joins -/

/-- The rows without a mark, of `n` rows marked by some positions. -/
def notFound (n : Nat) (found : List Nat) : List Nat :=
  (List.range n).filter (fun row => !(mark (List.replicate n false) found).getD row false)

/-- The build rows without a partner: by the matched bits, or by the pairs that stand. -/
def unmatchedBuildRows (shape : KeyShape) (nBuild : Nat) (matched : List Bool)
    (pairs : List RowPair) : Option (List Nat) :=
  if shape.needsHostPostVerify then some (notFound nBuild (pairs.map Prod.fst))
  else kernels.unmatchedBuild matched

/-- The build rows an outer join adds. -/
def addedBuildRows (shape : KeyShape) (nBuild : Nat) (emit : Bool)
    (matched : List Bool) (pairs : List RowPair) : Option (List Nat) :=
  if emit then unmatchedBuildRows kernels shape nBuild matched pairs else some []

/-- `execute_outer_join_indices_on_gpu`. -/
def outerJoinIndices (buildCols probeCols : List Column) (nBuild nProbe : Nat)
    (shape : KeyShape) (emitUnmatchedProbe emitUnmatchedBuild : Bool) : Option (List Pair) := do
  rowsFitU32 nBuild nProbe
  let buildKeys ← encodeKeysForShape buildCols nBuild shape
  let probeKeys ← encodeKeysForShape probeCols nProbe shape
  let found ← kernels.collide buildKeys probeKeys
  let pairs ← trustedPairs shape buildCols probeCols found.1
  let buildRows ← addedBuildRows kernels shape nBuild emitUnmatchedBuild found.2 pairs
  some (pairs.map bothSides ++
    (if emitUnmatchedProbe then
      (notFound nProbe (pairs.map Prod.snd)).map (fun p => (none, some p)) else []) ++
    buildRows.map (fun b => (some b, none)))

/-- The pairs of an outer join by strings: numbers by text stand for the strings. -/
def utf8OuterPairs (build probe : Batch) (emitProbe emitBuild : Bool) :
    List Nat → List Nat → Option (List Pair)
  | [b], [p] => do
    let interned ← internUtf8Columns (build.column b) (probe.column p)
    outerJoinIndices kernels [int32Column interned.1] [int32Column interned.2] build.numRows
      probe.numRows .singleI32 emitProbe emitBuild
  | _, _ => none

/-- The pairs of an outer join by a key of some shape. -/
def outerPairs (build probe : Batch) (buildIdx probeIdx : List Nat)
    (joinType : JoinType) (shape : KeyShape) : Option (List Pair) :=
  if shape = .singleUtf8 then
    utf8OuterPairs kernels build probe (preserveProbe joinType) (preserveBuild joinType) buildIdx
      probeIdx
  else
    outerJoinIndices kernels (keyColumnsOf build buildIdx) (keyColumnsOf probe probeIdx)
      build.numRows probe.numRows shape (preserveProbe joinType) (preserveBuild joinType)

/-- `try_gpu_outer_join`; none declines. -/
def tryGpuOuterJoin (joinType : JoinType) (buildIsLeft : Bool)
    (buildIdx probeIdx : List Nat) (schema : Schema) : Option Batch :=
  let build := (sides buildIsLeft lhs rhs).1
  let probe := (sides buildIsLeft lhs rhs).2
  if passesGates build probe buildIdx probeIdx && sameDtypes build probe buildIdx probeIdx then do
    let shape ← gpuKeyShapeFor build buildIdx
    let pairs ← outerPairs kernels build probe buildIdx probeIdx joinType shape
    deviceOutput lhs rhs buildIsLeft pairs schema
  else none

/-! ### Cross joins -/

/-- `CROSS_JOIN_GPU_MIN_CELLS`. -/
def crossJoinGpuMinCells : Nat := 4096

/-- `CROSS_JOIN_GPU_CELL_CAP`. -/
def crossJoinGpuCellCap : Nat := 100000000

/-- `execute_cross_join_on_gpu`; an error is a refusal. -/
def executeCrossJoinOnGpu (schema : Schema) : Option Batch :=
  if lhs.numRows = 0 ∨ rhs.numRows = 0 ∨ crossJoinGpuCellCap ≤ lhs.numRows * rhs.numRows then none
  else do
    let pairs ← kernels.cross lhs.numRows rhs.numRows
    (materialise lhs rhs (pairs.map bothSides) schema).toOption

/-! ### A device -/

/-- The kernels of a device, and whether strings are numbered by their hashes. -/
structure Device where
  kernels : Kernels
  /-- `BOLT_GPU_JOIN_STREAMING_INTERN`. -/
  streaming : Bool

end CratonBolt.Joins
