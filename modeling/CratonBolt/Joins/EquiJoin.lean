import CratonBolt.Joins.DeviceJoin

/-!
# Equi-joins

`execute_inner_join` and `execute_outer_join` of `exec/join.rs`: the checks of the keys, the sides
without rows, the offer to the device and, where it declines, the hash join on the host.
-/

namespace CratonBolt.Joins

/-! ### Inner joins -/

/-- `execute_inner_join` from the choice of the build side on. -/
def innerJoinOn (device : Device) (lhs rhs : Batch) (buildIsLeft : Bool)
    (leftKeys rightKeys : List String) (schema : Schema) : BoltResult Batch := do
  let buildIdx ←
    lookupColumns (sides buildIsLeft lhs rhs).1 (sides buildIsLeft leftKeys rightKeys).1
  let probeIdx ←
    lookupColumns (sides buildIsLeft lhs rhs).2 (sides buildIsLeft leftKeys rightKeys).2
  checkKeyDtypes (sides buildIsLeft lhs rhs).1 (sides buildIsLeft lhs rhs).2 "INNER JOIN" buildIdx
    probeIdx
  match tryGpuInnerJoin device.kernels device.streaming lhs rhs buildIsLeft buildIdx probeIdx
    schema with
  | some out => .ok out
  | none => hostInnerJoin lhs rhs buildIsLeft buildIdx probeIdx schema

section Plan

variable {Q : Type}

/-- `execute_inner_join`: the smaller side builds. -/
def executeInnerJoin (device : Device) (lhs rhs : Batch) (on : List (Expr Q × Expr Q))
    (schema : Schema) : BoltResult Batch :=
  if on.isEmpty then
    .error (.plan ("INNER JOIN requires at least one equi-join predicate; " ++
      "the parser should have rejected this upstream"))
  else do
    let (leftKeys, rightKeys) ← splitKeys on
    planSchemaToArrowSchema schema
    if lhs.numRows = 0 ∨ rhs.numRows = 0 then emptyOutput schema
    else
      innerJoinOn device lhs rhs (decide (lhs.numRows ≤ rhs.numRows)) leftKeys rightKeys schema

end Plan

/-! ### Outer joins -/

/-- `execute_outer_join` from the choice of the build side on. -/
def outerJoinOn (device : Device) (lhs rhs : Batch) (joinType : JoinType) (buildIsLeft : Bool)
    (leftKeys rightKeys : List String) (schema : Schema) : BoltResult Batch :=
  let build := (sides buildIsLeft lhs rhs).1
  let probe := (sides buildIsLeft lhs rhs).2
  if probe.numRows = 0 ∧ build.numRows = 0 then emptyOutput schema
  else if probe.numRows = 0 then
    if preserveBuild joinType then onlySide lhs rhs buildIsLeft true build.numRows schema
    else emptyOutput schema
  else if build.numRows = 0 then
    if preserveProbe joinType then onlySide lhs rhs buildIsLeft false probe.numRows schema
    else emptyOutput schema
  else do
    let buildIdx ← lookupColumns build (sides buildIsLeft leftKeys rightKeys).1
    let probeIdx ← lookupColumns probe (sides buildIsLeft leftKeys rightKeys).2
    checkKeyDtypes build probe "OUTER JOIN" buildIdx probeIdx
    match tryGpuOuterJoin device.kernels lhs rhs joinType buildIsLeft buildIdx probeIdx schema with
    | some out => .ok out
    | none => hostOuterJoin lhs rhs joinType buildIsLeft buildIdx probeIdx schema

section Plan

variable {Q : Type}

/-- `execute_outer_join`: the left side builds for `RIGHT`, the right side otherwise. -/
def executeOuterJoin (device : Device) (lhs rhs : Batch) (joinType : JoinType)
    (on : List (Expr Q × Expr Q)) (schema : Schema) : BoltResult Batch :=
  if on.isEmpty then
    .error (.plan (s!"{outerKind joinType} JOIN requires at least one equi-join predicate; " ++
      "the parser should have rejected this upstream"))
  else do
    planSchemaToArrowSchema schema
    let (leftKeys, rightKeys) ← splitKeys on
    outerJoinOn device lhs rhs joinType (decide (joinType = .rightOuter)) leftKeys rightKeys schema

/-- The arms of `execute_join` for an equi-join without a further condition. -/
def executeEquiJoin (device : Device) (lhs rhs : Batch) (joinType : JoinType)
    (on : List (Expr Q × Expr Q)) (schema : Schema) : BoltResult Batch :=
  if joinType = .inner then executeInnerJoin device lhs rhs on schema
  else executeOuterJoin device lhs rhs joinType on schema

end Plan

end CratonBolt.Joins
