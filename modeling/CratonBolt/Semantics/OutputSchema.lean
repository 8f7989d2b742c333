import CratonBolt.Library.Outcome
import CratonBolt.Plan.PlanSchema

/-!
# Output schemas without the recursion limit

`LogicalPlan.outputSchema` is the schema of a plan whatever its depth. The planner's
`schemaDepth` is the same function cut off where the plan reaches below the limit, as
`schemaDepth_eq_ok_iff` says with the height of the plan.
-/

namespace CratonBolt

open Outcome List Option
open LogicalPlan (schemaDepth)

variable {Q : Type} (sub : Q → Nat → BoltResult Schema) {error : BoltError}

mutual

/-- The output schema of a plan, at any depth. -/
@[grind =]
def LogicalPlan.outputSchema : LogicalPlan Q → Option Schema
  | .scan _ projection schema => (scanSchema schema projection).toOption
  | .filter input predicate => do
    let s ← input.outputSchema
    let _ ← (checkPredicate sub s predicate).toOption
    some s
  | .project input exprs => do
    let s ← input.outputSchema
    let fields ← (projectFields sub s 0 exprs).toOption
    some ⟨fields⟩
  | .aggregate input groupBy aggregates => do
    let s ← input.outputSchema
    let keys ← (groupFields sub s 0 groupBy).toOption
    let aggs ← (aggregateFields sub s aggregates).toOption
    some ⟨keys ++ aggs⟩
  | .distinct input => input.outputSchema
  | .limit input _ _ => input.outputSchema
  | .sort input sortExprs => do
    let s ← input.outputSchema
    let _ ← (checkExprs sub s (sortExprs.map SortExpr.expr)).toOption
    some s
  | .window input windowExprs partitionBy orderBy => do
    let s ← input.outputSchema
    let _ ← (checkExprs sub s partitionBy).toOption
    let _ ← (checkExprs sub s (orderBy.map SortExpr.expr)).toOption
    let appended ← (windowFields sub s windowExprs).toOption
    some ⟨s.fields ++ appended⟩
  | .union inputs =>
    match inputs with
    | [] => none
    | input :: inputs => do
      let first ← input.outputSchema
      if branchesCompatible first inputs then some first else none
  | .setOp left right _ _ => do
    let l ← left.outputSchema
    let r ← right.outputSchema
    if schemasCompatible l r then some l else none
  | .join left right joinType _ _ => do
    let l ← left.outputSchema
    let r ← right.outputSchema
    some (joinCombinedSchema l r joinType)

/-- Every further branch of a `UNION` has the column types of the first. -/
def branchesCompatible (first : Schema) : List (LogicalPlan Q) → Bool
  | [] => true
  | input :: inputs =>
    match input.outputSchema with
    | some other => schemasCompatible first other && branchesCompatible first inputs
    | none => false

end

mutual

/-- The number of edges on the longest path from the root of a plan to a scan. -/
@[grind =]
def LogicalPlan.height : LogicalPlan Q → Nat
  | .scan _ _ _ => 0
  | .filter input _ => input.height + 1
  | .project input _ => input.height + 1
  | .aggregate input _ _ => input.height + 1
  | .distinct input => input.height + 1
  | .limit input _ _ => input.height + 1
  | .sort input _ => input.height + 1
  | .window input _ _ _ => input.height + 1
  | .union inputs => heights inputs + 1
  | .setOp left right _ _ => max left.height right.height + 1
  | .join left right _ _ _ => max left.height right.height + 1

/-- The height of the highest of several plans. -/
def heights : List (LogicalPlan Q) → Nat
  | [] => 0
  | input :: inputs => max input.height (heights inputs)

end

open LogicalPlan (height outputSchema)

section Inputs

variable {sub} {s : Schema} {input left right : LogicalPlan Q} {inputs : List (LogicalPlan Q)}

theorem outputSchema_union :
  (LogicalPlan.union (input :: inputs)).outputSchema sub = some s ↔
    input.outputSchema sub = some s ∧ branchesCompatible sub s inputs = true
  := by
  simp only [outputSchema, bind_eq_bind, bind_eq_some_iff,
    ite_none_right_eq_some, some.injEq]
  constructor
  · rintro ⟨first, hi, hb, rfl⟩
    exact ⟨hi, hb⟩
  · rintro ⟨hi, hb⟩
    exact ⟨s, hi, hb, rfl⟩

theorem outputSchema_setOp {op : SetOpKind} {all : Bool} :
  (LogicalPlan.setOp left right op all).outputSchema sub = some s ↔
    ∃ r, left.outputSchema sub = some s ∧ right.outputSchema sub = some r ∧
      schemasCompatible s r = true
  := by
  simp only [outputSchema, bind_eq_bind, bind_eq_some_iff,
    ite_none_right_eq_some, some.injEq]
  constructor
  · rintro ⟨l, hl, r, hr, hc, rfl⟩
    exact ⟨r, hl, hr, hc⟩
  · rintro ⟨r, hl, hr, hc⟩
    exact ⟨s, hl, r, hr, hc, rfl⟩

theorem outputSchema_join {joinType : JoinType} {on : List (Expr Q × Expr Q)}
    {filter : Option (Expr Q)} :
  (LogicalPlan.join left right joinType on filter).outputSchema sub = some s ↔
    ∃ l r, left.outputSchema sub = some l ∧ right.outputSchema sub = some r ∧
      joinCombinedSchema l r joinType = s
  := by
  simp [outputSchema, bind_eq_some_iff]

end Inputs

theorem checkBranches_eq_ok_iff (first : Schema) (depth i : Nat) (inputs : List (LogicalPlan Q))
    (h : ∀ p ∈ inputs, ∀ depth s, p.schemaDepth sub depth = .ok s ↔
      p.outputSchema sub = some s ∧ depth + p.height ≤ maxRecursionDepth) :
  checkBranches sub first depth i inputs = .ok () ↔
    branchesCompatible sub first inputs = true ∧
      (inputs = [] ∨ depth + heights inputs ≤ maxRecursionDepth)
  := by
  induction inputs generalizing i with
  | nil => simp [checkBranches, branchesCompatible]
  | cons p inputs ih =>
    have hp := h p mem_cons_self depth
    have ih := fun i => ih i (fun q hq => h q (mem_cons_of_mem p hq))
    simp only [checkBranches, branchesCompatible, bind_eq_ok, heights, reduceCtorEq, false_or]
    cases ho : p.outputSchema sub with
    | none => simp [hp, ho]
    | some other =>
      simp only [hp, ho, some.injEq, Bool.and_eq_true]
      constructor
      · rintro ⟨_, ⟨rfl, hd⟩, hc⟩
        split at hc
        · next hsc =>
          obtain ⟨hb, hin⟩ := (ih (i + 1)).mp hc
          refine ⟨⟨hsc, hb⟩, ?_⟩
          obtain rfl | hin := hin
          · simpa [heights] using hd
          · omega
        · cases hc
      · rintro ⟨⟨hsc, hb⟩, hd⟩
        refine ⟨other, ⟨rfl, by omega⟩, ?_⟩
        rw [if_pos hsc]
        exact (ih (i + 1)).mpr ⟨hb, Or.inr (by omega)⟩

/-- The statement of `schemaDepth_eq_ok_iff` for one plan. -/
def SchemaWithinLimit (p : LogicalPlan Q) : Prop :=
  ∀ depth s, p.schemaDepth sub depth = .ok s ↔
    p.outputSchema sub = some s ∧ depth + p.height ≤ maxRecursionDepth

variable {sub}

variable {depth : Nat} {r : Schema}

/-- A node that has the schema of its input, which is checked one level deeper. -/
theorem guarded_eq_ok_iff {input : LogicalPlan Q} (h : SchemaWithinLimit sub input) :
  (if depth > maxRecursionDepth then .error error
    else input.schemaDepth sub (depth + 1)) = .ok r ↔
    input.outputSchema sub = some r ∧ depth + (input.height + 1) ≤ maxRecursionDepth
  := by
  split
  · next hd =>
    constructor
    · intro hr
      cases hr
    · rintro ⟨-, hh⟩
      omega
  · rw [h (depth + 1), Nat.add_assoc, Nat.add_comm 1]

/-- A node with one input, which is checked one level deeper. -/
theorem guarded_bind_eq_ok_iff {input : LogicalPlan Q} (h : SchemaWithinLimit sub input)
    {f : Schema → BoltResult Schema} :
  (if depth > maxRecursionDepth then .error error
    else input.schemaDepth sub (depth + 1) >>= f) = .ok r ↔
    (∃ s, input.outputSchema sub = some s ∧ f s = .ok r) ∧
      depth + (input.height + 1) ≤ maxRecursionDepth
  := by
  split
  · next hd =>
    constructor
    · intro hr
      cases hr
    · rintro ⟨-, hh⟩
      omega
  · simp only [bind_eq_ok, h (depth + 1)]
    constructor
    · rintro ⟨s, ⟨hs, hh⟩, hf⟩
      exact ⟨⟨s, hs, hf⟩, by omega⟩
    · rintro ⟨⟨s, hs, hf⟩, hh⟩
      exact ⟨s, ⟨hs, by omega⟩, hf⟩

/-- A node with two inputs, which are checked one level deeper. -/
theorem guarded_bind_bind_eq_ok_iff {left right : LogicalPlan Q} (hl : SchemaWithinLimit sub left)
    (hr : SchemaWithinLimit sub right) {f : Schema → Schema → BoltResult Schema} :
  (if depth > maxRecursionDepth then .error error
    else do
      let a ← left.schemaDepth sub (depth + 1)
      let b ← right.schemaDepth sub (depth + 1)
      f a b) = .ok r ↔
    (∃ a b, left.outputSchema sub = some a ∧ right.outputSchema sub = some b ∧ f a b = .ok r) ∧
      depth + (max left.height right.height + 1) ≤ maxRecursionDepth
  := by
  split
  · next hd =>
    constructor
    · intro h
      cases h
    · rintro ⟨-, hh⟩
      omega
  · simp only [bind_eq_ok, hl (depth + 1), hr (depth + 1)]
    constructor
    · rintro ⟨a, ⟨ha, hha⟩, b, ⟨hb, hhb⟩, hf⟩
      exact ⟨⟨a, b, ha, hb, hf⟩, by omega⟩
    · rintro ⟨⟨a, b, ha, hb, hf⟩, hh⟩
      exact ⟨a, ⟨ha, by omega⟩, b, ⟨hb, by omega⟩, hf⟩

variable (sub)

/-- The planner's schema of a plan is its output schema, provided the plan is not too deep. -/
theorem schemaDepth_eq_ok_iff (p : LogicalPlan Q) : SchemaWithinLimit sub p := by
  induction p with
  | scan table projection schema =>
    intro depth s
    unfold schemaDepth
    split
    · simp [height]
      omega
    · simp [outputSchema, height]
      omega
  | filter _ _ ih | project _ _ ih | aggregate _ _ _ ih | sort _ _ ih | window _ _ _ _ ih =>
    intro depth s
    rw [schemaDepth, guarded_bind_eq_ok_iff ih]
    simp [outputSchema, height, bind_eq_some_iff]
  | distinct _ ih | limit _ _ _ ih =>
    intro depth s
    rw [schemaDepth, guarded_eq_ok_iff ih]
    simp [outputSchema, height]
  | union inputs ih =>
    intro depth s
    cases inputs with
    | nil =>
      unfold schemaDepth
      split <;> simp [outputSchema]
    | cons input inputs =>
      rw [schemaDepth, guarded_bind_eq_ok_iff (ih input mem_cons_self)]
      have hb := fun first => checkBranches_eq_ok_iff sub first (depth + 1) 1 inputs
        (fun p hp => ih p (mem_cons_of_mem input hp))
      simp only [bind_eq_ok, exists_and_left, hb, outputSchema, height,
        heights, bind_eq_bind, bind_eq_some_iff, ite_none_right_eq_some,
        some.injEq, Except.ok.injEq, exists_const]
      constructor
      · rintro ⟨⟨first, hf, ⟨hc, hd⟩, rfl⟩, hh⟩
        refine ⟨⟨first, hf, hc, rfl⟩, ?_⟩
        obtain rfl | hd := hd
        · simpa [heights] using hh
        · omega
      · rintro ⟨⟨first, hf, hc, rfl⟩, hh⟩
        exact ⟨⟨first, hf, ⟨hc, Or.inr (by omega)⟩, rfl⟩, by omega⟩
  | setOp _ _ _ _ ihl ihr | join _ _ _ _ _ ihl ihr =>
    intro depth s
    rw [schemaDepth, guarded_bind_bind_eq_ok_iff ihl ihr]
    simp [outputSchema, height, bind_eq_some_iff]

end CratonBolt
