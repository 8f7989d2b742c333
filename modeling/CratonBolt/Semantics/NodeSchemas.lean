import CratonBolt.Semantics.OutputSchema
import CratonBolt.Semantics.Plan

/-!
# Schemas of the nodes of a plan

When a filter, a union or a grouping has a schema, and the names of a joined one.
-/

namespace CratonBolt

open Outcome List
open Schema (names)

variable {Q : Type} {s : Schema} {sub : Q → Nat → BoltResult Schema}

/-! ### Filters and unions -/

theorem checkPredicate_eq_ok {e : Expr Q} :
  checkPredicate sub s e = .ok () ↔ e.dtype sub s = .ok .bool
  := by
  simp only [checkPredicate, bind_eq_ok]
  constructor
  · rintro ⟨t, ht, h⟩
    split at h
    · next hb => rw [ht, hb]
    · cases h
  · intro h
    exact ⟨.bool, h, rfl⟩

/-- A filter has the schema of its input, and a predicate of type `Bool`. -/
theorem outputSchema_filter {input : LogicalPlan Q} {predicate : Expr Q} :
  (LogicalPlan.filter input predicate).outputSchema sub = some s ↔
    input.outputSchema sub = some s ∧ predicate.dtype sub s = .ok .bool
  := by
  simp only [LogicalPlan.outputSchema, Option.bind_eq_bind, Option.bind_eq_some_iff,
    toOption_eq_some, Option.some.injEq]
  constructor
  · rintro ⟨s', hs, _, hc, rfl⟩
    exact ⟨hs, checkPredicate_eq_ok.mp hc⟩
  · rintro ⟨hs, ht⟩
    exact ⟨s, hs, (), checkPredicate_eq_ok.mpr ht, rfl⟩

theorem branchesCompatible_iff {first : Schema} {inputs : List (LogicalPlan Q)} :
  branchesCompatible sub first inputs = true ↔
    ∀ p ∈ inputs, ∃ s, p.outputSchema sub = some s ∧ schemasCompatible first s = true
  := by
  induction inputs with
  | nil => simp [branchesCompatible]
  | cons p inputs ih =>
    rw [branchesCompatible]
    cases hs : p.outputSchema sub with
    | none => simp [hs]
    | some s => simp [hs, ih]

/-! ### Joined schemas -/

theorem joinCombinedSchema_names (l r : Schema) (joinType : JoinType) :
  (joinCombinedSchema l r joinType).names =
    l.names ++ (joinRightFields joinType.rightMayNull r.fields l.names).map Field.name
  := by
  rw [names, joinCombinedSchema, map_append, map_map]
  rfl

/-! ### Groupings -/

theorem groupFields_length {groupBy : List (Expr Q)} {i : Nat} {fields : List Field}
    (h : groupFields sub s i groupBy = .ok fields) :
  fields.length = groupBy.length
  := by
  induction groupBy generalizing i fields with
  | nil => cases h; rfl
  | cons e groupBy ih =>
    simp only [groupFields, bind_eq_ok] at h
    obtain ⟨t, -, fields', hf, hfields⟩ := h
    cases hfields
    rw [length_cons, length_cons, ih hf]

end CratonBolt
