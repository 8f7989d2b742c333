import CratonBolt.Semantics.Expr

/-!
# The columns an expression refers to

`Expr.collectColumns` lists the column references of an expression, as the optimizer's helper
does, without looking into a subquery. A reference has the type of the field it denotes.
-/

namespace CratonBolt

open Outcome List

variable {Q : Type}

/-! ### References -/

mutual

/-- The column references of an expression, in the order they are met. -/
@[grind =]
def Expr.collectColumns : Expr Q → List String
  | .column name => [name]
  | .literal _ => []
  | .binary _ left right => left.collectColumns ++ right.collectColumns
  | .unary _ operand => operand.collectColumns
  | .case branches elseBranch => branchColumns branches ++ elseColumns elseBranch
  | .like expr _ _ _ _ => expr.collectColumns
  | .cast expr _ _ => expr.collectColumns
  | .castFormat expr _ _ _ => expr.collectColumns
  | .scalarFn _ args => argColumns args
  | .extract _ expr => expr.collectColumns
  | .dateTrunc _ expr => expr.collectColumns
  | .aliased expr _ => expr.collectColumns
  | .scalarSubquery _ => []
  | .inSubquery expr _ _ => expr.collectColumns

def branchColumns : List (Expr Q × Expr Q) → List String
  | [] => []
  | (w, t) :: branches => w.collectColumns ++ t.collectColumns ++ branchColumns branches

def elseColumns : Option (Expr Q) → List String
  | none => []
  | some e => e.collectColumns

def argColumns : List (Expr Q) → List String
  | [] => []
  | a :: args => a.collectColumns ++ argColumns args

end

/-! ### Types -/

/-- The type of the field a name denotes. -/
def Schema.dtypeOf (s : Schema) (name : String) : Option DataType :=
  ((s.position? name).bind (fun i => s.fields[i]?)).map Field.dtype

theorem resolve_lt {names : List String} {name : String} {i : Nat}
    (h : resolve names name = some i) :
  i < names.length
  := by
  unfold resolve at h
  split at h
  · next hi =>
    cases h
    exact (findIdx?_eq_some_iff_findIdx_eq.mp hi).1
  · split at h
    · exact (findIdx?_eq_some_iff_findIdx_eq.mp h).1
    · cases h

theorem Schema.field_eq_ok {s : Schema} {name : String} {f : Field} :
  s.field name = .ok f ↔ ∃ i, s.position? name = some i ∧ s.fields[i]? = some f
  := by
  unfold field indexOf
  cases s.position? name with
  | none => simp
  | some i =>
    cases h : s.fields[i]? with
    | none => simp [h]
    | some g => simp [h]

theorem Schema.map_field_eq_ok {s : Schema} {name : String} {t : DataType} :
  (s.field name).map Field.dtype = .ok t ↔ s.dtypeOf name = some t
  := by
  simp [dtypeOf, field_eq_ok, Option.bind_eq_some_iff]
  grind

theorem checkWhens_eq_ok {sub : Q → Nat → BoltResult Schema} {s : Schema}
    {branches : List (Expr Q × Expr Q)} {depth i : Nat} :
  checkWhens sub s depth branches i = .ok () ↔
    ∀ b ∈ branches, b.1.dtypeDepth sub s depth = .ok .bool
  := by
  induction branches generalizing i with
  | nil => simp [checkWhens]
  | cons b branches ih =>
    obtain ⟨w, t⟩ := b
    simp only [checkWhens, bind_eq_ok, forall_mem_cons]
    constructor
    · rintro ⟨t, ht, h⟩
      split at h
      · next hb =>
        subst hb
        exact ⟨ht, ih.mp h⟩
      · cases h
    · rintro ⟨ht, h⟩
      exact ⟨.bool, ht, by rw [if_pos rfl]; exact ih.mpr h⟩

end CratonBolt
