import CratonBolt.Semantics.Columns
import CratonBolt.Semantics.Plan

/-!
# Filters and their conjuncts

The conjuncts of a filter, which `plan/optimizer/predicate_pushdown.rs` takes apart and puts
together. A conjunct of a well-typed filter is of type `Bool`, or a bare `NULL`, which has no type
of its own.
-/

namespace CratonBolt

open Outcome List

variable {Q : Type} {B : Builtins} {S : Subqueries Q} {s : Schema} {e : Expr Q}
variable {sub : Q → Nat → BoltResult Schema}

/-! ### Conjunctions -/

/-- The conjuncts of an expression, from left to right. -/
def Expr.splitConjuncts : Expr Q → List (Expr Q)
  | .binary .and left right => left.splitConjuncts ++ right.splitConjuncts
  | e => [e]

/-- The conjunction of a list of expressions, nested to the left. -/
def combineConjuncts : List (Expr Q) → Option (Expr Q)
  | [] => none
  | first :: rest => some (rest.foldl (fun acc c => .binary .and acc c) first)

theorem Value.isTrue_eq_true {v : Value} :
  v.isTrue = true ↔ v.truth = some true
  := by
  simp [isTrue]

@[simp]
theorem Expr.holds_and (s : Schema) (l r : Expr Q) (row : Row) :
  (Expr.binary .and l r).holds B S s row = (l.holds B S s row && r.holds B S s row)
  := by
  rw [Bool.eq_iff_iff]
  simp [holds, eval, Value.binary, Value.isTrue_eq_true]

/-- A conjunct of a conjunction: a bare `NULL` or of type `Bool`. -/
def Expr.NullOrBool (sub : Q → Nat → BoltResult Schema) (s : Schema) (e : Expr Q) : Prop :=
  e.isNullLit = true ∨ e.dtype sub s = .ok .bool

theorem Expr.dtype_of_isNullLit (sub : Q → Nat → BoltResult Schema) (s : Schema)
    (h : e.isNullLit = true) :
  ∃ err, e.dtypeDepth sub s 0 = .error err
  := by
  cases e with
  | literal lit =>
    cases lit with
    | null =>
      rw [Expr.dtypeDepth, if_neg (by decide)]
      exact ⟨_, rfl⟩
    | _ => cases h
  | _ => cases h

theorem binaryDtype_and {t u : DataType} :
  binaryDtype .and t u = .ok .bool ↔ t = .bool ∧ u = .bool
  := by
  simp [binaryDtype, BinaryOp.isArithmetic, BinaryOp.isComparison, BinaryOp.isLogical]

variable {l r first : Expr Q} {rest : List (Expr Q)}

/-- The sides of a conjunction are bare `NULL`s or truth values, and not both bare `NULL`s. -/
theorem Expr.dtype_and_iff :
  (Expr.binary .and l r).dtype sub s = .ok .bool ↔
    l.NullOrBool sub s ∧ r.NullOrBool sub s ∧ (l.isNullLit && r.isNullLit) = false
  := by
  rw [dtype, dtypeDepth, if_neg (by decide)]
  simp only [bind_eq_ok, binaryDtype_and, peerTypedDtype, NullOrBool, dtype]
  cases hl : l.isNullLit with
  | false =>
    cases hr : r.isNullLit with
    | false => simp
    | true =>
      obtain ⟨err, herr⟩ := dtype_of_isNullLit sub s hr
      cases hlt : l.dtypeDepth sub s 0 <;> simp [herr]
  | true =>
    obtain ⟨err, herr⟩ := dtype_of_isNullLit sub s hl
    cases hr : r.isNullLit with
    | false => cases hrt : r.dtypeDepth sub s 0 <;> simp [herr]
    | true =>
      obtain ⟨err', herr'⟩ := dtype_of_isNullLit sub s hr
      simp [herr, herr']

/-- The expression is a well-typed, defined predicate. -/
def Expr.isPredicate (S : Subqueries Q) (s : Schema) (e : Expr Q) : Bool :=
  e.checked S s = some .bool

theorem Expr.isNullLit_of_dtype {t : DataType} (h : e.dtype sub s = .ok t) :
  e.isNullLit = false
  := by
  cases e with
  | literal lit =>
    cases lit with
    | null => simp [dtype, dtypeDepth, maxRecursionDepth, Literal.dtype] at h
    | _ => rfl
  | _ => rfl

/-! ### Conjuncts -/

theorem splitConjuncts_ne_nil (e : Expr Q) :
  e.splitConjuncts ≠ []
  := by
  fun_induction Expr.splitConjuncts e with
  | case1 left right ihl ihr => simp [ihl]
  | case2 e hne => simp

theorem mem_splitConjuncts_atomic {e c : Expr Q} (h : c ∈ e.splitConjuncts) :
  c.splitConjuncts = [c]
  := by
  fun_induction Expr.splitConjuncts e with
  | case1 left right ihl ihr =>
    obtain h | h := mem_append.mp h
    · exact ihl h
    · exact ihr h
  | case2 e hne =>
    obtain rfl := mem_singleton.mp h
    unfold Expr.splitConjuncts
    split
    · exact (hne _ _ rfl).elim
    · rfl

theorem nullOrBool_of_mem_splitConjuncts (h : e.NullOrBool sub s) :
  ∀ c ∈ e.splitConjuncts, c.NullOrBool sub s
  := by
  fun_induction Expr.splitConjuncts e with
  | case1 left right ihl ihr =>
    obtain hnull | ht := h
    · cases hnull
    obtain ⟨hl, hr, -⟩ := Expr.dtype_and_iff.mp ht
    intro c hc
    obtain hc | hc := mem_append.mp hc
    · exact ihl hl c hc
    · exact ihr hr c hc
  | case2 e hne =>
    intro c hc
    obtain rfl := mem_singleton.mp hc
    exact h

theorem splitConjuncts_foldl (h : ∀ c ∈ rest, c.splitConjuncts = [c]) :
  (rest.foldl (fun acc c => Expr.binary .and acc c) first).splitConjuncts =
    first.splitConjuncts ++ rest
  := by
  induction rest generalizing first with
  | nil => simp
  | cons c rest ih =>
    rw [foldl_cons, ih (fun d hd => h d (mem_cons_of_mem c hd)), Expr.splitConjuncts,
      h c mem_cons_self, append_assoc, singleton_append]

theorem dtype_foldl_nullOrBool
    (hf : first.dtype sub s = .ok .bool) (hr : ∀ c ∈ rest, c.NullOrBool sub s) :
  (rest.foldl (fun acc c => Expr.binary .and acc c) first).dtype sub s = .ok .bool
  := by
  induction rest generalizing first with
  | nil => exact hf
  | cons c rest ih =>
    rw [foldl_cons]
    apply ih _ (fun d hd => hr d (mem_cons_of_mem c hd))
    apply Expr.dtype_and_iff.mpr
    refine ⟨.inr hf, hr c mem_cons_self, ?_⟩
    rw [Expr.isNullLit_of_dtype hf, Bool.false_and]

section Distributes

variable {f : Expr Q → Bool}

theorem all_splitConjuncts (hf : ∀ l r, f (.binary .and l r) = (f l && f r)) (e : Expr Q) :
  e.splitConjuncts.all f = f e
  := by
  fun_induction Expr.splitConjuncts e with
  | case1 left right ihl ihr => rw [all_append, ihl, ihr, hf]
  | case2 e hne => simp

theorem foldl_and_eq_all (hf : ∀ l r, f (.binary .and l r) = (f l && f r))
    (rest : List (Expr Q)) (first : Expr Q) :
  f (rest.foldl (fun acc c => .binary .and acc c) first) = (f first && rest.all f)
  := by
  induction rest generalizing first with
  | nil => simp
  | cons c rest ih => rw [foldl_cons, ih, hf, all_cons, Bool.and_assoc]

end Distributes

end CratonBolt
