import CratonBolt.Optimizer.FoldedConstants

/-!
# What expressions come down to

An expression whose constants are computed, whose neutral operands of `AND` and `OR` are left out
and whose double negations are dropped comes down to a constant, to a column or an alias, to the
negation of one of these, or to something else. `Expr.residue` says to what, by recursion on the
expression: `a AND 1 < 2` comes down to the column `a`, and `a AND 1 < NULL` does not. Folded
expressions are of the form that their residue says.
-/

namespace CratonBolt

variable {Q : Type}

/-- What an expression comes down to. -/
inductive Residue where
  | constant (v : Literal)
  /-- A column or an alias; an alias may be dropped if what it names may be. -/
  | named (name : String) (errorFree : Bool)
  | negation (operand : Residue)
  | compound
deriving DecidableEq

namespace Residue

/-- It is the given truth value. -/
def isBool (value : Bool) : Residue → Bool
  | constant (.bool b) => b == value
  | _ => false

def isNull : Residue → Bool
  | constant .null => true
  | _ => false

theorem isNull_constant (v : Literal) :
  (constant v).isNull = Value.isNull v
  := by
  cases v <;> rfl

/-- It can raise no error, so that it may be dropped. -/
def errorFree : Residue → Bool
  | constant _ => true
  | named _ free => free
  | _ => false

/-- The name that it gives to the output it computes. -/
def name : Residue → Option String
  | named n _ => some n
  | _ => none

end Residue

/-- The truth value that is neutral for an operator. -/
def BinaryOp.unit : BinaryOp → Option Bool
  | .and => some true
  | .or => some false
  | _ => none

/-- What is left of an operator: one operand, a constant, or the operator with both operands. -/
inductive Leaves where
  | left
  | right
  | constant (v : Literal)
  | both
deriving DecidableEq

/-- What an operator leaves of operands that come down to `l` and `r`. -/
def Leaves.of (op : BinaryOp) (l r : Residue) : Leaves :=
  match op.unit with
  | some unit =>
    if l.isBool unit then right
    else if r.isBool unit then left
    else if (l.isBool (!unit) && r.errorFree) || (r.isBool (!unit) && l.errorFree) then
      constant (.bool (!unit))
    else both
  | none =>
    match l, r with
    | .constant a, .constant b => (foldLiteralBinary op a b).elim both constant
    | _, _ => both

namespace Expr

/-- What an expression comes down to. -/
def residue : Expr Q → Residue
  | .column n => .named n true
  | .literal v => .constant v
  | .aliased expr n => .named n expr.residue.errorFree
  | .binary op left right =>
    match Leaves.of op left.residue right.residue with
    | .left => left.residue
    | .right => right.residue
    | .constant v => .constant v
    | .both => .compound
  | .unary .not operand =>
    match operand.residue with
    | .negation r => r
    | .constant (.bool b) => .constant (.bool !b)
    | r => .negation r
  | .unary .isNull operand =>
    match operand.residue with
    | .constant v => .constant (.bool (Value.isNull v))
    | _ => .compound
  | .unary .isNotNull operand =>
    match operand.residue with
    | .constant v => .constant (.bool !(Value.isNull v))
    | _ => .compound
  | .cast expr target _ =>
    match expr.residue with
    | .constant v => (foldLiteralCast v target).elim .compound .constant
    | _ => .compound
  | _ => .compound

/-- The form of an expression, as its residue describes it. -/
def form : Expr Q → Residue
  | .column n => .named n true
  | .literal v => .constant v
  | .aliased expr n => .named n (isErrorFree expr)
  | .unary .not operand => .negation operand.form
  | _ => .compound

variable {e : Expr Q}

/-- No expression comes down to a double negation. -/
theorem residue_ne_negation_negation (e : Expr Q) (r : Residue) :
  e.residue ≠ .negation (.negation r)
  := by
  induction e generalizing r with
  | binary op left right ihl ihr =>
    rw [residue]
    split
    · exact ihl r
    · exact ihr r
    · exact Residue.noConfusion
    · exact Residue.noConfusion
  | unary op operand ih =>
    cases op with
    | not =>
      rw [residue]
      split
      · next r' hr' =>
        rintro rfl
        exact ih _ hr'
      · exact Residue.noConfusion
      · next r' hnot _ =>
        intro h
        injection h with h
        exact hnot r h
    | isNull | isNotNull =>
      rw [residue]
      split <;> exact Residue.noConfusion
  | cast expr target safe ih =>
    rw [residue]
    split
    · cases foldLiteralCast _ target <;> exact Residue.noConfusion
    · exact Residue.noConfusion
  | _ => exact Residue.noConfusion

theorem form_eq_constant {v : Literal} :
  e.form = .constant v ↔ e = .literal v
  := by
  fun_cases form e <;> simp_all

theorem form_eq_negation {r : Residue} :
  e.form = .negation r ↔ ∃ operand : Expr Q, e = .unary .not operand ∧ operand.form = r
  := by
  fun_cases form e <;> simp_all

theorem isBoolLiteral_eq (value : Bool) (e : Expr Q) :
  isBoolLiteral value e = e.form.isBool value
  := by
  cases e with
  | literal v => cases v <;> rfl
  | unary op operand => cases op <;> rfl
  | _ => rfl

theorem isErrorFree_eq (e : Expr Q) :
  isErrorFree e = e.form.errorFree
  := by
  cases e with
  | unary op operand => cases op <;> rfl
  | _ => rfl

theorem isNullLit_eq (e : Expr Q) :
  e.isNullLit = e.form.isNull
  := by
  cases e with
  | literal v => cases v <;> rfl
  | unary op operand => cases op <;> rfl
  | _ => rfl

/-- The name an expression gives to the output that it computes. -/
def ownName (e : Expr Q) : Option String := e.form.name

end Expr

open CratonBolt.Expr (form form_eq_constant isBoolLiteral_eq isErrorFree_eq residue)

/-! ### Folded expressions -/

theorem foldConstants_eq_some {op : BinaryOp} {left right : Expr Q} {v : Literal} :
  foldConstants op left right = some v ↔
    ∃ l r, left = .literal l ∧ right = .literal r ∧ foldLiteralBinary op l r = some v
  := by
  fun_cases foldConstants op left right <;> simp_all

theorem simplifyBinary_of_unit {op : BinaryOp} {unit : Bool} (h : op.unit = some unit)
    (left right : Expr Q) :
  simplifyBinary op left right = simplifyLogical unit left right
  := by
  cases op <;> cases h <;> rfl

theorem simplifyBinary_of_unit_none {op : BinaryOp} (h : op.unit = none) (left right : Expr Q) :
  simplifyBinary op left right = none
  := by
  cases op <;> first | rfl | cases h

/-- `AND` and `OR` are computed on truth values only. -/
theorem bools_of_foldLiteralBinary {op : BinaryOp} {unit : Bool} {l r v : Literal}
    (hop : op.unit = some unit) (h : foldLiteralBinary op l r = some v) :
  ∃ a b, l = .bool a ∧ r = .bool b
  := by
  cases foldLiteralBinary_fold h with
  | and a b | or a b => exact ⟨a, b, rfl, rfl⟩
  | int32 _ _ _ _ harith | int64 _ _ _ _ harith | float32 _ _ _ harith | float64 _ _ _ harith =>
    cases op <;> cases hop <;> cases harith
  | compare _ _ _ _ _ hcompare =>
    cases op <;> cases hop <;> cases hcompare

/-- An operator on folded operands becomes what it leaves of them. -/
theorem foldBinary_eq (op : BinaryOp) (left right : Expr Q) :
  foldBinary op left right =
    match Leaves.of op left.form right.form with
    | .left => left
    | .right => right
    | .constant v => .literal v
    | .both => .binary op left right
  := by
  unfold foldBinary Leaves.of
  cases hunit : op.unit with
  | none =>
    rw [simplifyBinary_of_unit_none hunit]
    cases hfold : foldConstants op left right with
    | some v =>
      obtain ⟨l, r, rfl, rfl, hv⟩ := foldConstants_eq_some.mp hfold
      simp only [form, hv, Option.elim_some]
    | none =>
      cases hl : left.form with
      | constant a =>
        cases hr : right.form with
        | constant b =>
          rw [form_eq_constant.mp hl, form_eq_constant.mp hr] at hfold
          simp only [show foldLiteralBinary op a b = none from hfold, Option.elim_none]
        | _ => rfl
      | _ => rfl
  | some unit =>
    rw [simplifyBinary_of_unit hunit, simplifyLogical]
    simp only [isBoolLiteral_eq, isErrorFree_eq]
    by_cases hl : left.form.isBool unit = true
    · rw [if_pos hl, if_pos hl]
    by_cases hr : right.form.isBool unit = true
    · rw [if_neg hl, if_neg hl, if_pos hr, if_pos hr]
    rw [if_neg hl, if_neg hl, if_neg hr, if_neg hr]
    by_cases hl' : (left.form.isBool (!unit) && right.form.errorFree) = true
    · rw [if_pos hl', hl', Bool.true_or, if_pos rfl]
    by_cases hr' : (right.form.isBool (!unit) && left.form.errorFree) = true
    · rw [if_neg hl', if_pos hr', hr', Bool.or_true, if_pos rfl]
    rw [if_neg hl', if_neg hr', if_neg (by simp [hl', hr'])]
    -- two truth values are not left to the operators on constants
    cases hfold : foldConstants op left right with
    | none => rfl
    | some v =>
      obtain ⟨l, r, rfl, rfl, hv⟩ := foldConstants_eq_some.mp hfold
      obtain ⟨a, b, rfl, rfl⟩ := bools_of_foldLiteralBinary hunit hv
      refine absurd ?_ hl'
      simpa [form, Residue.isBool, Residue.errorFree, Bool.eq_not] using hl

/-- A folded expression has the form that the residue of the expression says. -/
theorem form_foldExpr (e : Expr Q) :
  (foldExpr e).form = e.residue
  := by
  induction e with
  | binary op left right ihl ihr =>
    rw [foldExpr, foldBinary_eq, residue, ihl, ihr]
    split <;> first | exact ihl | exact ihr | rfl
  | unary op operand ih =>
    rw [foldExpr]
    cases op with
    | not =>
      rw [residue, ← ih]
      cases hop : foldExpr operand with
      | literal v => cases v <;> rfl
      | unary op' inner => cases op' <;> rfl
      | _ => rfl
    | isNull | isNotNull =>
      rw [residue, ← ih]
      cases hop : foldExpr operand with
      | unary op' inner => cases op' <;> rfl
      | _ => rfl
  | cast expr target safe ih =>
    rw [foldExpr, residue, ← ih]
    cases hop : foldExpr expr with
    | literal v =>
      simp only [foldCast, foldConstantCast, form]
      cases foldLiteralCast v target <;> rfl
    | unary op' inner => cases op' <;> rfl
    | _ => rfl
  | aliased expr name ih => rw [foldExpr, form, isErrorFree_eq, ih, residue]
  | _ => rfl

end CratonBolt
