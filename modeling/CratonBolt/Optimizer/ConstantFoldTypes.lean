import CratonBolt.Optimizer.ConstantFoldResidue

/-!
# Types of folded expressions

What is left of an expression has the type of the expression, or none: a bare `NULL` that comes to
the surface has no type of its own, and what is left may be nested deeper than the type checker
goes, because it counts from the start again below every binary operator. `Expr.staysTyped` says,
by recursion on the expression, when neither happens.
-/

namespace CratonBolt

open Outcome List
open CratonBolt.Expr (dtypeDepth form residue)

variable {Q : Type}

/-! ### What is left of an expression is typed -/

section Definitions

variable (sub : Q → Nat → BoltResult Schema) (s : Schema)

mutual

/-- What is left of a well-typed expression has a type, checked from the given depth. -/
@[simp]
def Expr.staysTyped : Expr Q → Nat → Bool
  | .literal v, depth => !Value.isNull v && decide (depth ≤ maxRecursionDepth)
  | .column _, depth => decide (depth ≤ maxRecursionDepth)
  | .binary op left right, depth =>
    match Leaves.of op left.residue right.residue with
    | .left => left.staysTyped depth
    | .right => right.staysTyped depth
    | .constant _ => decide (depth ≤ maxRecursionDepth)
    | .both =>
      -- a bare `NULL` takes the type of the other operand
      decide (depth ≤ maxRecursionDepth) && !(left.residue.isNull && right.residue.isNull) &&
        (left.residue.isNull || left.staysTyped 0) && (right.residue.isNull || right.staysTyped 0)
  | .unary .not operand, depth =>
    match operand.residue with
    | .negation _ => operand.staysTypedBelowNot depth
    | .constant (.bool _) => decide (depth ≤ maxRecursionDepth)
    | r => decide (depth ≤ maxRecursionDepth) && (r.isNull || operand.staysTyped (depth + 1))
  | .unary .isNull operand, depth | .unary .isNotNull operand, depth =>
    match operand.residue with
    | .constant _ => decide (depth ≤ maxRecursionDepth)
    | _ => decide (depth ≤ maxRecursionDepth) && operand.staysTyped (depth + 1)
  | .case branches elseBranch, depth =>
    decide (depth ≤ maxRecursionDepth) && whensStayTyped branches (depth + 1) &&
      thensStayTyped branches (depth + 1) && elseStaysTyped elseBranch (depth + 1) &&
      (branches.any (fun b => !b.2.residue.isNull) || elseBranch.any (fun e => !e.residue.isNull))
  | .like expr _ _ _ _, depth | .aliased expr _, depth =>
    decide (depth ≤ maxRecursionDepth) && expr.staysTyped (depth + 1)
  | .cast expr target safe, depth =>
    decide (depth ≤ maxRecursionDepth) &&
      (decide ((Expr.cast expr target safe).residue ≠ .compound) || expr.residue.isNull ||
        expr.staysTyped (depth + 1))
  | .scalarFn _ args, depth =>
    decide (depth ≤ maxRecursionDepth) && argsStayTyped args (depth + 1)
  | .extract field expr, depth => (dtypeDepth sub s (.extract field expr) depth).isOk
  | .dateTrunc unit expr, depth => (dtypeDepth sub s (.dateTrunc unit expr) depth).isOk
  | .scalarSubquery plan, depth => (dtypeDepth sub s (.scalarSubquery plan) depth).isOk
  | .inSubquery expr subquery negated, depth =>
    (dtypeDepth sub s (.inSubquery expr subquery negated) depth).isOk
  | .castFormat expr target pattern toText, depth =>
    (dtypeDepth sub s (.castFormat expr target pattern toText) depth).isOk

/-- What is left below the `NOT` that an expression comes down to has a type. -/
def Expr.staysTypedBelowNot : Expr Q → Nat → Bool
  | .unary .not operand, depth => operand.staysTyped depth
  | .binary op left right, depth =>
    match Leaves.of op left.residue right.residue with
    | .left => left.staysTypedBelowNot depth
    | _ => right.staysTypedBelowNot depth
  | _, _ => false

def whensStayTyped : List (Expr Q × Expr Q) → Nat → Bool
  | [], _ => true
  | (w, _) :: branches, depth => w.staysTyped depth && whensStayTyped branches depth

def thensStayTyped : List (Expr Q × Expr Q) → Nat → Bool
  | [], _ => true
  | (_, t) :: branches, depth =>
    (t.residue.isNull || t.staysTyped depth) && thensStayTyped branches depth

def elseStaysTyped : Option (Expr Q) → Nat → Bool
  | none, _ => true
  | some e, depth => e.residue.isNull || e.staysTyped depth

def argsStayTyped : List (Expr Q) → Nat → Bool
  | [], _ => true
  | a :: args, depth => a.staysTyped depth && argsStayTyped args depth

end

end Definitions

/-! ### Types at different depths -/

/-- A subquery has the same columns from wherever it is checked. -/
def Settled (sub : Q → Nat → BoltResult Schema) : Prop := ∀ q d d', Agree (sub q d) (sub q d')

section Depth

variable {sub : Q → Nat → BoltResult Schema} {s : Schema} {branches : List (Expr Q × Expr Q)}
variable {d d' : Nat}

theorem agree_checkWhens {i : Nat} :
  Agree (checkWhens sub s d branches i) (checkWhens sub s d' branches i)
  := fun _ _ _ _ => rfl

theorem agree_thenDtypes
    (h : ∀ b ∈ branches, Agree (b.2.dtypeDepth sub s d) (b.2.dtypeDepth sub s d')) :
  Agree (thenDtypes sub s d branches) (thenDtypes sub s d' branches)
  := by
  induction branches with
  | nil => exact Agree.refl _
  | cons b branches ih =>
    rw [forall_mem_cons] at h
    exact ((Agree.refl _).ite (h.1.map _)).bind
      (fun _ => (ih h.2).bind (fun _ => Agree.refl _))

theorem agree_argDtypes {args : List (Expr Q)}
    (h : ∀ a ∈ args, Agree (a.dtypeDepth sub s d) (a.dtypeDepth sub s d')) :
  Agree (argDtypes sub s d args) (argDtypes sub s d' args)
  := by
  induction args with
  | nil => exact Agree.refl _
  | cons a args ih =>
    rw [forall_mem_cons] at h
    exact h.1.bind (fun _ => (ih h.2).bind (fun _ => Agree.refl _))

/-- An expression has one type, from whatever depth it is checked. -/
theorem agree_dtypeDepth (hsub : Settled sub) (e : Expr Q) (d d' : Nat) :
  Agree (e.dtypeDepth sub s d) (e.dtypeDepth sub s d')
  := by
  induction e generalizing d d' with
  | column _ | literal _ | binary _ _ _ _ _ =>
    rw [dtypeDepth, dtypeDepth]
    exact (Agree.refl _).unless
  | unary op operand ih =>
    cases op with
    | not =>
      rw [dtypeDepth, dtypeDepth]
      exact ((Agree.refl _).ite ((ih _ _).bind (fun _ => Agree.refl _))).unless
    | isNull | isNotNull =>
      rw [dtypeDepth, dtypeDepth]
      exact ((Agree.refl _).ite ((ih _ _).map _)).unless
  | case branches elseBranch ihb ihe =>
    rw [dtypeDepth, dtypeDepth]
    refine Agree.unless ((Agree.refl _).ite (agree_checkWhens.bind (fun _ =>
      (agree_thenDtypes (fun b hb => (ihb b hb).2 _ _)).bind (fun _ => Agree.bind ?_
        (fun _ => Agree.refl _)))))
    cases elseBranch with
    | none => exact Agree.refl _
    | some e => exact Agree.map ((Agree.refl _).ite ((ihe e rfl _ _).map _)) _
  | scalarFn kind args ih =>
    rw [dtypeDepth, dtypeDepth]
    exact ((agree_argDtypes (fun a ha => ih a ha _ _)).bind (fun _ => Agree.refl _)).unless
  | scalarSubquery plan =>
    rw [dtypeDepth, dtypeDepth]
    exact ((hsub plan _ _).bind (fun _ => Agree.refl _)).unless
  | inSubquery expr subquery negated ih =>
    rw [dtypeDepth, dtypeDepth]
    exact ((hsub subquery _ _).bind (fun _ => (Agree.refl _).bind (fun _ =>
      (Agree.refl _).ite ((ih _ _).bind (fun _ => Agree.refl _))))).unless
  | cast expr _ _ ih | castFormat expr _ _ _ ih =>
    rw [dtypeDepth, dtypeDepth]
    exact ((Agree.refl _).ite ((ih _ _).bind (fun _ => Agree.refl _))).unless
  | like expr _ _ _ _ ih | extract _ expr ih | dateTrunc _ expr ih =>
    rw [dtypeDepth, dtypeDepth]
    exact ((ih _ _).bind (fun _ => Agree.refl _)).unless
  | aliased expr _ ih =>
    rw [dtypeDepth, dtypeDepth]
    exact (ih _ _).unless

/-- A part of a plan that is left alone is typed as it was, if it is typed. -/
theorem okIf_dtypeDepth (hsub : Settled sub) {e : Expr Q} {t : DataType}
    (h : e.dtypeDepth sub s d = .ok t) (d' : Nat) :
  OkIf ((e.dtypeDepth sub s d').isOk = true) (e.dtypeDepth sub s d') t
  := by
  intro u
  constructor
  · intro hu
    exact ⟨by rw [hu]; rfl, agree_dtypeDepth hsub e d' d u t hu h⟩
  · rintro ⟨hok, rfl⟩
    cases hu : e.dtypeDepth sub s d' with
    | error err =>
      rw [hu] at hok
      cases hok
    | ok t => rw [agree_dtypeDepth hsub e d' d t _ hu h]

end Depth

/-! ### Operands -/

section Operands

variable {sub : Q → Nat → BoltResult Schema} {s : Schema} {e peer left right : Expr Q}
variable {op : BinaryOp} {t u lt rt : DataType} {d : Nat}

theorem dtypeDepth_literal_eq_ok {v : Literal} :
  (Expr.literal v : Expr Q).dtypeDepth sub s d = .ok t ↔
    d ≤ maxRecursionDepth ∧ v.dtype = some t
  := by
  rw [dtypeDepth]
  by_cases hd : d > maxRecursionDepth
  · rw [if_pos hd]
    simp only [reduceCtorEq, false_iff]
    omega
  · rw [if_neg hd]
    cases v.dtype <;> simp [Nat.not_lt.mp hd]

theorem eq_null_of_isNullLit (h : e.isNullLit = true) :
  e = .literal .null
  := by
  unfold Expr.isNullLit at h
  split at h
  · rfl
  · cases h

theorem not_ok_of_isNullLit (h : e.isNullLit = true) (t : DataType) :
  e.dtypeDepth sub s d ≠ .ok t
  := by
  rw [eq_null_of_isNullLit h]
  intro ht
  cases (dtypeDepth_literal_eq_ok.mp ht).2

/-- The type an operand has beside its peer, which a bare `NULL` takes its type from. -/
def OperandTyped (sub : Q → Nat → BoltResult Schema) (s : Schema) (e peer : Expr Q)
    (t : DataType) : Prop :=
  (if e.isNullLit then peer else e).dtypeDepth sub s 0 = .ok t

theorem peerTypedDtype_iff :
  peerTypedDtype e.isNullLit (e.dtypeDepth sub s 0) (peer.dtypeDepth sub s 0) = .ok t ↔
    OperandTyped sub s e peer t
  := by
  unfold peerTypedDtype OperandTyped
  by_cases hn : e.isNullLit = true
  · rw [if_pos hn, if_pos hn]
    cases hp : peer.dtypeDepth sub s 0 with
    | ok u => rfl
    | error err => exact iff_of_false (not_ok_of_isNullLit hn t) (by simp)
  · rw [if_neg hn, if_neg hn]

theorem dtypeDepth_binary_eq_ok :
  (Expr.binary op left right).dtypeDepth sub s d = .ok t ↔
    d ≤ maxRecursionDepth ∧ ∃ lt rt, OperandTyped sub s left right lt ∧
      OperandTyped sub s right left rt ∧ binaryDtype op lt rt = .ok t
  := by
  rw [dtypeDepth]
  by_cases hd : d > maxRecursionDepth
  · rw [if_pos hd]
    simp only [reduceCtorEq, false_iff]
    omega
  · rw [if_neg hd, and_iff_right (Nat.not_lt.mp hd)]
    simp only [bind_eq_ok, peerTypedDtype_iff]
    constructor
    · rintro ⟨lt, hl, rt, hr, h⟩
      exact ⟨lt, rt, hl, hr, h⟩
    · rintro ⟨lt, rt, hl, hr, h⟩
      exact ⟨lt, hl, rt, hr, h⟩

/-- `AND` and `OR` are operators on truth values. -/
theorem bools_of_unit {unit : Bool} (hop : op.unit = some unit) (h : binaryDtype op lt rt = .ok t) :
  lt = .bool ∧ rt = .bool ∧ t = .bool
  := by
  cases op <;> cases hop <;>
  · simp only [binaryDtype, BinaryOp.isArithmetic, BinaryOp.isComparison, BinaryOp.isLogical,
      Bool.false_eq_true, if_false, if_true, guard_eq_ok, Bool.and_eq_true, beq_iff_eq] at h
    exact ⟨h.1.1, h.1.2, h.2.symm⟩

/-- A truth value is combined with truth values only. -/
theorem eq_bool_of_binaryDtype
    (h : binaryDtype op .bool u = .ok t ∨ binaryDtype op u .bool = .ok t) :
  u = .bool
  := by
  cases u with
  | bool => rfl
  | _ => cases op <;> obtain h | h := h <;> cases h

variable {l r : Residue}

/-- One operand is left of `AND` and `OR` only. -/
theorem exists_unit (h : Leaves.of op l r = .left ∨ Leaves.of op l r = .right) :
  ∃ unit, op.unit = some unit
  := by
  cases hop : op.unit with
  | some unit => exact ⟨unit, rfl⟩
  | none =>
    simp only [Leaves.of, hop] at h
    revert h
    split
    · cases foldLiteralBinary op _ _ <;> simp
    · simp

/-- A constant is left of an operator on truth values, or on two constants. -/
theorem leaves_eq_constant {v : Literal} (h : Leaves.of op l r = .constant v) :
  (∃ unit, op.unit = some unit ∧ v = .bool (!unit)) ∨
    ∃ a b, l = .constant a ∧ r = .constant b ∧ foldLiteralBinary op a b = some v
  := by
  unfold Leaves.of at h
  cases hop : op.unit with
  | some unit =>
    rw [hop] at h
    simp only at h
    split at h
    · cases h
    split at h
    · cases h
    split at h
    · cases h
      exact .inl ⟨unit, rfl, rfl⟩
    · cases h
  | none =>
    rw [hop] at h
    simp only at h
    split at h
    · next a b =>
      cases hv : foldLiteralBinary op a b with
      | none =>
        rw [hv] at h
        cases h
      | some w =>
        rw [hv] at h
        cases h
        exact .inr ⟨a, b, rfl, rfl, hv⟩
    · cases h

theorem dtypeDepth_unary_eq_bool {op : UnaryOp} {operand : Expr Q}
    (h : (Expr.unary op operand).dtypeDepth sub s d = .ok t) :
  t = .bool
  := by
  cases op with
  | not =>
    rw [dtypeDepth] at h
    split at h
    · cases h
    split at h
    · cases h
      rfl
    · obtain ⟨u, -, hu⟩ := bind_eq_ok.mp h
      exact (guard_eq_ok.mp hu).2.symm
  | isNull | isNotNull =>
    rw [dtypeDepth] at h
    split at h
    · cases h
    split at h
    · cases h
      rfl
    · obtain ⟨u, -, rfl⟩ := map_eq_ok.mp h
      rfl

/-- A typed expression that comes down to a bare `NULL` is a truth value. -/
theorem eq_bool_of_isNull (hn : e.residue.isNull = true) (h : e.dtypeDepth sub s d = .ok t) :
  t = .bool
  := by
  cases e with
  | literal v => exact absurd h (not_ok_of_isNullLit (by rwa [Expr.isNullLit_eq]) t)
  | binary op left right =>
    obtain ⟨-, lt, rt, -, -, hop⟩ := dtypeDepth_binary_eq_ok.mp h
    rw [residue] at hn
    split at hn
    · next hleaves =>
      obtain ⟨unit, hunit⟩ := exists_unit (.inl hleaves)
      exact (bools_of_unit hunit hop).2.2
    · next hleaves =>
      obtain ⟨unit, hunit⟩ := exists_unit (.inr hleaves)
      exact (bools_of_unit hunit hop).2.2
    · next hleaves =>
      obtain ⟨unit, -, rfl⟩ | ⟨a, b, -, -, hv⟩ := leaves_eq_constant hleaves
      · cases hn
      · obtain ⟨t, u, -, -, hv, -⟩ := (foldLiteralBinary_fold hv).dtype
        rw [Residue.isNull_constant, isNull_of_dtype hv] at hn
        cases hn
    · cases hn
  | unary op operand => exact dtypeDepth_unary_eq_bool h
  | cast expr target safe =>
    rw [residue] at hn
    split at hn
    · next v hv =>
      cases hcast : foldLiteralCast v target with
      | none =>
        rw [hcast] at hn
        cases hn
      | some w =>
        rw [hcast, Option.elim_some, Residue.isNull_constant,
          isNull_of_dtype (foldLiteralCast_lossless hcast).1] at hn
        cases hn
    · cases hn
  | _ => cases hn

/-- The type beside a bare `NULL` is also that of the `NULL`. -/
theorem binaryDtype_of_isNull (hn : left.residue.isNull = true) (hr : right.isNullLit = false)
    (hl : OperandTyped sub s left right lt) (hr' : OperandTyped sub s right left rt)
    (hop : binaryDtype op lt rt = .ok t ∨ binaryDtype op rt lt = .ok t) :
  binaryDtype op rt rt = .ok t
  := by
  unfold OperandTyped at hl hr'
  rw [if_neg (by simp [hr])] at hr'
  by_cases hlit : left.isNullLit = true
  · rw [if_pos hlit, hr', Except.ok.injEq] at hl
    subst hl
    simpa using hop
  · rw [if_neg hlit] at hl
    obtain rfl := eq_bool_of_isNull hn hl
    obtain rfl := eq_bool_of_binaryDtype hop
    simpa using hop

/-! ### What is left has the type of the expression -/

/--
If the expression has a type, what is left of it has the same one exactly if it stays typed, and so
has what is left below the `NOT` that the expression comes down to.
-/
structure FoldsTyped (sub : Q → Nat → BoltResult Schema) (s : Schema) (e : Expr Q) : Prop where
  top : ∀ {d t}, e.dtypeDepth sub s d = .ok t → ∀ d',
    OkIf (e.staysTyped sub s d' = true) ((foldExpr e).dtypeDepth sub s d') t
  belowNot : ∀ {d t}, e.dtypeDepth sub s d = .ok t → ∀ operand,
    foldExpr e = .unary .not operand → ∀ d',
      OkIf (e.staysTypedBelowNot sub s d' = true) (operand.dtypeDepth sub s d') .bool

theorem residue_of_foldExpr {operand : Expr Q} (h : foldExpr e = .unary .not operand) :
  e.residue = .negation operand.form
  := by
  rw [← form_foldExpr, h]
  rfl

theorem isNullLit_foldExpr (e : Expr Q) :
  (foldExpr e).isNullLit = e.residue.isNull
  := by
  rw [Expr.isNullLit_eq, form_foldExpr]

theorem not_isNullLit_of_residue (h : e.residue.isNull = false) :
  e.isNullLit = false
  := by
  rw [Bool.eq_false_iff]
  intro hn
  rw [eq_null_of_isNullLit hn] at h
  cases h

/-- A bare `NULL` has no type of its own, whatever it is an operand of. -/
theorem okIf_of_isNullLit (h : e.isNullLit = true) (d : Nat) (t : DataType) :
  OkIf (e.staysTyped sub s d = true) ((foldExpr e).dtypeDepth sub s d) t
  := by
  rw [eq_null_of_isNullLit h]
  intro u
  refine iff_of_false (not_ok_of_isNullLit rfl u) ?_
  simp [Value.isNull]

theorem FoldsTyped.operand (h : FoldsTyped sub s e) (ht : OperandTyped sub s e peer t) (d : Nat) :
  OkIf (e.staysTyped sub s d = true) ((foldExpr e).dtypeDepth sub s d) t
  := by
  by_cases hn : e.isNullLit = true
  · exact okIf_of_isNullLit hn d t
  · rw [OperandTyped, if_neg hn] at ht
    exact h.top ht d

theorem FoldsTyped.operand_belowNot {operand : Expr Q} (h : FoldsTyped sub s e)
    (ht : OperandTyped sub s e peer t) (hfold : foldExpr e = .unary .not operand) (d : Nat) :
  OkIf (e.staysTypedBelowNot sub s d = true) (operand.dtypeDepth sub s d) .bool
  := by
  have hn : ¬ e.isNullLit = true := by
    intro hn
    rw [eq_null_of_isNullLit hn] at hfold
    cases hfold
  rw [OperandTyped, if_neg hn] at ht
  exact h.belowNot ht operand hfold d

/-- An operator whose two operands are left. -/
theorem okIf_both (hl : FoldsTyped sub s left) (hr : FoldsTyped sub s right)
    (hlt : OperandTyped sub s left right lt) (hrt : OperandTyped sub s right left rt)
    (hop : binaryDtype op lt rt = .ok t) (d : Nat) :
  OkIf ((decide (d ≤ maxRecursionDepth) && !(left.residue.isNull && right.residue.isNull) &&
      (left.residue.isNull || left.staysTyped sub s 0) &&
      (right.residue.isNull || right.staysTyped sub s 0)) = true)
    ((Expr.binary op (foldExpr left) (foldExpr right)).dtypeDepth sub s d) t
  := by
  intro u
  have hleft := hl.operand hlt 0
  have hright := hr.operand hrt 0
  rw [dtypeDepth_binary_eq_ok]
  simp only [OperandTyped, isNullLit_foldExpr]
  cases hln : left.residue.isNull with
  | false =>
    have hlit : left.isNullLit = false := not_isNullLit_of_residue hln
    cases hrn : right.residue.isNull with
    | false =>
      constructor
      · rintro ⟨hd, lt', rt', hl', hr', hu⟩
        obtain ⟨hsl, rfl⟩ := (hleft _).mp hl'
        obtain ⟨hsr, rfl⟩ := (hright _).mp hr'
        rw [hop, Except.ok.injEq] at hu
        exact ⟨by simp [hd, hsl, hsr], hu.symm⟩
      · rintro ⟨h, rfl⟩
        obtain ⟨⟨hd, hsl⟩, hsr⟩ : (d ≤ maxRecursionDepth ∧ left.staysTyped sub s 0 = true) ∧
            right.staysTyped sub s 0 = true := by simpa using h
        exact ⟨hd, lt, rt, (hleft _).mpr ⟨hsl, rfl⟩, (hright _).mpr ⟨hsr, rfl⟩, hop⟩
    | true =>
      have hop' := binaryDtype_of_isNull hrn hlit hrt hlt (.inr hop)
      constructor
      · rintro ⟨hd, lt', rt', hl', hr', hu⟩
        obtain ⟨hsl, rfl⟩ := (hleft _).mp hl'
        obtain ⟨-, rfl⟩ := (hleft _).mp hr'
        rw [hop', Except.ok.injEq] at hu
        exact ⟨by simp [hd, hsl], hu.symm⟩
      · rintro ⟨h, rfl⟩
        obtain ⟨hd, hsl⟩ : d ≤ maxRecursionDepth ∧ left.staysTyped sub s 0 = true := by
          simpa using h
        exact ⟨hd, lt, lt, (hleft _).mpr ⟨hsl, rfl⟩, (hleft _).mpr ⟨hsl, rfl⟩, hop'⟩
  | true =>
    cases hrn : right.residue.isNull with
    | false =>
      have hop' := binaryDtype_of_isNull hln (not_isNullLit_of_residue hrn) hlt hrt (.inl hop)
      constructor
      · rintro ⟨hd, lt', rt', hl', hr', hu⟩
        obtain ⟨hsr, rfl⟩ := (hright _).mp hr'
        obtain ⟨-, rfl⟩ := (hright _).mp hl'
        rw [hop', Except.ok.injEq] at hu
        exact ⟨by simp [hd, hsr], hu.symm⟩
      · rintro ⟨h, rfl⟩
        obtain ⟨hd, hsr⟩ : d ≤ maxRecursionDepth ∧ right.staysTyped sub s 0 = true := by
          simpa using h
        exact ⟨hd, rt, rt, (hright _).mpr ⟨hsr, rfl⟩, (hright _).mpr ⟨hsr, rfl⟩, hop'⟩
    | true =>
      refine iff_of_false ?_ (by simp)
      rintro ⟨-, lt', rt', hl', -⟩
      exact not_ok_of_isNullLit ((isNullLit_foldExpr right).trans hrn) lt' hl'

theorem okIf_literal {v : Literal} (h : v.dtype = some t) (d : Nat) :
  OkIf (decide (d ≤ maxRecursionDepth) = true) ((Expr.literal v : Expr Q).dtypeDepth sub s d) t
  := by
  intro u
  rw [dtypeDepth_literal_eq_ok, h]
  simp [eq_comm]

/-- An operand that comes down to a constant has the type of the constant. -/
theorem FoldsTyped.eq_of_constant {v : Literal} (h : FoldsTyped sub s e)
    (ht : OperandTyped sub s e peer t) (hv : e.residue = .constant v) (hu : v.dtype = some u) :
  u = t
  := by
  have hfold : foldExpr e = .literal v := by
    rw [← Expr.form_eq_constant, form_foldExpr, hv]
  have hok := h.operand ht 0 u
  rw [hfold, dtypeDepth_literal_eq_ok] at hok
  exact (hok.mp ⟨Nat.zero_le _, hu⟩).2

/-- A constant that is left of an operator has the type of the operator. -/
theorem dtype_of_leaves {v : Literal} (hl : FoldsTyped sub s left) (hr : FoldsTyped sub s right)
    (hlt : OperandTyped sub s left right lt) (hrt : OperandTyped sub s right left rt)
    (hop : binaryDtype op lt rt = .ok t)
    (h : Leaves.of op left.residue right.residue = .constant v) :
  v.dtype = some t
  := by
  obtain ⟨unit, hunit, rfl⟩ | ⟨a, b, ha, hb, hv⟩ := leaves_eq_constant h
  · obtain ⟨-, -, rfl⟩ := bools_of_unit hunit hop
    rfl
  · obtain ⟨u, w, hau, hbu, hvw, hw⟩ := (foldLiteralBinary_fold hv).dtype
    obtain rfl := hl.eq_of_constant hlt ha hau
    obtain rfl := hr.eq_of_constant hrt hb hbu
    rw [hw, Except.ok.injEq] at hop
    rw [hvw, hop]

/-- What is left of an operator is typed as its operands are. -/
theorem FoldsTyped.binary (hl : FoldsTyped sub s left) (hr : FoldsTyped sub s right) :
  FoldsTyped sub s (.binary op left right)
  := by
  constructor
  · intro d t ht d'
    obtain ⟨-, lt, rt, hlt, hrt, hop⟩ := dtypeDepth_binary_eq_ok.mp ht
    rw [foldExpr, foldBinary_eq, form_foldExpr, form_foldExpr, Expr.staysTyped]
    cases hleaves : Leaves.of op left.residue right.residue with
    | left =>
      obtain ⟨unit, hunit⟩ := exists_unit (.inl hleaves)
      obtain ⟨rfl, -, rfl⟩ := bools_of_unit hunit hop
      exact hl.operand hlt d'
    | right =>
      obtain ⟨unit, hunit⟩ := exists_unit (.inr hleaves)
      obtain ⟨-, rfl, rfl⟩ := bools_of_unit hunit hop
      exact hr.operand hrt d'
    | constant v =>
      exact okIf_literal (dtype_of_leaves hl hr hlt hrt hop hleaves) d'
    | both => exact okIf_both hl hr hlt hrt hop d'
  · intro d t ht operand hfold d'
    obtain ⟨-, lt, rt, hlt, hrt, hop⟩ := dtypeDepth_binary_eq_ok.mp ht
    rw [foldExpr, foldBinary_eq, form_foldExpr, form_foldExpr] at hfold
    rw [Expr.staysTypedBelowNot]
    cases hleaves : Leaves.of op left.residue right.residue with
    | left =>
      rw [hleaves] at hfold
      exact hl.operand_belowNot hlt hfold d'
    | right =>
      rw [hleaves] at hfold
      exact hr.operand_belowNot hrt hfold d'
    | constant v =>
      rw [hleaves] at hfold
      cases hfold
    | both =>
      rw [hleaves] at hfold
      cases hfold

theorem dtypeDepth_not_eq_ok {operand : Expr Q} :
  (Expr.unary .not operand).dtypeDepth sub s d = .ok t ↔
    d ≤ maxRecursionDepth ∧
      (operand.isNullLit = true ∨ operand.dtypeDepth sub s (d + 1) = .ok .bool) ∧ t = .bool
  := by
  rw [dtypeDepth]
  by_cases hd : d > maxRecursionDepth
  · rw [if_pos hd]
    simp only [reduceCtorEq, false_iff]
    omega
  rw [if_neg hd, and_iff_right (Nat.not_lt.mp hd)]
  by_cases hn : operand.isNullLit = true
  · simp [hn, eq_comm]
  · rw [if_neg hn, bind_eq_ok, or_iff_right hn]
    constructor
    · rintro ⟨u, hu, hnot⟩
      obtain ⟨rfl, rfl⟩ := guard_eq_ok.mp hnot
      exact ⟨hu, rfl⟩
    · rintro ⟨hu, rfl⟩
      exact ⟨.bool, hu, rfl⟩

theorem foldUnary_not {operand : Expr Q} (hnot : ∀ r, operand.form ≠ .negation r)
    (hbool : ∀ b, operand.form ≠ .constant (.bool b)) :
  foldUnary .not operand = .unary .not operand
  := by
  cases operand with
  | literal v =>
    cases v with
    | bool b => exact absurd rfl (hbool b)
    | _ => rfl
  | unary op inner =>
    cases op with
    | not => exact absurd rfl (hnot inner.form)
    | isNull | isNotNull => rfl
  | _ => rfl

/-- What is left of a negation is typed as its operand is. -/
theorem FoldsTyped.not {operand : Expr Q} (h : FoldsTyped sub s operand) :
  FoldsTyped sub s (.unary .not operand)
  := by
  have hoperand : ∀ {d t}, (Expr.unary .not operand).dtypeDepth sub s d = .ok t → ∀ d',
      OkIf (operand.staysTyped sub s d' = true) ((foldExpr operand).dtypeDepth sub s d') .bool := by
    intro d t ht d'
    obtain ⟨-, hn | ho, -⟩ := dtypeDepth_not_eq_ok.mp ht
    · exact okIf_of_isNullLit hn d' .bool
    · exact h.top ho d'
  constructor
  · intro d t ht d'
    obtain ⟨-, ho, rfl⟩ := dtypeDepth_not_eq_ok.mp ht
    rw [foldExpr, Expr.staysTyped]
    split
    · next r hr =>
      obtain ⟨inner, hinner, -⟩ := Expr.form_eq_negation.mp ((form_foldExpr operand).trans hr)
      have hn : ¬ operand.isNullLit = true := by
        intro hn
        rw [eq_null_of_isNullLit hn] at hr
        cases hr
      rw [hinner]
      exact h.belowNot (ho.resolve_left hn) inner hinner d'
    · next b hb =>
      rw [Expr.form_eq_constant.mp ((form_foldExpr operand).trans hb)]
      exact okIf_literal rfl d'
    · next hnot hbool =>
      rw [← form_foldExpr] at hnot hbool
      rw [foldUnary_not hnot hbool]
      intro u
      rw [dtypeDepth_not_eq_ok, isNullLit_foldExpr, (hoperand ht (d' + 1)).eq_ok]
      simp [and_assoc]
  · intro d t ht inner hfold d'
    rw [foldExpr] at hfold
    rw [Expr.staysTypedBelowNot]
    by_cases hnot : ∃ r, (foldExpr operand).form = .negation r
    · obtain ⟨r, hr⟩ := hnot
      obtain ⟨below, hbelow, rfl⟩ := Expr.form_eq_negation.mp hr
      rw [hbelow] at hfold
      rw [form_foldExpr, show below = .unary .not inner from hfold] at hr
      exact absurd hr (operand.residue_ne_negation_negation inner.form)
    by_cases hbool : ∃ b, (foldExpr operand).form = .constant (.bool b)
    · obtain ⟨b, hb⟩ := hbool
      rw [Expr.form_eq_constant.mp hb] at hfold
      cases hfold
    · rw [foldUnary_not (not_exists.mp hnot) (not_exists.mp hbool)] at hfold
      injection hfold with _ hfold
      rw [← hfold]
      exact hoperand ht d'

/-- An expression that comes down to no negation has nothing below one. -/
theorem FoldsTyped.of_top {e : Expr Q} (hnot : ∀ r, e.residue ≠ .negation r)
    (h : ∀ {d t}, e.dtypeDepth sub s d = .ok t → ∀ d',
      OkIf (e.staysTyped sub s d' = true) ((foldExpr e).dtypeDepth sub s d') t) :
  FoldsTyped sub s e
  := ⟨h, fun _ operand hfold => absurd (residue_of_foldExpr hfold) (hnot operand.form)⟩

/-- A check of the depth comes before the type of what is below. -/
theorem okIf_below {x : BoltResult DataType} {P : Bool} {err : BoltError} (h : OkIf (P = true) x t)
    (d : Nat) :
  OkIf ((decide (d ≤ maxRecursionDepth) && P) = true)
    (if d > maxRecursionDepth then .error err else x) t
  := h.unless.congr (by simp)

theorem dtypeDepth_eq_ok_of_unless {x : BoltResult DataType} {err : BoltError} {c : Prop}
    [Decidable c] (h : (if c then .error err else x) = .ok t) :
  x = .ok t
  := by
  split at h
  · cases h
  · exact h

/-- A check that takes a bare `NULL` as it is, and types what is no bare `NULL`. -/
theorem okIf_unlessNull {f : DataType → BoltResult DataType} (h : FoldsTyped sub s e)
    (ht : (if e.isNullLit then .ok t else e.dtypeDepth sub s d >>= f) = .ok t) (d' : Nat) :
  OkIf ((e.residue.isNull || e.staysTyped sub s d') = true)
    (if (foldExpr e).isNullLit then .ok t else (foldExpr e).dtypeDepth sub s d' >>= f) t
  := by
  rw [isNullLit_foldExpr]
  cases hn : e.residue.isNull with
  | true =>
    intro u
    simp [eq_comm]
  | false =>
    rw [not_isNullLit_of_residue hn, if_neg (by decide)] at ht
    obtain ⟨u, hu, hf⟩ := bind_eq_ok.mp ht
    rw [if_neg (by decide), Bool.false_or]
    exact (h.top hu d').bind_ok hf

/-- What is left of a test for `NULL` is typed as its operand is, or a truth value. -/
theorem FoldsTyped.isNull {operand : Expr Q} {op : UnaryOp} (hop : op ≠ .not)
    (h : FoldsTyped sub s operand) :
  FoldsTyped sub s (.unary op operand)
  := by
  apply of_top
  · intro r
    cases op with
    | not => exact absurd rfl hop
    | isNull | isNotNull =>
      rw [residue]
      split <;> exact Residue.noConfusion
  intro d t ht d'
  obtain rfl := dtypeDepth_unary_eq_bool ht
  by_cases hconst : ∃ v, operand.residue = .constant v
  · obtain ⟨v, hv⟩ := hconst
    have hfold : foldExpr operand = .literal v := by
      rw [← Expr.form_eq_constant, form_foldExpr, hv]
    cases op with
    | not => exact absurd rfl hop
    | isNull | isNotNull =>
      rw [foldExpr, hfold, Expr.staysTyped, hv]
      exact okIf_literal rfl d'
  · have hnull : operand.residue.isNull = false := by
      unfold Residue.isNull
      split
      · next hv => exact absurd ⟨_, hv⟩ hconst
      · rfl
    have hfold : foldUnary op (foldExpr operand) = .unary op (foldExpr operand) := by
      rw [← form_foldExpr] at hconst
      cases hoperand : foldExpr operand with
      | literal v =>
        rw [hoperand] at hconst
        exact absurd ⟨v, rfl⟩ hconst
      | _ => cases op <;> first | rfl | exact absurd rfl hop
    rw [foldExpr, hfold]
    cases op with
    | not => exact absurd rfl hop
    | isNull | isNotNull =>
      rw [dtypeDepth] at ht ⊢
      simp only [isNullLit_foldExpr, hnull, not_isNullLit_of_residue hnull, Bool.false_eq_true,
        if_false] at ht ⊢
      obtain ⟨u, hu, -⟩ := map_eq_ok.mp (dtypeDepth_eq_ok_of_unless ht)
      rw [Expr.staysTyped]
      split
      · next v hv => exact absurd ⟨v, hv⟩ hconst
      · exact okIf_below ((h.top hu (d' + 1)).map (fun _ => .bool)) d'

theorem foldConstantCast_eq (expr : Expr Q) (target : DataType) (safe : Bool) :
  (∃ v, v.dtype = some target ∧ foldExpr (.cast expr target safe) = .literal v ∧
      (Expr.cast expr target safe).residue = .constant v) ∨
    (foldExpr (.cast expr target safe) = .cast (foldExpr expr) target safe ∧
      (Expr.cast expr target safe).residue = .compound)
  := by
  rw [foldExpr, residue, ← form_foldExpr, foldCast]
  cases hfold : foldExpr expr with
  | literal v =>
    simp only [foldConstantCast, form]
    cases hcast : foldLiteralCast v target with
    | none => exact .inr ⟨rfl, rfl⟩
    | some w => exact .inl ⟨w, (foldLiteralCast_lossless hcast).1, rfl, rfl⟩
  | unary op operand => cases op <;> exact .inr ⟨rfl, rfl⟩
  | _ => exact .inr ⟨rfl, rfl⟩

theorem FoldsTyped.cast {expr : Expr Q} {target : DataType} {safe : Bool}
    (h : FoldsTyped sub s expr) :
  FoldsTyped sub s (.cast expr target safe)
  := by
  have htarget : ∀ {d t}, (Expr.cast expr target safe).dtypeDepth sub s d = .ok t → t = target := by
    intro d t ht
    rw [dtypeDepth] at ht
    have ht := dtypeDepth_eq_ok_of_unless ht
    split at ht
    · cases ht
      rfl
    · obtain ⟨u, -, hu⟩ := bind_eq_ok.mp ht
      exact (guard_eq_ok.mp hu).2.symm
  obtain ⟨v, hv, hfold, hres⟩ | ⟨hfold, hres⟩ := foldConstantCast_eq expr target safe
  · apply of_top (by simp [hres])
    intro d t ht d'
    obtain rfl := htarget ht
    rw [hfold, Expr.staysTyped, hres]
    exact (okIf_literal hv d').congr (by simp)
  · apply of_top (by simp [hres])
    intro d t ht d'
    obtain rfl := htarget ht
    rw [dtypeDepth] at ht
    rw [hfold, Expr.staysTyped, dtypeDepth]
    exact (okIf_below (okIf_unlessNull h (dtypeDepth_eq_ok_of_unless ht) (d' + 1)) d').congr
      (by simp [hres])

theorem FoldsTyped.aliased {expr : Expr Q} {name : String} (h : FoldsTyped sub s expr) :
  FoldsTyped sub s (.aliased expr name)
  := by
  apply of_top (fun _ => Residue.noConfusion)
  intro d t ht d'
  rw [dtypeDepth] at ht
  rw [foldExpr, dtypeDepth, Expr.staysTyped]
  exact okIf_below (h.top (dtypeDepth_eq_ok_of_unless ht) (d' + 1)) d'

theorem FoldsTyped.like {expr : Expr Q} {pattern : String} {escape : Option Char}
    {negated caseInsensitive : Bool} (h : FoldsTyped sub s expr) :
  FoldsTyped sub s (.like expr pattern escape negated caseInsensitive)
  := by
  apply of_top (fun _ => Residue.noConfusion)
  intro d t ht d'
  rw [dtypeDepth] at ht
  obtain ⟨u, hu, hlike⟩ := bind_eq_ok.mp (dtypeDepth_eq_ok_of_unless ht)
  rw [foldExpr, dtypeDepth, Expr.staysTyped]
  exact okIf_below ((h.top hu (d' + 1)).bind_ok hlike) d'

theorem FoldsTyped.scalarFn {kind : ScalarFnKind} {args : List (Expr Q)}
    (h : ∀ a ∈ args, FoldsTyped sub s a) :
  FoldsTyped sub s (.scalarFn kind args)
  := by
  have hargs : ∀ {d ts}, argDtypes sub s d args = .ok ts → ∀ d',
      OkIf (argsStayTyped sub s args d' = true) (argDtypes sub s d' (foldArgs args)) ts := by
    induction args with
    | nil =>
      intro d ts hts d' u
      cases hts
      simp [argDtypes, argsStayTyped, foldArgs, eq_comm]
    | cons a args ih =>
      intro d ts hts d'
      rw [forall_mem_cons] at h
      obtain ⟨t, ht, hts⟩ := bind_eq_ok.mp hts
      obtain ⟨ts', hts', hts⟩ := bind_eq_ok.mp hts
      rw [argsStayTyped]
      exact ((h.1.top ht d').bind ((ih h.2 hts' d').bind_ok hts)).congr (by simp)
  apply of_top (fun _ => Residue.noConfusion)
  intro d t ht d'
  rw [dtypeDepth] at ht
  obtain ⟨ts, hts, hfn⟩ := bind_eq_ok.mp (dtypeDepth_eq_ok_of_unless ht)
  rw [foldExpr, dtypeDepth, Expr.staysTyped]
  exact okIf_below ((hargs hts (d' + 1)).bind_ok hfn) d'

/-! ### `CASE` -/

/-- The type of an arm is kept, or it was that of a truth value that is now a bare `NULL`. -/
def ArmKept (arm arm' : Option DataType) : Prop :=
  arm' = arm ∨ (arm = some .bool ∧ arm' = none)

theorem eq_bool_of_unify {u : DataType}
    (h : unifyCaseDtypes .bool t = some u ∨ unifyCaseDtypes t .bool = some u) :
  t = .bool ∧ u = .bool
  := by
  cases t with
  | bool => obtain h | h := h <;> cases h <;> exact ⟨rfl, rfl⟩
  | _ => obtain h | h := h <;> cases h

/-- Arms that are truth values may be missing from a `CASE` that has others. -/
theorem okIf_foldCaseDtypes {arms arms' : List (Option DataType)} {acc acc' : Option DataType}
    {thens thens' i i' : Nat} (harms : Forall₂ ArmKept arms arms') (hacc : ArmKept acc acc')
    (h : foldCaseDtypes thens arms i acc = .ok t) :
  OkIf ((acc'.isSome || arms'.any Option.isSome) = true)
    (foldCaseDtypes thens' arms' i' acc') t
  := by
  induction harms generalizing acc acc' i i' with
  | nil =>
    cases acc with
    | none => cases h
    | some u =>
      cases h
      obtain rfl | ⟨-, rfl⟩ := hacc
      · intro v
        simp [foldCaseDtypes, eq_comm]
      · intro v
        simp [foldCaseDtypes]
  | @cons arm arm' arms arms' harm harms ih =>
    cases arm with
    | none =>
      obtain rfl | ⟨harm, -⟩ := harm
      · exact (ih hacc h).congr (by simp)
      · cases harm
    | some u =>
      cases acc with
      | none =>
        obtain rfl : acc' = none := by simpa [ArmKept] using hacc
        obtain rfl | ⟨hu, rfl⟩ := harm
        · exact (ih (.inl rfl) h).congr (by simp)
        · cases hu
          exact (ih (.inr ⟨rfl, rfl⟩) h).congr (by simp)
      | some prev =>
        rw [foldCaseDtypes] at h
        cases hv : unifyCaseDtypes prev u with
        | none =>
          rw [hv] at h
          cases h
        | some v =>
          rw [hv] at h
          obtain rfl | ⟨hu, rfl⟩ := harm
          · obtain rfl | ⟨hprev, rfl⟩ := hacc
            · rw [foldCaseDtypes, hv]
              exact (ih (.inl rfl) h).congr (by simp)
            · cases hprev
              obtain ⟨rfl, rfl⟩ := eq_bool_of_unify (.inl hv)
              exact (ih (.inl rfl) h).congr (by simp)
          · cases hu
            obtain ⟨rfl, rfl⟩ := eq_bool_of_unify (.inr hv)
            exact (ih hacc h).congr (by simp)

theorem okIf_checkWhens {branches : List (Expr Q × Expr Q)} {i i' : Nat}
    (hw : ∀ b ∈ branches, FoldsTyped sub s b.1) (h : checkWhens sub s d branches i = .ok ())
    (d' : Nat) :
  OkIf (whensStayTyped sub s branches d' = true)
    (checkWhens sub s d' (foldBranches branches) i') ()
  := by
  induction branches generalizing i i' with
  | nil =>
    intro _
    simp [checkWhens, foldBranches, whensStayTyped]
  | cons b branches ih =>
    rw [forall_mem_cons] at hw
    obtain ⟨t, ht, h⟩ := bind_eq_ok.mp h
    split at h
    · next hbool =>
      refine ((hw.1.top ht d').bind ?_).congr (by rw [whensStayTyped, Bool.and_eq_true])
      rw [if_pos hbool]
      exact ih hw.2 h
    · cases h

/-- The type of what is left of an arm. -/
theorem okIf_caseArmDtype {arm : Option DataType} (h : FoldsTyped sub s e)
    (harm : caseArmDtype e.isNullLit (e.dtypeDepth sub s d) = .ok arm) (d' : Nat) :
  ∃ arm', ArmKept arm arm' ∧ arm'.isSome = !e.residue.isNull ∧
    OkIf ((e.residue.isNull || e.staysTyped sub s d') = true)
      (caseArmDtype (foldExpr e).isNullLit ((foldExpr e).dtypeDepth sub s d')) arm'
  := by
  unfold caseArmDtype at harm ⊢
  rw [isNullLit_foldExpr]
  cases hn : e.residue.isNull with
  | true =>
    refine ⟨none, ?_, rfl, fun u => by simp [eq_comm]⟩
    split at harm
    · cases harm
      exact .inl rfl
    · obtain ⟨u, hu, rfl⟩ := map_eq_ok.mp harm
      exact .inr ⟨by rw [eq_bool_of_isNull hn hu], rfl⟩
  | false =>
    rw [not_isNullLit_of_residue hn, if_neg (by decide)] at harm
    obtain ⟨u, hu, rfl⟩ := map_eq_ok.mp harm
    refine ⟨some u, .inl rfl, rfl, ?_⟩
    rw [if_neg (by decide), Bool.false_or]
    exact (h.top hu d').map some

theorem okIf_thenDtypes {branches : List (Expr Q × Expr Q)} {arms : List (Option DataType)}
    (ht : ∀ b ∈ branches, FoldsTyped sub s b.2) (h : thenDtypes sub s d branches = .ok arms)
    (d' : Nat) :
  ∃ arms', Forall₂ ArmKept arms arms' ∧
    arms'.any Option.isSome = branches.any (fun b => !b.2.residue.isNull) ∧
    OkIf (thensStayTyped sub s branches d' = true)
      (thenDtypes sub s d' (foldBranches branches)) arms'
  := by
  induction branches generalizing arms with
  | nil =>
    cases h
    exact ⟨[], .nil, rfl, fun u => by simp [thenDtypes, foldBranches, thensStayTyped, eq_comm]⟩
  | cons b branches ih =>
    rw [forall_mem_cons] at ht
    obtain ⟨arm, harm, h⟩ := bind_eq_ok.mp h
    obtain ⟨rest, hrest, h⟩ := bind_eq_ok.mp h
    cases h
    obtain ⟨arm', hkept, hsome, hok⟩ := okIf_caseArmDtype ht.1 harm d'
    obtain ⟨rest', hkept', hsome', hok'⟩ := ih ht.2 hrest
    refine ⟨arm' :: rest', .cons hkept hkept', by rw [any_cons, any_cons, hsome, hsome'], ?_⟩
    have hrest' : OkIf (thensStayTyped sub s branches d' = true)
        (thenDtypes sub s d' (foldBranches branches) >>= fun arms => .ok (arm' :: arms))
        (arm' :: rest') := hok'.bind_ok rfl
    exact (hok.bind hrest').congr (by rw [thensStayTyped, Bool.and_eq_true])

theorem okIf_elseDtypes {elseBranch : Option (Expr Q)} {arms : List (Option DataType)}
    (he : ∀ e ∈ elseBranch, FoldsTyped sub s e) (h : elseDtypes sub s d elseBranch = .ok arms)
    (d' : Nat) :
  ∃ arms', Forall₂ ArmKept arms arms' ∧
    arms'.any Option.isSome = elseBranch.any (fun e => !e.residue.isNull) ∧
    OkIf (elseStaysTyped sub s elseBranch d' = true)
      (elseDtypes sub s d' (foldElse elseBranch)) arms'
  := by
  cases elseBranch with
  | none =>
    cases h
    exact ⟨[], .nil, rfl, fun u => by simp [elseDtypes, foldElse, elseStaysTyped, eq_comm]⟩
  | some e =>
    obtain ⟨arm, harm, rfl⟩ := map_eq_ok.mp h
    obtain ⟨arm', hkept, hsome, hok⟩ := okIf_caseArmDtype (he e rfl) harm d'
    exact ⟨[arm'], .cons hkept .nil, by simp [hsome], hok.map _⟩

theorem FoldsTyped.case {branches : List (Expr Q × Expr Q)} {elseBranch : Option (Expr Q)}
    (hb : ∀ b ∈ branches, FoldsTyped sub s b.1 ∧ FoldsTyped sub s b.2)
    (he : ∀ e ∈ elseBranch, FoldsTyped sub s e) :
  FoldsTyped sub s (.case branches elseBranch)
  := by
  apply of_top (fun _ => Residue.noConfusion)
  intro d t ht d'
  rw [dtypeDepth] at ht
  have ht := dtypeDepth_eq_ok_of_unless ht
  split at ht
  · cases ht
  next hempty =>
  obtain ⟨_, hwhens, ht⟩ := bind_eq_ok.mp ht
  obtain ⟨thens, hthens, ht⟩ := bind_eq_ok.mp ht
  obtain ⟨els, hels, ht⟩ := bind_eq_ok.mp ht
  have hok : OkIf (whensStayTyped sub s branches (d' + 1) = true)
      (checkWhens sub s (d' + 1) (foldBranches branches) 0) () :=
    okIf_checkWhens (fun b hmem => (hb b hmem).1) hwhens (d' + 1)
  obtain ⟨thens', hkept, hsome, hok'⟩ := okIf_thenDtypes (fun b hmem => (hb b hmem).2) hthens
    (d' + 1)
  obtain ⟨els', hkept', hsome', hok''⟩ := okIf_elseDtypes he hels (d' + 1)
  have hcase : OkIf ((Option.isSome none || (thens' ++ els').any Option.isSome) = true)
      (foldCaseDtypes thens'.length (thens' ++ els') 0 none) t :=
    okIf_foldCaseDtypes (rel_append hkept hkept') (.inl rfl) ht
  have hempty' : ¬ (foldBranches branches).isEmpty = true := by
    cases branches with
    | nil => exact absurd rfl hempty
    | cons b branches => simp [foldBranches]
  rw [foldExpr, dtypeDepth, if_neg hempty', Expr.staysTyped]
  refine (hok.bind (hok'.bind (hok''.bind hcase))).unless.congr ?_
  simp [hsome, hsome', and_assoc]

/-- What is left of an expression has its type exactly if it stays typed. -/
theorem foldsTyped (hsub : Settled sub) (e : Expr Q) :
  FoldsTyped sub s e
  := by
  induction e with
  | column name =>
    refine .of_top (fun _ => Residue.noConfusion) (fun {d t} ht d' => ?_)
    rw [dtypeDepth] at ht
    have hok : OkIf True (Except.map Field.dtype (s.field name)) t := by
      intro u
      simp only [dtypeDepth_eq_ok_of_unless ht, Except.ok.injEq, true_and, eq_comm]
    exact hok.unless.congr (by simp)
  | literal v =>
    refine .of_top (fun _ => Residue.noConfusion) (fun {d t} ht d' => ?_)
    have hv := (dtypeDepth_literal_eq_ok.mp ht).2
    rw [Expr.staysTyped, isNull_of_dtype hv]
    exact okIf_literal hv d'
  | binary op left right ihl ihr => exact ihl.binary ihr
  | unary op operand ih =>
    cases op with
    | not => exact ih.not
    | isNull | isNotNull => exact ih.isNull (by decide)
  | case branches elseBranch ihb ihe => exact .case ihb ihe
  | like expr _ _ _ _ ih => exact ih.like
  | cast expr _ _ ih => exact ih.cast
  | scalarFn kind args ih => exact .scalarFn ih
  | aliased expr _ ih => exact ih.aliased
  | extract _ _ _ | dateTrunc _ _ _ | scalarSubquery _ | inSubquery _ _ _ _
  | castFormat _ _ _ _ _ =>
    refine .of_top (fun _ => Residue.noConfusion) (fun {d t} ht d' => ?_)
    rw [foldExpr, Expr.staysTyped]
    exact okIf_dtypeDepth hsub ht d'

end Operands

end CratonBolt
