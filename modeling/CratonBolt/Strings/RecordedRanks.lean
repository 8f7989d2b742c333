import CratonBolt.Strings.DictionaryRewrite

/-!
# What rewriting records

Rewriting succeeds on the same plans whatever the dictionaries are, and records the tables of ranks
of the comparisons of the plan in the order in which the plan is walked.
-/

namespace CratonBolt.DictRewrite

open List

variable {Q : Type}

/-! ### Runs -/

/-- A rewriting succeeds when `fits` and only then; it records the given plans. -/
def Records {α : Type} (x : Rewrite α) (fits : Prop) (plans : List ColVsColRankPlan)
    (result : α → Prop) : Prop :=
  ∀ before, (fits → ∃ a, x before = .ok a (before ++ plans) ∧ result a) ∧
    (¬ fits → ∃ e after, x before = .error e after)

section Records

variable {α β : Type} {x : Rewrite α} {f f' : Prop} {plans plans' : List ColVsColRankPlan}
  {P : α → Prop} {R : β → Prop}

theorem Records.pure {a : α} (h : P a) :
  Records (pure a) True [] P
  := by
  intro before
  refine ⟨fun _ => ⟨a, by rw [append_nil]; rfl, h⟩, fun hf => absurd trivial hf⟩

theorem Records.bind {g : α → Rewrite β} (hx : Records x f plans P)
    (hg : ∀ a, P a → Records (g a) f' plans' R) :
  Records (x >>= g) (f ∧ f') (plans ++ plans') R
  := by
  intro before
  by_cases hf : f
  · obtain ⟨a, hrun, ha⟩ := (hx before).1 hf
    have hrest := hg a ha (before ++ plans)
    rw [append_assoc] at hrest
    simpa only [StateErrors.run_bind, hrun, hf, true_and] using hrest
  · obtain ⟨e, after, hrun⟩ := (hx before).2 hf
    refine ⟨fun h => absurd h.1 hf, fun _ => ⟨e, after, ?_⟩⟩
    rw [StateErrors.run_bind, hrun]

theorem Records.map {g : α → β} (hx : Records x f plans P) (hg : ∀ a, P a → R (g a)) :
  Records (do let a ← x; Pure.pure (g a)) f plans R
  := by
  have h := hx.bind (g := fun a => Pure.pure (g a)) (fun a ha => Records.pure (hg a ha))
  rwa [append_nil, and_true] at h

/-- The test of the depth. -/
theorem Records.guarded {depth : Nat} {e : BoltError} (hx : Records x f plans P) :
  Records (if depth > maxRecursionDepth then throw e else x) (depth ≤ maxRecursionDepth ∧ f)
    plans P
  := by
  intro before
  by_cases hd : depth > maxRecursionDepth
  · rw [if_pos hd]
    exact ⟨fun h => absurd h.1 (not_le.mpr hd), fun _ => ⟨e, before, rfl⟩⟩
  · rw [if_neg hd]
    simpa only [not_lt.mp hd, true_and] using hx before

end Records

/-! ### Comparisons of columns -/

/-- The column that an expression is, up to aliases. -/
def bareColumn (e : Expr Q) : Option String :=
  match stripAlias e with
  | .column name => some name
  | _ => none

theorem bareColumn_aliased (e : Expr Q) (name : String) :
  bareColumn (.aliased e name) = bareColumn e
  := by
  rw [bareColumn, stripAlias, bareColumn]

theorem extractTwoColumns_eq (left right : Expr Q) :
  extractTwoColumns left right =
    (bareColumn left).bind (fun a => (bareColumn right).map (fun b => (a, b)))
  := by
  rw [extractTwoColumns, bareColumn, bareColumn]
  cases stripAlias left <;> cases stripAlias right <;> rfl

theorem extractColAndStringLit_of_columns {left right : Expr Q} {cols : String × String}
    (h : extractTwoColumns left right = some cols) :
  extractColAndStringLit left right = none
  := by
  rw [extractTwoColumns] at h
  rw [extractColAndStringLit]
  cases hl : stripAlias left with
  | column a =>
    cases hr : stripAlias right with
    | column b => rfl
    | _ => simp [hl, hr] at h
  | _ => simp [hl] at h

theorem bareColumn_buildIndexMembership (column : String) (indices : List Literal) :
  bareColumn (buildIndexMembership column indices : Expr Q) = none
  := by
  cases indices with
  | nil => rfl
  | cons first rest =>
    rw [buildIndexMembership]
    apply List.foldlRecOn rest _ (motive := fun e => bareColumn e = none)
    · rfl
    · intro acc _ idx _
      rfl

namespace Rewriter

variable (r : Rewriter)

/-- The rank plans of the comparisons. -/
def recorded (cs : List Comparison) : List ColVsColRankPlan :=
  cs.filterMap (fun c => r.colVsColRankMaps c.colA c.colB)

theorem recorded_append (cs cs' : List Comparison) :
  r.recorded (cs ++ cs') = r.recorded cs ++ r.recorded cs'
  := filterMap_append

/-- Only the columns that the operands are decide whether ranks are compared. -/
theorem rankEligible_congr {op : BinaryOp} {left right left' right' : Expr Q}
    (hl : bareColumn left' = bareColumn left) (hr : bareColumn right' = bareColumn right) :
  r.rankEligible op left' right' = r.rankEligible op left right
  := by
  rw [rankEligible, rankEligible, extractTwoColumns_eq, extractTwoColumns_eq, hl, hr]

theorem bareColumn_foldLiteral {op : BinaryOp} {left right e : Expr Q}
    (h : r.foldLiteral op left right = some e) :
  bareColumn e = none
  := by
  simp only [foldLiteral, Option.bind_eq_bind, Option.bind_eq_some_iff] at h
  obtain ⟨⟨column, lit, swapped⟩, -, h⟩ := h
  dsimp only at h
  split at h
  · cases h
  · split at h
    · split at h
      · obtain rfl := Option.some.inj h
        rfl
      · split at h
        · obtain rfl := Option.some.inj h
          rfl
        · cases h
    · split at h
      · obtain ⟨indices, -, h⟩ := Option.bind_eq_some_iff.mp h
        obtain rfl := Option.some.inj h
        apply bareColumn_buildIndexMembership
      · cases h

theorem bareColumn_foldLike (expr : Expr Q) (pattern : String) (escape : Option Char)
    (negated caseInsensitive : Bool) :
  bareColumn ((r.foldLike expr pattern escape negated caseInsensitive).getD
    (.like expr pattern escape negated caseInsensitive)) = none
  := by
  cases h : r.foldLike expr pattern escape negated caseInsensitive with
  | none => rfl
  | some e =>
    rw [foldLike] at h
    split_ifs at h
    split at h
    · split_ifs at h
      obtain ⟨indices, -, rfl⟩ := Option.map_eq_some_iff.mp h
      apply bareColumn_buildIndexMembership
    · cases h

/-- Rewriting an operator records the rank plan of its comparison, if it is one by ranks. -/
theorem rewriteBinary_records (op : BinaryOp) (left right : Expr Q) :
  Records (r.rewriteBinary op left right) True (r.recorded (r.rankEligible op left right).toList)
    (fun e => bareColumn e = none)
  := by
  rw [rewriteBinary]
  cases hc : r.rankEligible op left right with
  | none =>
    rw [planColVsColRank, hc]
    cases hf : r.foldLiteral op left right with
    | none => exact Records.pure rfl
    | some e => exact Records.pure (r.bareColumn_foldLiteral hf)
  | some c =>
    -- two columns are not a column and a constant
    have hf : r.foldLiteral op left right = none := by
      rw [rankEligible] at hc
      split_ifs at hc
      obtain ⟨cols, hcols, -⟩ := Option.bind_eq_some_iff.mp hc
      rw [foldLiteral, extractColAndStringLit_of_columns hcols]
      rfl
    have hplan : r.planColVsColRank op left right =
        (r.colVsColRankMaps c.colA c.colB).bind (fun plan => some (op, plan)) := by
      rw [planColVsColRank, hc]
      rfl
    rw [hf, hplan, recorded, Option.toList_some, filterMap_cons, filterMap_nil]
    cases r.colVsColRankMaps c.colA c.colB with
    | none => exact Records.pure rfl
    | some plan =>
      intro before
      exact ⟨fun _ => ⟨_, rfl, rfl⟩, fun h => absurd trivial h⟩

end Rewriter

/-! ### Expressions -/

/-- Whether an expression can be rewritten does not depend on the rewriter. -/
def Lowered (e : Expr Q) : Prop :=
  ∀ depth, ∃ fits, ∀ r : Rewriter,
    Records (r.rewriteExpr depth e) fits (r.recorded (r.exprComparisons e))
      (fun e' => bareColumn e' = bareColumn e)

open Rewriter (exprComparisons recorded_append rankComparison)

section Cases

open Rewriter (exprTooDeep)

variable {e inner : Expr Q}

theorem Lowered.leaf
    (hrun : ∀ (r : Rewriter) depth, r.rewriteExpr depth e =
      if depth > maxRecursionDepth then throw exprTooDeep else pure e)
    (hparts : ∀ r : Rewriter, r.exprComparisons e = []) :
  Lowered e
  := by
  intro depth
  refine ⟨depth ≤ maxRecursionDepth ∧ True, fun r => ?_⟩
  rw [hrun, hparts]
  exact (Records.pure (P := fun e' => bareColumn e' = bareColumn e) rfl).guarded

/-- An operator with one operand that is no comparison. -/
theorem Lowered.operator (make : Rewriter → Expr Q → Expr Q) (h : Lowered inner)
    (hrun : ∀ (r : Rewriter) depth, r.rewriteExpr depth e =
      if depth > maxRecursionDepth then throw exprTooDeep
      else do let inner ← r.rewriteExpr (depth + 1) inner; pure (make r inner))
    (hparts : ∀ r : Rewriter, r.exprComparisons e = r.exprComparisons inner)
    (hmake : ∀ r e', bareColumn e' = bareColumn inner → bareColumn (make r e') = bareColumn e) :
  Lowered e
  := by
  intro depth
  obtain ⟨fits, hfits⟩ := h (depth + 1)
  refine ⟨depth ≤ maxRecursionDepth ∧ fits, fun r => ?_⟩
  rw [hrun, hparts]
  exact ((hfits r).map (hmake r)).guarded

end Cases

theorem rewriteBranches_records {branches : List (Expr Q × Expr Q)}
    (h : ∀ b ∈ branches, Lowered b.1 ∧ Lowered b.2) (depth : Nat) :
  ∃ fits, ∀ r : Rewriter, Records (r.rewriteBranches depth branches) fits
    (r.recorded ((partsOfBranches branches).filterMap r.rankComparison)) (fun _ => True)
  := by
  induction branches with
  | nil => exact ⟨True, fun r => Records.pure trivial⟩
  | cons b branches ih =>
    obtain ⟨w, t⟩ := b
    obtain ⟨hw, ht⟩ := h (w, t) mem_cons_self
    obtain ⟨fw, hw⟩ := hw depth
    obtain ⟨ft, ht⟩ := ht depth
    obtain ⟨fits, hrest⟩ := ih (fun b hb => h b (mem_cons_of_mem _ hb))
    refine ⟨fw ∧ ft ∧ fits, fun r => ?_⟩
    have hrun := (hw r).bind (fun w' _ => (ht r).bind (fun t' _ =>
      (hrest r).map (g := fun rest => (w', t') :: rest) (R := fun _ => True) (fun _ => id)))
    simpa only [Rewriter.rewriteBranches, partsOfBranches, filterMap_append, recorded_append,
      append_assoc, exprComparisons] using hrun

theorem rewriteElse_records {elseBranch : Option (Expr Q)} (h : ∀ e ∈ elseBranch, Lowered e)
    (depth : Nat) :
  ∃ fits, ∀ r : Rewriter, Records (r.rewriteElse depth elseBranch) fits
    (r.recorded ((partsOfElse elseBranch).filterMap r.rankComparison)) (fun _ => True)
  := by
  cases elseBranch with
  | none => exact ⟨True, fun r => Records.pure trivial⟩
  | some e =>
    obtain ⟨fits, he⟩ := h e rfl depth
    exact ⟨fits, fun r => (he r).map (fun _ _ => trivial)⟩

theorem rewriteArgs_records {args : List (Expr Q)} (h : ∀ a ∈ args, Lowered a) (depth : Nat) :
  ∃ fits, ∀ r : Rewriter, Records (r.rewriteArgs depth args) fits
    (r.recorded (args.flatMap r.exprComparisons)) (fun _ => True)
  := by
  induction args with
  | nil => exact ⟨True, fun r => Records.pure trivial⟩
  | cons a args ih =>
    obtain ⟨fa, ha⟩ := h a mem_cons_self depth
    obtain ⟨fits, hrest⟩ := ih (fun a ha => h a (mem_cons_of_mem _ ha))
    refine ⟨fa ∧ fits, fun r => ?_⟩
    have hrun := (ha r).bind (fun a' _ =>
      (hrest r).map (g := fun rest => a' :: rest) (R := fun _ => True) (fun _ => id))
    simpa only [Rewriter.rewriteArgs, flatMap_cons, recorded_append] using hrun

theorem partsOfArgs_comparisons (r : Rewriter) (args : List (Expr Q)) :
  (partsOfArgs args).filterMap r.rankComparison = args.flatMap r.exprComparisons
  := by
  induction args with
  | nil => rfl
  | cons a args ih => rw [partsOfArgs, filterMap_append, ih, flatMap_cons, exprComparisons]

/-- Rewriting an expression records the rank plans of its comparisons. -/
theorem lowered (e : Expr Q) :
  Lowered e
  := by
  induction e with
  | column name =>
    exact Lowered.leaf (fun r depth => by rw [Rewriter.rewriteExpr]) (fun r => rfl)
  | literal lit => exact Lowered.leaf (fun r depth => by rw [Rewriter.rewriteExpr]) (fun r => rfl)
  | scalarSubquery plan =>
    exact Lowered.leaf (fun r depth => by rw [Rewriter.rewriteExpr]) (fun r => rfl)
  | unary op operand ih =>
    exact ih.operator (fun _ e => .unary op e) (fun r depth => by rw [Rewriter.rewriteExpr])
      (fun r => by simp [exprComparisons, rankComparison]) (fun r e' _ => rfl)
  | cast expr target safe ih =>
    exact ih.operator (fun _ e => .cast e target safe)
      (fun r depth => by rw [Rewriter.rewriteExpr])
      (fun r => by simp [exprComparisons, rankComparison]) (fun r e' _ => rfl)
  | castFormat expr target pattern toText ih =>
    exact ih.operator (fun _ e => .castFormat e target pattern toText)
      (fun r depth => by rw [Rewriter.rewriteExpr])
      (fun r => by simp [exprComparisons, rankComparison]) (fun r e' _ => rfl)
  | extract field expr ih =>
    exact ih.operator (fun _ e => .extract field e)
      (fun r depth => by rw [Rewriter.rewriteExpr])
      (fun r => by simp [exprComparisons, rankComparison]) (fun r e' _ => rfl)
  | dateTrunc unit expr ih =>
    exact ih.operator (fun _ e => .dateTrunc unit e)
      (fun r depth => by rw [Rewriter.rewriteExpr])
      (fun r => by simp [exprComparisons, rankComparison]) (fun r e' _ => rfl)
  | inSubquery expr subquery negated ih =>
    exact ih.operator (fun _ e => .inSubquery e subquery negated)
      (fun r depth => by rw [Rewriter.rewriteExpr])
      (fun r => by simp [exprComparisons, rankComparison]) (fun r e' _ => rfl)
  | aliased expr name ih =>
    refine ih.operator (fun _ e => .aliased e name)
      (fun r depth => by rw [Rewriter.rewriteExpr])
      (fun r => by simp [exprComparisons, rankComparison]) (fun r e' h => ?_)
    rw [bareColumn_aliased, bareColumn_aliased, h]
  | like expr pattern escape negated caseInsensitive ih =>
    refine ih.operator
      (fun r e => (r.foldLike e pattern escape negated caseInsensitive).getD
        (.like e pattern escape negated caseInsensitive))
      (fun r depth => by rw [Rewriter.rewriteExpr])
      (fun r => by simp [exprComparisons, rankComparison]) (fun r e' _ => ?_)
    rw [Rewriter.bareColumn_foldLike]
    rfl
  | scalarFn kind args ih =>
    intro depth
    obtain ⟨fits, hargs⟩ := rewriteArgs_records ih (depth + 1)
    refine ⟨depth ≤ maxRecursionDepth ∧ fits, fun r => ?_⟩
    have hparts : r.exprComparisons (.scalarFn kind args) = args.flatMap r.exprComparisons := by
      simp [exprComparisons, rankComparison, ← partsOfArgs_comparisons]
    rw [Rewriter.rewriteExpr, hparts]
    refine Records.guarded ((hargs r).map ?_)
    intro _ _
    rfl
  | case branches elseBranch hb he =>
    intro depth
    obtain ⟨fb, hbranches⟩ := rewriteBranches_records hb (depth + 1)
    obtain ⟨fe, helse⟩ := rewriteElse_records he (depth + 1)
    refine ⟨depth ≤ maxRecursionDepth ∧ fb ∧ fe, fun r => ?_⟩
    have hparts : r.exprComparisons (.case branches elseBranch) =
        (partsOfBranches branches).filterMap r.rankComparison ++
          (partsOfElse elseBranch).filterMap r.rankComparison := by
      simp [exprComparisons, rankComparison]
    rw [Rewriter.rewriteExpr, hparts, recorded_append]
    refine Records.guarded ((hbranches r).bind (fun _ _ => (helse r).map ?_))
    intro _ _
    rfl
  | binary op left right ihl ihr =>
    intro depth
    obtain ⟨fl, hl⟩ := ihl (depth + 1)
    obtain ⟨fr, hr⟩ := ihr (depth + 1)
    refine ⟨depth ≤ maxRecursionDepth ∧ fl ∧ fr ∧ True, fun r => ?_⟩
    have hparts : r.exprComparisons (.binary op left right) =
        r.exprComparisons left ++ (r.exprComparisons right ++
          (r.rankEligible op left right).toList) := by
      simp only [exprComparisons, parts, filterMap_append, append_assoc, filterMap_cons,
        filterMap_nil, rankComparison]
      cases r.rankEligible op left right <;> rfl
    rw [Rewriter.rewriteExpr, hparts, recorded_append, recorded_append]
    refine ((hl r).bind (fun left' hleft => (hr r).bind (fun right' hright => ?_))).guarded
    rw [← r.rankEligible_congr hleft hright]
    exact r.rewriteBinary_records op left' right'

/-! ### Plans -/

theorem rewriteInputs_records {inputs : List (LogicalPlan Q)}
    (h : ∀ p ∈ inputs, ∀ depth, ∃ fits, ∀ r : Rewriter,
      Records (r.rewritePlanWith depth p) fits (r.recorded (r.rankComparisons p)) (fun _ => True))
    (depth : Nat) :
  ∃ fits, ∀ r : Rewriter, Records (r.rewriteInputs depth inputs) fits
    (r.recorded (inputs.flatMap r.rankComparisons)) (fun _ => True)
  := by
  induction inputs with
  | nil => exact ⟨True, fun r => Records.pure trivial⟩
  | cons p inputs ih =>
    obtain ⟨fp, hp⟩ := h p mem_cons_self depth
    obtain ⟨fits, hrest⟩ := ih (fun p hp => h p (mem_cons_of_mem _ hp))
    refine ⟨fp ∧ fits, fun r => ?_⟩
    rw [Rewriter.rewriteInputs, flatMap_cons, recorded_append]
    exact (hp r).bind (fun _ _ => (hrest r).map (fun _ _ => trivial))

theorem nodesOfInputs_comparisons (r : Rewriter) (inputs : List (LogicalPlan Q)) :
  ((nodesOfInputs inputs).flatMap rewrittenExprs).flatMap r.exprComparisons =
    inputs.flatMap r.rankComparisons
  := by
  induction inputs with
  | nil => rfl
  | cons p inputs ih =>
    rw [nodesOfInputs, flatMap_append, flatMap_append, ih, flatMap_cons, Rewriter.rankComparisons]

/-- Rewriting a plan records the rank plans of its comparisons. -/
theorem rewritePlanWith_records (plan : LogicalPlan Q) (depth : Nat) :
  ∃ fits, ∀ r : Rewriter, Records (r.rewritePlanWith depth plan) fits
    (r.recorded (r.rankComparisons plan)) (fun _ => True)
  := by
  induction plan generalizing depth with
  | scan table projection schema =>
    refine ⟨depth ≤ maxRecursionDepth ∧ True, fun r => ?_⟩
    rw [Rewriter.rewritePlanWith]
    exact (Records.pure trivial).guarded
  | filter input predicate ih =>
    obtain ⟨fi, hinput⟩ := ih (depth + 1)
    obtain ⟨fp, hpred⟩ := lowered predicate 0
    refine ⟨depth ≤ maxRecursionDepth ∧ fi ∧ fp, fun r => ?_⟩
    have hparts : r.rankComparisons (.filter input predicate) =
        r.rankComparisons input ++ r.exprComparisons predicate := by
      simp [Rewriter.rankComparisons, rewrittenExprs]
    rw [Rewriter.rewritePlanWith, hparts, recorded_append]
    exact ((hinput r).bind (fun _ _ => (hpred r).map (fun _ _ => trivial))).guarded
  | project input exprs ih =>
    obtain ⟨fi, hinput⟩ := ih (depth + 1)
    obtain ⟨fe, hexprs⟩ := rewriteArgs_records (fun e (_ : e ∈ exprs) => lowered e) 0
    refine ⟨depth ≤ maxRecursionDepth ∧ fi ∧ fe, fun r => ?_⟩
    have hparts : r.rankComparisons (.project input exprs) =
        r.rankComparisons input ++ exprs.flatMap r.exprComparisons := by
      simp [Rewriter.rankComparisons, rewrittenExprs]
    rw [Rewriter.rewritePlanWith, hparts, recorded_append]
    exact ((hinput r).bind (fun _ _ => (hexprs r).map (fun _ _ => trivial))).guarded
  | union inputs ih =>
    obtain ⟨fits, hinputs⟩ := rewriteInputs_records ih (depth + 1)
    refine ⟨depth ≤ maxRecursionDepth ∧ fits, fun r => ?_⟩
    have hparts : r.rankComparisons (.union inputs) = inputs.flatMap r.rankComparisons := by
      simp [Rewriter.rankComparisons, rewrittenExprs, ← nodesOfInputs_comparisons]
    rw [Rewriter.rewritePlanWith, hparts]
    exact ((hinputs r).map (fun _ _ => trivial)).guarded
  | setOp left right _ _ ihl ihr | join left right _ _ _ ihl ihr =>
    obtain ⟨fl, hl⟩ := ihl (depth + 1)
    obtain ⟨fr, hr⟩ := ihr (depth + 1)
    refine ⟨depth ≤ maxRecursionDepth ∧ fl ∧ fr, fun r => ?_⟩
    have hparts (p : LogicalPlan Q) (hp : nodes p = nodes left ++ nodes right ++ [p])
        (he : rewrittenExprs p = []) :
        r.rankComparisons p = r.rankComparisons left ++ r.rankComparisons right := by
      simp [Rewriter.rankComparisons, hp, he]
    rw [Rewriter.rewritePlanWith, hparts _ rfl rfl, recorded_append]
    exact ((hl r).bind (fun _ _ => (hr r).map (fun _ _ => trivial))).guarded
  | aggregate input _ _ ih | distinct input ih | limit input _ _ ih | sort input _ ih
  | window input _ _ _ ih =>
    obtain ⟨fits, hinput⟩ := ih (depth + 1)
    refine ⟨depth ≤ maxRecursionDepth ∧ fits, fun r => ?_⟩
    have hparts (p : LogicalPlan Q) (hp : nodes p = nodes input ++ [p])
        (he : rewrittenExprs p = []) : r.rankComparisons p = r.rankComparisons input := by
      simp [Rewriter.rankComparisons, hp, he]
    rw [Rewriter.rewritePlanWith, hparts _ rfl rfl]
    exact ((hinput r).map (fun _ _ => trivial)).guarded

theorem rewrite_records (plan : LogicalPlan Q) :
  ∃ fits, ∀ r : Rewriter,
    Records (r.rewrite plan) fits (r.recorded (r.rankComparisons plan)) (fun _ => True)
  := by
  obtain ⟨fits, hrun⟩ := rewritePlanWith_records plan 0
  exact ⟨fits, fun r => hrun { r with rankNeeded := r.collectRankNeededColumns plan }⟩

end CratonBolt.DictRewrite
