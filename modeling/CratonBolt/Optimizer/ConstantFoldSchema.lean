import CratonBolt.Optimizer.ConstantFoldTypes
import CratonBolt.Plan.PlanNodes
import CratonBolt.Semantics.NodeSchemas

/-!
# Schemas of folded plans

Folding keeps the output schema of a plan and of every node in it, unless it changes the type or
the name of an output column: what is left of an expression may have no type, and a column or an
alias that comes to the surface names the output it computes.
-/

namespace CratonBolt

open Outcome List
open CratonBolt.Expr (residue)
open LogicalPlan (height nodes outputSchema schemaDepth)
open Option (bind_eq_bind bind_eq_some_iff bind_some)

variable {Q : Type} {sub : Q → Nat → BoltResult Schema} {s : Schema}
variable {inputs : List (LogicalPlan Q)} {p : LogicalPlan Q}
variable {fields : List Field}

/-! ### Output columns -/

theorem projectName_eq (i : Nat) (e : Expr Q) :
  projectName i e = e.ownName.getD s!"__expr_{i}"
  := by
  cases e with
  | unary op operand => cases op <;> rfl
  | _ => rfl

theorem groupKeyOutputName_eq (i : Nat) (e : Expr Q) :
  groupKeyOutputName i e = e.ownName.getD s!"__group_{i}"
  := by
  cases e with
  | unary op operand => cases op <;> rfl
  | _ => rfl

theorem aggregateSuffix_eq (e : Expr Q) :
  aggregateSuffix e = (e.ownName.map (fun n => s!"_{n}")).getD ""
  := by
  cases e with
  | unary op operand => cases op <;> rfl
  | _ => rfl

theorem ownName_foldExpr (e : Expr Q) :
  (foldExpr e).ownName = e.residue.name
  := by
  rw [Expr.ownName, form_foldExpr]

/-! ### What a node asks for -/

section Definitions

variable (sub : Q → Nat → BoltResult Schema) (s : Schema)

/--
What is left of each of the expressions over the columns `s` has its type, and names its output
column as the expression does. Nameless columns are named by their position, from `i` on.
-/
def keepsColumns (nameless : Nat → String) : Nat → List (Expr Q) → Bool
  | _, [] => true
  | i, e :: exprs =>
    e.staysTyped sub s 0 &&
      decide (e.residue.name.getD (nameless i) = e.ownName.getD (nameless i)) &&
      keepsColumns nameless (i + 1) exprs

/-- The expressions of a node over the columns `s` of its input keep its columns when folded. -/
def LogicalPlan.keepsColumns : LogicalPlan Q → Bool
  | .filter _ predicate => predicate.staysTyped sub s 0
  | .project _ exprs => CratonBolt.keepsColumns sub s (fun i => s!"__expr_{i}") 0 exprs
  | .aggregate _ groupBy aggregates =>
    CratonBolt.keepsColumns sub s (fun i => s!"__group_{i}") 0 groupBy &&
      aggregates.all (fun a => (decide (a.fn = .count) || a.arg.staysTyped sub s 0) &&
        decide (a.arg.residue.name = a.arg.ownName))
  | .sort _ sortExprs => sortExprs.all (fun se => se.expr.staysTyped sub s 0)
  | .window _ _ partitionBy _ => partitionBy.all (fun e => e.staysTyped sub s 0)
  | _ => true

/-- The columns of a list of expressions, from the `i`-th on. -/
def namedFields (nameless : Nat → String) : Nat → List (Expr Q) → BoltResult (List Field)
  | _, [] => .ok []
  | i, e :: exprs => do
    let t ← e.dtype sub s
    let fields ← namedFields nameless (i + 1) exprs
    .ok (⟨e.ownName.getD (nameless i), t, true⟩ :: fields)

end Definitions

theorem projectFields_eq (i : Nat) (exprs : List (Expr Q)) :
  projectFields sub s i exprs = namedFields sub s (fun i => s!"__expr_{i}") i exprs
  := by
  induction exprs generalizing i with
  | nil => rfl
  | cons e exprs ih => rw [projectFields, namedFields, ih, projectName_eq]

theorem groupFields_eq (i : Nat) (exprs : List (Expr Q)) :
  groupFields sub s i exprs = namedFields sub s (fun i => s!"__group_{i}") i exprs
  := by
  induction exprs generalizing i with
  | nil => rfl
  | cons e exprs ih => rw [groupFields, namedFields, ih, groupKeyOutputName_eq]

/-- The columns of folded expressions are those of the expressions exactly if each one is kept. -/
theorem namedFields_fold_iff (hsub : Settled sub) {nameless : Nat → String} {i : Nat}
    {exprs : List (Expr Q)} (h : namedFields sub s nameless i exprs = .ok fields) :
  namedFields sub s nameless i (exprs.map foldExpr) = .ok fields ↔
    keepsColumns sub s nameless i exprs = true
  := by
  induction exprs generalizing i fields with
  | nil => exact iff_of_true h rfl
  | cons e exprs ih =>
    obtain ⟨t, ht, h⟩ := bind_eq_ok.mp h
    obtain ⟨rest, hrest, h⟩ := bind_eq_ok.mp h
    cases h
    have hok := (foldsTyped hsub e).top ht 0
    rw [map_cons, namedFields, keepsColumns, ownName_foldExpr]
    simp only [Bool.and_eq_true, decide_eq_true_eq, ← ih hrest, bind_eq_ok, Except.ok.injEq,
      cons.injEq, Field.mk.injEq, and_true]
    constructor
    · rintro ⟨u, hu, fields', hfields', ⟨hname, rfl⟩, rfl⟩
      exact ⟨⟨hok.eq_ok.mp hu, hname⟩, hfields'⟩
    · rintro ⟨⟨hstays, hname⟩, hfields'⟩
      exact ⟨t, hok.eq_ok.mpr hstays, rest, hfields', ⟨hname, rfl⟩, rfl⟩

theorem checkExprs_fold_iff (hsub : Settled sub) {exprs : List (Expr Q)}
    (h : checkExprs sub s exprs = .ok ()) :
  checkExprs sub s (exprs.map foldExpr) = .ok () ↔
    exprs.all (fun e => e.staysTyped sub s 0) = true
  := by
  induction exprs with
  | nil => exact iff_of_true rfl rfl
  | cons e exprs ih =>
    obtain ⟨t, ht, h⟩ := bind_eq_ok.mp h
    have hok := (foldsTyped hsub e).top ht 0
    rw [map_cons, checkExprs, bind_eq_ok, all_cons, Bool.and_eq_true, ← ih h, ← hok.eq_ok]
    constructor
    · rintro ⟨u, hu, h'⟩
      obtain ⟨-, rfl⟩ := (hok u).mp hu
      exact ⟨hu, h'⟩
    · rintro ⟨hu, h'⟩
      exact ⟨t, hu, h'⟩

/-- The name of an aggregate tells what its argument is called. -/
theorem outputName_foldAgg_iff (a : AggregateExpr Q) :
  (foldAgg a).outputName = a.outputName ↔ a.arg.residue.name = a.arg.ownName
  := by
  rw [AggregateExpr.outputName, AggregateExpr.outputName, foldAgg, aggregateSuffix_eq,
    aggregateSuffix_eq, ownName_foldExpr, String.append_right_inj]
  have hne : ∀ n : String, s!"_{n}" ≠ "" := fun n => show "_" ++ n ≠ "" by simp
  have hinj : ∀ n m : String, s!"_{n}" = s!"_{m}" ↔ n = m := fun n m => String.append_right_inj _
  cases a.arg.residue.name with
  | none =>
    cases a.arg.ownName with
    | none => simp
    | some m => simpa using (hne m).symm
  | some n =>
    cases a.arg.ownName with
    | none => simpa using hne n
    | some m => simpa using hinj n m

theorem outputDtype_foldAgg (hsub : Settled sub) {a : AggregateExpr Q} {t : DataType}
    (h : a.outputDtype sub s = .ok t) :
  OkIf ((decide (a.fn = .count) || a.arg.staysTyped sub s 0) = true)
    ((foldAgg a).outputDtype sub s) t
  := by
  have harg : ∀ {u}, a.arg.dtype sub s = .ok u →
      OkIf (a.arg.staysTyped sub s 0 = true) ((foldExpr a.arg).dtype sub s) u :=
    fun hu => (foldsTyped hsub a.arg).top hu 0
  unfold AggregateExpr.outputDtype foldAgg at *
  cases hfn : a.fn with
  | count =>
    rw [hfn] at h
    cases h
    intro u
    simp [eq_comm]
  | min | max =>
    rw [hfn] at h
    exact harg h
  | varPop | varSamp =>
    rw [hfn] at h
    obtain ⟨u, hu, rfl⟩ := map_eq_ok.mp h
    exact (harg hu).map (fun _ => DataType.float64)
  | sum | avg | stddevPop | stddevSamp =>
    rw [hfn] at h
    obtain ⟨u, hu, h⟩ := bind_eq_ok.mp h
    exact (harg hu).bind_ok h

theorem aggregateFields_fold_iff (hsub : Settled sub) {aggregates : List (AggregateExpr Q)}
    (h : aggregateFields sub s aggregates = .ok fields) :
  aggregateFields sub s (aggregates.map foldAgg) = .ok fields ↔
    aggregates.all (fun a => (decide (a.fn = .count) || a.arg.staysTyped sub s 0) &&
      decide (a.arg.residue.name = a.arg.ownName)) = true
  := by
  induction aggregates generalizing fields with
  | nil => exact iff_of_true h rfl
  | cons a aggregates ih =>
    obtain ⟨t, ht, h⟩ := bind_eq_ok.mp h
    obtain ⟨rest, hrest, h⟩ := bind_eq_ok.mp h
    cases h
    have hok := outputDtype_foldAgg hsub ht
    rw [map_cons, aggregateFields, all_cons]
    simp only [Bool.and_eq_true, decide_eq_true_eq, ← ih hrest, bind_eq_ok, Except.ok.injEq,
      cons.injEq, Field.mk.injEq, and_true, outputName_foldAgg_iff]
    constructor
    · rintro ⟨u, hu, fields', hfields', ⟨hname, rfl⟩, rfl⟩
      exact ⟨⟨hok.eq_ok.mp hu, hname⟩, hfields'⟩
    · rintro ⟨⟨hstays, hname⟩, hfields'⟩
      exact ⟨t, hok.eq_ok.mpr hstays, rest, hfields', ⟨hname, rfl⟩, rfl⟩

/-! ### Plans -/

theorem mapAllPlanExprs_eq_map (inputs : List (LogicalPlan Q)) :
  mapAllPlanExprs foldExpr foldAgg inputs = inputs.map foldPlan
  := by
  induction inputs with
  | nil => rfl
  | cons p inputs ih => rw [mapAllPlanExprs, ih, map_cons, foldPlan]

/-- Folding a plan does not change how high it is. -/
theorem height_foldPlan (p : LogicalPlan Q) :
  (foldPlan p).height = p.height
  := by
  induction p with
  | scan table projection schema => rfl
  | union inputs ih =>
    rw [foldPlan, mapPlanExprs, mapAllPlanExprs_eq_map, height, height]
    congr 1
    induction inputs with
    | nil => rfl
    | cons p inputs ihs =>
      rw [forall_mem_cons] at ih
      rw [map_cons, heights, heights, ih.1, ihs ih.2]
  | setOp left right _ _ ihl ihr | join left right _ _ _ ihl ihr =>
    rw [foldPlan, mapPlanExprs, height, height, ← ihl, ← ihr]
    rfl
  | filter _ _ ih | project _ _ ih | aggregate _ _ _ ih | distinct _ ih | limit _ _ _ ih
  | sort _ _ ih | window _ _ _ _ ih =>
    rw [foldPlan, mapPlanExprs, height, height, ← ih]
    rfl

/-- Wherever a plan has a schema, the folded plan has the same one. -/
def KeepsSchema (sub : Q → Nat → BoltResult Schema) (p : LogicalPlan Q) : Prop :=
  ∀ s, p.schema sub = .ok s → (foldPlan p).schema sub = .ok s

/-- The expressions of a node keep its columns when folded, if it has columns. -/
def KeepsColumns (sub : Q → Nat → BoltResult Schema) (p : LogicalPlan Q) : Prop :=
  ∀ s, p.schema sub = .ok s → ∀ c ∈ p.children, ∀ s', c.schema sub = .ok s' →
    p.keepsColumns sub s' = true

/-- A plan is higher than its inputs. -/
theorem height_lt_of_mem_children {c : LogicalPlan Q} (h : c ∈ p.children) :
  c.height < p.height
  := by
  cases p with
  | scan _ _ _ => cases h
  | union inputs =>
    rw [height, Nat.lt_succ_iff]
    induction inputs with
    | nil => cases h
    | cons p inputs ih =>
      rw [heights]
      obtain rfl | h := mem_cons.mp h
      · omega
      · have := ih h
        omega
  | setOp _ _ _ _ | join _ _ _ _ _ =>
    simp only [LogicalPlan.children, mem_cons, not_mem_nil, or_false] at h
    obtain rfl | rfl := h <;> (rw [height]; omega)
  | _ =>
    obtain rfl := mem_singleton.mp h
    rw [height]
    omega

theorem forall_outputSchema {P : Schema → Prop} (h : p.outputSchema sub = some s) :
  (∀ s', p.outputSchema sub = some s' → P s') ↔ P s
  := by
  simp [h]

/-- Above inputs that keep their columns, a node keeps its columns if its expressions do. -/
theorem outputSchema_fold_iff (hsub : Settled sub)
    (h : ∀ c ∈ p.children, ∀ s, c.outputSchema sub = some s →
      (foldPlan c).outputSchema sub = some s)
    (hs : p.outputSchema sub = some s) :
  (foldPlan p).outputSchema sub = some s ↔
    ∀ c ∈ p.children, ∀ s', c.outputSchema sub = some s' → p.keepsColumns sub s' = true
  := by
  cases p with
  | scan table projection schema => exact iff_of_true hs (by simp)
  | filter input predicate =>
    simp only [LogicalPlan.children, forall_mem_singleton] at h ⊢
    obtain ⟨hi, hp⟩ := outputSchema_filter.mp hs
    rw [foldPlan, mapPlanExprs, outputSchema_filter, ← foldPlan, and_iff_right (h s hi),
      forall_outputSchema hi, LogicalPlan.keepsColumns]
    exact ((foldsTyped hsub predicate).top hp 0).eq_ok
  | project input exprs =>
    simp only [LogicalPlan.children, forall_mem_singleton] at h ⊢
    simp only [outputSchema, bind_eq_bind, bind_eq_some_iff, toOption_eq_some,
      Option.some.injEq] at hs
    obtain ⟨si, hi, fields, hf, rfl⟩ := hs
    rw [forall_outputSchema hi, LogicalPlan.keepsColumns]
    rw [projectFields_eq] at hf
    rw [← namedFields_fold_iff hsub hf, ← projectFields_eq, foldPlan, mapPlanExprs, ← foldPlan]
    simp [outputSchema, h si hi, bind_eq_some_iff]
  | aggregate input groupBy aggregates =>
    simp only [LogicalPlan.children, forall_mem_singleton] at h ⊢
    simp only [outputSchema, bind_eq_bind, bind_eq_some_iff, toOption_eq_some,
      Option.some.injEq] at hs
    obtain ⟨si, hi, keys, hkeys, aggs, haggs, rfl⟩ := hs
    rw [forall_outputSchema hi, LogicalPlan.keepsColumns, Bool.and_eq_true,
      ← aggregateFields_fold_iff hsub haggs]
    have hlen := groupFields_length hkeys
    rw [groupFields_eq] at hkeys
    rw [← namedFields_fold_iff hsub hkeys, ← groupFields_eq, foldPlan, mapPlanExprs, ← foldPlan]
    simp only [outputSchema, h si hi, bind_eq_bind, bind_some, bind_eq_some_iff, toOption_eq_some,
      Option.some.injEq, Schema.mk.injEq]
    constructor
    · rintro ⟨keys', hkeys', aggs', haggs', heq⟩
      have hlen' := groupFields_length hkeys'
      rw [length_map] at hlen'
      obtain ⟨rfl, rfl⟩ := append_inj heq (hlen'.trans hlen.symm)
      exact ⟨hkeys', haggs'⟩
    · rintro ⟨hkeys', haggs'⟩
      exact ⟨keys, hkeys', aggs, haggs', rfl⟩
  | sort input sortExprs =>
    simp only [LogicalPlan.children, forall_mem_singleton] at h ⊢
    simp only [outputSchema, bind_eq_bind, bind_eq_some_iff, toOption_eq_some,
      Option.some.injEq] at hs
    obtain ⟨si, hi, _, hc, rfl⟩ := hs
    have hexprs : (sortExprs.map (fun se => { se with expr := foldExpr se.expr })).map
        SortExpr.expr = (sortExprs.map SortExpr.expr).map foldExpr := by
      rw [map_map, map_map]
      rfl
    have hall : (LogicalPlan.sort input sortExprs).keepsColumns sub si =
        (sortExprs.map SortExpr.expr).all (fun e => e.staysTyped sub si 0) := by
      rw [all_map]
      rfl
    rw [forall_outputSchema hi, hall, ← checkExprs_fold_iff hsub hc, ← hexprs, foldPlan,
      mapPlanExprs, ← foldPlan]
    simp [outputSchema, h si hi, bind_eq_some_iff, Unique.exists_iff]
  | window input windowExprs partitionBy orderBy =>
    simp only [LogicalPlan.children, forall_mem_singleton] at h ⊢
    simp only [outputSchema, bind_eq_bind, bind_eq_some_iff, toOption_eq_some,
      Option.some.injEq] at hs
    obtain ⟨si, hi, _, hp, _, ho, appended, hw, rfl⟩ := hs
    rw [forall_outputSchema hi, LogicalPlan.keepsColumns, ← checkExprs_fold_iff hsub hp, foldPlan,
      mapPlanExprs, ← foldPlan]
    simp [outputSchema, h si hi, bind_eq_some_iff, ho, hw, Unique.exists_iff]
  | distinct input | limit input _ _ =>
    refine iff_of_true ?_ (fun _ _ _ _ => rfl)
    exact h input (by simp) s hs
  | union inputs =>
    refine iff_of_true ?_ (fun _ _ _ _ => rfl)
    rw [foldPlan, mapPlanExprs, mapAllPlanExprs_eq_map]
    cases inputs with
    | nil => cases hs
    | cons input inputs =>
      simp only [LogicalPlan.children, forall_mem_cons] at h
      obtain ⟨hi, hb⟩ := outputSchema_union.mp hs
      refine outputSchema_union.mpr ⟨h.1 s hi, branchesCompatible_iff.mpr ?_⟩
      rw [List.forall_mem_map]
      intro p hp
      obtain ⟨other, hother, hc⟩ := branchesCompatible_iff.mp hb p hp
      exact ⟨other, h.2 p hp other hother, hc⟩
  | setOp left right op all =>
    refine iff_of_true ?_ (fun _ _ _ _ => rfl)
    obtain ⟨r, hl, hr, hc⟩ := outputSchema_setOp.mp hs
    exact outputSchema_setOp.mpr ⟨r, h left (by simp) s hl, h right (by simp) r hr, hc⟩
  | join left right joinType on filter =>
    refine iff_of_true ?_ (fun _ _ _ _ => rfl)
    obtain ⟨l, r, hl, hr, hc⟩ := outputSchema_join.mp hs
    exact outputSchema_join.mpr ⟨l, r, h left (by simp) l hl, h right (by simp) r hr, hc⟩

/-- Above inputs that keep their schemas, a node keeps its schema if its expressions do. -/
theorem keepsSchema_iff (hsub : Settled sub) (h : ∀ c ∈ p.children, KeepsSchema sub c) :
  KeepsSchema sub p ↔ KeepsColumns sub p
  := by
  have hschema : ∀ (p : LogicalPlan Q) s, p.schema sub = .ok s ↔
      p.outputSchema sub = some s ∧ p.height ≤ maxRecursionDepth := by
    intro p s
    rw [LogicalPlan.schema, schemaDepth_eq_ok_iff, Nat.zero_add]
  refine forall₂_congr fun s hs => ?_
  obtain ⟨hout, hheight⟩ := (hschema p s).mp hs
  have hbelow : ∀ c ∈ p.children, c.height ≤ maxRecursionDepth := by
    intro c hc
    have := height_lt_of_mem_children hc
    omega
  rw [hschema, height_foldPlan, and_iff_left hheight, outputSchema_fold_iff hsub _ hout]
  · refine forall₂_congr fun c hc => forall_congr' fun s' => ?_
    rw [hschema, and_iff_left (hbelow c hc)]
  · intro c hc s' hs'
    exact ((hschema _ _).mp (h c hc s' ((hschema c s').mpr ⟨hs', hbelow c hc⟩))).1

/-! ### Every node -/

theorem allNodes_fold (h : ∀ p ∈ inputs, (foldPlan p).nodes = p.nodes.map foldPlan) :
  allNodes (mapAllPlanExprs foldExpr foldAgg inputs) = (allNodes inputs).map foldPlan
  := by
  induction inputs with
  | nil => rfl
  | cons p inputs ih =>
    rw [mapAllPlanExprs, allNodes, allNodes, map_append,
      ih (fun q hq => h q (mem_cons_of_mem _ hq))]
    congr 1
    exact h p mem_cons_self

/-- The nodes of a folded plan are the folded nodes of the plan. -/
theorem nodes_foldPlan (p : LogicalPlan Q) :
  (foldPlan p).nodes = p.nodes.map foldPlan
  := by
  induction p with
  | scan table projection schema => rfl
  | union inputs ih =>
    rw [foldPlan, mapPlanExprs, nodes, nodes, map_cons,
      allNodes_fold ih]
    rfl
  | setOp left right op all ihl ihr | join left right joinType on filter ihl ihr =>
    rw [foldPlan, mapPlanExprs, nodes, nodes, map_cons,
      map_append, ← ihl, ← ihr]
    rfl
  | filter input _ ih | project input _ ih | aggregate input _ _ ih | distinct input ih
  | limit input _ _ ih | sort input _ ih | window input _ _ _ ih =>
    rw [foldPlan, mapPlanExprs, nodes, nodes, map_cons, ← ih]
    rfl


/-- Every node keeps its schema exactly if the expressions of every node keep its columns. -/
theorem keepsSchemas_iff (hsub : Settled sub) (p : LogicalPlan Q) :
  (∀ q ∈ p.nodes, KeepsSchema sub q) ↔ ∀ q ∈ p.nodes, KeepsColumns sub q
  := by
  have step : ∀ p : LogicalPlan Q, (∀ c ∈ p.children, (∀ q ∈ c.nodes, KeepsSchema sub q) ↔
      ∀ q ∈ c.nodes, KeepsColumns sub q) →
      ((∀ q ∈ p.nodes, KeepsSchema sub q) ↔ ∀ q ∈ p.nodes, KeepsColumns sub q) := by
    intro p ih
    rw [forall_nodes, forall_nodes, ← forall₂_congr ih, and_congr_left_iff]
    intro hbelow
    exact keepsSchema_iff hsub (fun c hc => (forall_nodes.mp (hbelow c hc)).1)
  induction p with
  | scan table projection schema => exact step _ (by simp)
  | union inputs ih => exact step _ ih
  | setOp left right op all ihl ihr | join left right joinType on filter ihl ihr =>
    exact step _ (by simpa using ⟨ihl, ihr⟩)
  | filter input _ ih | project input _ ih | aggregate input _ _ ih | distinct input ih
  | limit input _ _ ih | sort input _ ih | window input _ _ _ ih =>
    exact step _ (by simpa using ih)

theorem settled_query (n : Nat) :
  Settled (fun (q : Query n) depth => q.schemaDepth depth)
  := by
  have hagree : ∀ {Q : Type} (sub : Q → Nat → BoltResult Schema) (p : LogicalPlan Q) d d',
      Agree (p.schemaDepth sub d) (p.schemaDepth sub d') := by
    intro Q sub p d d' s s' hs hs'
    rw [schemaDepth_eq_ok_iff] at hs hs'
    exact Option.some.inj (hs.1.symm.trans hs'.1)
  intro q d d'
  cases n with
  | zero => exact hagree _ q d d'
  | succ n => exact hagree _ q d d'

/--
Folding a plan keeps its output schema, with the names, types and order of the columns, and that of
every node in it, exactly if the expressions of every node keep its columns: what is left of them
is typed, and no output column is named after a column or an alias that comes to the surface.
-/
theorem foldPlan_keeps_schemas_iff {n : Nat} (p : LogicalPlan (Query n)) :
  Forall₂ (fun q q' => ∀ s, q.schema Query.schemaDepth = .ok s →
      q'.schema Query.schemaDepth = .ok s) p.nodes (foldPlan p).nodes ↔
    ∀ q ∈ p.nodes, ∀ s, q.schema Query.schemaDepth = .ok s → ∀ c ∈ q.children, ∀ s',
      c.schema Query.schemaDepth = .ok s' → q.keepsColumns Query.schemaDepth s' = true
  := by
  rw [nodes_foldPlan, forall₂_map_right_iff, forall₂_same]
  exact keepsSchemas_iff (settled_query n) p

/-- A table with one column of truth values. -/
def flagScan : LogicalPlan (Query 0) := .scan "t" none ⟨[⟨"a", .bool, true⟩]⟩

/-- `SELECT a AND TRUE FROM t` has a nameless column, which folding calls `a`. -/
theorem foldPlan_renames_column :
  ∃ p : LogicalPlan (Query 0),
    p.schema Query.schemaDepth = .ok ⟨[⟨"__expr_0", .bool, true⟩]⟩ ∧
      (foldPlan p).schema Query.schemaDepth = .ok ⟨[⟨"a", .bool, true⟩]⟩
  := ⟨.project flagScan [.binary .and (.column "a") (.literal (.bool true))], by decide, by decide⟩

/-- `SELECT a AND 1 < 2 AS x, a AND 1 < NULL FROM t` keeps its columns. -/
example : (LogicalPlan.project flagScan
    [.aliased (.binary .and (.column "a")
        (.binary .lt (.literal (.int32 1)) (.literal (.int32 2)))) "x",
      .binary .and (.column "a") (.binary .lt (.literal (.int32 1)) (.literal .null))]).keepsColumns
    Query.schemaDepth ⟨[⟨"a", .bool, true⟩]⟩ = true := by decide

end CratonBolt
