import CratonBolt.Plan.PlanNodes
import CratonBolt.Semantics.Filters

/-!
# Filters folded into joins

The optimizer pass of `plan/optimizer/filter_into_join.rs`: a filter above an `INNER` or a `CROSS`
join becomes part of the residual filter of the join. The contract of a join node asks a `CROSS`
join to have neither keys nor a residual filter and every other join to have one of them, and the
pass keeps it exactly where no filter stands above a `CROSS` join.
-/

namespace CratonBolt

open List

variable {Q : Type} {on : List (Expr Q × Expr Q)} {filter : Option (Expr Q)} {p : LogicalPlan Q}

/-! ### The pass -/

/-- A residual filter may be folded into these joins only. -/
def eligibleJoin : JoinType → Bool
  | .inner | .cross => true
  | .leftOuter | .rightOuter | .fullOuter => false

/-- The conjuncts of the residual filter of a join. -/
def residualConjuncts : Option (Expr Q) → List (Expr Q)
  | none => []
  | some existing => existing.splitConjuncts

/-- A filter above an input that is rewritten already. -/
def foldFilter (input : LogicalPlan Q) (predicate : Expr Q) : LogicalPlan Q :=
  match input with
  | .join left right joinType on filter =>
    if eligibleJoin joinType then
      .join left right joinType on
        (combineConjuncts (residualConjuncts filter ++ predicate.splitConjuncts))
    else .filter (.join left right joinType on filter) predicate
  | other => .filter other predicate

mutual

/-- `rewrite_plan`. -/
@[grind =]
def filterIntoJoin : LogicalPlan Q → LogicalPlan Q
  | .window input windowExprs partitionBy orderBy =>
    .window (filterIntoJoin input) windowExprs partitionBy orderBy
  | .filter input predicate => foldFilter (filterIntoJoin input) predicate
  | .scan table projection schema => .scan table projection schema
  | .project input exprs => .project (filterIntoJoin input) exprs
  | .aggregate input groupBy aggregates => .aggregate (filterIntoJoin input) groupBy aggregates
  | .distinct input => .distinct (filterIntoJoin input)
  | .limit input lim offset => .limit (filterIntoJoin input) lim offset
  | .sort input sortExprs => .sort (filterIntoJoin input) sortExprs
  | .union inputs => .union (filterIntoJoins inputs)
  | .setOp left right op all => .setOp (filterIntoJoin left) (filterIntoJoin right) op all
  | .join left right joinType on filter =>
    .join (filterIntoJoin left) (filterIntoJoin right) joinType on filter

/-- The pass on every branch of a union. -/
def filterIntoJoins : List (LogicalPlan Q) → List (LogicalPlan Q)
  | [] => []
  | input :: inputs => filterIntoJoin input :: filterIntoJoins inputs

end

theorem filterIntoJoins_eq_map (inputs : List (LogicalPlan Q)) :
  filterIntoJoins inputs = inputs.map filterIntoJoin
  := by
  induction inputs with
  | nil => rfl
  | cons p inputs ih => rw [filterIntoJoins, ih, map_cons]

/-! ### What a folded filter is -/

/-- The residual filter that holds the old one and the predicate. -/
def mergedFilter (filter : Option (Expr Q)) (predicate : Expr Q) : Expr Q :=
  match residualConjuncts filter ++ predicate.splitConjuncts with
  | [] => predicate
  | first :: rest => rest.foldl (fun acc c => .binary .and acc c) first

theorem combineConjuncts_merged (filter : Option (Expr Q)) (predicate : Expr Q) :
  combineConjuncts (residualConjuncts filter ++ predicate.splitConjuncts) =
    some (mergedFilter filter predicate)
  := by
  unfold mergedFilter
  cases h : residualConjuncts filter ++ predicate.splitConjuncts with
  | nil => exact absurd (append_eq_nil_iff.mp h).2 (splitConjuncts_ne_nil predicate)
  | cons first rest => rfl

/-- A filter above a rewritten input is folded into an eligible join, or stays where it is. -/
theorem foldFilter_cases (input : LogicalPlan Q) (predicate : Expr Q) :
  (∃ left right joinType on filter, input = .join left right joinType on filter ∧
      eligibleJoin joinType = true ∧ foldFilter input predicate =
        .join left right joinType on (some (mergedFilter filter predicate))) ∨
    foldFilter input predicate = .filter input predicate
  := by
  cases input with
  | join left right joinType on filter =>
    rw [foldFilter, combineConjuncts_merged]
    by_cases hjoin : eligibleJoin joinType = true
    · exact .inl ⟨left, right, joinType, on, filter, rfl, hjoin, if_pos hjoin⟩
    · exact .inr (if_neg hjoin)
  | _ => exact .inr rfl

variable {joinType : JoinType}

/-- A plan that the pass turns into a join is that join, or filters above one. -/
theorem filterIntoJoin_eq_join {p left right : LogicalPlan Q}
    (h : filterIntoJoin p = .join left right joinType on filter) :
  (∃ l r, p = .join l r joinType on filter ∧ filterIntoJoin l = left ∧
      filterIntoJoin r = right) ∨
    ∃ input predicate residual, p = .filter input predicate ∧
      filterIntoJoin input = .join left right joinType on residual ∧
      eligibleJoin joinType = true ∧ filter = some (mergedFilter residual predicate)
  := by
  cases p with
  | join l r jt o f =>
    rw [filterIntoJoin, LogicalPlan.join.injEq] at h
    obtain ⟨hl, hr, rfl, rfl, rfl⟩ := h
    exact .inl ⟨l, r, rfl, hl, hr⟩
  | filter input predicate =>
    rw [filterIntoJoin] at h
    obtain ⟨l, r, jt, o, f, hinput, hjoin, hfold⟩ | hfold :=
      foldFilter_cases (filterIntoJoin input) predicate
    · rw [hfold, LogicalPlan.join.injEq] at h
      obtain ⟨rfl, rfl, rfl, rfl, rfl⟩ := h
      exact .inr ⟨input, predicate, f, rfl, hinput, hjoin, rfl⟩
    · rw [hfold] at h
      cases h
  | _ => cases h

/-! ### The contract of a join -/

/-- The contract of a join node. -/
def joinContract (joinType : JoinType) (on : List (Expr Q × Expr Q)) (filter : Option (Expr Q)) :
    Bool :=
  match joinType with
  | .cross => on.isEmpty && filter.isNone
  | _ => !on.isEmpty || filter.isSome

/-- A node that is a join meets the contract. -/
def LogicalPlan.nodeContract : LogicalPlan Q → Bool
  | .join _ _ joinType on residual => joinContract joinType on residual
  | _ => true

/-- Every join of a plan meets the contract. -/
def LogicalPlan.MeetsContract (p : LogicalPlan Q) : Prop :=
  ∀ n ∈ p.nodes, n.nodeContract = true

instance (p : LogicalPlan Q) : Decidable p.MeetsContract :=
  inferInstanceAs (Decidable (∀ n ∈ p.nodes, n.nodeContract = true))

/-- The node is a filter above a `CROSS` join. -/
def LogicalPlan.filtersCross : LogicalPlan Q → Bool
  | .filter (.join _ _ .cross _ _) _ => true
  | _ => false

open LogicalPlan (filtersCross nodeContract)

/-- No filter of the plan stands above a `CROSS` join. -/
def LogicalPlan.CrossUnfiltered (p : LogicalPlan Q) : Prop :=
  ∀ n ∈ p.nodes, n.filtersCross = false

instance (p : LogicalPlan Q) : Decidable p.CrossUnfiltered :=
  inferInstanceAs (Decidable (∀ n ∈ p.nodes, n.filtersCross = false))

theorem meetsContract_iff :
  p.MeetsContract ↔ p.nodeContract = true ∧ ∀ c ∈ p.children, c.MeetsContract
  := forall_nodes

theorem crossUnfiltered_iff :
  p.CrossUnfiltered ↔ p.filtersCross = false ∧ ∀ c ∈ p.children, c.CrossUnfiltered
  := forall_nodes

/-- The pass leaves the root of a rewritten join within the contract, unless it is a `CROSS`. -/
theorem joinContract_of_filterIntoJoin {p left right : LogicalPlan Q} (hp : p.MeetsContract)
    (hjoin : joinType ≠ .cross) (h : filterIntoJoin p = .join left right joinType on filter) :
  joinContract joinType on filter = true
  := by
  obtain ⟨l, r, rfl, -, -⟩ | ⟨input, predicate, residual, rfl, -, -, rfl⟩ :=
    filterIntoJoin_eq_join h
  · exact (meetsContract_iff.mp hp).1
  · unfold joinContract
    split
    · exact absurd rfl hjoin
    · simp

theorem crossUnfiltered_filter {input : LogicalPlan Q} {predicate : Expr Q} :
  (LogicalPlan.filter input predicate).CrossUnfiltered ↔
    (LogicalPlan.filter input predicate).filtersCross = false ∧ input.CrossUnfiltered
  := by
  rw [crossUnfiltered_iff]
  simp

theorem meetsContract_join {left right : LogicalPlan Q} :
  (LogicalPlan.join left right joinType on filter).MeetsContract ↔
    joinContract joinType on filter = true ∧ left.MeetsContract ∧ right.MeetsContract
  := by
  rw [meetsContract_iff]
  simp [nodeContract]

/-- The pass keeps the contract exactly where no filter stands above a `CROSS` join. -/
theorem meetsContract_filterIntoJoin (hp : p.MeetsContract) :
  (filterIntoJoin p).MeetsContract ↔ p.CrossUnfiltered
  := by
  induction p with
  | scan table projection schema =>
    rw [filterIntoJoin, meetsContract_iff, crossUnfiltered_iff]
    simp [nodeContract, filtersCross]
  | filter input predicate ih =>
    have hinput : input.MeetsContract := forall_nodes_child hp (by simp)
    have ih := ih hinput
    rw [filterIntoJoin, crossUnfiltered_filter, ← ih]
    obtain ⟨left, right, joinType, on, filter, hjoined, hjoin, hfold⟩ | hfold :=
      foldFilter_cases (filterIntoJoin input) predicate
    · rw [hfold, hjoined, meetsContract_join, meetsContract_join]
      by_cases hcross : joinType = .cross
      · subst hcross
        -- the residual filter breaks the contract, and the filter stands above the join
        have hnot : joinContract .cross on (some (mergedFilter filter predicate)) = false := by
          simp [joinContract]
        rw [hnot]
        obtain ⟨l, r, rfl, -, -⟩ | ⟨below, q, residual, rfl, -, -, rfl⟩ :=
          filterIntoJoin_eq_join hjoined
        · simp [filtersCross]
        · simp [joinContract]
      · have hroot := joinContract_of_filterIntoJoin hinput hcross hjoined
        have hmerged : joinContract joinType on (some (mergedFilter filter predicate)) = true := by
          unfold joinContract
          split
          · exact absurd rfl hcross
          · simp
        have hunfiltered : (LogicalPlan.filter input predicate).filtersCross = false := by
          obtain ⟨l, r, rfl, -, -⟩ | ⟨below, q, residual, rfl, -, -, rfl⟩ :=
            filterIntoJoin_eq_join hjoined
          · cases joinType <;> first | rfl | exact absurd rfl hcross
          · rfl
        simp [hroot, hmerged, hunfiltered]
    · rw [hfold, meetsContract_iff]
      have hunfiltered : (LogicalPlan.filter input predicate).filtersCross = false := by
        cases input with
        | join l r joinType on filter =>
          cases joinType with
          | cross =>
            cases hfold
          | _ => rfl
        | _ => rfl
      simp [nodeContract, hunfiltered]
  | union inputs ih =>
    have hinputs : ∀ c ∈ inputs, c.MeetsContract := (meetsContract_iff.mp hp).2
    rw [filterIntoJoin, filterIntoJoins_eq_map, meetsContract_iff, crossUnfiltered_iff]
    simp only [nodeContract, filtersCross, LogicalPlan.children,
      forall_mem_map, true_and]
    exact forall₂_congr (fun c hc => ih c hc (hinputs c hc))
  | join left right joinType on filter ihl ihr =>
    obtain ⟨hroot, hl, hr⟩ := meetsContract_join.mp hp
    rw [filterIntoJoin, meetsContract_join, ihl hl, ihr hr,
      crossUnfiltered_iff (p := .join left right joinType on filter)]
    simp [hroot, filtersCross]
  | setOp left right op all ihl ihr =>
    have hchildren := (meetsContract_iff.mp hp).2
    simp only [LogicalPlan.children, forall_mem_cons] at hchildren
    rw [filterIntoJoin, meetsContract_iff, crossUnfiltered_iff]
    simp [nodeContract, filtersCross, ihl hchildren.1, ihr hchildren.2.1]
  | project input _ ih | aggregate input _ _ ih | distinct input ih | limit input _ _ ih
  | sort input _ ih | window input _ _ _ ih =>
    have hinput : input.MeetsContract := forall_nodes_child hp (by simp)
    rw [filterIntoJoin, meetsContract_iff, crossUnfiltered_iff]
    simp [nodeContract, filtersCross, ih hinput]

end CratonBolt
