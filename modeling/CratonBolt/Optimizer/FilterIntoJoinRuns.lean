import CratonBolt.Joins.Dispatch
import CratonBolt.Joins.NestedLoopRows
import CratonBolt.Optimizer.FilterIntoJoinRows

/-!
# Running joins with folded filters

A filter above a join and the residual filter of a join are run by different code: the hash join
or the cross join followed by a filter, or a nested loop, which takes no inputs of more than 1024
rows on both sides. `LogicalPlan.runs` says that the executors take a plan, with what they
ask of the joins and filters in it: the sizes of the inputs, the types of the keys, and predicates
that the host can evaluate. The other operators see the same tables whether a filter is folded or
not, and nothing is asked of them here.

A join that runs on the device as a whole is not asked for keys of the same type. Once a filter is
folded into it, it runs on the host: `RunsFolded` says, of the filter and the join below it, what
the host then asks for.
-/

namespace CratonBolt

open Outcome Joins List Option
open Bool (and_eq_true or_eq_true)
open LogicalPlan (eval height join nodes)

variable {Q : Type}
variable {filter : Option (Expr Q)} {p : LogicalPlan Q} {input : LogicalPlan Q} {rows : List Row}
variable {predicate : Expr Q} {i : JoinInputs}

/-! ### What runs -/

/-- `is_scan_chain`: filters and projections above a scan, which run in one kernel. -/
def LogicalPlan.isScanChain : LogicalPlan Q → Bool
  | .scan _ _ _ => true
  | .filter input _ | .project input _ => input.isScanChain
  | _ => false

/-- A column under any number of aliases. -/
def Expr.isBareColumn : Expr Q → Bool
  | .column _ => true
  | .aliased e _ => e.isBareColumn
  | _ => false

/--
`eligible` of the device pipeline, read off the logical plan: scan chains, `INNER` joins on one
key without a residual filter, and projections of columns.
-/
def LogicalPlan.resident : LogicalPlan Q → Bool
  | .join left right .inner [_] none => left.resident && right.resident
  | .project input exprs =>
    input.isScanChain || (exprs.all Expr.isBareColumn && input.resident)
  | p => p.isScanChain

/-- The machine that plans run on. -/
structure JoinExecutor (Q : Type) where
  /-- The device pipeline answers the plan. -/
  takes : LogicalPlan Q → Bool
  /-- The host evaluator computes the predicate on the rows without an error. -/
  evaluates : Schema → Expr Q → List Row → Bool
  takes_resident : ∀ {p}, takes p = true → p.resident = true
  evaluates_and : ∀ s l r rows,
    evaluates s (.binary .and l r) rows = (evaluates s l rows && evaluates s r rows)

/-- `execute_filter` evaluates the predicate if there are rows. -/
def JoinExecutor.runsFilter (E : JoinExecutor Q) (s : Schema) (predicate : Expr Q)
    (rows : List Row) : Bool :=
  rows.isEmpty || E.evaluates s predicate rows

/-- The names and types of the columns of a schema. -/
def Schema.described (s : Schema) : List (String × ArrowType) :=
  s.fields.map (fun f => (f.name, .plain f.dtype))

/-- The schemas and rows of the inputs of a join, and the rows joined without a residual filter. -/
structure JoinInputs where
  leftSchema : Schema
  rightSchema : Schema
  left : List Row
  right : List Row
  joined : List Row

/--
`execute_join` takes the inputs, and a residual filter evaluates on the rows it is applied to: the
joined rows for an `INNER` join with keys, all pairs of rows in a nested loop.
-/
def JoinExecutor.runsJoin (E : JoinExecutor Q) (joinType : JoinType) (on : List (Expr Q × Expr Q))
    (filter : Option (Expr Q)) (i : JoinInputs) : Bool :=
  admitsJoin joinType (!on.isEmpty) filter.isSome
    (on.all (keyTypesAgree i.leftSchema.described i.rightSchema.described)) i.left.length
    i.right.length &&
  filter.all (fun f => E.runsFilter (joinCombinedSchema i.leftSchema i.rightSchema joinType) f
    (if joinType = .inner ∧ !on.isEmpty then i.joined else crossRows i.left i.right))

open JoinExecutor (runsFilter runsJoin)

section Runs

variable (E : JoinExecutor Q) (B : Builtins) (S : Subqueries Q) (db : Database)

/-- The schema and the rows of the input of a filter. -/
def filterInput (input : LogicalPlan Q) : Option (Schema × List Row) := do
  let rows ← input.eval B S db
  let s ← input.outputSchema S.schema
  some (s, rows)

def joinInputs (left right : LogicalPlan Q) (joinType : JoinType) (on : List (Expr Q × Expr Q)) :
    Option JoinInputs := do
  let ls ← left.eval B S db
  let rs ← right.eval B S db
  let sl ← left.outputSchema S.schema
  let sr ← right.outputSchema S.schema
  let joined ← (LogicalPlan.join left right joinType on none).eval B S db
  some ⟨sl, sr, ls, rs, joined⟩

mutual

/-- The executors take the joins and filters of a plan. -/
@[grind =]
def LogicalPlan.runs : LogicalPlan Q → Bool
  | .scan _ _ _ => true
  | .filter input predicate =>
    input.isScanChain || (input.runs &&
      (filterInput B S db input).any (fun i => E.runsFilter i.1 predicate i.2))
  | .project input exprs => input.isScanChain || E.takes (.project input exprs) || input.runs
  | .aggregate input _ _ | .distinct input | .limit input _ _ | .sort input _
  | .window input _ _ _ => input.runs
  | .union inputs => allRun inputs
  | .setOp left right _ _ => left.runs && right.runs
  | .join left right joinType on residual =>
    E.takes (.join left right joinType on residual) || (left.runs && right.runs &&
      (joinInputs B S db left right joinType on).any (E.runsJoin joinType on residual))

def allRun : List (LogicalPlan Q) → Bool
  | [] => true
  | input :: inputs => input.runs && allRun inputs

end

end Runs

/-! ### Plans on the device -/

theorem filterIntoJoin_of_isScanChain (h : p.isScanChain = true) :
  filterIntoJoin p = p
  := by
  induction p with
  | scan table projection schema => rfl
  | filter input predicate ih =>
    rw [filterIntoJoin, ih h]
    cases input <;> first | rfl | cases h
  | project input exprs ih => rw [filterIntoJoin, ih h]
  | _ => cases h

theorem filterIntoJoin_of_resident (h : p.resident = true) :
  filterIntoJoin p = p
  := by
  fun_induction LogicalPlan.resident p with
  | case1 left right key ihl ihr =>
    rw [and_eq_true] at h
    rw [filterIntoJoin, ihl h.1, ihr h.2]
  | case2 input exprs ih =>
    rw [or_eq_true, and_eq_true] at h
    rw [filterIntoJoin]
    obtain h | h := h
    · rw [filterIntoJoin_of_isScanChain h]
    · rw [ih h.2]
  | case3 p hjoin hproject => exact filterIntoJoin_of_isScanChain h

theorem isScanChain_filterIntoJoin (p : LogicalPlan Q) :
  (filterIntoJoin p).isScanChain = p.isScanChain
  := by
  induction p with
  | filter input predicate ih =>
    rw [filterIntoJoin]
    obtain ⟨left, right, joinType, on, filter, hjoined, -, hfold⟩ | hfold :=
      foldFilter_cases (filterIntoJoin input) predicate
    · rw [hfold, LogicalPlan.isScanChain.eq_2, ← ih, hjoined]
      rfl
    · rw [hfold]
      exact ih
  | project input exprs ih => exact ih
  | _ => rfl

theorem resident_join {left right : LogicalPlan Q} {joinType : JoinType}
    {on : List (Expr Q × Expr Q)} :
  (LogicalPlan.join left right joinType on filter).resident = true ↔
    (joinType = .inner ∧ on.length = 1 ∧ filter = none) ∧ left.resident = true ∧
      right.resident = true
  := by
  constructor
  · intro h
    cases joinType with
    | inner =>
      cases on with
      | nil => cases h
      | cons key rest =>
        cases rest with
        | nil =>
          cases filter with
          | none =>
            rw [LogicalPlan.resident, and_eq_true] at h
            exact ⟨⟨rfl, rfl, rfl⟩, h⟩
          | some f => cases h
        | cons key' rest => cases h
    | _ => cases h
  · rintro ⟨⟨rfl, hon, rfl⟩, hl, hr⟩
    obtain ⟨key, rfl⟩ := length_eq_one_iff.mp hon
    rw [LogicalPlan.resident, hl, hr]
    rfl

/-- A rewritten plan that may run on the device was not changed. -/
theorem filterIntoJoin_eq_self (h : (filterIntoJoin p).resident = true) :
  filterIntoJoin p = p
  := by
  induction p with
  | filter input predicate ih =>
    apply filterIntoJoin_of_isScanChain
    rw [← isScanChain_filterIntoJoin]
    rw [filterIntoJoin] at h ⊢
    obtain ⟨left, right, joinType, on, filter, hjoined, -, hfold⟩ | hfold :=
      foldFilter_cases (filterIntoJoin input) predicate
    · rw [hfold, resident_join] at h
      cases h.1.2.2
    · rw [hfold] at h ⊢
      exact h
  | project input exprs ih =>
    rw [filterIntoJoin, LogicalPlan.resident, or_eq_true, and_eq_true] at h
    rw [filterIntoJoin]
    obtain h | h := h
    · rw [isScanChain_filterIntoJoin] at h
      rw [filterIntoJoin_of_isScanChain h]
    · rw [ih h.2]
  | join left right joinType on filter ihl ihr =>
    rw [filterIntoJoin, resident_join] at h
    rw [filterIntoJoin, ihl h.2.1, ihr h.2.2]
  | scan table projection schema => rfl
  | _ => cases h

/-! ### What a folded filter asks for -/

/-- The inputs, the type and the keys of a join that filters are folded into. -/
def LogicalPlan.joinBelow : LogicalPlan Q →
    Option (LogicalPlan Q × LogicalPlan Q × JoinType × List (Expr Q × Expr Q))
  | .join left right joinType on _ =>
    if eligibleJoin joinType then some (left, right, joinType, on) else none
  | .filter input _ => input.joinBelow
  | _ => none

open LogicalPlan (runs joinBelow)

/--
A node that is a filter above a join, with or without filters between them, has a predicate that
the join could run as its residual filter: the sizes and the keys are those the executor takes,
and the predicate evaluates on the rows it is then applied to.
-/
def JoinExecutor.RunsFolded (E : JoinExecutor Q) (B : Builtins) (S : Subqueries Q) (db : Database) :
    LogicalPlan Q → Prop
  | .filter input predicate => ∀ left right joinType on,
      input.joinBelow = some (left, right, joinType, on) →
        (left.runs E B S db = true ∧ right.runs E B S db = true) ∧
          ∃ i ∈ joinInputs B S db left right joinType on,
            E.runsJoin joinType on (some predicate) i = true
  | _ => True

variable {inputs : List (LogicalPlan Q)}

section Runs

variable {E : JoinExecutor Q} {B : Builtins} {S : Subqueries Q} {db : Database}
  {left right left' right' : LogicalPlan Q} {joinType : JoinType} {on : List (Expr Q × Expr Q)}

theorem joinInputs_eq_some :
  joinInputs B S db left right joinType on = some i ↔
    left.eval B S db = some i.left ∧ right.eval B S db = some i.right ∧
      left.outputSchema S.schema = some i.leftSchema ∧
      right.outputSchema S.schema = some i.rightSchema ∧
      (LogicalPlan.join left right joinType on none).eval B S db = some i.joined
  := by
  simp only [joinInputs, bind_eq_bind, bind_eq_some_iff, some.injEq]
  constructor
  · rintro ⟨ls, hls, rs, hrs, sl, hsl, sr, hsr, joined, hjoined, rfl⟩
    exact ⟨hls, hrs, hsl, hsr, hjoined⟩
  · rintro ⟨hls, hrs, hsl, hsr, hjoined⟩
    exact ⟨_, hls, _, hrs, _, hsl, _, hsr, _, hjoined, rfl⟩

theorem filterInput_eq_some {i : Schema × List Row} :
  filterInput B S db input = some i ↔
    input.outputSchema S.schema = some i.1 ∧ input.eval B S db = some i.2
  := by
  simp only [filterInput, bind_eq_bind, bind_eq_some_iff, some.injEq]
  constructor
  · rintro ⟨rows, hrows, s, hs, rfl⟩
    exact ⟨hs, hrows⟩
  · rintro ⟨hs, hrows⟩
    exact ⟨_, hrows, _, hs, rfl⟩

theorem joinInputs_filterIntoJoin (hl : left.Reassociates) (hr : right.Reassociates)
    (h : joinInputs B S db left right joinType on = some i) :
  joinInputs B S db (filterIntoJoin left) (filterIntoJoin right) joinType on = some i
  := by
  have hl' : Refines B S db left (filterIntoJoin left) := (refinesIf_filterIntoJoin left).refines hl
  have hr' : Refines B S db right (filterIntoJoin right) :=
    (refinesIf_filterIntoJoin right).refines hr
  rw [joinInputs_eq_some] at h ⊢
  obtain ⟨hls, hrs, hsl, hsr, hjoined⟩ := h
  exact ⟨hl'.rows _ hls, hr'.rows _ hrs, hl'.schema _ hsl, hr'.schema _ hsr,
    (hl'.join hr' joinType on none).rows _ hjoined⟩

/-- A residual filter evaluates as the filters do that it was merged from. -/
theorem runsFilter_merged {s : Schema} :
  E.runsFilter s (mergedFilter filter predicate) rows =
    (filter.all (fun f => E.runsFilter s f rows) && E.runsFilter s predicate rows)
  := by
  unfold runsFilter
  rw [mergedFilter_eq_and (f := fun e => E.evaluates s e rows)
    (fun l r => E.evaluates_and s l r rows)]
  cases rows.isEmpty <;> cases filter <;> simp

/-- A join runs with a merged filter if it runs with each filter it was merged from. -/
theorem runsJoin_merged :
  E.runsJoin joinType on (some (mergedFilter filter predicate)) i =
    (filter.all (fun f => E.runsJoin joinType on (some f) i) &&
      E.runsJoin joinType on (some predicate) i)
  := by
  simp only [runsJoin, isSome_some, all_some, runsFilter_merged]
  cases filter with
  | none => simp
  | some f =>
    rw [all_some, all_some]
    grind

/-- The pass leaves a join where there is one below filters, or the join itself. -/
theorem exists_filterIntoJoin_of_joinBelow
    (h : input.joinBelow = some (left, right, joinType, on)) :
  eligibleJoin joinType = true ∧ ∃ filter, filterIntoJoin input =
    .join (filterIntoJoin left) (filterIntoJoin right) joinType on filter
  := by
  induction input with
  | join l r jt o f =>
    obtain ⟨hjoin, h⟩ := ite_none_right_eq_some.mp h
    injection h with h
    cases h
    exact ⟨hjoin, f, rfl⟩
  | filter input predicate ih =>
    obtain ⟨hjoin, filter, hfold⟩ := ih h
    refine ⟨hjoin, some (mergedFilter filter predicate), ?_⟩
    rw [filterIntoJoin, hfold, foldFilter, if_pos hjoin, combineConjuncts_merged]
  | _ => cases h

theorem exists_joinBelow (hjoin : eligibleJoin joinType = true)
    (h : filterIntoJoin input = .join left' right' joinType on filter) :
  ∃ left right, input.joinBelow = some (left, right, joinType, on) ∧
    filterIntoJoin left = left' ∧ filterIntoJoin right = right'
  := by
  induction input generalizing filter with
  | filter input predicate ih =>
    obtain ⟨l, r, hp, -⟩ | ⟨_, _, residual, hp, hinput, -, -⟩ := filterIntoJoin_eq_join h
    · cases hp
    · cases hp
      exact ih hinput
  | join l r jt o f =>
    obtain ⟨l', r', hp, hl, hr⟩ | ⟨_, _, _, hp, -⟩ := filterIntoJoin_eq_join h
    · cases hp
      exact ⟨l, r, if_pos hjoin, hl, hr⟩
    · cases hp
  | _ => cases h

/-- A filter that is not folded stands above no join that it could be folded into. -/
theorem runsFolded_of_foldFilter
    (h : foldFilter (filterIntoJoin input) predicate = .filter (filterIntoJoin input) predicate) :
  E.RunsFolded B S db (.filter input predicate)
  := by
  intro left right joinType on hbelow
  obtain ⟨hjoin, filter, hfold⟩ := exists_filterIntoJoin_of_joinBelow hbelow
  rw [hfold, foldFilter, if_pos hjoin] at h
  cases h

theorem reassociates_joinBelow (h : input.Reassociates)
    (hbelow : input.joinBelow = some (left, right, joinType, on)) :
  left.Reassociates ∧ right.Reassociates
  := by
  induction input with
  | join l r jt o f =>
    obtain ⟨-, hbelow⟩ := ite_none_right_eq_some.mp hbelow
    cases hbelow
    exact ⟨forall_nodes_child h (by simp), forall_nodes_child h (by simp)⟩
  | filter input predicate ih => exact ih (forall_nodes_child h (by simp)) hbelow
  | _ => cases hbelow

theorem joinBelow_of_isScanChain (h : p.isScanChain = true) :
  p.joinBelow = none
  := by
  induction p with
  | filter input predicate ih => exact ih h
  | join left right joinType on filter => cases h
  | _ => rfl

/-- The inputs of a join below filters run, or the join is one that runs on the device. -/
theorem runs_joinBelow (h : input.runs E B S db = true)
    (hbelow : input.joinBelow = some (left, right, joinType, on)) :
  (left.runs E B S db = true ∧ right.runs E B S db = true) ∨
    (filterIntoJoin left = left ∧ filterIntoJoin right = right)
  := by
  induction input with
  | join l r jt o f =>
    obtain ⟨-, hbelow⟩ := ite_none_right_eq_some.mp hbelow
    cases hbelow
    rw [runs, or_eq_true, and_eq_true, and_eq_true] at h
    obtain htakes | h := h
    · obtain ⟨-, hl, hr⟩ := resident_join.mp (E.takes_resident htakes)
      exact .inr ⟨filterIntoJoin_of_resident hl, filterIntoJoin_of_resident hr⟩
    · exact .inl h.1
  | filter input predicate ih =>
    rw [runs, or_eq_true, and_eq_true] at h
    obtain hchain | h := h
    · rw [joinBelow, joinBelow_of_isScanChain hchain] at hbelow
      cases hbelow
    · exact ih h.1 hbelow
  | _ => cases hbelow

/-- A join below filters that return rows has inputs that return rows. -/
theorem exists_joinInputs (h : input.eval B S db = some rows)
    (hbelow : input.joinBelow = some (left, right, joinType, on)) :
  ∃ i, joinInputs B S db left right joinType on = some i
  := by
  induction input generalizing rows with
  | join l r jt o f =>
    obtain ⟨-, hbelow⟩ := ite_none_right_eq_some.mp hbelow
    cases hbelow
    obtain ⟨j, -, -⟩ := eval_join_eq_some.mp h
    exact ⟨⟨j.sl, j.sr, j.ls, j.rs, j.result none⟩, joinInputs_eq_some.mpr ⟨j.left_rows,
      j.right_rows, j.left_schema, j.right_schema, eval_join_eq_some.mpr ⟨j, nofun, rfl⟩⟩⟩
  | filter input predicate ih =>
    obtain ⟨s, below, -, hinput, -⟩ := eval_filter_eq_some.mp h
    exact ih hinput hbelow
  | _ => cases hbelow

/-- The filters of a plan ask for nothing more once they are folded. -/
def LogicalPlan.RunsFolded (E : JoinExecutor Q) (B : Builtins) (S : Subqueries Q) (db : Database)
    (p : LogicalPlan Q) : Prop :=
  ∀ n ∈ p.nodes, E.RunsFolded B S db n

theorem runsFolded_iff {p : LogicalPlan Q} :
  p.RunsFolded E B S db ↔
    E.RunsFolded B S db p ∧ ∀ c ∈ p.children, c.RunsFolded E B S db
  := forall_nodes

theorem runsFolded_of_isScanChain (h : p.isScanChain = true) :
  p.RunsFolded E B S db
  := by
  induction p with
  | scan table projection schema =>
    rw [runsFolded_iff]
    exact ⟨trivial, by simp⟩
  | filter input predicate ih =>
    rw [runsFolded_iff]
    refine ⟨fun left right joinType on hbelow => ?_, by simpa using ih h⟩
    have hnone : input.joinBelow = none := joinBelow_of_isScanChain h
    rw [hnone] at hbelow
    cases hbelow
  | project input exprs ih =>
    rw [runsFolded_iff]
    exact ⟨trivial, by simpa using ih h⟩
  | _ => cases h

/-- No filter of a plan for the device stands above a join. -/
theorem runsFolded_of_resident (h : p.resident = true) :
  p.RunsFolded E B S db
  := by
  fun_induction LogicalPlan.resident p with
  | case1 left right key ihl ihr =>
    rw [and_eq_true] at h
    rw [runsFolded_iff]
    exact ⟨trivial, by simpa using ⟨ihl h.1, ihr h.2⟩⟩
  | case2 input exprs ih =>
    rw [or_eq_true, and_eq_true] at h
    rw [runsFolded_iff]
    refine ⟨trivial, ?_⟩
    obtain h | h := h
    · simpa using runsFolded_of_isScanChain h
    · simpa using ih h.2
  | case3 p hjoin hproject => exact runsFolded_of_isScanChain h

/-- The inputs of a join below filters still run where they did, or were not changed. -/
theorem runs_of_filterIntoJoin
    (h : (left.runs E B S db = true ∧ right.runs E B S db = true) ∨
      (filterIntoJoin left = left ∧ filterIntoJoin right = right))
    (hl : (filterIntoJoin left).runs E B S db = true)
    (hr : (filterIntoJoin right).runs E B S db = true) :
  left.runs E B S db = true ∧ right.runs E B S db = true
  := by
  obtain h | ⟨hleft, hright⟩ := h
  · exact h
  · rw [hleft] at hl
    rw [hright] at hr
    exact ⟨hl, hr⟩

/-- A join below filters that is left without a residual filter is one that ran. -/
theorem runsJoin_none
    (hbelow : input.joinBelow = some (left, right, joinType, on))
    (hfold : filterIntoJoin input =
      .join (filterIntoJoin left) (filterIntoJoin right) joinType on none)
    (hruns : input.runs E B S db = true)
    (hi : joinInputs B S db left right joinType on = some i) :
  E.takes (.join (filterIntoJoin left) (filterIntoJoin right) joinType on none) = true ∨
    E.runsJoin joinType on none i = true
  := by
  obtain ⟨l, r, rfl, -, -⟩ | ⟨_, _, residual, -, -, -, hnone⟩ := filterIntoJoin_eq_join hfold
  · obtain ⟨-, hbelow⟩ := ite_none_right_eq_some.mp hbelow
    cases hbelow
    rw [runs, hi, any_some, or_eq_true, and_eq_true] at hruns
    obtain htakes | hruns := hruns
    · rw [← hfold, filterIntoJoin_of_resident (E.takes_resident htakes)]
      exact .inl htakes
    · exact .inr hruns.2
  · cases hnone

/-- A filter folded into a join leaves a join that runs if the filter could run in its place. -/
theorem runs_mergedFilter_iff
    (hbelow : input.joinBelow = some (left, right, joinType, on))
    (hfold : filterIntoJoin input =
      .join (filterIntoJoin left) (filterIntoJoin right) joinType on filter)
    (hsites : input.Reassociates) (hruns : input.runs E B S db = true)
    (hrows : input.eval B S db = some rows) :
  (LogicalPlan.join (filterIntoJoin left) (filterIntoJoin right) joinType on
      (some (mergedFilter filter predicate))).runs E B S db = true ↔
    E.RunsFolded B S db (.filter input predicate) ∧ (filterIntoJoin input).runs E B S db = true
  := by
  obtain ⟨hl, hr⟩ := reassociates_joinBelow hsites hbelow
  obtain ⟨i, hi⟩ := exists_joinInputs hrows hbelow
  have hi' := joinInputs_filterIntoJoin hl hr hi
  have htakes : ∀ f : Expr Q, E.takes (.join (filterIntoJoin left) (filterIntoJoin right) joinType
      on (some f)) = false := by
    intro f
    rw [Bool.eq_false_iff]
    intro htakes
    cases (resident_join.mp (E.takes_resident htakes)).1.2.2
  have hnode : E.RunsFolded B S db (.filter input predicate) ↔
      (left.runs E B S db = true ∧ right.runs E B S db = true) ∧
        E.runsJoin joinType on (some predicate) i = true := by
    simp only [JoinExecutor.RunsFolded, hbelow, some.injEq, Prod.mk.injEq, and_imp]
    constructor
    · intro h
      simpa [hi] using h left right joinType on rfl rfl rfl rfl
    · rintro h _ _ _ _ rfl rfl rfl rfl
      simpa [hi] using h
  rw [hnode, hfold, runs, runs, htakes, hi', Bool.false_or, any_some, any_some, runsJoin_merged]
  simp only [and_eq_true, or_eq_true]
  constructor
  · rintro ⟨⟨hl', hr'⟩, hf, hp⟩
    refine ⟨⟨runs_of_filterIntoJoin (runs_joinBelow hruns hbelow) hl' hr', hp⟩, ?_⟩
    cases filter with
    | none => exact (runsJoin_none hbelow hfold hruns hi).imp_right (fun h => ⟨⟨hl', hr'⟩, h⟩)
    | some f => exact .inr ⟨⟨hl', hr'⟩, hf⟩
  · rintro ⟨⟨⟨hl', hr'⟩, hp⟩, htakes' | ⟨hbelow', hf⟩⟩
    · -- the join runs on the device, so that its inputs are those of the plan
      obtain ⟨⟨-, -, rfl⟩, hres, hres'⟩ := resident_join.mp (E.takes_resident htakes')
      rw [filterIntoJoin_eq_self hres, filterIntoJoin_eq_self hres']
      exact ⟨⟨hl', hr'⟩, rfl, hp⟩
    · cases filter with
      | none => exact ⟨hbelow', rfl, hp⟩
      | some f => exact ⟨hbelow', hf, hp⟩

theorem not_takes (h : ¬ p.resident = true) :
  E.takes p = false
  := Bool.eq_false_iff.mpr (fun htakes => h (E.takes_resident htakes))

theorem not_resident_filterIntoJoin (h : ¬ p.resident = true) :
  ¬ (filterIntoJoin p).resident = true
  := by
  intro hresident
  rw [filterIntoJoin_eq_self hresident] at hresident
  exact h hresident

theorem allRun_eq_true :
  allRun E B S db inputs = true ↔ ∀ p ∈ inputs, p.runs E B S db = true
  := by
  induction inputs with
  | nil => simp [allRun]
  | cons p inputs ih => simp [allRun, ih]

/-- A plan that the executors take is still one after its filters are folded, exactly if the
joins could run the filters. -/
theorem runs_filterIntoJoin_iff (hsites : p.Reassociates) (hruns : p.runs E B S db = true) :
  (filterIntoJoin p).runs E B S db = true ↔ p.RunsFolded E B S db
  := by
  induction p with
  | scan table projection schema =>
    exact iff_of_true rfl (runsFolded_of_isScanChain rfl)
  | filter input predicate ih =>
    by_cases hchain : input.isScanChain = true
    · rw [filterIntoJoin_of_isScanChain (p := .filter input predicate) hchain]
      exact iff_of_true hruns (runsFolded_of_isScanChain hchain)
    rw [runs, or_eq_true, and_eq_true] at hruns
    obtain ⟨hinput, hfilter⟩ := hruns.resolve_left hchain
    have hbelow : input.Reassociates := forall_nodes_child hsites (by simp)
    obtain ⟨⟨s, rows⟩, hi, hp⟩ := (any_eq_true _ _).mp hfilter
    obtain ⟨hs, hrows⟩ := filterInput_eq_some.mp hi
    have hnode : (LogicalPlan.filter input predicate).RunsFolded E B S db ↔
        E.RunsFolded B S db (.filter input predicate) ∧ input.RunsFolded E B S db := by
      rw [runsFolded_iff]
      simp
    rw [filterIntoJoin, hnode, ← ih hbelow hinput]
    obtain ⟨left', right', joinType, on, filter, hjoined, hjoin, hfold⟩ | hfold :=
      foldFilter_cases (filterIntoJoin input) predicate
    · obtain ⟨left, right, hjoinBelow, rfl, rfl⟩ := exists_joinBelow hjoin hjoined
      rw [hfold]
      exact runs_mergedFilter_iff hjoinBelow hjoined hbelow hinput hrows
    · rw [and_iff_right (runsFolded_of_foldFilter hfold), hfold, runs, isScanChain_filterIntoJoin,
        or_eq_true, and_eq_true, or_iff_right hchain, and_iff_left]
      have hrefines : Refines B S db input (filterIntoJoin input) :=
        (refinesIf_filterIntoJoin input).refines hbelow
      exact (any_eq_true _ _).mpr ⟨(s, rows), filterInput_eq_some.mpr
        ⟨hrefines.schema _ hs, hrefines.rows _ hrows⟩, hp⟩
  | project input exprs ih =>
    have hnode : (LogicalPlan.project input exprs).RunsFolded E B S db ↔
        input.RunsFolded E B S db := by
      rw [runsFolded_iff]
      simp [JoinExecutor.RunsFolded]
    by_cases hresident : (LogicalPlan.project input exprs).resident = true
    · rw [filterIntoJoin_of_resident hresident]
      exact iff_of_true hruns (runsFolded_of_resident hresident)
    rw [runs, not_takes hresident, Bool.or_false, or_eq_true] at hruns
    rw [filterIntoJoin, runs, ← filterIntoJoin, not_takes (not_resident_filterIntoJoin hresident),
      Bool.or_false, or_eq_true, isScanChain_filterIntoJoin, hnode]
    by_cases hchain : input.isScanChain = true
    · exact iff_of_true (.inl hchain) (runsFolded_of_isScanChain hchain)
    · rw [or_iff_right hchain]
      exact ih (forall_nodes_child hsites (by simp)) (hruns.resolve_left hchain)
  | join left right joinType on filter ihl ihr =>
    have hnode : (LogicalPlan.join left right joinType on filter).RunsFolded E B S db ↔
        left.RunsFolded E B S db ∧ right.RunsFolded E B S db := by
      rw [runsFolded_iff]
      simp [JoinExecutor.RunsFolded]
    have hl : left.Reassociates := forall_nodes_child hsites (by simp)
    have hr : right.Reassociates := forall_nodes_child hsites (by simp)
    by_cases hresident : (LogicalPlan.join left right joinType on filter).resident = true
    · rw [filterIntoJoin_of_resident hresident]
      exact iff_of_true hruns (runsFolded_of_resident hresident)
    rw [runs, not_takes hresident, Bool.false_or, and_eq_true, and_eq_true,
      Option.any_eq_true] at hruns
    obtain ⟨⟨hleft, hright⟩, i, hi, hrun⟩ := hruns
    rw [filterIntoJoin, runs, ← filterIntoJoin, not_takes (not_resident_filterIntoJoin hresident),
      Bool.false_or, joinInputs_filterIntoJoin hl hr hi, any_some, hrun, Bool.and_true,
      and_eq_true, ihl hl hleft, ihr hr hright, hnode]
  | setOp left right op all ihl ihr =>
    rw [runs, and_eq_true] at hruns
    rw [filterIntoJoin, runs, and_eq_true, ihl (forall_nodes_child hsites (by simp)) hruns.1,
      ihr (forall_nodes_child hsites (by simp)) hruns.2,
      runsFolded_iff (p := .setOp left right op all)]
    simp [JoinExecutor.RunsFolded]
  | union inputs ih =>
    rw [runs, allRun_eq_true] at hruns
    rw [filterIntoJoin, filterIntoJoins_eq_map, runs, allRun_eq_true, List.forall_mem_map,
      runsFolded_iff, and_iff_right (show E.RunsFolded B S db (.union inputs) from trivial)]
    exact forall₂_congr fun p hp => ih p hp (forall_nodes_child hsites hp) (hruns p hp)
  | aggregate input _ _ ih | distinct input ih | limit input _ _ ih | sort input _ ih
  | window input _ _ _ ih =>
    refine (ih (forall_nodes_child hsites (by simp)) hruns).trans ?_
    conv_rhs => rw [runsFolded_iff]
    simp [JoinExecutor.RunsFolded]

end Runs

/-! ### The pass as a whole -/

theorem height_foldFilter_le (input : LogicalPlan Q) (predicate : Expr Q) :
  (foldFilter input predicate).height ≤ input.height + 1
  := by
  obtain ⟨left, right, joinType, on, filter, hjoined, -, hfold⟩ | hfold :=
    foldFilter_cases input predicate
  · rw [hfold, hjoined, height, height]
    omega
  · rw [hfold, height]

theorem heights_map_le {f : LogicalPlan Q → LogicalPlan Q}
    (h : ∀ p ∈ inputs, (f p).height ≤ p.height) :
  heights (inputs.map f) ≤ heights inputs
  := by
  induction inputs with
  | nil => exact le_rfl
  | cons p inputs ih =>
    rw [forall_mem_cons] at h
    have := ih h.2
    have := h.1
    simp only [map_cons, heights]
    omega

theorem height_filterIntoJoin_le (p : LogicalPlan Q) :
  (filterIntoJoin p).height ≤ p.height
  := by
  induction p with
  | scan table projection schema => exact le_rfl
  | filter input predicate ih =>
    have hfold := height_foldFilter_le (filterIntoJoin input) predicate
    simp only [filterIntoJoin, height] at hfold ⊢
    omega
  | union inputs ih =>
    have hle := heights_map_le ih
    simp only [filterIntoJoin, filterIntoJoins_eq_map, height]
    omega
  | setOp left right op all ihl ihr | join left right joinType on filter ihl ihr =>
    simp only [filterIntoJoin, height]
    omega
  | project input _ ih | aggregate input _ _ ih | distinct input ih | limit input _ _ ih
  | sort input _ ih | window input _ _ _ ih =>
    simp only [filterIntoJoin, height]
    omega

/-- The pass makes no plan higher, so that it keeps the schema that is found within the limit. -/
theorem schema_filterIntoJoin {sub : Q → Nat → BoltResult Schema}
    (h : ∀ s, p.outputSchema sub = some s → (filterIntoJoin p).outputSchema sub = some s) :
  ∀ s, p.schema sub = .ok s → (filterIntoJoin p).schema sub = .ok s
  := by
  intro s hs
  obtain ⟨hout, hheight⟩ := (schemaDepth_eq_ok_iff sub p 0 s).mp hs
  have hle := height_filterIntoJoin_le p
  exact (schemaDepth_eq_ok_iff sub _ 0 s).mpr ⟨h s hout, by omega⟩

/-- A machine without a device pipeline whose evaluator knows every expression. -/
def hostExecutor : JoinExecutor Q where
  takes _ := false
  evaluates _ _ _ := true
  takes_resident h := nomatch h
  evaluates_and _ _ _ _ := rfl

/-- A database in which every table has the given number of rows, of ones, twos, and so on. -/
def countedRows (n : Nat) : Database := fun _ => ⟨n, fun i _ => .int64 (Int64.ofNat (i + 1))⟩

/-- No `CROSS` join with a residual filter returns on two tables of more than 1024 rows. -/
theorem executeJoin_cross_refuses {device : Device} {other : Batch → Expr Q → BoltResult Truths}
    {lhs rhs : Batch} {on : List (Expr Q × Expr Q)} {f : Expr Q} {schema : Schema}
    (hl : maxNestedLoopInnerRows < lhs.numRows) (hr : maxNestedLoopInnerRows < rhs.numRows)
    (rows : List Row) :
  executeJoin device other lhs rhs .cross on (some f) schema ≠ .ok rows
  := by
  intro h
  have hadmits := executeJoin_admits h
  simp only [admitsJoin, admitsNestedLoop, isSome_some, reduceCtorEq, decide_false,
    Bool.false_and, Bool.not_false, Bool.and_self, if_true, and_eq_true,
    decide_eq_true_eq] at hadmits
  omega

/-- `SELECT * FROM l CROSS JOIN r WHERE a < b`. -/
def filteredCrossJoin : LogicalPlan Empty :=
  .filter (.join (intScan "l" ["a"]) (intScan "r" ["b"]) .cross [] none)
    (.binary .lt (.column "a") (.column "b"))

end CratonBolt
