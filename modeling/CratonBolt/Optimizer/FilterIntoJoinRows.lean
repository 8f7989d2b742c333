import CratonBolt.Optimizer.FilterIntoJoin
import CratonBolt.Semantics.NodeSchemas

/-!
# Rows of joins with folded filters

A filter above an `INNER` or a `CROSS` join keeps the pairs of rows on which the predicate is
true, so that the predicate may be part of the condition of the join. The conjuncts are put
together from the left: what can go wrong is that this conjoins two bare `NULL`s, which have no
type.
-/

namespace CratonBolt

open Outcome List Option
open LogicalPlan (eval outputSchema)

variable {Q : Type} {B : Builtins} {S : Subqueries Q} {db : Database}
variable {filter : Option (Expr Q)} {predicate : Expr Q} {e : Expr Q}
variable {f : LogicalPlan Q → LogicalPlan Q} {inputs : List (LogicalPlan Q)}

/-! ### Tests that distribute over `AND` -/

section Distributes

variable {f : Expr Q → Bool}

/-- Such a test passes the merged filter if it passes the old one and the predicate. -/
theorem mergedFilter_eq_and (hf : ∀ l r, f (.binary .and l r) = (f l && f r))
    (filter : Option (Expr Q)) (predicate : Expr Q) :
  f (mergedFilter filter predicate) = (filter.all f && f predicate)
  := by
  have hall : (residualConjuncts filter ++ predicate.splitConjuncts).all f =
      (filter.all f && f predicate) := by
    rw [all_append, all_splitConjuncts hf]
    cases filter with
    | none => rfl
    | some e => rw [residualConjuncts, all_splitConjuncts hf, all_some]
  rw [← hall]
  have hmerged := combineConjuncts_merged filter predicate
  cases hcs : residualConjuncts filter ++ predicate.splitConjuncts with
  | nil => exact absurd (append_eq_nil_iff.mp hcs).2 (splitConjuncts_ne_nil predicate)
  | cons first rest =>
    rw [hcs, combineConjuncts] at hmerged
    injection hmerged with hmerged
    rw [← hmerged, foldl_and_eq_all hf, all_cons]

end Distributes

/-! ### Conjunctions put together from the left -/

/-- The expression does not begin with two conjuncts that are bare `NULL`s. -/
def Expr.reassociates (e : Expr Q) : Bool :=
  match e.splitConjuncts with
  | first :: second :: _ => !(first.isNullLit && second.isNullLit)
  | _ => true

section Typing

variable {sub : Q → Nat → BoltResult Schema} {s : Schema}

theorem combineConjuncts_append {cs ds : List (Expr Q)} {g : Expr Q}
    (h : combineConjuncts cs = some g) :
  combineConjuncts (cs ++ ds) = some (ds.foldl (fun acc c => .binary .and acc c) g)
  := by
  cases cs with
  | nil => cases h
  | cons first rest =>
    injection h with h
    rw [cons_append, combineConjuncts, foldl_append, h]

theorem eq_of_splitConjuncts_singleton {e c : Expr Q} (h : e.splitConjuncts = [c]) :
  c = e
  := by
  fun_induction Expr.splitConjuncts e with
  | case1 left right _ _ =>
    have hlen := congrArg length h
    have hl := length_pos_iff.mpr (splitConjuncts_ne_nil left)
    have hr := length_pos_iff.mpr (splitConjuncts_ne_nil right)
    rw [length_append, length_singleton] at hlen
    omega
  | case2 e hne =>
    injection h with h
    exact h.symm

theorem splitConjuncts_of_isNullLit (h : e.isNullLit = true) :
  e.splitConjuncts = [e]
  := by
  cases e with
  | literal lit => rfl
  | _ => cases h

/-- What a conjunction from the left begins with is a bare `NULL` or a truth value. -/
theorem nullOrBool_of_dtype_foldl {rest : List (Expr Q)} {first : Expr Q}
    (h : (rest.foldl (fun acc c => Expr.binary .and acc c) first).dtype sub s = .ok .bool) :
  first.NullOrBool sub s
  := by
  induction rest generalizing first with
  | nil => exact .inr h
  | cons c rest ih =>
    obtain hnull | ht := ih h
    · cases hnull
    · exact (Expr.dtype_and_iff.mp ht).1

/-- A truth value put together from the left does not begin with two bare `NULL`s. -/
theorem reassociates_of_dtype {g : Expr Q} (cs : List (Expr Q))
    (hg : combineConjuncts (e.splitConjuncts ++ cs) = some g) (ht : g.dtype sub s = .ok .bool) :
  e.reassociates = true
  := by
  unfold Expr.reassociates
  split
  · rename_i first second rest hcs
    rw [hcs, cons_append, cons_append, combineConjuncts, foldl_cons, Option.some.injEq] at hg
    rw [← hg] at ht
    obtain hnull | hand := nullOrBool_of_dtype_foldl ht
    · cases hnull
    · rw [Bool.not_eq_true', (Expr.dtype_and_iff.mp hand).2.2]
  · rfl

theorem dtype_of_reassociates {g : Expr Q} (ht : e.dtype sub s = .ok .bool)
    (hg : combineConjuncts e.splitConjuncts = some g) (h : e.reassociates = true) :
  g.dtype sub s = .ok .bool
  := by
  have hall := nullOrBool_of_mem_splitConjuncts (e := e) (.inr ht)
  unfold Expr.reassociates at h
  cases hcs : e.splitConjuncts with
  | nil => exact absurd hcs (splitConjuncts_ne_nil e)
  | cons first rest =>
    rw [hcs] at h hall hg
    injection hg with hg
    subst hg
    cases rest with
    | nil =>
      rw [foldl_nil, eq_of_splitConjuncts_singleton hcs]
      exact ht
    | cons second rest =>
      simp only [forall_mem_cons] at hall
      apply dtype_foldl_nullOrBool _ hall.2.2
      exact Expr.dtype_and_iff.mpr ⟨hall.1, hall.2.1, by simpa only [Bool.not_eq_true'] using h⟩

/-- The conjuncts of a merged filter are those it was put together from. -/
theorem splitConjuncts_mergedFilter (filter : Option (Expr Q)) (predicate : Expr Q) :
  (mergedFilter filter predicate).splitConjuncts =
    residualConjuncts filter ++ predicate.splitConjuncts
  := by
  have hatomic : ∀ c ∈ residualConjuncts filter ++ predicate.splitConjuncts,
      c.splitConjuncts = [c] := by
    intro c hc
    obtain hc | hc := mem_append.mp hc
    · cases filter with
      | none => cases hc
      | some e => exact mem_splitConjuncts_atomic hc
    · exact mem_splitConjuncts_atomic hc
  have hmerged := combineConjuncts_merged filter predicate
  cases hcs : residualConjuncts filter ++ predicate.splitConjuncts with
  | nil => exact absurd (append_eq_nil_iff.mp hcs).2 (splitConjuncts_ne_nil predicate)
  | cons first rest =>
    rw [hcs, forall_mem_cons] at hatomic
    rw [hcs, combineConjuncts] at hmerged
    injection hmerged with hmerged
    rw [← hmerged, splitConjuncts_foldl hatomic.2, hatomic.1, singleton_append]

/-- The merged filter is a truth value exactly if what its conjuncts begin with allows it. -/
theorem dtype_mergedFilter_iff (hp : predicate.dtype sub s = .ok .bool)
    (hf : ∀ f ∈ filter, f.dtype sub s = .ok .bool) :
  (mergedFilter filter predicate).dtype sub s = .ok .bool ↔
    (filter.getD predicate).reassociates = true
  := by
  have hmerged := combineConjuncts_merged filter predicate
  cases filter with
  | none =>
    constructor
    · exact reassociates_of_dtype [] (by rwa [append_nil])
    · exact dtype_of_reassociates hp hmerged
  | some f =>
    refine ⟨reassociates_of_dtype _ hmerged, fun h => ?_⟩
    obtain ⟨g, hg⟩ : ∃ g, combineConjuncts f.splitConjuncts = some g := by
      cases hcs : f.splitConjuncts with
      | nil => exact absurd hcs (splitConjuncts_ne_nil f)
      | cons first rest => exact ⟨_, rfl⟩
    rw [residualConjuncts, combineConjuncts_append hg, Option.some.injEq] at hmerged
    rw [← hmerged]
    exact dtype_foldl_nullOrBool (dtype_of_reassociates (hf f rfl) hg h)
      (nullOrBool_of_mem_splitConjuncts (.inr hp))

/-- A merged filter that has a type may be merged again. -/
theorem reassociates_mergedFilter (h : (mergedFilter filter predicate).dtype sub s = .ok .bool) :
  (mergedFilter filter predicate).reassociates = true
  := by
  apply reassociates_of_dtype [] _ h
  rw [append_nil, splitConjuncts_mergedFilter, combineConjuncts_merged]

/-- What a filter was merged into has a type where the merged filter has one. -/
theorem dtype_of_dtype_mergedFilter {residual : Option (Expr Q)} {inner : Expr Q}
    (hinner : inner.dtype sub s = .ok .bool)
    (h : (mergedFilter (some (mergedFilter residual inner)) predicate).dtype sub s = .ok .bool) :
  (mergedFilter residual inner).dtype sub s = .ok .bool
  := by
  have hmerged := combineConjuncts_merged (some (mergedFilter residual inner)) predicate
  rw [residualConjuncts, splitConjuncts_mergedFilter,
    combineConjuncts_append (combineConjuncts_merged residual inner), Option.some.injEq] at hmerged
  rw [← hmerged] at h
  refine (nullOrBool_of_dtype_foldl h).resolve_left fun hnull => ?_
  -- a bare `NULL` has one conjunct, which is then all of the inner filter
  have hsplit := splitConjuncts_mergedFilter residual inner
  rw [splitConjuncts_of_isNullLit hnull] at hsplit
  obtain ⟨-, hsplit⟩ | ⟨-, hsplit⟩ := append_eq_singleton_iff.mp hsplit.symm
  · rw [eq_of_splitConjuncts_singleton hsplit, Expr.isNullLit_of_dtype hinner] at hnull
    cases hnull
  · exact splitConjuncts_ne_nil inner hsplit

end Typing

/-! ### The rows of a join -/

variable {joinType : JoinType} {combined : Schema} {on : List (Expr Q × Expr Q)}

/-- A filter above a join without missing sides is part of its condition. -/
theorem filter_joinRows (hjoin : eligibleJoin joinType = true)
    {m : Row → Row → Bool} {p : Row → Bool} {leftWidth rightWidth : Nat} (ls rs : List Row) :
  (joinRows leftWidth rightWidth joinType m ls rs).filter p =
    joinRows leftWidth rightWidth joinType (fun a b => m a b && p (a ++ b)) ls rs
  := by
  have hnull : joinType.rightMayNull = false ∧ joinType.leftMayNull = false := by
    cases joinType <;> first | exact ⟨rfl, rfl⟩ | cases hjoin
  rw [joinRows, joinRows, hnull.1, hnull.2, List.filter_map]
  congr 1
  rw [ListJoin.filter_outerJoin_inner]
  rfl

theorem joinFilterCondition_eq_some {q : Row → Row → Bool} :
  joinFilterCondition B S combined filter = some q ↔
    (∀ f ∈ filter, f.checked S combined = some .bool) ∧
      q = fun a b => filter.all (fun f => f.holds B S combined (a ++ b))
  := by
  cases filter with
  | none => simp [joinFilterCondition, eq_comm]
  | some f =>
    rw [joinFilterCondition]
    by_cases hf : f.checked S combined = some .bool
    · simp [hf, eq_comm]
    · simp [hf]

/-- The parts of a join that returns rows. -/
structure Joined (B : Builtins) (S : Subqueries Q) (db : Database) (left right : LogicalPlan Q)
    (joinType : JoinType) (on : List (Expr Q × Expr Q)) where
  ls : List Row
  rs : List Row
  sl : Schema
  sr : Schema
  test : Row → Row → Bool
  left_rows : left.eval B S db = some ls
  right_rows : right.eval B S db = some rs
  left_schema : left.outputSchema S.schema = some sl
  right_schema : right.outputSchema S.schema = some sr
  pairs : onCondition B S sl sr on = some test

section Joined

variable {left right : LogicalPlan Q} {rows : List Row}

/-- The columns of the join. -/
def Joined.schema (j : Joined B S db left right joinType on) : Schema :=
  joinCombinedSchema j.sl j.sr joinType

/-- The rows of the join with a residual filter. -/
def Joined.result (j : Joined B S db left right joinType on) (filter : Option (Expr Q)) :
    List Row :=
  joinRows j.sl.fields.length j.sr.fields.length joinType
    (fun a b => j.test a b && filter.all (fun f => f.holds B S j.schema (a ++ b))) j.ls j.rs

/-- A join returns rows if its parts do and its residual filter is a truth value. -/
theorem eval_join_eq_some :
  (LogicalPlan.join left right joinType on filter).eval B S db = some rows ↔
    ∃ j : Joined B S db left right joinType on,
      (∀ f ∈ filter, f.checked S j.schema = some .bool) ∧ rows = j.result filter
  := by
  simp only [eval, joinCondition, bind_eq_bind, bind_eq_some_iff, some.injEq,
    joinFilterCondition_eq_some]
  constructor
  · rintro ⟨ls, hls, rs, hrs, sl, hsl, sr, hsr, m, ⟨test, htest, q, ⟨hf, rfl⟩, rfl⟩, rfl⟩
    exact ⟨⟨ls, rs, sl, sr, test, hls, hrs, hsl, hsr, htest⟩, hf, rfl⟩
  · rintro ⟨⟨ls, rs, sl, sr, test, hls, hrs, hsl, hsr, htest⟩, hf, rfl⟩
    exact ⟨ls, hls, rs, hrs, sl, hsl, sr, hsr, _, ⟨test, htest, _, ⟨hf, rfl⟩, rfl⟩, rfl⟩

/-- The parts of a join are found once. -/
theorem Joined.eq (j k : Joined B S db left right joinType on) :
  j = k
  := by
  obtain ⟨ls, rs, sl, sr, test, hls, hrs, hsl, hsr, htest⟩ := j
  obtain ⟨ls', rs', sl', sr', test', hls', hrs', hsl', hsr', htest'⟩ := k
  obtain rfl : ls = ls' := some.inj (hls.symm.trans hls')
  obtain rfl : rs = rs' := some.inj (hrs.symm.trans hrs')
  obtain rfl : sl = sl' := some.inj (hsl.symm.trans hsl')
  obtain rfl : sr = sr' := some.inj (hsr.symm.trans hsr')
  obtain rfl : test = test' := some.inj (htest.symm.trans htest')
  rfl

/-- The merged filter has a meaning where the filters have that it was merged from. -/
theorem defined_mergedFilter (filter : Option (Expr Q)) (predicate : Expr Q) :
  (mergedFilter filter predicate).defined S =
    (filter.all (Expr.defined S) && predicate.defined S)
  := mergedFilter_eq_and (f := Expr.defined S) (fun l r => Expr.defined.eq_3 S _ l r) filter
    predicate

/-- A filter above a join, and the join that the filter is merged into. -/
theorem eval_mergedFilter (hjoin : eligibleJoin joinType = true)
    (h : (LogicalPlan.filter (.join left right joinType on filter) predicate).eval B S db =
      some rows) :
  ((filter.getD predicate).reassociates = true ∧
      (LogicalPlan.join left right joinType on (some (mergedFilter filter predicate))).eval B S
        db = some rows) ∨
    (¬ (filter.getD predicate).reassociates = true ∧
      (LogicalPlan.join left right joinType on (some (mergedFilter filter predicate))).eval B S
        db = none)
  := by
  rw [eval] at h
  obtain ⟨joined, hjoined, h⟩ := bind_eq_some_iff.mp h
  obtain ⟨j, hf, rfl⟩ := eval_join_eq_some.mp hjoined
  have hs : (LogicalPlan.join left right joinType on filter).outputSchema S.schema =
      some j.schema := outputSchema_join.mpr ⟨_, _, j.left_schema, j.right_schema, rfl⟩
  rw [hs] at h
  obtain ⟨hp, hrows⟩ := ite_none_right_eq_some.mp h
  have hdefined : (mergedFilter filter predicate).defined S = true := by
    rw [defined_mergedFilter, Bool.and_eq_true, Option.all_eq_true]
    exact ⟨fun f hmem => (Expr.checked_eq_some.mp (hf f hmem)).1, (Expr.checked_eq_some.mp hp).1⟩
  have htyped := dtype_mergedFilter_iff (Expr.checked_eq_some.mp hp).2
    (fun f hmem => (Expr.checked_eq_some.mp (hf f hmem)).2)
  by_cases hre : (filter.getD predicate).reassociates = true
  · refine .inl ⟨hre, eval_join_eq_some.mpr ⟨j, ?_, ?_⟩⟩
    · intro f hmem
      obtain rfl := mem_some_iff.mp hmem
      exact Expr.checked_eq_some.mpr ⟨hdefined, htyped.mpr hre⟩
    · rw [← some.inj hrows, Joined.result, Joined.result, filter_joinRows hjoin]
      congr 1
      funext a b
      rw [all_some, mergedFilter_eq_and (f := fun e => e.holds B S j.schema (a ++ b))
        (fun l r => Expr.holds_and _ l r _), Bool.and_assoc]
  · refine .inr ⟨hre, eq_none_iff_forall_not_mem.mpr fun rows' hrows' => hre ?_⟩
    obtain ⟨k, hk, -⟩ := eval_join_eq_some.mp hrows'
    obtain rfl := j.eq k
    exact htyped.mp (Expr.checked_eq_some.mp (hk _ rfl)).2

end Joined

/-! ### Plans that return what another plan returns -/

/-- Where `p` has a schema or returns rows, `q` has the same schema and returns the same rows. -/
structure Refines (B : Builtins) (S : Subqueries Q) (db : Database) (p q : LogicalPlan Q) :
    Prop where
  schema : ∀ s, p.outputSchema S.schema = some s → q.outputSchema S.schema = some s
  rows : ∀ rows, p.eval B S db = some rows → q.eval B S db = some rows

/-- Where `p` has a schema, `q` has the same one; where `p` returns rows, `q` returns them if `P`
holds, and has no meaning otherwise. -/
structure RefinesIf (B : Builtins) (S : Subqueries Q) (db : Database) (p q : LogicalPlan Q)
    (P : Prop) : Prop where
  schema : ∀ s, p.outputSchema S.schema = some s → q.outputSchema S.schema = some s
  rows : ∀ rows, p.eval B S db = some rows →
    (P ∧ q.eval B S db = some rows) ∨ (¬ P ∧ q.eval B S db = none)

theorem bind_eq_some_mono {α β : Type} {x y : Option α} {f g : α → Option β} {b : β}
    (hxy : ∀ a, x = some a → y = some a) (hfg : ∀ a, f a = some b → g a = some b)
    (h : x.bind f = some b) :
  y.bind g = some b
  := by
  obtain ⟨a, ha, hb⟩ := bind_eq_some_iff.mp h
  exact bind_eq_some_iff.mpr ⟨a, hxy a ha, hfg a hb⟩

section Congruence

variable {p q l l' r r' : LogicalPlan Q} {P P' : Prop}

theorem RefinesIf.refines (h : RefinesIf B S db p q P) (hP : P) :
  Refines B S db p q
  := ⟨h.schema, fun rows hrows => ((h.rows rows hrows).resolve_right (fun hq => hq.1 hP)).2⟩

theorem Refines.refinesIf (h : Refines B S db p q) :
  RefinesIf B S db p q True
  := ⟨h.schema, fun rows hrows => .inl ⟨trivial, h.rows rows hrows⟩⟩

theorem RefinesIf.congr (h : RefinesIf B S db p q P) (hP : P ↔ P') :
  RefinesIf B S db p q P'
  := ⟨h.schema, by simpa only [hP] using h.rows⟩

theorem RefinesIf.refl (p : LogicalPlan Q) :
  RefinesIf B S db p p True
  := ⟨fun _ h => h, fun _ h => .inl ⟨trivial, h⟩⟩

/-- An operator computes the schema and the rows of a plan from those of its input. -/
structure Operates (B : Builtins) (S : Subqueries Q) (db : Database)
    (node : LogicalPlan Q → LogicalPlan Q) : Prop where
  schema : ∃ f : Schema → Option Schema, ∀ p,
    (node p).outputSchema S.schema = (p.outputSchema S.schema).bind f
  rows : (∃ f : List Row → Option (List Row), ∀ p, (node p).eval B S db = (p.eval B S db).bind f) ∨
    ∃ f : List Row → Schema → Option (List Row), ∀ p, (node p).eval B S db =
      (p.eval B S db).bind (fun rows => (p.outputSchema S.schema).bind (f rows))

theorem RefinesIf.operator (h : RefinesIf B S db p q P) (node : LogicalPlan Q → LogicalPlan Q)
    (hnode : Operates B S db node) :
  RefinesIf B S db (node p) (node q) P
  := by
  obtain ⟨⟨f, hf⟩, hrows⟩ := hnode
  constructor
  · intro s
    rw [hf, hf]
    exact bind_eq_some_mono h.schema (fun _ => id)
  · intro rows
    obtain ⟨g, hg⟩ | ⟨g, hg⟩ := hrows
    · rw [hg, hg]
      intro hp
      obtain ⟨input, hinput, hp⟩ := bind_eq_some_iff.mp hp
      obtain ⟨hP, hq⟩ | ⟨hP, hq⟩ := h.rows input hinput
      · exact .inl ⟨hP, by rw [hq]; exact hp⟩
      · exact .inr ⟨hP, by rw [hq]; rfl⟩
    · rw [hg, hg]
      intro hp
      obtain ⟨input, hinput, hp⟩ := bind_eq_some_iff.mp hp
      obtain ⟨s, hs, hp⟩ := bind_eq_some_iff.mp hp
      obtain ⟨hP, hq⟩ | ⟨hP, hq⟩ := h.rows input hinput
      · exact .inl ⟨hP, by rw [hq, bind_some, h.schema s hs]; exact hp⟩
      · exact .inr ⟨hP, by rw [hq]; rfl⟩

theorem RefinesIf.setOp (hl : RefinesIf B S db l l' P) (hr : RefinesIf B S db r r' P')
    (op : SetOpKind) (all : Bool) :
  RefinesIf B S db (.setOp l r op all) (.setOp l' r' op all) (P ∧ P')
  := by
  constructor
  · intro s
    exact bind_eq_some_mono hl.schema (fun _ => bind_eq_some_mono hr.schema (fun _ => id))
  · intro rows h
    rw [eval] at h ⊢
    obtain ⟨ls, hls, h⟩ := bind_eq_some_iff.mp h
    obtain ⟨rs, hrs, h⟩ := bind_eq_some_iff.mp h
    obtain ⟨hP, hl⟩ | ⟨hP, hl⟩ := hl.rows ls hls
    · obtain ⟨hP', hr⟩ | ⟨hP', hr⟩ := hr.rows rs hrs
      · exact .inl ⟨⟨hP, hP'⟩, by rw [hl, hr]; exact h⟩
      · exact .inr ⟨fun hboth => hP' hboth.2, by rw [hl, hr]; rfl⟩
    · exact .inr ⟨fun hboth => hP hboth.1, by rw [hl]; rfl⟩

theorem RefinesIf.join (hl : RefinesIf B S db l l' P) (hr : RefinesIf B S db r r' P')
    (joinType : JoinType) (on : List (Expr Q × Expr Q)) (filter : Option (Expr Q)) :
  RefinesIf B S db (.join l r joinType on filter) (.join l' r' joinType on filter) (P ∧ P')
  := by
  constructor
  · intro s
    exact bind_eq_some_mono hl.schema (fun _ => bind_eq_some_mono hr.schema (fun _ => id))
  · intro rows h
    obtain ⟨j, hf, rfl⟩ := eval_join_eq_some.mp h
    obtain ⟨hP, hl'⟩ | ⟨hP, hl'⟩ := hl.rows _ j.left_rows
    · obtain ⟨hP', hr'⟩ | ⟨hP', hr'⟩ := hr.rows _ j.right_rows
      · exact .inl ⟨⟨hP, hP'⟩, eval_join_eq_some.mpr ⟨⟨j.ls, j.rs, j.sl, j.sr, j.test, hl', hr',
          hl.schema _ j.left_schema, hr.schema _ j.right_schema, j.pairs⟩, hf, rfl⟩⟩
      · exact .inr ⟨fun hboth => hP' hboth.2, by simp only [eval, hl', hr', bind_eq_bind,
          bind_some, bind_none]⟩
    · exact .inr ⟨fun hboth => hP hboth.1, by rw [eval, hl']; rfl⟩

theorem Refines.join (hl : Refines B S db l l') (hr : Refines B S db r r') (joinType : JoinType)
    (on : List (Expr Q × Expr Q)) (filter : Option (Expr Q)) :
  Refines B S db (.join l r joinType on filter) (.join l' r' joinType on filter)
  := (hl.refinesIf.join hr.refinesIf joinType on filter).refines ⟨trivial, trivial⟩

variable {R : LogicalPlan Q → Prop}

theorem evalUnion_cases (h : ∀ p ∈ inputs, RefinesIf B S db p (f p) (R p)) {rows : List Row}
    (hrows : evalUnion B S db inputs = some rows) :
  ((∀ p ∈ inputs, R p) ∧ evalUnion B S db (inputs.map f) = some rows) ∨
    (¬ (∀ p ∈ inputs, R p) ∧ evalUnion B S db (inputs.map f) = none)
  := by
  induction inputs generalizing rows with
  | nil => exact .inl ⟨by simp, hrows⟩
  | cons p inputs ih =>
    rw [forall_mem_cons] at h
    rw [evalUnion] at hrows
    rw [map_cons, evalUnion, forall_mem_cons]
    obtain ⟨first, hfirst, hrows⟩ := bind_eq_some_iff.mp hrows
    obtain ⟨rest, hrest, hrows⟩ := bind_eq_some_iff.mp hrows
    obtain ⟨hR, hp⟩ | ⟨hR, hp⟩ := h.1.rows first hfirst
    · obtain ⟨hall, hps⟩ | ⟨hall, hps⟩ := ih h.2 hrest
      · exact .inl ⟨⟨hR, hall⟩, by rw [hp, hps]; exact hrows⟩
      · exact .inr ⟨fun hboth => hall hboth.2, by rw [hp, hps]; rfl⟩
    · exact .inr ⟨fun hboth => hR hboth.1, by rw [hp]; rfl⟩

theorem branchesCompatible_mono {first : Schema}
    (h : ∀ p ∈ inputs, RefinesIf B S db p (f p) (R p))
    (hc : branchesCompatible S.schema first inputs = true) :
  branchesCompatible S.schema first (inputs.map f) = true
  := by
  induction inputs with
  | nil => rfl
  | cons p inputs ih =>
    rw [forall_mem_cons] at h
    rw [branchesCompatible] at hc
    cases hp : p.outputSchema S.schema with
    | none =>
      rw [hp] at hc
      cases hc
    | some other =>
      rw [hp, Bool.and_eq_true] at hc
      rw [map_cons, branchesCompatible, h.1.schema other hp, Bool.and_eq_true]
      exact ⟨hc.1, ih h.2 hc.2⟩

theorem RefinesIf.union (h : ∀ p ∈ inputs, RefinesIf B S db p (f p) (R p)) :
  RefinesIf B S db (.union inputs) (.union (inputs.map f)) (∀ p ∈ inputs, R p)
  := by
  constructor
  · intro s hs
    cases inputs with
    | nil => exact hs
    | cons p inputs =>
      rw [forall_mem_cons] at h
      rw [outputSchema] at hs
      rw [map_cons, outputSchema]
      revert hs
      apply bind_eq_some_mono h.1.schema
      intro first hs
      obtain ⟨hc, hfirst⟩ := ite_none_right_eq_some.mp hs
      exact ite_none_right_eq_some.mpr ⟨branchesCompatible_mono h.2 hc, hfirst⟩
  · intro rows hrows
    rw [eval] at hrows ⊢
    exact evalUnion_cases h hrows

end Congruence

/-! ### Folded filters -/

/-- A filter right above the join it is folded into does not put two bare `NULL`s first. -/
def LogicalPlan.reassociates : LogicalPlan Q → Bool
  | .filter (.join _ _ joinType _ residual) predicate =>
    !eligibleJoin joinType || (residual.getD predicate).reassociates
  | _ => true

/-- The folded filters of a plan can be put together from the left. -/
def LogicalPlan.Reassociates (p : LogicalPlan Q) : Prop := ∀ n ∈ p.nodes, n.reassociates = true

instance (p : LogicalPlan Q) : Decidable p.Reassociates :=
  inferInstanceAs (Decidable (∀ n ∈ p.nodes, n.reassociates = true))

theorem reassociates_iff {p : LogicalPlan Q} :
  p.Reassociates ↔ p.reassociates = true ∧ ∀ c ∈ p.children, c.Reassociates
  := forall_nodes

variable {p : LogicalPlan Q} {rows : List Row}

theorem eval_filter_eq_some {input : LogicalPlan Q} :
  (LogicalPlan.filter input predicate).eval B S db = some rows ↔
    ∃ s below, input.outputSchema S.schema = some s ∧ input.eval B S db = some below ∧
      predicate.checked S s = some .bool ∧ below.filter (predicate.holds B S s) = rows
  := by
  simp only [eval, bind_eq_bind, bind_eq_some_iff, filterRows, ite_none_right_eq_some,
    some.injEq]
  constructor
  · rintro ⟨below, hbelow, s, hs, hp, rfl⟩
    exact ⟨s, below, hs, hbelow, hp, rfl⟩
  · rintro ⟨s, below, hs, hbelow, hp, rfl⟩
    exact ⟨below, hbelow, s, hs, hp, rfl⟩

/-- A filter above a rewritten join may be merged where it stands above the join itself. -/
theorem reassociates_filter_iff {input left right : LogicalPlan Q}
    (hjoin : eligibleJoin joinType = true)
    (hjoined : filterIntoJoin input = .join left right joinType on filter)
    (hrows : (LogicalPlan.join left right joinType on filter).eval B S db = some rows) :
  (LogicalPlan.filter input predicate).reassociates = true ↔
    (filter.getD predicate).reassociates = true
  := by
  obtain ⟨l, r, rfl, -, -⟩ | ⟨input', inner, residual, rfl, -, -, rfl⟩ :=
    filterIntoJoin_eq_join hjoined
  · rw [LogicalPlan.reassociates, hjoin, Bool.not_true, Bool.false_or]
  · obtain ⟨j, hf, -⟩ := eval_join_eq_some.mp hrows
    exact iff_of_true rfl (reassociates_mergedFilter (Expr.checked_eq_some.mp (hf _ rfl)).2)

/-- A join with a merged filter has no meaning where the join below the filter has none. -/
theorem eval_mergedFilter_of_none {input left right : LogicalPlan Q}
    (hinput : RefinesIf B S db input (.join left right joinType on filter) input.Reassociates)
    (hjoined : filterIntoJoin input = .join left right joinType on filter)
    (hrows : input.eval B S db = some rows)
    (hnone : (LogicalPlan.join left right joinType on filter).eval B S db = none) :
  (LogicalPlan.join left right joinType on (some (mergedFilter filter predicate))).eval B S db =
    none
  := by
  refine eq_none_iff_forall_not_mem.mpr fun joined hmerged => ?_
  obtain ⟨j, hf, -⟩ := eval_join_eq_some.mp hmerged
  obtain ⟨hdefined, htyped⟩ := Expr.checked_eq_some.mp (hf _ rfl)
  rw [defined_mergedFilter, Bool.and_eq_true, Option.all_eq_true] at hdefined
  have hs : (LogicalPlan.join left right joinType on filter).outputSchema S.schema =
      some j.schema := outputSchema_join.mpr ⟨_, _, j.left_schema, j.right_schema, rfl⟩
  have hchecked : ∀ f ∈ filter, f.checked S j.schema = some .bool := by
    obtain ⟨l, r, rfl, hl, hr⟩ | ⟨input', inner, residual, rfl, -, -, rfl⟩ :=
      filterIntoJoin_eq_join hjoined
    · obtain ⟨k, hk, -⟩ := eval_join_eq_some.mp hrows
      have hs' := hinput.schema k.schema
        (outputSchema_join.mpr ⟨_, _, k.left_schema, k.right_schema, rfl⟩)
      rw [hs, Option.some.injEq] at hs'
      rwa [hs']
    · intro f hmem
      obtain rfl := mem_some_iff.mp hmem
      obtain ⟨s, below, hs', -, hinner, -⟩ := eval_filter_eq_some.mp hrows
      have hs'' := hinput.schema s (outputSchema_filter.mpr
        ⟨hs', (Expr.checked_eq_some.mp hinner).2⟩)
      rw [hs, Option.some.injEq] at hs''
      rw [← hs''] at hinner
      exact Expr.checked_eq_some.mpr ⟨hdefined.1 _ rfl,
        dtype_of_dtype_mergedFilter (Expr.checked_eq_some.mp hinner).2 htyped⟩
  rw [eval_join_eq_some.mpr ⟨j, hchecked, rfl⟩] at hnone
  cases hnone

/-- The pass keeps the schema of a plan, and its rows exactly if the folded filters can be put
together from the left. -/
theorem refinesIf_filterIntoJoin (p : LogicalPlan Q) :
  RefinesIf B S db p (filterIntoJoin p) p.Reassociates
  := by
  induction p with
  | scan table projection schema =>
    refine (RefinesIf.refl _).congr (iff_of_true trivial ?_)
    rw [reassociates_iff]
    simp [LogicalPlan.reassociates]
  | filter input predicate ih =>
    have hnode : (LogicalPlan.filter input predicate).Reassociates ↔
        (LogicalPlan.filter input predicate).reassociates = true ∧ input.Reassociates := by
      rw [reassociates_iff]
      simp
    rw [filterIntoJoin]
    obtain ⟨left, right, joinType, on, filter, hjoined, hjoin, hfold⟩ | hfold :=
      foldFilter_cases (filterIntoJoin input) predicate
    · rw [hjoined] at ih
      rw [hfold]
      constructor
      · intro s hs
        exact ih.schema s (outputSchema_filter.mp hs).1
      · intro rows hrows
        obtain ⟨s, below, hs, hbelow, hp, hrows'⟩ := eval_filter_eq_some.mp hrows
        rw [hnode]
        obtain ⟨hbelow', hjoin'⟩ | ⟨hbelow', hjoin'⟩ := ih.rows below hbelow
        · rw [reassociates_filter_iff hjoin hjoined hjoin', and_iff_left hbelow']
          exact eval_mergedFilter hjoin
            (eval_filter_eq_some.mpr ⟨s, below, ih.schema s hs, hjoin', hp, hrows'⟩)
        · exact .inr ⟨fun hboth => hbelow' hboth.2,
            eval_mergedFilter_of_none ih hjoined hbelow hjoin'⟩
    · rw [hfold]
      refine (ih.operator (.filter · predicate)
        ⟨⟨_, fun _ => rfl⟩, .inr ⟨_, fun _ => rfl⟩⟩).congr ?_
      rw [hnode, iff_and_self]
      rintro -
      cases input with
      | join left right joinType on residual =>
        rw [LogicalPlan.reassociates, Bool.or_eq_true, Bool.not_eq_true', Bool.eq_false_iff]
        refine .inl fun hjoin => ?_
        rw [filterIntoJoin, foldFilter, if_pos hjoin] at hfold
        cases hfold
      | _ => rfl
  | union inputs ih =>
    rw [filterIntoJoin, filterIntoJoins_eq_map]
    refine (RefinesIf.union (fun p hmem => ih p hmem)).congr ?_
    rw [reassociates_iff (p := .union inputs)]
    simp [LogicalPlan.reassociates]
  | join left right joinType on filter ihl ihr =>
    refine (ihl.join ihr joinType on filter).congr ?_
    rw [reassociates_iff (p := .join left right joinType on filter)]
    simp [LogicalPlan.reassociates]
  | setOp left right op all ihl ihr =>
    refine (ihl.setOp ihr op all).congr ?_
    rw [reassociates_iff (p := .setOp left right op all)]
    simp [LogicalPlan.reassociates]
  | project input exprs ih =>
    refine (ih.operator (.project · exprs) ⟨⟨_, fun _ => rfl⟩, .inr ⟨_, fun _ => rfl⟩⟩).congr ?_
    rw [reassociates_iff (p := .project input exprs)]
    simp [LogicalPlan.reassociates]
  | aggregate input groupBy aggregates ih =>
    refine (ih.operator (.aggregate · groupBy aggregates)
      ⟨⟨_, fun _ => rfl⟩, .inr ⟨_, fun _ => rfl⟩⟩).congr ?_
    rw [reassociates_iff (p := .aggregate input groupBy aggregates)]
    simp [LogicalPlan.reassociates]
  | sort input sortExprs ih =>
    refine (ih.operator (.sort · sortExprs) ⟨⟨_, fun _ => rfl⟩, .inr ⟨_, fun _ => rfl⟩⟩).congr ?_
    rw [reassociates_iff (p := .sort input sortExprs)]
    simp [LogicalPlan.reassociates]
  | window input windowExprs partitionBy orderBy ih =>
    refine (ih.operator (.window · windowExprs partitionBy orderBy)
      ⟨⟨_, fun _ => rfl⟩, .inr ⟨_, fun _ => rfl⟩⟩).congr ?_
    rw [reassociates_iff (p := .window input windowExprs partitionBy orderBy)]
    simp [LogicalPlan.reassociates]
  | distinct input ih =>
    refine (ih.operator .distinct
      ⟨⟨some, fun p => (bind_fun_some _).symm⟩, .inl ⟨_, fun _ => rfl⟩⟩).congr ?_
    rw [reassociates_iff (p := .distinct input)]
    simp [LogicalPlan.reassociates]
  | limit input lim offset ih =>
    refine (ih.operator (.limit · lim offset)
      ⟨⟨some, fun p => (bind_fun_some _).symm⟩, .inl ⟨_, fun _ => rfl⟩⟩).congr ?_
    rw [reassociates_iff (p := .limit input lim offset)]
    simp [LogicalPlan.reassociates]

end CratonBolt
