import CratonBolt.Strings.RecordedRanks

/-!
# One table of ranks for each column

The registry keeps the last table of ranks that was recorded for a column. Ranks compare as their
strings do when the tables of both columns come from one comparison.
-/

namespace CratonBolt.DictRewrite

open List Ranks

variable {Q : Type}

/-! ### Tables of ranks -/

/-- The columns of the last comparison that a column takes part in. -/
def lastPair (cs : List Comparison) (column : String) : Option (String × String) :=
  (cs.reverse.find? (fun c => c.colA == column || c.colB == column)).map
    (fun c => (c.colA, c.colB))

theorem lastPair_append (cs : List Comparison) (c : Comparison) (column : String) :
  lastPair (cs ++ [c]) column =
    if c.colA = column ∨ c.colB = column then some (c.colA, c.colB) else lastPair cs column
  := by
  rw [lastPair, reverse_append, reverse_singleton, singleton_append, find?_cons]
  by_cases h : c.colA = column ∨ c.colB = column
  · have htest : (c.colA == column || c.colB == column) = true := by simpa using h
    rw [htest, if_pos h]
    rfl
  · have htest : (c.colA == column || c.colB == column) = false := by simpa using h
    rw [htest, if_neg h]
    rfl

/-- The last comparison of a column has that column. -/
theorem lastPair_mem {cs : List Comparison} {column : String} {pair : String × String}
    (h : lastPair cs column = some pair) :
  pair.1 = column ∨ pair.2 = column
  := by
  obtain ⟨c, hc, rfl⟩ := Option.map_eq_some_iff.mp h
  simpa using find?_some hc

theorem exists_lastPair {cs : List Comparison} {c : Comparison} (hc : c ∈ cs) {column : String}
    (h : c.colA = column ∨ c.colB = column) :
  ∃ pair, lastPair cs column = some pair
  := by
  have hsome : (cs.reverse.find? (fun c => c.colA == column || c.colB == column)).isSome := by
    rw [find?_isSome]
    exact ⟨c, mem_reverse.mpr hc, by simpa using h⟩
  obtain ⟨c', hc'⟩ := Option.isSome_iff_exists.mp hsome
  exact ⟨_, by rw [lastPair, hc', Option.map_some]⟩

/-- Two columns that are in the last comparison of each other have one last comparison. -/
theorem lastPair_eq {cs : List Comparison} {a b : String} {p q : String × String}
    (hp : lastPair cs a = some p) (hq : lastPair cs b = some q) (hpb : p.1 = b ∨ p.2 = b)
    (hqa : q.1 = a ∨ q.2 = a) :
  p = q
  := by
  induction cs using List.reverseRecOn with
  | nil => cases hp
  | append_singleton cs c ih =>
    rw [lastPair_append] at hp hq
    split_ifs at hp hq with ha hb hb
    · exact Option.some.inj (hp.symm.trans hq)
    · obtain rfl := Option.some.inj hp
      exact absurd hpb hb
    · obtain rfl := Option.some.inj hq
      exact absurd hqa ha
    · exact ih hp hq

namespace Rewriter

variable (r : Rewriter)

/-- The strings of a column. -/
def strings (column : String) : List String :=
  ((r.dicts.lookup column).map Dictionary.dictionary).getD []

/-- The strings that the ranks of a comparison are among. -/
def pairStrings (pair : String × String) : List String :=
  sortedDistinct textBytes (r.strings pair.1 ++ r.strings pair.2)

theorem colVsColRankMaps_eq {a b : String} (ha : r.knows a = true) (hb : r.knows b = true) :
  r.colVsColRankMaps a b = some
    ⟨rankForIndexIn (r.strings a) (r.pairStrings (a, b)),
      rankForIndexIn (r.strings b) (r.pairStrings (a, b)), rankColumnName a, rankColumnName b⟩
  := by
  obtain ⟨da, hda⟩ := Option.isSome_iff_exists.mp ha
  obtain ⟨db, hdb⟩ := Option.isSome_iff_exists.mp hb
  simp [colVsColRankMaps, hda, hdb, pairStrings, strings, unifiedRankMapsOf]

theorem rankColumnName_inj {a b : String} :
  rankColumnName a = rankColumnName b ↔ a = b
  := String.append_right_inj _

/-- The table of a column is from the last comparison that the column takes part in. -/
theorem lookup_rankTables {cs : List Comparison}
    (hcs : ∀ c ∈ cs, r.knows c.colA = true ∧ r.knows c.colB = true) (column : String) :
  (DictRegistry.collectRankTables (r.recorded cs)).lookup (rankColumnName column) =
    (lastPair cs column).map (fun pair => rankForIndexIn (r.strings column) (r.pairStrings pair))
  := by
  induction cs using List.reverseRecOn with
  | nil => rfl
  | append_singleton cs c ih =>
    obtain ⟨ha, hb⟩ := hcs c (by simp)
    have htail := ih (fun c hc => hcs c (mem_append_left _ hc))
    have hlast : r.recorded [c] =
        [⟨rankForIndexIn (r.strings c.colA) (r.pairStrings (c.colA, c.colB)),
          rankForIndexIn (r.strings c.colB) (r.pairStrings (c.colA, c.colB)),
          rankColumnName c.colA, rankColumnName c.colB⟩] := by
      rw [recorded, filterMap_cons, r.colVsColRankMaps_eq ha hb]
      rfl
    rw [recorded_append, hlast, DictRegistry.collectRankTables, foldl_append,
      ← DictRegistry.collectRankTables, lastPair_append, foldl_cons, foldl_nil]
    -- the table of the second column is inserted last
    by_cases hB : c.colB = column
    · subst hB
      simp
    · have hB' : (rankColumnName column == rankColumnName c.colB) = false := by
        simpa [rankColumnName_inj] using Ne.symm hB
      rw [lookup_cons, hB']
      by_cases hA : c.colA = column
      · subst hA
        simp
      · have hA' : (rankColumnName column == rankColumnName c.colA) = false := by
          simpa [rankColumnName_inj] using Ne.symm hA
        simpa [lookup_cons, hA', hA, hB] using htail

/-- A comparison by ranks is an ordering of two columns with dictionaries. -/
theorem mem_rankComparisons {plan : LogicalPlan Q} {c : Comparison}
    (h : c ∈ r.rankComparisons plan) :
  isOrdering c.op = true ∧ r.knows c.colA = true ∧ r.knows c.colB = true
  := by
  obtain ⟨e, -, he⟩ := mem_flatMap.mp h
  obtain ⟨part, -, hpart⟩ := mem_filterMap.mp he
  cases part with
  | binary op left right =>
    rw [rankComparison, rankEligible] at hpart
    split_ifs at hpart with hop
    obtain ⟨⟨a, b⟩, -, hab⟩ := Option.bind_eq_some_iff.mp hpart
    dsimp only at hab
    split_ifs at hab with hrank
    obtain rfl := Option.some.inj hab
    simp only [rankable, Bool.and_eq_true] at hrank
    exact ⟨hop, hrank.1.1, hrank.2.1⟩
  | _ => cases hpart

/-- Which comparisons use ranks depends on the columns that have dictionaries, not on these. -/
theorem rankComparisons_congr {r r' : Rewriter}
    (h : ∀ column, r.rankable column = r'.rankable column) (plan : LogicalPlan Q) :
  r.rankComparisons plan = r'.rankComparisons plan
  := by
  have hparts : (rankComparison r : Expr Q → Option Comparison) = rankComparison r' := by
    funext e
    cases e with
    | binary op left right => simp only [rankComparison, rankEligible, h]
    | _ => rfl
  have hexprs : (exprComparisons r : Expr Q → List Comparison) = exprComparisons r' := by
    funext e
    rw [exprComparisons, exprComparisons, hparts]
  rw [rankComparisons, rankComparisons, hexprs]

/-- Ranks among the strings of a comparison are ordered as the strings are. -/
theorem ordered_place {op : BinaryOp} {u : List String} {s t : String}
    (hu : u.Pairwise (fun a b => textBytes a ≤ textBytes b)) (hs : s ∈ u) (ht : t ∈ u) :
  ordered op (place textBytes u s : Int) (place textBytes u t) =
    ordered op (textBytes s) (textBytes t)
  := by
  have hst := place_le_place_iff hu hs ht
  have hts := place_le_place_iff hu ht hs
  cases op <;> simp only [ordered, Int.ofNat_le, hst, hts, ← not_le]

theorem strings_subset_pairStrings {pair : String × String} {column s : String}
    (h : pair.1 = column ∨ pair.2 = column) (hs : s ∈ r.strings column) :
  s ∈ r.pairStrings pair
  := by
  rw [pairStrings, mem_sortedDistinct, mem_append]
  rcases h with rfl | rfl
  · exact Or.inl hs
  · exact Or.inr hs

end Rewriter

/-! ### The registry -/

namespace DictRegistry

variable (reg : DictRegistry)

/-- The rank of an index of a column. -/
def rankAt (column : String) (idx : Nat) : Option Int :=
  (reg.rankTable (rankColumnName column)).bind (fun table => table[idx]?)

/-- The comparisons of a plan that use ranks. -/
def comparisons (plan : LogicalPlan Q) : List Comparison :=
  (reg.rewriter plan).rankComparisons plan

/--
After rewriting, the ranks of any two strings of two compared columns compare as the strings do in
the order of their bytes.
-/
def RanksOrdered (plan : LogicalPlan Q) : Prop :=
  ∀ rewritten reg', reg.rewritePlan plan = .ok (rewritten, reg') →
    ∀ c ∈ reg.comparisons plan, ∀ a b, (reg.chosen plan).lookup c.colA = some a →
      (reg.chosen plan).lookup c.colB = some b →
      ∀ i s, a.dictionary[i]? = some s → ∀ j t, b.dictionary[j]? = some t →
        ∃ x y, reg'.rankAt c.colA (i + 1) = some x ∧ reg'.rankAt c.colB (j + 1) = some y ∧
          ordered c.op x y = ordered c.op (textBytes s) (textBytes t)

/-- The plan reads dictionaries of the same columns from both registries. -/
def SameColumns (plan : LogicalPlan Q) (reg' : DictRegistry) : Prop :=
  ∀ column, (reg'.rewriter plan).knows column = (reg.rewriter plan).knows column

/-- Both columns of each comparison take their tables from the same comparison. -/
def OneRanking (cs : List Comparison) : Prop :=
  ∀ c ∈ cs, lastPair cs c.colA = lastPair cs c.colB

instance (cs : List Comparison) : Decidable (OneRanking cs) :=
  inferInstanceAs (Decidable (∀ c ∈ cs, lastPair cs c.colA = lastPair cs c.colB))

section

variable (plan : LogicalPlan Q)

/-- The table of a column that takes part in a comparison of the rewritten plan. -/
def TablesOf (reg' : DictRegistry) : Prop :=
  ∀ column pair, lastPair (reg.comparisons plan) column = some pair →
    reg'.rankTable (rankColumnName column) = some (rankForIndexIn
      ((reg.rewriter plan).strings column) ((reg.rewriter plan).pairStrings pair))

/-- What the registry holds after a plan was rewritten; whether it was does not depend on it. -/
theorem rewritePlan_records :
  ∃ fits, ∀ reg : DictRegistry,
    (fits → ∃ rewritten reg', reg.rewritePlan plan = .ok (rewritten, reg') ∧
      reg.TablesOf plan reg') ∧
    (¬ fits → ∃ e, reg.rewritePlan plan = .error e)
  := by
  obtain ⟨fits, hrun⟩ := rewrite_records plan
  refine ⟨fits, fun reg => ?_⟩
  constructor
  · intro hf
    obtain ⟨rewritten, hok, -⟩ := (hrun (reg.rewriter plan) []).1 hf
    rw [nil_append, ← comparisons] at hok
    refine ⟨rewritten, _, by rw [rewritePlan, hok], ?_⟩
    intro column pair hpair
    have hknown (c : Comparison) (hc : c ∈ reg.comparisons plan) :=
      ((reg.rewriter plan).mem_rankComparisons hc).2
    have hlookup := (reg.rewriter plan).lookup_rankTables hknown column
    rw [hpair, Option.map_some] at hlookup
    rw [if_neg]
    · exact hlookup
    · intro hempty
      rw [isEmpty_iff.mp hempty] at hlookup
      cases hlookup
  · intro hf
    obtain ⟨e, after, herror⟩ := (hrun (reg.rewriter plan) []).2 hf
    exact ⟨e, by rw [rewritePlan, herror]⟩

theorem rankAt_eq {reg reg' : DictRegistry} {plan : LogicalPlan Q} (h : reg.TablesOf plan reg')
    {column : String} {pair : String × String}
    (hpair : lastPair (reg.comparisons plan) column = some pair) {i : Nat} {s : String}
    (hs : ((reg.rewriter plan).strings column)[i]? = some s) :
  reg'.rankAt column (i + 1) =
    some (place textBytes ((reg.rewriter plan).pairStrings pair) s : Int)
  := by
  rw [rankAt, h column pair hpair, Option.bind_some, rankForIndexIn, getElem?_cons_succ,
    getElem?_map, hs, Option.map_some]

theorem strings_of_lookup {reg : DictRegistry} {plan : LogicalPlan Q} {column : String}
    {d : Dictionary} (h : (reg.chosen plan).lookup column = some d) :
  (reg.rewriter plan).strings column = d.dictionary
  := by
  rw [Rewriter.strings, rewriter, h]
  rfl

/-- With one ranking for both columns of each comparison the ranks are right. -/
theorem ranksOrdered_of_oneRanking {reg : DictRegistry} {plan : LogicalPlan Q}
    (h : OneRanking (reg.comparisons plan)) :
  reg.RanksOrdered plan
  := by
  intro rewritten reg' hok c hc a b ha hb i s hs j t ht
  obtain ⟨fits, hrun⟩ := rewritePlan_records plan
  have htables : reg.TablesOf plan reg' := by
    by_cases hf : fits
    · obtain ⟨_, _, hok', htables⟩ := (hrun reg).1 hf
      rw [hok'] at hok
      obtain ⟨-, rfl⟩ := Prod.mk.inj (Except.ok.inj hok)
      exact htables
    · obtain ⟨e, herror⟩ := (hrun reg).2 hf
      rw [herror] at hok
      cases hok
  rw [← strings_of_lookup ha] at hs
  rw [← strings_of_lookup hb] at ht
  obtain ⟨pair, hpair⟩ := exists_lastPair hc (Or.inl rfl)
  have hpair' : lastPair (reg.comparisons plan) c.colB = some pair := h c hc ▸ hpair
  refine ⟨_, _, rankAt_eq htables hpair hs, rankAt_eq htables hpair' ht, ?_⟩
  apply Rewriter.ordered_place (sorted_sortedDistinct _ _)
  · exact (reg.rewriter plan).strings_subset_pairStrings (lastPair_mem hpair) (mem_of_getElem? hs)
  · exact (reg.rewriter plan).strings_subset_pairStrings (lastPair_mem hpair') (mem_of_getElem? ht)

end

end DictRegistry

end CratonBolt.DictRewrite
