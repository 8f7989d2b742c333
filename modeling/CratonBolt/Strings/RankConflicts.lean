import CratonBolt.Strings.RankTables

/-!
# Columns with two rankings

A column that is ordered against two others has a table of ranks for only one of them. The other
comparison is then wrong for some dictionaries: its columns have ranks among different strings.
-/

namespace CratonBolt.DictRewrite.DictRegistry

open List Ranks

variable {Q : Type}

/-! ### A registry of one table -/

theorem lookup_map_pair (columns : List String) (D : String → Dictionary) (column : String) :
  (columns.map (fun c => (c, D c))).lookup column =
    if column ∈ columns then some (D column) else none
  := by
  induction columns with
  | nil => rfl
  | cons c columns ih =>
    rw [map_cons, lookup_cons, ih]
    by_cases h : column = c
    · subst h
      simp
    · have hne : (column == c) = false := by simpa using h
      simp [hne, h]

/-- Columns of one table do not disagree. -/
theorem foldl_addColumn {columns : List (String × Dictionary)} {s : Choice}
    (hnodup : (columns.map Prod.fst).Nodup) (hpoisoned : s.poisoned = [])
    (hfresh : ∀ c ∈ columns, s.chosen.lookup c.1 = none) :
  columns.foldl Choice.addColumn s = { s with chosen := columns.reverse ++ s.chosen }
  := by
  induction columns generalizing s with
  | nil => rfl
  | cons c columns ih =>
    obtain ⟨hc, hnodup⟩ := nodup_cons.mp hnodup
    have hstep : s.addColumn c = { s with chosen := c :: s.chosen } := by
      simp [Choice.addColumn, hpoisoned, hfresh c mem_cons_self]
    have hfresh' (c' : String × Dictionary) (hc' : c' ∈ columns) :
        (c :: s.chosen).lookup c'.1 = none := by
      have hne : c'.1 ≠ c.1 := fun e => hc (mem_map.mpr ⟨c', hc', e⟩)
      have htest : (c'.1 == c.1) = false := by simpa using hne
      rw [lookup_cons, htest]
      exact hfresh c' (mem_cons_of_mem _ hc')
    rw [foldl_cons, hstep, ih (s := { s with chosen := c :: s.chosen }) hnodup hpoisoned hfresh',
      reverse_cons, append_assoc, singleton_append]

/-- A registry of one table, with the given dictionaries for some columns. -/
def ofColumns (table : String) (columns : List String) (D : String → Dictionary) :
    DictRegistry where
  byTable := [(table, columns.dedup.map (fun c => (c, D c)))]
  rankTables := []
  distinct := by
    intro entry hentry
    obtain rfl := mem_singleton.mp hentry
    simpa [Function.comp_def] using nodup_dedup columns

/-- Once its table was seen, the other tables add nothing. -/
theorem foldl_addTable {table : String} {columns : List String} {D : String → Dictionary}
    {tables : List String} {s : Choice} (h : table ∈ s.seenTables) :
  (tables.foldl (ofColumns table columns D).addTable s).chosen = s.chosen
  := by
  induction tables generalizing s with
  | nil => rfl
  | cons t tables ih =>
    rw [foldl_cons]
    by_cases ht : t ∈ s.seenTables
    · have hstep : (ofColumns table columns D).addTable s t = s := by simp [addTable, ht]
      rw [hstep, ih h]
    · have hne : (t == table) = false := by
        have : t ≠ table := fun e => ht (e ▸ h)
        simpa using this
      have hstep : (ofColumns table columns D).addTable s t =
          { s with seenTables := t :: s.seenTables } := by
        simp [addTable, ht, ofColumns, lookup_cons, hne]
      rw [hstep, ih (mem_cons_of_mem _ h)]

theorem lookup_chosen_ofColumns {plan : LogicalPlan Q} {table : String} {tables : List String}
    (hscan : collectScanTables plan = table :: tables) (columns : List String)
    (D : String → Dictionary) (column : String) :
  ((ofColumns table columns D).chosen plan).lookup column =
    if column ∈ columns then some (D column) else none
  := by
  have hfirst : (ofColumns table columns D).addTable ⟨[], [], []⟩ table =
      ⟨[table], (columns.dedup.map (fun c => (c, D c))).reverse, []⟩ := by
    have hfold := foldl_addColumn (s := ⟨[table], [], []⟩)
      ((ofColumns table columns D).distinct _ (mem_singleton.mpr rfl)) rfl (fun _ _ => rfl)
    simpa [addTable, ofColumns] using hfold
  rw [chosen, hscan, foldl_cons, hfirst, foldl_addTable mem_cons_self, ← map_reverse,
    lookup_map_pair]
  simp

/-! ### Skewed dictionaries -/

/-- The string `b` in one column, the strings `a` and `b` in another, nothing elsewhere. -/
def skewed (short long : String) (column : String) : Dictionary where
  dictionary := if column = short then ["b"] else if column = long then ["a", "b"] else []
  isI32 := true
  distinct := by split_ifs <;> decide

theorem comparisons_of_sameColumns {reg reg' : DictRegistry} {plan : LogicalPlan Q}
    (h : reg.SameColumns plan reg') :
  reg'.comparisons plan = reg.comparisons plan
  := by
  apply Rewriter.rankComparisons_congr
  intro column
  rw [Rewriter.rankable, Rewriter.rankable, h column]
  rfl

theorem mem_chosen_iff {reg : DictRegistry} {plan : LogicalPlan Q} {column : String} :
  column ∈ (reg.chosen plan).map Prod.fst ↔ (reg.rewriter plan).knows column = true
  := by
  rw [Rewriter.knows, rewriter, lookup_isSome_iff, mem_map]
  constructor
  · rintro ⟨entry, hentry, rfl⟩
    exact ⟨entry, hentry, BEq.rfl⟩
  · rintro ⟨entry, hentry, he⟩
    exact ⟨entry, hentry, (eq_of_beq he).symm⟩

section Skewed

variable (reg : DictRegistry) (plan : LogicalPlan Q) (table short long : String)

/-- The registry with the same columns whose dictionaries are skewed. -/
def skew : DictRegistry := ofColumns table ((reg.chosen plan).map Prod.fst) (skewed short long)

variable {tables : List String} (hscan : collectScanTables plan = table :: tables)

include hscan

theorem lookup_skew (column : String) :
  ((reg.skew plan table short long).chosen plan).lookup column =
    if (reg.rewriter plan).knows column = true then some (skewed short long column) else none
  := by
  rw [skew, lookup_chosen_ofColumns hscan]
  simp only [mem_chosen_iff]

theorem sameColumns_skew :
  reg.SameColumns plan (reg.skew plan table short long)
  := by
  intro column
  have h := lookup_skew reg plan table short long hscan column
  rw [Rewriter.knows, rewriter, h]
  cases (reg.rewriter plan).knows column <;> rfl

theorem strings_skew (column : String) :
  ((reg.skew plan table short long).rewriter plan).strings column =
    if (reg.rewriter plan).knows column = true then (skewed short long column).dictionary else []
  := by
  rw [Rewriter.strings, rewriter, lookup_skew reg plan table short long hscan column]
  cases (reg.rewriter plan).knows column <;> rfl

/-- Only the long column has the string `a`. -/
theorem mem_pairStrings_skew {pair : String × String} {s : String}
    (h : s ∈ ((reg.skew plan table short long).rewriter plan).pairStrings pair) :
  s = "b" ∨ s = "a" ∧ (pair.1 = long ∨ pair.2 = long)
  := by
  have hcolumn (column : String)
      (hs : s ∈ ((reg.skew plan table short long).rewriter plan).strings column) :
      s = "b" ∨ s = "a" ∧ column = long := by
    rw [strings_skew reg plan table short long hscan, skewed] at hs
    dsimp only at hs
    split_ifs at hs with hknown hshort hlong <;> simp at hs
    · exact Or.inl hs
    · rcases hs with rfl | rfl
      · exact Or.inr ⟨rfl, hlong⟩
      · exact Or.inl rfl
  rw [Rewriter.pairStrings, mem_sortedDistinct, mem_append] at h
  rcases h with h | h
  · rcases hcolumn _ h with hb | ⟨ha, hp⟩
    · exact Or.inl hb
    · exact Or.inr ⟨ha, Or.inl hp⟩
  · rcases hcolumn _ h with hb | ⟨ha, hp⟩
    · exact Or.inl hb
    · exact Or.inr ⟨ha, Or.inr hp⟩

end Skewed

section Ranks

variable {reg reg' : DictRegistry} {plan : LogicalPlan Q} {table short long : String}
  {tables : List String} (hscan : collectScanTables plan = table :: tables)
  (htables : (reg.skew plan table short long).TablesOf plan reg')

include hscan htables

/-- The string of the short column has rank 0, unless it is ranked with the long column. -/
theorem rankAt_short (hknown : (reg.rewriter plan).knows short = true) {pair : String × String}
    (hpair : lastPair (reg.comparisons plan) short = some pair)
    (hlong : ¬ (pair.1 = long ∨ pair.2 = long)) :
  reg'.rankAt short 1 = some 0
  := by
  have hcs := comparisons_of_sameColumns (sameColumns_skew reg plan table short long hscan)
  have hstrings := strings_skew reg plan table short long hscan
  rw [← hcs] at hpair
  rw [rankAt_eq htables hpair (i := 0) (s := "b") (by simp [hstrings, hknown, skewed]),
    place_eq_zero]
  · rfl
  · intro s hs
    rcases mem_pairStrings_skew reg plan table short long hscan hs with rfl | ⟨-, hp⟩
    · exact le_rfl
    · exact absurd hp hlong

/-- The strings of the long column have different ranks, the first of them 0. -/
theorem rankAt_long (hne : long ≠ short) (hknown : (reg.rewriter plan).knows long = true)
    {pair : String × String} (hpair : lastPair (reg.comparisons plan) long = some pair) :
  reg'.rankAt long 1 = some 0 ∧ ∃ n : Nat, 0 < n ∧ reg'.rankAt long 2 = some (n : Int)
  := by
  have hcs := comparisons_of_sameColumns (sameColumns_skew reg plan table short long hscan)
  have hstrings : ((reg.skew plan table short long).rewriter plan).strings long = ["a", "b"] := by
    rw [strings_skew reg plan table short long hscan, if_pos hknown, skewed]
    simp [hne]
  rw [← hcs] at hpair
  have hlt : textBytes "a" < textBytes "b" := by decide
  have hzero : place textBytes
      (((reg.skew plan table short long).rewriter plan).pairStrings pair) "a" = 0 := by
    apply place_eq_zero
    intro s hs
    rcases mem_pairStrings_skew reg plan table short long hscan hs with rfl | ⟨rfl, -⟩
    · exact hlt.le
    · exact le_rfl
  have hmem (s : String) (hs : s ∈ ["a", "b"]) :
      s ∈ ((reg.skew plan table short long).rewriter plan).pairStrings pair :=
    Rewriter.strings_subset_pairStrings _ (lastPair_mem hpair) (hstrings ▸ hs)
  have hpos := place_lt_place (sorted_sortedDistinct textBytes _) (hmem "a" (by simp))
    (hmem "b" (by simp)) hlt
  constructor
  · rw [rankAt_eq htables hpair (i := 0) (s := "a") (by rw [hstrings]; rfl), hzero]
    rfl
  · refine ⟨_, (Nat.zero_le _).trans_lt hpos, ?_⟩
    rw [rankAt_eq htables hpair (i := 1) (s := "b") (by rw [hstrings]; rfl)]
    rfl

end Ranks

/-! ### Wrong ranks -/

/-- Rank 0 for `b` on one side is wrong when the other side tells `b` from `a`. -/
theorem not_ordered_skewed {op : BinaryOp} (hop : isOrdering op = true) {n : Nat} (hn : 0 < n) :
  ¬ (ordered op (0 : Int) 0 = ordered op (textBytes "b") (textBytes "a") ∧
      ordered op (0 : Int) n = ordered op (textBytes "b") (textBytes "b")) ∧
    ¬ (ordered op (0 : Int) 0 = ordered op (textBytes "a") (textBytes "b") ∧
      ordered op (n : Int) 0 = ordered op (textBytes "b") (textBytes "b"))
  := by
  have hlt : textBytes "a" < textBytes "b" := by decide
  cases op <;> simp [isOrdering] at hop <;>
    simp [ordered, hlt, hlt.le, hlt.not_ge, hlt.not_gt, hn, hn.ne']

section Wrong

variable {reg : DictRegistry} {plan : LogicalPlan Q}

/-- Whether a plan is rewritten does not depend on the strings of the dictionaries. -/
theorem rewritePlan_skew (hok : ∃ rewritten reg', reg.rewritePlan plan = .ok (rewritten, reg'))
    (table short long : String) :
  ∃ rewritten reg', (reg.skew plan table short long).rewritePlan plan = .ok (rewritten, reg') ∧
    (reg.skew plan table short long).TablesOf plan reg'
  := by
  obtain ⟨fits, hfits⟩ := rewritePlan_records plan
  obtain ⟨rewritten, reg', hok⟩ := hok
  apply (hfits _).1
  by_contra hf
  obtain ⟨e, herror⟩ := (hfits reg).2 hf
  rw [herror] at hok
  cases hok

variable {table : String} {tables : List String}
  (hscan : collectScanTables plan = table :: tables)

include hscan

/-- The comparison of two indices, where the ranks are right. -/
theorem RanksOrdered.skew_compares {short long : String} {rewritten : LogicalPlan Q}
    {reg' : DictRegistry} (h : (reg.skew plan table short long).RanksOrdered plan)
    (hok : (reg.skew plan table short long).rewritePlan plan = .ok (rewritten, reg'))
    {c : Comparison} (hc : c ∈ reg.comparisons plan) {i j : Nat} {s t : String} {x y : Int}
    (hs : (skewed short long c.colA).dictionary[i]? = some s)
    (ht : (skewed short long c.colB).dictionary[j]? = some t)
    (hx : reg'.rankAt c.colA (i + 1) = some x) (hy : reg'.rankAt c.colB (j + 1) = some y) :
  ordered c.op x y = ordered c.op (textBytes s) (textBytes t)
  := by
  obtain ⟨-, hknownA, hknownB⟩ := (reg.rewriter plan).mem_rankComparisons hc
  have hlookup (column : String) (hknown : (reg.rewriter plan).knows column = true) :
      ((reg.skew plan table short long).chosen plan).lookup column =
        some (skewed short long column) := by
    rw [lookup_skew reg plan table short long hscan, if_pos hknown]
  rw [← comparisons_of_sameColumns (sameColumns_skew reg plan table short long hscan)] at hc
  obtain ⟨x', y', hx', hy', hxy⟩ :=
    h _ _ hok c hc _ _ (hlookup _ hknownA) (hlookup _ hknownB) i s hs j t ht
  obtain rfl := Option.some.inj (hx.symm.trans hx')
  obtain rfl := Option.some.inj (hy.symm.trans hy')
  exact hxy

variable (hok : ∃ rewritten reg', reg.rewritePlan plan = .ok (rewritten, reg')) {c : Comparison}
  (hc : c ∈ reg.comparisons plan) (hne : c.colA ≠ c.colB) {p q : String × String}
  (hp : lastPair (reg.comparisons plan) c.colA = some p)
  (hq : lastPair (reg.comparisons plan) c.colB = some q)

include hok hc hne hp hq

/-- The first column has a ranking without the second. -/
theorem not_ranksOrdered_first (hpb : ¬ (p.1 = c.colB ∨ p.2 = c.colB)) :
  ¬ (reg.skew plan table c.colA c.colB).RanksOrdered plan
  := by
  intro h
  obtain ⟨hop, hknownA, hknownB⟩ := (reg.rewriter plan).mem_rankComparisons hc
  obtain ⟨rewritten, reg', hok', htables⟩ := rewritePlan_skew hok table c.colA c.colB
  have hshort := rankAt_short hscan htables hknownA hp hpb
  obtain ⟨hlong, n, hn, hlong'⟩ := rankAt_long hscan htables hne.symm hknownB hq
  apply (not_ordered_skewed hop hn).1
  have hs : (skewed c.colA c.colB c.colA).dictionary = ["b"] := by simp [skewed]
  have ht : (skewed c.colA c.colB c.colB).dictionary = ["a", "b"] := by simp [skewed, hne.symm]
  constructor
  · apply h.skew_compares hscan hok' hc _ _ hshort hlong
    · rw [hs]
      rfl
    · rw [ht]
      rfl
  · apply h.skew_compares hscan hok' hc _ _ hshort hlong'
    · rw [hs]
      rfl
    · rw [ht]
      rfl

/-- The second column has a ranking without the first. -/
theorem not_ranksOrdered_second (hqa : ¬ (q.1 = c.colA ∨ q.2 = c.colA)) :
  ¬ (reg.skew plan table c.colB c.colA).RanksOrdered plan
  := by
  intro h
  obtain ⟨hop, hknownA, hknownB⟩ := (reg.rewriter plan).mem_rankComparisons hc
  obtain ⟨rewritten, reg', hok', htables⟩ := rewritePlan_skew hok table c.colB c.colA
  have hshort := rankAt_short hscan htables hknownB hq hqa
  obtain ⟨hlong, n, hn, hlong'⟩ := rankAt_long hscan htables hne hknownA hp
  apply (not_ordered_skewed hop hn).2
  have hs : (skewed c.colB c.colA c.colA).dictionary = ["a", "b"] := by simp [skewed, hne]
  have ht : (skewed c.colB c.colA c.colB).dictionary = ["b"] := by simp [skewed]
  constructor
  · apply h.skew_compares hscan hok' hc _ _ hlong hshort
    · rw [hs]
      rfl
    · rw [ht]
      rfl
  · apply h.skew_compares hscan hok' hc _ _ hlong' hshort
    · rw [hs]
      rfl
    · rw [ht]
      rfl

end Wrong

/-- With two rankings for the columns of a comparison, the ranks are wrong for some dictionaries. -/
theorem exists_not_ranksOrdered {reg : DictRegistry} {plan : LogicalPlan Q}
    (hok : ∃ rewritten reg', reg.rewritePlan plan = .ok (rewritten, reg'))
    (h : ¬ OneRanking (reg.comparisons plan)) :
  ∃ reg', reg.SameColumns plan reg' ∧ ¬ reg'.RanksOrdered plan
  := by
  simp only [OneRanking, not_forall] at h
  obtain ⟨c, hc, hlast⟩ := h
  have hne : c.colA ≠ c.colB := fun e => hlast (e ▸ rfl)
  obtain ⟨p, hp⟩ := exists_lastPair hc (Or.inl rfl)
  obtain ⟨q, hq⟩ := exists_lastPair hc (Or.inr rfl)
  obtain ⟨table, tables, hscan⟩ : ∃ table tables, collectScanTables plan = table :: tables := by
    apply exists_cons_of_ne_nil
    intro hnil
    have hknown := ((reg.rewriter plan).mem_rankComparisons hc).2.1
    rw [Rewriter.knows, rewriter, chosen, hnil] at hknown
    cases hknown
  by_cases hpb : p.1 = c.colB ∨ p.2 = c.colB
  · have hqa : ¬ (q.1 = c.colA ∨ q.2 = c.colA) := by
      intro hqa
      rw [hp, hq, lastPair_eq hp hq hpb hqa] at hlast
      exact hlast rfl
    exact ⟨_, sameColumns_skew reg plan table c.colB c.colA hscan,
      not_ranksOrdered_second hscan hok hc hne hp hq hqa⟩
  · exact ⟨_, sameColumns_skew reg plan table c.colA c.colB hscan,
      not_ranksOrdered_first hscan hok hc hne hp hq hpb⟩

/--
The ranks are right for every plan that is rewritten and whatever strings the dictionaries hold,
exactly when both columns of each comparison take their ranks from the same comparison.
-/
theorem ranks_ordered_iff (reg : DictRegistry) (plan : LogicalPlan Q)
    (hok : ∃ rewritten reg', reg.rewritePlan plan = .ok (rewritten, reg')) :
  (∀ reg', reg.SameColumns plan reg' → reg'.RanksOrdered plan) ↔
    OneRanking (reg.comparisons plan)
  := by
  constructor
  · intro h
    by_contra hcs
    obtain ⟨reg', hsame, hwrong⟩ := exists_not_ranksOrdered hok hcs
    exact hwrong (h reg' hsame)
  · intro h reg' hsame
    apply ranksOrdered_of_oneRanking
    rwa [comparisons_of_sameColumns hsame]

/-! ### Three names -/

/-- A table with a number and three strings in each row. -/
def names (predicate : Expr Empty) : LogicalPlan Empty :=
  .project
    (.filter (.scan "names" none ⟨[⟨"v", .int64, false⟩, ⟨"a", .utf8, false⟩, ⟨"b", .utf8, false⟩,
      ⟨"c", .utf8, false⟩]⟩) predicate)
    [.column "v"]

def namesRegistry : DictRegistry where
  byTable := [("names", [("a", ⟨["m"], true, by decide⟩), ("b", ⟨["k", "m"], true, by decide⟩),
    ("c", ⟨["z"], true, by decide⟩)])]
  rankTables := []
  distinct := by decide

def aBelowB : Expr Empty := .binary .lt (.column "a") (.column "b")

def aBelowC : Expr Empty := .binary .lt (.column "a") (.column "c")

/-- With one comparison the ranks are right. -/
theorem ranks_ordered_single :
  OneRanking (namesRegistry.comparisons (names aBelowB)) ∧
    namesRegistry.RanksOrdered (names aBelowB)
  := by
  have hone : OneRanking (namesRegistry.comparisons (names aBelowB)) := by decide
  exact ⟨hone, (ranks_ordered_iff namesRegistry (names aBelowB) ⟨_, _, rfl⟩).mpr hone
    namesRegistry (fun _ => rfl)⟩

/-- `a < b AND a < c`: the ranks of `a` are those for `c`, and `m < m` holds. -/
theorem ranks_not_ordered :
  ¬ namesRegistry.RanksOrdered (names (.binary .and aBelowB aBelowC))
  := by
  intro h
  obtain ⟨x, y, hx, hy, hxy⟩ :=
    h _ _ rfl ⟨.lt, "a", "b"⟩ (by decide) _ _ rfl rfl 0 "m" rfl 1 "m" rfl
  obtain rfl : (0 : Int) = x := Option.some.inj hx
  obtain rfl : (1 : Int) = y := Option.some.inj hy
  revert hxy
  decide

end CratonBolt.DictRewrite.DictRegistry
