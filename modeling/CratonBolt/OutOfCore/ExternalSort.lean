import CratonBolt.OutOfCore.MergeRuns
import CratonBolt.OutOfCore.RowWise
import CratonBolt.Semantics.Filters

/-!
# Sorting out of core

`try_external_sort`: the rows of a table too large for the budget are sorted in runs, each of them
cut to the rows that the limit can need, and the runs are merged.

The answer has the right keys unless the limit is zero. With `LIMIT 0 OFFSET o` the merge returns a
row as soon as the runs have more than `o` rows together.
-/

namespace CratonBolt.OutOfCore

open SortedCounts List

variable {Q : Type}

/-- The direction of a sort key. -/
structure SortOptions where
  descending : Bool
  nullsFirst : Bool
deriving DecidableEq, Repr

/-! ### The order of rows -/

/-- The order of rows under the values of one key. -/
def keyLe (key : (Row → Value) × SortOptions) (a b : Row) : Bool :=
  Value.sortsBefore key.2.descending key.2.nullsFirst (key.1 a) (key.1 b)

/-- The order of rows under several keys, the first of them first. -/
def keysLe : List ((Row → Value) × SortOptions) → Row → Row → Bool
  | [], _, _ => true
  | key :: keys, a, b => keyLe key a b && (!keyLe key b a || keysLe keys a b)

theorem sortsBefore_total (descending nullsFirst : Bool) (a b : Value) :
  Value.sortsBefore descending nullsFirst a b = true ∨
    Value.sortsBefore descending nullsFirst b a = true
  := by
  unfold Value.sortsBefore
  cases a.isNull <;> cases b.isNull <;> cases descending <;> cases nullsFirst <;> simp
  all_goals exact KeyedList.lexLe_total _ _

theorem sortsBefore_trans {descending nullsFirst : Bool} {a b c : Value}
    (hab : Value.sortsBefore descending nullsFirst a b = true)
    (hbc : Value.sortsBefore descending nullsFirst b c = true) :
  Value.sortsBefore descending nullsFirst a c = true
  := by
  unfold Value.sortsBefore at *
  revert hab hbc
  cases a.isNull <;> cases b.isNull <;> cases c.isNull <;> cases descending <;>
    cases nullsFirst <;> simp <;> intro hab hbc
  · exact KeyedList.lexLe_trans hab hbc
  · exact KeyedList.lexLe_trans hab hbc
  · exact KeyedList.lexLe_trans hbc hab
  · exact KeyedList.lexLe_trans hbc hab

theorem keyLe_totalPreorder (key : (Row → Value) × SortOptions) :
  TotalPreorder (keyLe key)
  := ⟨fun _ _ => sortsBefore_total _ _ _ _, fun _ _ _ => sortsBefore_trans⟩

theorem keysLe_totalPreorder (keys : List ((Row → Value) × SortOptions)) :
  TotalPreorder (keysLe keys)
  := by
  induction keys with
  | nil => exact ⟨fun _ _ => .inl rfl, fun _ _ _ _ _ => rfl⟩
  | cons key keys ih =>
    have hkey := keyLe_totalPreorder key
    simp only [keysLe]
    constructor
    · intro a b
      have htotal := hkey.total a b
      have hrest := ih.total a b
      grind
    · intro a b c hab hbc
      have htrans := hkey.trans a b c
      have hback := hkey.trans c a b
      have hback' := hkey.trans b c a
      have hrest := ih.trans a b c
      grind

/-! ### The plan -/

/-- `column_name`: the column that a sort expression is. -/
def columnName : Expr Q → Option String
  | .column c => some c
  | .aliased inner _ => columnName inner
  | _ => none

/-- The position and the direction of one sort key. -/
def sortKey (outSchema : Schema) (se : SortExpr Q) : Option (Nat × SortOptions) := do
  let c ← columnName se.expr
  let i ← (outSchema.indexOf c).toOption
  some (i, ⟨se.descending, se.nullsFirst⟩)

/-- What a sort that can be made out of core consists of. -/
structure SortPlan (S : Subqueries Q) where
  limit : Option (Nat × Nat)
  input : LogicalPlan Q
  sortExprs : List (SortExpr Q)
  table : String
  outSchema : Schema
  keys : List (Nat × SortOptions)
  runRows : Nat
  single : singleBaseTable input = some table
  typed : input.outputSchema S.schema = some outSchema
  resolved : sortExprs.mapM (sortKey outSchema) = some keys

/-- The limit, the offset, the input and the keys of a sort. -/
def sortShape : LogicalPlan Q →
    Option (Option (Nat × Nat) × LogicalPlan Q × List (SortExpr Q))
  | .limit (.sort input sortExprs) limit offset => some (some (limit, offset), input, sortExprs)
  | .sort input sortExprs => some (none, input, sortExprs)
  | _ => none

/--
`qualify_sort`, for what the engine knows of its tables: an estimate of their bytes, and their
rows.
-/
def qualifySort (S : Subqueries Q) (estimatedTableBytes : String → Option Nat)
    (rowCount : String → Nat) (budget : Nat) (plan : LogicalPlan Q) : Option (SortPlan S) :=
  match sortShape plan with
  | none => none
  | some (limit, input, sortExprs) =>
    match hsingle : singleBaseTable input with
    | none => none
    | some table =>
      match estimatedTableBytes table with
      | none => none
      | some est =>
        if est ≤ budget then none
        else
          match htyped : input.outputSchema S.schema with
          | none => none
          | some outSchema =>
            match hresolved : sortExprs.mapM (sortKey outSchema) with
            | none => none
            | some keys =>
              let rowBytes := max (est / max (rowCount table) 1) 1
              some { limit, input, sortExprs, table, outSchema, keys,
                     runRows := max (budget / 2 / rowBytes) 1024,
                     single := hsingle, typed := htyped, resolved := hresolved }

/-! ### The sort -/

/-- Sorting. `lexsort_to_indices` leaves the order of rows with equal keys open. -/
structure Sorter (le : Row → Row → Bool) where
  sort : List Row → List Row
  perm : ∀ rows, (sort rows).Perm rows
  sorted : ∀ rows, Sorted le (sort rows)

namespace SortPlan

variable {S : Subqueries Q} (B : Builtins) (sp : SortPlan S)

/-- The order in which a run is sorted: by the values of the sort expressions. -/
def exprsLe : Row → Row → Bool :=
  keysLe (sp.sortExprs.map (fun se =>
    (fun row => se.expr.eval B S sp.outSchema row, ⟨se.descending, se.nullsFirst⟩)))

/-- The order in which runs are merged: by the cells at the positions of the keys. -/
def cellsLe : Row → Row → Bool :=
  keysLe (sp.keys.map (fun key => (fun row => row.getD key.1 .null, key.2)))

variable (limit : Option (Nat × Nat))

/-- A run is cut to the rows that the answer can need. -/
def cut (rows : List Row) : List Row :=
  match limit with
  | some (l, o) => rows.take (l + o)
  | none => rows

section

variable (db : Database)

/-- The rows of a group after the chain, run on the group as a table of the name `e`. -/
def groupRows (base : Schema) (e : String) (group : List RawRow) :
    Option (List Row) :=
  (renameScans sp.table e base sp.input).eval B S (install db e group)

/-- `try_external_sort`, for a plan that qualifies and the batches of its table. -/
def externalSort (base : Schema) (e : String) (sorter : Sorter (sp.exprsLe B))
    (batches : List (List RawRow)) : Option (List Row) := do
  let outs ← (runGroups sp.runRows batches []).mapM (fun group =>
    (sp.groupRows B db base e group).map (fun rows => cut sp.limit (sorter.sort rows)))
  mergeSortedRuns sp.cellsLe (outs.filter (fun out => !out.isEmpty)) sp.limit

/-! ### What is to be returned -/

/-- The rows of a limit and an offset. -/
def page (rows : List Row) : List Row :=
  match limit with
  | some (l, o) => (rows.drop o).take l
  | none => rows

/--
The answer is exact: it has the keys of its page of the sorted rows, however those are sorted, and
its rows are different rows of the input.
-/
structure Exact (le : Row → Row → Bool) (rows : List Row) (limit : Option (Nat × Nat))
    (out : List Row) : Prop where
  keys : ∀ sorted, Sorted le sorted → sorted.Perm rows →
    Forall₂ (SameKey le) out (page limit sorted)
  distinct : Subperm out rows

/-- The sort returns, and its answer is exact for the rows of the chain. -/
def SortsExactly (base : Schema) (e : String) (sorter : Sorter (sp.exprsLe B))
    (batches : List (List RawRow)) (rows : List Row) : Prop :=
  ∃ out, sp.externalSort B db base e sorter batches = some out ∧
    Exact sp.cellsLe rows sp.limit out

/-- The chain keeps a row of the group. -/
def keepsRows (group : List RawRow) : Bool :=
  (sp.input.eval B S (install db sp.table group)).any (fun rows => !rows.isEmpty)

/--
No rows are asked for, but some are skipped, the input has more than those, and they are in more
than one run.
-/
def Overruns (batches : List (List RawRow)) (rows : List Row) : Prop :=
  ∃ o, sp.limit = some (0, o) ∧ 0 < o ∧ o < rows.length ∧
    2 ≤ (runGroups sp.runRows batches []).countP (sp.keepsRows B db)

end

/-! ### The keys -/

theorem eval_columnName {expr : Expr Q} {c : String} (h : columnName expr = some c) (s : Schema)
    (row : Row) :
  expr.eval B S s row = s.cell row c
  := by
  induction expr with
  | column name =>
    cases h
    rw [Expr.eval]
  | aliased inner name ih =>
    rw [Expr.eval]
    exact ih h
  | _ => cases h

/-- A sort expression has the value of the cell at the position of its key. -/
theorem eval_sortKey {s : Schema} {se : SortExpr Q} {key : Nat × SortOptions}
    (h : sortKey s se = some key) :
  (fun row => se.expr.eval B S s row) = (fun row => row.getD key.1 .null) ∧
    (⟨se.descending, se.nullsFirst⟩ : SortOptions) = key.2
  := by
  obtain ⟨c, hc, h⟩ := Option.bind_eq_some_iff.mp h
  obtain ⟨i, hi, h⟩ := Option.bind_eq_some_iff.mp h
  cases h
  refine ⟨?_, rfl⟩
  funext row
  have hposition : s.position? c = some i := by
    unfold Schema.indexOf at hi
    cases hp : s.position? c <;> simp_all [Except.toOption]
  simp [eval_columnName B hc, Schema.cell, hposition]

/-- Runs are merged in the order in which they are sorted. -/
theorem cellsLe_eq :
  sp.cellsLe = sp.exprsLe B
  := by
  have hkeys := Outcome.mapM_eq_some_iff.mp sp.resolved
  unfold cellsLe exprsLe
  congr 1
  generalize sp.sortExprs = sortExprs, sp.keys = keys at hkeys
  induction hkeys with
  | nil => rfl
  | cons hkey hkeys ih =>
    obtain ⟨hvalue, hoptions⟩ := eval_sortKey B hkey
    rw [map_cons, map_cons, ih, hvalue, hoptions]

/-! ### The runs -/

/-- The groups of a plan, sorted and not cut. -/
def sortedGroups (sorter : Sorter (sp.exprsLe B)) (batches : List (List RawRow))
    (f : RawRow → Option Row) : List (List Row) :=
  (runGroups sp.runRows batches []).map (fun group => sorter.sort (group.filterMap f))

variable {B} {sp} {db : Database} {base : Schema} {e : String} {sorter : Sorter (sp.exprsLe B)}
  {batches : List (List RawRow)} {f : RawRow → Option Row}

theorem sortedGroups_sorted :
  ∀ run ∈ sp.sortedGroups B sorter batches f, Sorted sp.cellsLe run
  := by
  intro run hrun
  obtain ⟨group, -, rfl⟩ := mem_map.mp hrun
  rw [sp.cellsLe_eq B]
  exact sorter.sorted _

/-- Sorted or not, the groups have the rows that the chain keeps. -/
theorem sortedGroups_perm :
  (sp.sortedGroups B sorter batches f).flatten.Perm (batches.flatten.filterMap f)
  := by
  have hgroups := runGroups_flatten sp.runRows batches []
  rw [flatten_nil, nil_append] at hgroups
  rw [← hgroups, filterMap_flatten, sortedGroups, ← flatMap_def, ← flatMap_def]
  exact Perm.flatMap_left _ (fun group _ => sorter.perm _)

theorem cut_sublist (rows : List Row) :
  (cut limit rows).Sublist rows
  := by
  cases limit with
  | none => exact .refl _
  | some p => exact take_sublist _ _

/-- The sort returns the answer from a sorted arrangement of the rows of the cut runs. -/
theorem externalSort_eq (hbase : ReadsTable sp.table base sp.input)
    (hf : rowStep B S sp.input = some f) :
  ∃ merged, sp.externalSort B db base e sorter batches = some (answer sp.limit merged) ∧
    Sorted sp.cellsLe merged ∧
    merged.Perm ((sp.sortedGroups B sorter batches f).map (cut sp.limit)).flatten
  := by
  have hgroup : ∀ group, sp.groupRows B db base e group = some (group.filterMap f) := by
    intro group
    rw [groupRows, hbase.eval_group, hf, Option.map_some]
  have houts : (runGroups sp.runRows batches []).mapM (fun group =>
      some (cut sp.limit (sorter.sort (group.filterMap f)))) =
      some ((sp.sortedGroups B sorter batches f).map (cut sp.limit)) := by
    rw [sortedGroups, map_map]
    exact mapM_pure
  have hruns : ∀ run ∈ ((sp.sortedGroups B sorter batches f).map (cut sp.limit)).filter
      (fun out => !out.isEmpty), Sorted sp.cellsLe run := by
    intro run hrun
    obtain ⟨whole, hwhole, rfl⟩ := mem_map.mp (mem_filter.mp hrun).1
    exact (sortedGroups_sorted whole hwhole).sublist (cut_sublist _ _)
  obtain ⟨merged, hmerged, hsorted, hperm⟩ :=
    mergeSortedRuns_eq (keysLe_totalPreorder _) hruns sp.limit
  rw [flatten_filter_not_isEmpty] at hperm
  refine ⟨merged, ?_, hsorted, hperm⟩
  simp only [externalSort, hgroup, Option.map_some]
  rw [houts]
  exact hmerged

/-- The rows of the answer are different rows of the input. -/
theorem answer_subperm {merged : List Row}
    (h : merged.Perm ((sp.sortedGroups B sorter batches f).map (cut sp.limit)).flatten) :
  Subperm (answer sp.limit merged) (batches.flatten.filterMap f)
  := by
  have hcut : (((sp.sortedGroups B sorter batches f).map (cut sp.limit)).flatten).Sublist
      (sp.sortedGroups B sorter batches f).flatten := by
    have hsub := Sublist.flatMap_right (sp.sortedGroups B sorter batches f)
      (fun run _ => cut_sublist sp.limit run)
    rwa [flatMap_def, flatMap_def, map_id'] at hsub
  have hanswer : (answer sp.limit merged).Sublist merged := by
    cases sp.limit with
    | none => exact .refl _
    | some p => exact (take_sublist _ _).trans (drop_sublist _ _)
  exact (hanswer.subperm.trans h.subperm).trans (hcut.subperm.trans sortedGroups_perm.subperm)

variable {le : Row → Row → Bool} {o : Nat}

/-- Rows that agree up to the end of a page agree on the page. -/
theorem page_of_take {rows rows' : List Row} {l o : Nat}
    (h : Forall₂ (SameKey le) (rows.take (l + o)) (rows'.take (l + o))) :
  Forall₂ (SameKey le) ((rows.drop o).take l) ((rows'.drop o).take l)
  := by
  rw [take_drop, take_drop, Nat.add_comm o l]
  exact forall₂_drop o h

/-- The cut runs have the keys that the answer needs. -/
theorem page_merged {merged sorted : List Row} (hmerged : Sorted sp.cellsLe merged)
    (hperm : merged.Perm ((sp.sortedGroups B sorter batches f).map (cut sp.limit)).flatten)
    (hsorted : Sorted sp.cellsLe sorted) (hrows : sorted.Perm (batches.flatten.filterMap f)) :
  Forall₂ (SameKey sp.cellsLe) (page sp.limit merged) (page sp.limit sorted)
  := by
  have hgroups : (sp.sortedGroups B sorter batches f).flatten.Perm
      (batches.flatten.filterMap f) := sortedGroups_perm
  have hall := hrows.trans hgroups.symm
  cases hlimit : sp.limit with
  | none =>
    have hcut : cut none = id := rfl
    rw [hlimit, hcut, map_id] at hperm
    exact forall₂_of_perm (keysLe_totalPreorder _) hmerged hsorted (hperm.trans hall.symm)
  | some p =>
    rw [hlimit] at hperm
    apply page_of_take
    exact forall₂_take_runs (keysLe_totalPreorder _) sortedGroups_sorted hmerged hsorted hperm hall

/-! ### When the answer is exact -/

variable {rows : List Row}

/-- What the chain returns for a whole table and for a group of its rows. -/
theorem eval_input (hbase : ReadsTable sp.table base sp.input)
    (hf : rowStep B S sp.input = some f) (group : List RawRow) :
  sp.input.eval B S (install db sp.table group) = some (group.filterMap f)
  := by
  rw [hbase.eval_install, hf, Option.map_some]

/-- How many rows of each group the chain keeps. -/
def groupSizes (runRows : Nat) (batches : List (List RawRow)) (f : RawRow → Option Row) :
    List Nat :=
  (runGroups runRows batches []).map (fun group => (group.filterMap f).length)

theorem groupSizes_sum (runRows : Nat) :
  (groupSizes runRows batches f).sum = (batches.flatten.filterMap f).length
  := by
  have hgroups := runGroups_flatten runRows batches []
  rw [flatten_nil, nil_append] at hgroups
  rw [← hgroups, filterMap_flatten, length_flatten, map_map]
  rfl

theorem cut_length (hlimit : sp.limit = some (0, o)) :
  ((sp.sortedGroups B sorter batches f).map (cut sp.limit)).flatten.length =
    ((groupSizes sp.runRows batches f).map (min o)).sum
  := by
  rw [length_flatten, sortedGroups, groupSizes, map_map, map_map, map_map]
  congr 2
  funext group
  simp [cut, hlimit, (sorter.perm _).length_eq]

/-- The runs are too long exactly if they have more rows together than are to be skipped. -/
theorem overruns_iff (hbase : ReadsTable sp.table base sp.input)
    (hf : rowStep B S sp.input = some f) (hlimit : sp.limit = some (0, o)) :
  sp.Overruns B db batches (batches.flatten.filterMap f) ↔
    o < ((groupSizes sp.runRows batches f).map (min o)).sum
  := by
  have hcount : (runGroups sp.runRows batches []).countP (sp.keepsRows B db) =
      (groupSizes sp.runRows batches f).countP (fun n => decide (0 < n)) := by
    rw [groupSizes, countP_map]
    congr 1
    funext group
    rw [keepsRows, eval_input hbase hf]
    cases h : group.filterMap f <;> simp [h]
  rw [lt_sum_min_iff, groupSizes_sum, ← hcount, Overruns, hlimit]
  simp

/-- An answer of at least one row is a page. -/
theorem answer_eq_page {limit : Option (Nat × Nat)} (h : ∀ o, limit ≠ some (0, o))
    (rows : List Row) :
  answer limit rows = page limit rows
  := by
  obtain _ | ⟨l, o⟩ := limit
  · rfl
  · cases l with
    | zero => exact absurd rfl (h o)
    | succ l => rw [answer, page, Nat.max_eq_right (by omega)]

/-- An empty page is what the answer should be, so it has the right keys if it is empty too. -/
theorem exact_empty_iff {merged rows : List Row}
    (hsorted : ∃ sorted, Sorted le sorted ∧ sorted.Perm rows) :
  Exact le rows (some (0, o)) (answer (some (0, o)) merged) ↔ merged.length ≤ o
  := by
  have hempty : answer (some (0, o)) merged = [] ↔ merged.length ≤ o := by
    rw [answer, take_eq_nil_iff, drop_eq_nil_iff]
    simp
  rw [← hempty]
  constructor
  · intro h
    obtain ⟨sorted, hs, hp⟩ := hsorted
    have hkeys := h.keys sorted hs hp
    rw [page, take_zero] at hkeys
    exact forall₂_nil_right_iff.mp hkeys
  · intro h
    rw [h]
    refine ⟨fun sorted _ _ => ?_, nil_subperm⟩
    rw [page, take_zero]
    exact .nil

/-- An empty answer is returned as such if the cut runs have no more rows than are skipped. -/
theorem sortsExactly_zero_iff (hbase : ReadsTable sp.table base sp.input)
    (hf : rowStep B S sp.input = some f) (hlimit : sp.limit = some (0, o)) :
  sp.SortsExactly B db base e sorter batches (batches.flatten.filterMap f) ↔
    ((groupSizes sp.runRows batches f).map (min o)).sum ≤ o
  := by
  obtain ⟨merged, hout, -, hperm⟩ :
      ∃ merged, sp.externalSort B db base e sorter batches = some (answer sp.limit merged) ∧ _ :=
    externalSort_eq hbase hf
  have hsorted : Sorted sp.cellsLe (sorter.sort (batches.flatten.filterMap f)) := by
    rw [sp.cellsLe_eq B]
    exact sorter.sorted _
  have hlength := hperm.length_eq.trans (cut_length hlimit)
  have hexact : sp.SortsExactly B db base e sorter batches (batches.flatten.filterMap f) ↔
      Exact sp.cellsLe (batches.flatten.filterMap f) sp.limit (answer sp.limit merged) := by
    simp [SortsExactly, hout]
  rw [hexact, hlimit, exact_empty_iff ⟨_, hsorted, sorter.perm _⟩, hlength]

/-- An answer that is to have rows has the right ones. -/
theorem sortsExactly_of_ne_zero (hbase : ReadsTable sp.table base sp.input)
    (hf : rowStep B S sp.input = some f) (hlimit : ∀ o, sp.limit ≠ some (0, o)) :
  sp.SortsExactly B db base e sorter batches (batches.flatten.filterMap f)
  := by
  obtain ⟨merged, hout, hsorted, hperm⟩ := externalSort_eq hbase hf
  have hpage := answer_eq_page hlimit merged
  have hdistinct := answer_subperm hperm
  rw [hpage] at hout hdistinct
  exact ⟨_, hout, fun sorted h h' => page_merged hsorted hperm h h', hdistinct⟩

/-- The sort is exact unless it overruns an empty answer. -/
theorem externalSort_exact_iff (sorter : Sorter (sp.exprsLe B)) (e : String)
    (hbase : ReadsTable sp.table base sp.input)
    (hrows : sp.input.eval B S (install db sp.table batches.flatten) = some rows) :
  sp.SortsExactly B db base e sorter batches rows ↔ ¬sp.Overruns B db batches rows
  := by
  obtain ⟨f, hf, -⟩ := Option.map_eq_some_iff.mp ((hbase.eval_install B S _ _).symm.trans hrows)
  obtain rfl : batches.flatten.filterMap f = rows :=
    Option.some_inj.mp ((eval_input hbase hf _).symm.trans hrows)
  by_cases hzero : ∃ o, sp.limit = some (0, o)
  · obtain ⟨o, ho⟩ := hzero
    rw [overruns_iff hbase hf ho, sortsExactly_zero_iff hbase hf ho]
    exact Nat.not_lt.symm
  · constructor
    · rintro - ⟨o, ho, -⟩
      exact hzero ⟨o, ho⟩
    · intro
      exact sortsExactly_of_ne_zero hbase hf (fun o ho => hzero ⟨o, ho⟩)

end SortPlan

/-! ### A limit of zero -/

/-- Sorting by insertion. -/
def SortPlan.insertionSorter {S : Subqueries Q} (B : Builtins) (sp : SortPlan S) :
    Sorter (sp.exprsLe B) where
  sort rows := rows.insertionSort (fun a b => sp.exprsLe B a b = true)
  perm rows := perm_insertionSort _ rows
  sorted rows := by
    have hle : TotalPreorder (sp.exprsLe B) := keysLe_totalPreorder _
    have : Std.Total (fun a b => sp.exprsLe B a b = true) := ⟨hle.total⟩
    have : IsTrans Row (fun a b => sp.exprsLe B a b = true) := ⟨hle.trans⟩
    exact pairwise_insertionSort _ rows

/-- `ORDER BY x LIMIT l OFFSET o` over a table with one column. -/
def orderedByX (l o : Nat) : LogicalPlan Empty :=
  .limit (.sort (intScan "t" ["x"]) [⟨.column "x", false, false⟩]) l o

theorem orderedByX_single :
  singleBaseTable (intScan "t" ["x"] : LogicalPlan Empty) = some "t"
  := rfl

/-- The plan of such a sort. -/
def orderedByXPlan (l o runRows : Nat) : SortPlan noSubqueries where
  limit := some (l, o)
  input := intScan "t" ["x"]
  sortExprs := [⟨.column "x", false, false⟩]
  table := "t"
  outSchema := ⟨[⟨"x", .int64, true⟩]⟩
  keys := [(0, ⟨false, false⟩)]
  runRows := runRows
  single := orderedByX_single
  typed := rfl
  resolved := by decide +kernel

theorem orderedByXPlan_reads (l o runRows : Nat) :
  ReadsTable (orderedByXPlan l o runRows).table ⟨[⟨"x", .int64, true⟩]⟩
    (orderedByXPlan l o runRows).input
  := ⟨rfl, rfl⟩

theorem externalSort_exact_two_runs :
  (orderedByXPlan 1 1 2).SortsExactly noBuiltins (fun _ => tableOf []) ⟨[⟨"x", .int64, true⟩]⟩ "e"
    (SortPlan.insertionSorter _ _) [[intRow 3, intRow 1], [intRow 2]]
    [[.int64 3], [.int64 1], [.int64 2]]
  := by
  refine (SortPlan.externalSort_exact_iff _ _ (orderedByXPlan_reads 1 1 2) rfl).mpr ?_
  rintro ⟨o, ho, -⟩
  cases ho

/-- Two equal batches of as many rows as a run has, none of which is dropped. -/
theorem groupSizes_two {f : RawRow → Option Row} {raw : RawRow} {row : Row}
    (hf : f raw = some row) (n : Nat) :
  SortPlan.groupSizes n [replicate n raw, replicate n raw] f = [n, n]
  := by
  simp [SortPlan.groupSizes, runGroups, filterMap_replicate_of_some hf]

/--
Two runs of as many rows as a run has at least. No row is asked for, and one is to be skipped: the
merge returns the second row.
-/
theorem externalSort_limit_zero :
  qualifySort noSubqueries (fun _ => some 18432) (fun _ => 2048) 1024 (orderedByX 0 1) =
      some (orderedByXPlan 0 1 1024) ∧
    ¬(orderedByXPlan 0 1 1024).SortsExactly noBuiltins (fun _ => tableOf [])
      ⟨[⟨"x", .int64, true⟩]⟩ "e" (SortPlan.insertionSorter _ _)
      [replicate 1024 (intRow 7), replicate 1024 (intRow 7)]
      (replicate 2048 [.int64 7])
  := by
  let f : RawRow → Option Row := fun raw => some [raw 0]
  have hf : rowStep noBuiltins noSubqueries (orderedByXPlan 0 1 1024).input = some f := rfl
  have hkept : f (intRow 7) = some [.int64 7] := rfl
  have hrows : [replicate 1024 (intRow 7), replicate 1024 (intRow 7)].flatten.filterMap
      f = replicate 2048 [.int64 7] := by
    rw [flatten_cons, flatten_singleton, replicate_append_replicate,
      filterMap_replicate_of_some hkept]
  have hsizes : SortPlan.groupSizes (orderedByXPlan 0 1 1024).runRows
      [replicate 1024 (intRow 7), replicate 1024 (intRow 7)] f = [1024, 1024] :=
    groupSizes_two hkept 1024
  refine ⟨rfl, fun h => ?_⟩
  rw [← hrows, SortPlan.sortsExactly_zero_iff (orderedByXPlan_reads 0 1 1024) hf rfl, hsizes] at h
  revert h
  decide

end CratonBolt.OutOfCore
