import CratonBolt.Library.Outcome
import CratonBolt.Transactions.Install

/-!
# Merging a transaction into what was committed since

Each of the merges of a commit looks at one kind of object: in-memory tables by version, registered
storage tables by pointer, views by their identity, and catalog tables and views by their entries.
A name that is new in the transaction with one kind of table, and new in the committed state with
another, is a conflict that none of them sees.
-/

namespace CratonBolt

open Std ThreeWayMerge Outcome List Option
open Snapshot (catalog storage tables views)

variable {R : Type} {I α : Type} {n : String}

namespace Snapshot

variable {base work committed merged : Snapshot R}

/-- The kinds of tables. -/
inductive Kind where
  | memory
  | storage
  | catalog
deriving DecidableEq

variable (s : Snapshot R)

/-- The kind of the table of a name. -/
def kind (n : String) : Option Kind :=
  if s.tables.contains n then some .memory
  else if s.catalogTables.contains n then some .catalog
  else if s.storage.contains n then some .storage
  else none

/-- No name that is new in both states belongs to tables of different kinds. -/
def kindsApart (base work committed : Snapshot R) : Bool :=
  (work.tables.keys ++ work.catalogTables.keys ++ work.storage.keys).all (fun n =>
    (base.kind n).isSome || (committed.kind n).isNone || work.kind n = committed.kind n)

/-- What identifies the content of a table, whatever its kind. -/
def identity (n : String) :
    Option (Option Nat) × Option StorageTable × Option TableMeta :=
  (s.version n, s.storage[n]?, s.catalogTables[n]?)

/-- What a statement reads under a name. -/
inductive Content (R : Type) where
  | memory (rows : R)
  | storage (table : StorageTable)

/-- The table of a name. -/
def content (n : String) : Option (Content R) :=
  match s.tables[n]? with
  | some rows => some (.memory rows)
  | none =>
    match s.catalogTables[n]? with
    | some entry => some (.storage (.opened entry))
    | none => s.storage[n]?.map .storage

/-- The views of the catalog, if there is one. -/
def catalogViews : TableMap ViewMeta :=
  match s.catalog with
  | some c => c.manifest.views
  | none => ∅

/-- The entry that a merge chooses: the transaction's if it changed it, and then nobody else has. -/
def Chosen {I α : Type} (base work committed : I) (working kept new : α) : Prop :=
  base = work ∧ new = kept ∨ base ≠ work ∧ committed = base ∧ new = working

/-- First committer wins: the new state has the transaction's content for everything that the
transaction changed, and nothing of that was changed by a commit since it began; everything else is
as it was committed. -/
structure FirstCommitterWins (base work committed new : Snapshot R) : Prop where
  tables : ∀ n, Chosen (base.identity n) (work.identity n) (committed.identity n)
    (work.content n) (committed.content n) (new.content n)
  views : ∀ n : String,
    Chosen (base.viewIdentity n) (work.viewIdentity n) (committed.viewIdentity n)
    work.views[n]? committed.views[n]? new.views[n]?
  catalogViews : ∀ n : String, Chosen base.catalogViews[n]? work.catalogViews[n]?
    committed.catalogViews[n]? work.catalogViews[n]? committed.catalogViews[n]? new.catalogViews[n]?

/-! ### The merge, name by name -/

theorem chosen_of_ite [DecidableEq I] {base work committed : I} {working kept new : α}
    (hsame : base ≠ work → committed = base) (hnew : new = if base = work then kept else working) :
  Chosen base work committed working kept new
  := by
  by_cases h : base = work
  · exact Or.inl ⟨h, by rw [hnew, if_pos h]⟩
  · exact Or.inr ⟨h, hsame h, by rw [hnew, if_neg h]⟩

/-- What a merge that finds no conflict gives. -/
structure Merged (base work committed merged : Snapshot R) : Prop where
  tables : ∀ n : String, Chosen (base.version n) (work.version n) (committed.version n)
    work.tables[n]? committed.tables[n]? merged.tables[n]?
  storage : ∀ n : String, Chosen base.storage[n]? work.storage[n]? committed.storage[n]?
    work.storage[n]? committed.storage[n]? merged.storage[n]?
  views : ∀ n : String,
    Chosen (base.viewIdentity n) (work.viewIdentity n) (committed.viewIdentity n)
    work.views[n]? committed.views[n]? merged.views[n]?
  versions : ∀ n : String,
    work.tables[n]? ≠ none ∧ base.version n ≠ work.version n ∧
        merged.tableVersions[n]? = work.tableVersions[n]? ∨
      work.tables[n]? = none ∧ base.tableVersions[n]? ≠ work.tableVersions[n]? ∧
        work.tableVersions[n]? ≠ none ∧ merged.tableVersions[n]? = work.tableVersions[n]? ∨
      merged.tables[n]? = none ∧ merged.tableVersions[n]? = none ∨
      base.version n = work.version n ∧ merged.tableVersions[n]? = committed.tableVersions[n]?

/-- The catalog plays no part in the engine's merge. -/
theorem Merged.withCatalog (h : Merged base work committed merged) (c : Option CatalogState) :
  Merged base work committed { merged with catalog := c }
  := ⟨h.tables, h.storage, h.views, h.versions⟩

section Takes

variable {base work next : Snapshot R}

theorem takeTable_tables (n n' : String) :
  (takeTable work next n).tables[n']? = if n = n' then work.tables[n]? else next.tables[n']?
  := by
  unfold takeTable
  cases h : work.tables[n]? <;>
    simp [ExtTreeMap.getElem?_insert, ExtTreeMap.getElem?_erase]

theorem takeTable_versions
    (hwork : ∀ n : String, work.tables[n]? ≠ none → work.tableVersions[n]? ≠ none) (n n' : String) :
  (takeTable work next n).tableVersions[n']? =
    if n = n' then (if work.tables[n]? = none then none else work.tableVersions[n]?)
    else next.tableVersions[n']?
  := by
  unfold takeTable
  cases h : work.tables[n]? with
  | none => simp [ExtTreeMap.getElem?_erase]
  | some rows =>
    obtain ⟨v, hv⟩ := ne_none_iff_exists'.mp (hwork n (by rw [h]; exact some_ne_none _))
    simp [hv, ExtTreeMap.getElem?_insert]

theorem takeTable_rest (n : String) :
  (takeTable work next n).storage = next.storage ∧ (takeTable work next n).views = next.views ∧
    (takeTable work next n).catalog = next.catalog
  := by
  unfold takeTable
  cases work.tables[n]? <;> exact ⟨rfl, rfl, rfl⟩

/-- The versions of tables that are not in memory. -/
theorem foldl_takeVersion_versions (base work next : Snapshot R) (n : String) :
  (work.tableVersions.keys.foldl (takeVersion base work) next).tableVersions[n]? =
    if base.tableVersions[n]? ≠ work.tableVersions[n]? ∧ work.tables[n]? = none ∧
      work.tableVersions[n]? ≠ none then work.tableVersions[n]? else next.tableVersions[n]?
  := by
  have hfold : work.tableVersions.keys.foldl (takeVersion base work) next =
      (work.tableVersions.keys.filter (fun n => base.tableVersions[n]? ≠ work.tableVersions[n]? &&
        !work.tables.contains n)).foldl (fun next n =>
          { next with
            tableVersions := takeFrom work.tableVersions next.tableVersions n }) next := by
    rw [foldl_filter]
    rfl
  rw [hfold, foldl_take_at (fun (s : Snapshot R) (n : String) => s.tableVersions[n]?)
    (fun n : String => work.tableVersions[n]?)]
  · have hmem : (n ∈ work.tableVersions.keys.filter (fun n =>
        base.tableVersions[n]? ≠ work.tableVersions[n]? && !work.tables.contains n)) ↔
        base.tableVersions[n]? ≠ work.tableVersions[n]? ∧ work.tables[n]? = none ∧
          work.tableVersions[n]? ≠ none := by
      rw [mem_filter, mem_keys_iff, ← ne_none_iff_exists', Bool.and_eq_true,
        decide_eq_true_eq, Bool.not_eq_true', ExtTreeMap.contains_eq_isSome_getElem?,
        isSome_eq_false_iff, isNone_iff_eq_none]
      tauto
    simp only [hmem]
  · intro next n n'
    exact getElem?_takeFrom _ _ n n'

theorem foldl_takeVersion_rest (base work next : Snapshot R) :
  (work.tableVersions.keys.foldl (takeVersion base work) next).tables = next.tables ∧
    (work.tableVersions.keys.foldl (takeVersion base work) next).storage = next.storage ∧
    (work.tableVersions.keys.foldl (takeVersion base work) next).views = next.views ∧
    (work.tableVersions.keys.foldl (takeVersion base work) next).catalog = next.catalog
  := by
  have hstep : ∀ (next : Snapshot R) n, (takeVersion base work next n).tables = next.tables ∧
      (takeVersion base work next n).storage = next.storage ∧
      (takeVersion base work next n).views = next.views ∧
      (takeVersion base work next n).catalog = next.catalog := by
    intro next n
    unfold takeVersion
    split <;> exact ⟨rfl, rfl, rfl, rfl⟩
  refine ⟨?_, ?_, ?_, ?_⟩
  · exact foldl_take_fixed tables _ (fun next n => (hstep next n).1) next
  · exact foldl_take_fixed storage _ (fun next n => (hstep next n).2.1) next
  · exact foldl_take_fixed views _ (fun next n => (hstep next n).2.2.1) next
  · exact foldl_take_fixed catalog _ (fun next n => (hstep next n).2.2.2) next

end Takes

theorem version_eq_none {s : Snapshot R} :
  s.version n = none ↔ s.tables[n]? = none
  := by
  unfold version
  rw [ExtTreeMap.contains_eq_isSome_getElem?]
  cases s.tables[n]? <;> simp

/-- A name that one of two maps has. -/
theorem mem_eitherKeys {V : Type} {base work : TableMap V}
    (h : ¬ (base[n]? = none ∧ work[n]? = none)) :
  n ∈ sortedKeys compare (base.keys ++ work.keys)
  := by
  rw [mem_sortedKeys, mem_append, mem_keys_iff, mem_keys_iff,
    ← ne_none_iff_exists', ← ne_none_iff_exists']
  tauto

theorem mem_changedTables {base work : Snapshot R} (h : base.version n ≠ work.version n) :
  n ∈ sortedKeys compare (base.tables.keys ++ work.tables.keys)
  := by
  apply mem_eitherKeys
  rintro ⟨hb, hw⟩
  rw [version_eq_none.mpr hb, version_eq_none.mpr hw] at h
  exact h rfl

theorem merge_merged (hwork : ∀ n : String, work.tables[n]? ≠ none → work.tableVersions[n]? ≠ none)
    (h : merge base work committed = .ok merged) :
  Merged base work committed merged
  := by
  unfold merge at h
  obtain ⟨s₁, h₁, h⟩ := bind_eq_ok.mp h
  obtain ⟨s₂, h₂, h₃⟩ := bind_eq_ok.mp h
  rw [mapError_eq_ok] at h₁ h₂ h₃
  have htables := merge_at (fun (s : Snapshot R) (n : String) => s.tables[n]?)
    (fun n : String => work.tables[n]?) (fun _ => takeTable_tables)
    (fun _ => mem_changedTables) h₁
  have hversions := merge_at (fun (s : Snapshot R) (n : String) => s.tableVersions[n]?) _
    (fun _ => takeTable_versions hwork) (fun _ => mem_changedTables) h₁
  obtain ⟨htables', hstorage', hviews', hcatalog'⟩ :=
    foldl_takeVersion_rest base work s₁
  have hversions' := foldl_takeVersion_versions base work s₁
  have hstorage := merge_at (fun (s : Snapshot R) (n : String) => s.storage[n]?)
    (fun n : String => work.storage[n]?) (fun _ => getElem?_takeFrom _ _)
    (by
      intro n hn
      apply mem_eitherKeys
      rintro ⟨hb, hw⟩
      exact hn (hb.trans hw.symm)) h₂
  have hviews := merge_at (fun (s : Snapshot R) (n : String) => s.views[n]?)
    (fun n : String => work.views[n]?) (fun _ => getElem?_takeFrom _ _)
    (by
      intro n hn
      apply mem_eitherKeys
      rintro ⟨hb, hw⟩
      apply hn
      rw [viewIdentity, viewIdentity, hb, hw]) h₃
  have hlast : merged.tables = s₁.tables ∧ merged.tableVersions =
      (work.tableVersions.keys.foldl (takeVersion base work) s₁).tableVersions := by
    rw [merge_fixed tables h₃ (fun _ _ => rfl),
      merge_fixed tables h₂ (fun _ _ => rfl),
      merge_fixed Snapshot.tableVersions h₃ (fun _ _ => rfl),
      merge_fixed Snapshot.tableVersions h₂ (fun _ _ => rfl)]
    exact ⟨htables', rfl⟩
  constructor
  · intro n
    apply chosen_of_ite (htables n).1
    rw [hlast.1]
    exact (htables n).2
  · intro n
    apply chosen_of_ite (hstorage n).1
    rw [merge_fixed storage h₃ (fun _ _ => rfl)]
    refine (hstorage n).2.trans ?_
    rw [hstorage', merge_fixed storage h₁ (fun _ n => (takeTable_rest n).1)]
  · intro n
    apply chosen_of_ite (hviews n).1
    refine (hviews n).2.trans ?_
    rw [merge_fixed views h₂ (fun _ _ => rfl), hviews',
      merge_fixed views h₁ (fun _ n => (takeTable_rest n).2.1)]
  · intro n
    rw [hlast.2, hlast.1, hversions', (hversions n).2, (htables n).2]
    by_cases htake : base.tableVersions[n]? ≠ work.tableVersions[n]? ∧ work.tables[n]? = none ∧
        work.tableVersions[n]? ≠ none
    · rw [if_pos htake]
      exact Or.inr (Or.inl ⟨htake.2.1, htake.1, htake.2.2, rfl⟩)
    · rw [if_neg htake]
      by_cases hn : base.version n = work.version n
      · rw [if_pos hn]
        exact Or.inr (Or.inr (Or.inr ⟨hn, rfl⟩))
      · rw [if_neg hn, if_neg hn]
        by_cases hrows : work.tables[n]? = none
        · rw [if_pos hrows]
          exact Or.inr (Or.inr (Or.inl ⟨hrows, rfl⟩))
        · rw [if_neg hrows]
          exact Or.inl ⟨hrows, hn, rfl⟩

theorem merge_catalog (h : merge base work committed = .ok merged) :
  merged.catalog = committed.catalog
  := by
  unfold merge at h
  obtain ⟨s₁, h₁, h⟩ := bind_eq_ok.mp h
  obtain ⟨s₂, h₂, h₃⟩ := bind_eq_ok.mp h
  rw [mapError_eq_ok] at h₁ h₂ h₃
  rw [merge_fixed catalog h₃ (fun _ _ => rfl),
    merge_fixed catalog h₂ (fun _ _ => rfl),
    (foldl_takeVersion_rest base work s₁).2.2.2,
    merge_fixed catalog h₁ (fun _ n => (takeTable_rest n).2.2)]

end Snapshot

/-! ### The catalog's merge -/

/-- What the catalog's merge gives if it finds no conflict. -/
structure Manifest.Merged (base work committed next : Manifest) : Prop where
  tables : ∀ n : String, Snapshot.Chosen base.tables[n]? work.tables[n]? committed.tables[n]?
    work.tables[n]? committed.tables[n]? next.tables[n]?
  views : ∀ n : String, Snapshot.Chosen base.views[n]? work.views[n]? committed.views[n]?
    work.views[n]? committed.views[n]? next.views[n]?

theorem Manifest.merge_merged {base work committed next : Manifest}
    (h : Manifest.merge base work committed = .ok next) :
  Manifest.Merged base work committed next
  := by
  unfold Manifest.merge at h
  obtain ⟨m₁, h₁, h⟩ := bind_eq_ok.mp h
  obtain ⟨m₂, h₂, h⟩ := bind_eq_ok.mp h
  rw [mapError_eq_ok] at h₁ h₂
  cases h
  have htables := merge_at (fun (m : Manifest) (n : String) => m.tables[n]?)
    (fun n : String => work.tables[n]?) (fun _ => getElem?_takeFrom _ _)
    (by
      intro n hn
      apply Snapshot.mem_eitherKeys
      rintro ⟨hb, hw⟩
      exact hn (hb.trans hw.symm)) h₁
  have hviews := merge_at (fun (m : Manifest) (n : String) => m.views[n]?)
    (fun n : String => work.views[n]?) (fun _ => getElem?_takeFrom _ _)
    (by
      intro n hn
      apply Snapshot.mem_eitherKeys
      rintro ⟨hb, hw⟩
      exact hn (hb.trans hw.symm)) h₂
  constructor
  · intro n
    apply Snapshot.chosen_of_ite (htables n).1
    rw [merge_fixed Manifest.tables h₂ (fun _ _ => rfl)]
    exact (htables n).2
  · intro n
    apply Snapshot.chosen_of_ite (hviews n).1
    refine (hviews n).2.trans ?_
    rw [merge_fixed Manifest.views h₁ (fun _ _ => rfl)]

namespace Snapshot

/-! ### Kinds -/

section Kinds

variable {A B C : Type}

/-- A name belongs to at most one kind: in memory, registered storage, catalog. -/
def Apart (x : Option A × Option B × Option C) : Prop :=
  (x.1 ≠ none → x.2.1 = none ∧ x.2.2 = none) ∧ (x.2.2 ≠ none → x.2.1 = none)

/-- If the kinds of a new name do not clash, then a name that changed was changed by nobody else. -/
theorem unchanged_of_apart {b w c : Option A × Option B × Option C} (hb : Apart b) (hw : Apart w)
    (hc : Apart c) (h₁ : b.1 ≠ w.1 → c.1 = b.1) (h₂ : b.2.1 ≠ w.2.1 → c.2.1 = b.2.1)
    (h₃ : b.2.2 ≠ w.2.2 → c.2.2 = b.2.2)
    (hkinds : b = (none, none, none) → w ≠ (none, none, none) → c ≠ (none, none, none) →
      (w.1 = none ↔ c.1 = none) ∧ (w.2.2 = none ↔ c.2.2 = none) ∧ (w.2.1 = none ↔ c.2.1 = none))
    (hne : b ≠ w) :
  c = b
  := by
  obtain ⟨b₁, b₂, b₃⟩ := b
  obtain ⟨w₁, w₂, w₃⟩ := w
  obtain ⟨c₁, c₂, c₃⟩ := c
  obtain ⟨hb₁, hb₃⟩ := hb
  obtain ⟨hw₁, hw₃⟩ := hw
  obtain ⟨hc₁, hc₃⟩ := hc
  dsimp only at *
  -- the kind that the name has in `base` is one that changed
  by_cases hn₁ : b₁ = none
  · by_cases hn₃ : b₃ = none
    · by_cases hn₂ : b₂ = none
      · subst hn₁ hn₂ hn₃
        by_contra hc
        have hwork : (w₁, w₂, w₃) ≠ (none, none, none) := fun h => hne h.symm
        obtain ⟨hk₁, hk₃, hk₂⟩ := hkinds rfl hwork hc
        grind
      · have hne₂ : b₂ ≠ w₂ := by grind
        have heq := h₂ hne₂
        grind
    · have hne₃ : b₃ ≠ w₃ := by grind
      have heq := h₃ hne₃
      grind
  · have hne₁ : b₁ ≠ w₁ := by grind
    have heq := h₁ hne₁
    grind

end Kinds

variable {s base work committed new : Snapshot R}

theorem Settled.apart (hs : s.Settled) (n : String) :
  Apart (s.identity n)
  := by
  refine ⟨?_, hs.storage n⟩
  intro hn
  apply hs.memory n
  intro hnone
  exact hn (version_eq_none.mpr hnone)

theorem identity_eq_none :
  s.identity n = (none, none, none) ↔ s.kind n = none
  := by
  simp only [identity, kind, version, Prod.mk.injEq, ExtTreeMap.contains_eq_isSome_getElem?]
  cases s.tables[n]? <;> cases s.catalogTables[n]? <;> cases s.storage[n]? <;> simp

theorem kind_eq (hs : s.Settled) (n : String) :
  (s.kind n = some .memory ↔ (s.identity n).1 ≠ none) ∧
    (s.kind n = some .catalog ↔ (s.identity n).2.2 ≠ none) ∧
    (s.kind n = some .storage ↔ (s.identity n).2.1 ≠ none)
  := by
  have hmemory := hs.memory n
  have hstorage := hs.storage n
  simp only [identity, kind, version, ExtTreeMap.contains_eq_isSome_getElem?]
  cases ht : s.tables[n]? <;> cases hc : s.catalogTables[n]? <;> cases hst : s.storage[n]? <;>
    simp_all

theorem kindsApart_iff :
  kindsApart base work committed = true ↔ ∀ n, base.kind n = none → work.kind n ≠ none →
    committed.kind n ≠ none → work.kind n = committed.kind n
  := by
  have hmem : ∀ n, n ∈ work.tables.keys ++ work.catalogTables.keys ++ work.storage.keys ↔
      work.kind n ≠ none := by
    intro n
    rw [ne_eq, ← identity_eq_none]
    simp only [mem_append, mem_keys_iff, ← ne_none_iff_exists', identity,
      Prod.mk.injEq, version_eq_none]
    tauto
  unfold kindsApart
  simp only [List.all_eq_true, hmem, Bool.or_eq_true, isSome_iff_ne_none,
    isNone_iff_eq_none, decide_eq_true_eq]
  constructor
  · intro h n hb hw hc
    obtain (hb' | hc') | heq := h n hw
    · exact (hb' hb).elim
    · exact (hc hc').elim
    · exact heq
  · intro h n hw
    by_cases hb : base.kind n = none
    · by_cases hc : committed.kind n = none
      · exact Or.inl (Or.inr hc)
      · exact Or.inr (h n hb hw hc)
    · exact Or.inl (Or.inl hb)

/-- A commit without conflicts: the merge of the engine and the one of the catalog. -/
structure Commits (base work committed new : Snapshot R) : Prop extends
    Merged base work committed new where
  catalogTables : ∀ n : String, Chosen base.catalogTables[n]? work.catalogTables[n]?
    committed.catalogTables[n]? work.catalogTables[n]? committed.catalogTables[n]?
    new.catalogTables[n]?
  catalogViews : ∀ n : String, Chosen base.catalogViews[n]? work.catalogViews[n]?
    committed.catalogViews[n]? work.catalogViews[n]? committed.catalogViews[n]? new.catalogViews[n]?

theorem Chosen.unchanged {base work committed : I} {working kept new : α}
    (h : Chosen base work committed working kept new) (hne : base ≠ work) :
  committed = base
  := by
  obtain ⟨heq, -⟩ | ⟨-, hsame, -⟩ := h
  · exact (hne heq).elim
  · exact hsame

/-- Without a clash of kinds, what a transaction changed was changed by nobody else. -/
theorem Commits.unchanged (h : Commits base work committed new) (hb : base.Settled)
    (hw : work.Settled) (hc : committed.Settled) (hkinds : kindsApart base work committed = true)
    (hne : base.identity n ≠ work.identity n) :
  committed.identity n = base.identity n
  := by
  apply unchanged_of_apart (hb.apart n) (hw.apart n) (hc.apart n) (h.tables n).unchanged
    (h.storage n).unchanged (h.catalogTables n).unchanged _ hne
  intro hnone hwork hcommitted
  rw [identity_eq_none] at hnone
  rw [ne_eq, identity_eq_none] at hwork hcommitted
  have hkind := kindsApart_iff.mp hkinds n hnone hwork hcommitted
  obtain ⟨hw₁, hw₂, hw₃⟩ := kind_eq hw n
  obtain ⟨hc₁, hc₂, hc₃⟩ := kind_eq hc n
  rw [hkind] at hw₁ hw₂ hw₃
  refine ⟨?_, ?_, ?_⟩ <;> apply not_iff_not.mp
  · exact hw₁.symm.trans hc₁
  · exact hw₂.symm.trans hc₂
  · exact hw₃.symm.trans hc₃

theorem Chosen.kept {base work committed : I} {working kept new : α}
    (h : Chosen base work committed working kept new) (heq : base = work) :
  new = kept
  := by
  obtain ⟨-, hkept⟩ | ⟨hne, -, -⟩ := h
  · exact hkept
  · exact (hne heq).elim

theorem Chosen.taken {base work committed : I} {working kept new : α}
    (h : Chosen base work committed working kept new) (hne : base ≠ work) :
  new = working
  := by
  obtain ⟨heq, -⟩ | ⟨-, -, htaken⟩ := h
  · exact (hne heq).elim
  · exact htaken

/-- The tables of a name are those of another state. -/
def SameTables (s s' : Snapshot R) (n : String) : Prop :=
  s.tables[n]? = s'.tables[n]? ∧ s.storage[n]? = s'.storage[n]? ∧
    s.catalogTables[n]? = s'.catalogTables[n]?

theorem SameTables.content {s s' : Snapshot R} (h : SameTables s s' n) :
  s.content n = s'.content n
  := by
  unfold Snapshot.content
  rw [h.1, h.2.1, h.2.2]

theorem Commits.keeps (h : Commits base work committed new)
    (heq : base.identity n = work.identity n) :
  SameTables new committed n
  := by
  simp only [identity, Prod.mk.injEq] at heq
  exact ⟨(h.tables n).kept heq.1, (h.storage n).kept heq.2.1, (h.catalogTables n).kept heq.2.2⟩

/-- In-memory tables of the same version, in states that agree, have the same rows. -/
theorem Agree.tables_eq {s s' : Snapshot R} (h : s.Agree s')
    (hversion : s.version n = s'.version n) :
  s.tables[n]? = s'.tables[n]?
  := by
  unfold version at hversion
  simp only [ExtTreeMap.contains_eq_isSome_getElem?] at hversion
  cases ht : s.tables[n]? with
  | none =>
    cases ht' : s'.tables[n]? with
    | none => rfl
    | some rows' => simp [ht, ht'] at hversion
  | some rows =>
    cases ht' : s'.tables[n]? with
    | none => simp [ht, ht'] at hversion
    | some rows' =>
      simp only [ht, ht', isSome_some, if_true, some.injEq] at hversion
      rw [h n rows rows' ht ht' hversion]

theorem Commits.takes (h : Commits base work committed new) (hagree : work.Agree committed)
    (hsame : committed.identity n = base.identity n) :
  SameTables new work n
  := by
  simp only [identity, Prod.mk.injEq] at hsame
  obtain ⟨hversion, hstorage, hcatalog⟩ := hsame
  refine ⟨?_, ?_, ?_⟩
  · by_cases heq : base.version n = work.version n
    · rw [(h.tables n).kept heq]
      exact (hagree.tables_eq (heq.symm.trans hversion.symm)).symm
    · exact (h.tables n).taken heq
  · by_cases heq : base.storage[n]? = work.storage[n]?
    · rw [(h.storage n).kept heq, hstorage, heq]
    · exact (h.storage n).taken heq
  · by_cases heq : base.catalogTables[n]? = work.catalogTables[n]?
    · rw [(h.catalogTables n).kept heq, hcatalog, heq]
    · exact (h.catalogTables n).taken heq

/-- Whatever the new state is: if the rule holds, then no kinds of new names clash. -/
theorem FirstCommitterWins.kindsApart (hwins : FirstCommitterWins base work committed new) :
  kindsApart base work committed = true
  := by
  apply kindsApart_iff.mpr
  intro n hnone hwork hcommitted
  have hne : base.identity n ≠ work.identity n := by
    intro heq
    rw [identity_eq_none.mpr hnone] at heq
    exact hwork (identity_eq_none.mp heq.symm)
  have hsame := (hwins.tables n).unchanged hne
  rw [identity_eq_none.mpr hnone] at hsame
  exact (hcommitted (identity_eq_none.mp hsame)).elim

section Result

variable (h : Commits base work committed new) (hb : base.Settled) (hw : work.Settled)
  (hc : committed.Settled) (hagree : work.Agree committed)
  (hkinds : kindsApart base work committed = true)

include h hb hw hc hagree hkinds

/-- A commit that succeeds follows the rule, if no kinds of new names clash. -/
theorem Commits.firstCommitterWins :
  FirstCommitterWins base work committed new
  := by
  refine ⟨?_, h.views, h.catalogViews⟩
  intro n
  by_cases heq : base.identity n = work.identity n
  · exact Or.inl ⟨heq, (h.keeps heq).content⟩
  · have hsame := h.unchanged hb hw hc hkinds heq
    exact Or.inr ⟨heq, hsame, (h.takes hagree hsame).content⟩

theorem Commits.sameTables (n : String) :
  SameTables new work n ∨ SameTables new committed n
  := by
  by_cases heq : base.identity n = work.identity n
  · exact Or.inr (h.keeps heq)
  · exact Or.inl (h.takes hagree (h.unchanged hb hw hc hkinds heq))

theorem Commits.settled :
  new.Settled
  := by
  constructor
  · intro n hn
    obtain ⟨ht, hs, hcat⟩ | ⟨ht, hs, hcat⟩ := h.sameTables hb hw hc hagree hkinds n
    · rw [hs, hcat]
      rw [ht] at hn
      exact hw.memory n hn
    · rw [hs, hcat]
      rw [ht] at hn
      exact hc.memory n hn
  · intro n hn
    obtain ⟨-, hs, hcat⟩ | ⟨-, hs, hcat⟩ := h.sameTables hb hw hc hagree hkinds n
    · rw [hs]
      rw [hcat] at hn
      exact hw.storage n hn
    · rw [hs]
      rw [hcat] at hn
      exact hc.storage n hn
  · intro n hn
    obtain ⟨hrows, -, hv⟩ | ⟨-, -, hsome, hv⟩ | ⟨hnone, -⟩ | ⟨heq, hv⟩ := h.versions n
    · rw [hv]
      exact hw.stamped n hrows
    · rwa [hv]
    · exact (hn hnone).elim
    · rw [hv]
      rw [(h.tables n).kept heq] at hn
      exact hc.stamped n hn

end Result

variable (h : Commits base work committed new)
include h

theorem Commits.version_mem {v : Nat} (hv : new.tableVersions[n]? = some v) :
  work.tableVersions[n]? = some v ∨ committed.tableVersions[n]? = some v
  := by
  obtain ⟨-, -, heq⟩ | ⟨-, -, -, heq⟩ | ⟨-, heq⟩ | ⟨-, heq⟩ := h.versions n <;> rw [heq] at hv
  · exact Or.inl hv
  · exact Or.inl hv
  · cases hv
  · exact Or.inr hv

/-- A state in which the transaction's own versions do not occur agrees with the new one. -/
theorem Commits.agree {s : Snapshot R} (hwork : s.Agree work) (hcommitted : s.Agree committed)
    (hown : ∀ (n : String) v, work.tableVersions[n]? = some v → base.tableVersions[n]? ≠ some v →
      s.tableVersions[n]? ≠ some v) :
  s.Agree new
  := by
  intro n rows rows' hrows hrows' hv
  obtain ⟨-, hne, heq⟩ | ⟨-, hne, hsome, heq⟩ | ⟨hnone, -⟩ | ⟨hsame, heq⟩ := h.versions n
  · apply hwork n rows rows' hrows _ (hv.trans heq)
    rw [← hrows', (h.tables n).taken hne]
  · obtain ⟨v, hwv⟩ := ne_none_iff_exists'.mp hsome
    rw [hwv] at hne
    exact (hown n v hwv hne (by rw [hv, heq, hwv])).elim
  · rw [hnone] at hrows'
    cases hrows'
  · apply hcommitted n rows rows' hrows _ (hv.trans heq)
    rw [← hrows', (h.tables n).kept hsame]

theorem Commits.agree_work (hagree : work.Agree committed) :
  work.Agree new
  := by
  intro n rows rows' hrows hrows' hv
  obtain ⟨-, hne, -⟩ | ⟨hnone, -⟩ | ⟨hnone, -⟩ | ⟨hsame, heq⟩ := h.versions n
  · rw [(h.tables n).taken hne, hrows] at hrows'
    exact some.inj hrows'
  · rw [hnone] at hrows
    cases hrows
  · rw [hnone] at hrows'
    cases hrows'
  · apply hagree n rows rows' hrows _ (hv.trans heq)
    rw [← hrows', (h.tables n).kept hsame]

end Snapshot

end CratonBolt
