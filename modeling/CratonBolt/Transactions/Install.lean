import CratonBolt.Library.SlotLoops
import CratonBolt.Library.StateErrors
import CratonBolt.Transactions.Engine

/-!
# Installing a snapshot

Installing a snapshot makes the registered tables those of the snapshot, although tables whose
version is registered are left alone. This needs that equal versions of a table mean equal rows,
and that nothing fails.
-/

namespace CratonBolt

open Std ThreeWayMerge SlotLoops StateErrors Option ExtTreeMap
open Catalog (state)

variable {R : Type}

/-! ### Settled states -/

/-- The tables of the catalog, if there is one. -/
def Snapshot.catalogTables (s : Snapshot R) : TableMap TableMeta :=
  match s.catalog with
  | some c => c.manifest.tables
  | none => ∅

/-- A name belongs to a table of one kind, and in-memory tables have a version. -/
structure Snapshot.Settled (s : Snapshot R) : Prop where
  memory : ∀ n : String, s.tables[n]? ≠ none → s.storage[n]? = none ∧ s.catalogTables[n]? = none
  storage : ∀ n : String, s.catalogTables[n]? ≠ none → s.storage[n]? = none
  stamped : ∀ n : String, s.tables[n]? ≠ none → s.tableVersions[n]? ≠ none

/-- Names belong to one table, and the catalog tables are opened from their entries. -/
structure Registered.Settled (r : Registered R) : Prop where
  memory : ∀ n : String, r.tables[n]? ≠ none → r.storageTables[n]? = none
  entry : ∀ (n : String) m, r.catalogTables[n]? = some m → r.storageTables[n]? = some (.opened m)
  stamped : ∀ n : String, r.tables[n]? ≠ none → r.tableVersions[n]? ≠ none

/-- The registered tables are those of the snapshot. -/
structure Shows (r : Registered R) (s : Snapshot R) : Prop where
  settled : r.Settled
  capture : r.capture = s

/-- Tables of the same version have the same rows. -/
def Snapshot.Agree (s s' : Snapshot R) : Prop :=
  ∀ (n : String) rows rows', s.tables[n]? = some rows → s'.tables[n]? = some rows' →
    s.tableVersions[n]? = s'.tableVersions[n]? → rows = rows'

theorem Snapshot.Agree.symm {s s' : Snapshot R} (h : s.Agree s') :
  s'.Agree s
  := fun n rows rows' hrows hrows' hv => (h n rows' rows hrows' hrows hv.symm).symm

namespace Registered

variable {r r' : Registered R} {s : Snapshot R} {n : String} {faults : Faults}

theorem capture_storage (r : Registered R) (n : String) :
  r.capture.storage[n]? = if r.catalogTables.contains n then none else r.storageTables[n]?
  := by
  rw [capture, getElem?_filter]
  simp only [pfilter_eq_filter, getKey_eq]
  cases hc : r.catalogTables.contains n <;> cases r.storageTables[n]? <;> rfl

theorem capture_catalogTables (r : Registered R) :
  r.capture.catalogTables = r.catalogTables
  := by
  unfold capture Snapshot.catalogTables catalogTables
  cases r.catalog <;> rfl

theorem Settled.tables_eq_none (h : r.Settled) {m : TableMeta} (hm : r.catalogTables[n]? = some m) :
  r.tables[n]? = none
  := by
  by_contra hne
  have := h.memory n hne
  rw [h.entry n m hm] at this
  cases this

theorem Settled.capture (h : r.Settled) :
  r.capture.Settled
  := by
  constructor
  · intro n hn
    rw [capture_storage, capture_catalogTables]
    have hcat : r.catalogTables[n]? = none := by
      cases hm : r.catalogTables[n]? with
      | none => rfl
      | some m => exact (hn (h.tables_eq_none hm)).elim
    rw [h.memory n hn, ite_self]
    exact ⟨rfl, hcat⟩
  · intro n hn
    rw [capture_catalogTables] at hn
    rw [capture_storage, contains_eq_isSome_getElem?,
      if_pos (isSome_iff_ne_none.mpr hn)]
  · exact h.stamped

/-! ### Slots -/

/-- What is known of a name. -/
structure Slot (R : Type) where
  rows : Option R
  storage : Option StorageTable
  version : Option Nat

def slot (r : Registered R) (n : String) : Slot R :=
  ⟨r.tables[n]?, r.storageTables[n]?, r.tableVersions[n]?⟩

/-- The version and the rows are kept, the rows are dropped, or the version is new. -/
def Evolves (epoch epoch' : Nat) (σ σ' : Slot R) : Prop :=
  σ'.version = σ.version ∧ (σ'.rows = σ.rows ∨ σ'.rows = none) ∨
    ∃ v, epoch < v ∧ v ≤ epoch' ∧ σ'.version = some (v % 2 ^ 64)

theorem Evolves.refl (epoch epoch' : Nat) (σ : Slot R) :
  Evolves epoch epoch' σ σ
  := Or.inl ⟨rfl, Or.inl rfl⟩

theorem Evolves.trans {epoch epoch' epoch'' : Nat} {σ σ' σ'' : Slot R} (he : epoch ≤ epoch')
    (he' : epoch' ≤ epoch'') (h : Evolves epoch epoch' σ σ') (h' : Evolves epoch' epoch'' σ' σ'') :
  Evolves epoch epoch'' σ σ''
  := by
  obtain ⟨hv', hrows'⟩ | ⟨v, hlt, hle, hv⟩ := h'
  · obtain ⟨hv, hrows⟩ | ⟨v, hlt, hle, hv⟩ := h
    · refine Or.inl ⟨hv'.trans hv, ?_⟩
      obtain hrows' | hrows' := hrows'
      · rwa [hrows']
      · exact Or.inr hrows'
    · exact Or.inr ⟨v, hlt, Nat.le_trans hle he', hv'.trans hv⟩
  · exact Or.inr ⟨v, Nat.lt_of_le_of_lt he hlt, hle, hv⟩

/-- What operations on tables leave alone. -/
structure Keeps (r r' : Registered R) : Prop where
  views : r'.views = r.views
  catalog : r'.catalog = r.catalog
  epoch : r.dataEpoch ≤ r'.dataEpoch
  evolves : ∀ n, Evolves r.dataEpoch r'.dataEpoch (r.slot n) (r'.slot n)

theorem Keeps.refl (r : Registered R) :
  Keeps r r
  := ⟨rfl, rfl, Nat.le_refl _, fun _ => Evolves.refl _ _ _⟩

theorem Keeps.trans {r'' : Registered R} (h : Keeps r r') (h' : Keeps r' r'') :
  Keeps r r''
  := by
  refine ⟨h'.views.trans h.views, h'.catalog.trans h.catalog, Nat.le_trans h.epoch h'.epoch, ?_⟩
  intro n
  exact (h.evolves n).trans h.epoch h'.epoch (h'.evolves n)

theorem hasTable_eq (r : Registered R) (n : String) :
  r.hasTable n = ((r.slot n).rows.isSome || (r.slot n).storage.isSome)
  := by
  simp [hasTable, slot]

/-- An operation succeeds and changes one slot. -/
def ChangesSlot (m : RegisteredM R Unit) (r : Registered R) (n : String) (new : Slot R → Prop) :
    Prop :=
  ∃ r', m r = .ok () r' ∧ Keeps r r' ∧ (∀ n', n' ≠ n → r'.slot n' = r.slot n') ∧ new (r'.slot n)

variable {m m' : RegisteredM R Unit} {new : Slot R → Prop} {f : String → RegisteredM R Unit}
variable {Post : String → Slot R → Slot R → Prop} {l : List String}

/-- An operation that does nothing. -/
theorem changesSlot_idle (hrun : m r = .ok () r) (h : new (r.slot n)) :
  ChangesSlot m r n new
  := ⟨r, hrun, Keeps.refl r, fun _ _ => rfl, h⟩

/-- An operation that succeeds, with the state that it reaches. -/
theorem changesSlot_of (r' : Registered R) (hrun : m r = .ok () r') (hviews : r'.views = r.views)
    (hcat : r'.catalog = r.catalog) (hepoch : r.dataEpoch ≤ r'.dataEpoch)
    (hother : ∀ n', n' ≠ n → r'.slot n' = r.slot n')
    (hevolves : Evolves r.dataEpoch r'.dataEpoch (r.slot n) (r'.slot n)) (hnew : new (r'.slot n)) :
  ChangesSlot m r n new
  := by
  refine ⟨r', hrun, ⟨hviews, hcat, hepoch, ?_⟩, hother, hnew⟩
  intro n'
  by_cases hn' : n' = n
  · rw [hn']
    exact hevolves
  · rw [hother n' hn']
    exact Evolves.refl _ _ _

/-- An operation that runs as another one does, which says at least as much. -/
theorem ChangesSlot.of_run {new new' : Slot R → Prop}
    (h : ChangesSlot m' r n new') (hrun : m r = m' r) (himp : ∀ σ, new' σ → new σ) :
  ChangesSlot m r n new
  := by
  obtain ⟨r', hrun', hkeep, hother, hnew⟩ := h
  exact ⟨r', hrun.trans hrun', hkeep, hother, himp _ hnew⟩

/-- One operation after another on the same slot. -/
theorem ChangesSlot.bind {mid new : Slot R → Prop}
    (h : ChangesSlot m r n mid)
    (h' : ∀ r', Keeps r r' → mid (r'.slot n) → ChangesSlot m' r' n new) :
  ChangesSlot (do m; m') r n new
  := by
  obtain ⟨r₁, hrun, hkeep, hother, hmid⟩ := h
  obtain ⟨r₂, hrun', hkeep', hother', hnew⟩ := h' r₁ hkeep hmid
  refine ⟨r₂, ?_, hkeep.trans hkeep', ?_, hnew⟩
  · simp only [Bind.bind, EStateM.bind, hrun, hrun']
  · intro n' hn'
    rw [hother' n' hn', hother n' hn']

theorem deregisterTable_changesSlot (h : r.hasTable n = true) :
  ChangesSlot (deregisterTable n) r n (fun σ => σ = ⟨none, none, (r.slot n).version⟩)
  := by
  let r' : Registered R := { r with
    dataEpoch := r.dataEpoch + 1
    tables := r.tables.erase n
    storageTables := r.storageTables.erase n }
  refine changesSlot_of r' ?_ rfl rfl (Nat.le_succ _) ?_ ?_ ?_
  · simp [deregisterTable, bumpDataEpoch, h, r']
  · intro n' hn'
    simp [slot, r', getElem?_erase, Ne.symm hn']
  · exact Or.inl ⟨rfl, Or.inr (by simp [slot, r'])⟩
  · simp [slot, r']

theorem registerTable_changesSlot (hf : faults.register n = none) (h : r.hasTable n = false)
    (rows : R) :
  ChangesSlot (registerTable faults n rows) r n
    (fun σ => σ.rows = some rows ∧ σ.storage = (r.slot n).storage)
  := by
  let r' : Registered R := { r with
    dataEpoch := r.dataEpoch + 2
    tables := r.tables.insert n rows
    tableVersions := r.tableVersions.insert n ((r.dataEpoch + 2) % 2 ^ 64) }
  refine changesSlot_of r' ?_ rfl rfl (Nat.le_add_right _ _) ?_ ?_ ?_
  · have h' : hasTable { r with dataEpoch := r.dataEpoch + 1 } n = false := h
    simp [registerTable, touchTable, raise, bumpDataEpoch, h', hf, r']
  · intro n' hn'
    simp [slot, r', getElem?_insert, Ne.symm hn']
  · refine Or.inr ⟨r.dataEpoch + 2, ?_, Nat.le_refl _, ?_⟩
    · omega
    · simp [slot, r']
  · simp [slot, r']

theorem registerStorageTable_changesSlot (h : r.hasTable n = false) (table : StorageTable) :
  ChangesSlot (registerStorageTable n table) r n
    (fun σ => σ.rows = (r.slot n).rows ∧ σ.storage = some table)
  := by
  let r' : Registered R := { r with
    dataEpoch := r.dataEpoch + 1
    storageTables := r.storageTables.insert n table
    tableVersions := r.tableVersions.insert n ((r.dataEpoch + 1) % 2 ^ 64) }
  refine changesSlot_of r' ?_ rfl rfl (Nat.le_succ _) ?_ ?_ ?_
  · simp [registerStorageTable, ensureNameFree, touchTable, bumpDataEpoch, h, r']
  · intro n' hn'
    simp [slot, r', getElem?_insert, Ne.symm hn']
  · refine Or.inr ⟨r.dataEpoch + 1, Nat.lt_succ_self _, Nat.le_refl _, ?_⟩
    simp [slot, r']
  · simp [slot, r']

/-- Unregister a name that may be taken, and go on. -/
theorem changesSlot_replace
    (h : ∀ r', Keeps r r' → (r'.slot n).rows = none → (r'.slot n).storage = none →
      ChangesSlot m r' n new) :
  ChangesSlot (do if r.hasTable n then deregisterTable n
                  m) r n new
  := by
  by_cases hr : r.hasTable n = true
  · rw [if_pos hr]
    apply (deregisterTable_changesSlot hr).bind
    intro r' hkeep hslot
    apply h r' hkeep <;> rw [hslot]
  · rw [if_neg hr]
    rw [hasTable_eq, Bool.or_eq_true, not_or] at hr
    have hpure : ChangesSlot (pure ()) r n (fun σ => σ = r.slot n) := changesSlot_idle rfl rfl
    apply hpure.bind
    intro r' hkeep hslot
    apply h r' hkeep
    · rw [hslot]
      exact not_isSome_iff_eq_none.mp hr.1
    · rw [hslot]
      exact not_isSome_iff_eq_none.mp hr.2

theorem hasTable_eq_false (hrows : (r.slot n).rows = none) (hstorage : (r.slot n).storage = none) :
  r.hasTable n = false
  := by
  rw [hasTable_eq, hrows, hstorage]
  rfl

theorem registerCatalogTable_changesSlot (hf : faults.openTable n = none) {m : TableMeta}
    (hm : r.catalogTables[n]? = some m) :
  ChangesSlot (registerCatalogTable faults n) r n
    (fun σ => σ.rows = none ∧ σ.storage = some (.opened m))
  := by
  have hrun : registerCatalogTable faults n r =
      (do if r.hasTable n then deregisterTable n
          registerStorageTable n (.opened m) : RegisteredM R Unit) r := by
    unfold catalogTables at hm
    cases hcat : r.catalog with
    | none => simp [hcat] at hm
    | some cat =>
      simp only [hcat] at hm
      simp [registerCatalogTable, raise, hcat, hm, hf]
  apply ChangesSlot.of_run _ hrun (fun _ h => h)
  apply changesSlot_replace
  intro r' _ hrows hstorage
  have := registerStorageTable_changesSlot (hasTable_eq_false hrows hstorage) (.opened m)
  rwa [hrows] at this

/-! ### The loops of `install` -/

theorem forM_changesSlot (hl : l.Nodup) (hf : ∀ n ∈ l, ∀ r', Keeps r r' → r'.slot n = r.slot n →
      ChangesSlot (f n) r' n (Post n (r'.slot n))) :
  ∃ r', l.forM f r = .ok () r' ∧ Keeps r r' ∧ (∀ n, n ∉ l → r'.slot n = r.slot n) ∧
    ∀ n ∈ l, Post n (r.slot n) (r'.slot n)
  := forM_slots Keeps.refl Keeps.trans hl r hf

/-- A loop, seen at every name. -/
theorem forM_allSlots (hl : l.Nodup) (hf : ∀ n ∈ l, ∀ r', Keeps r r' → r'.slot n = r.slot n →
      ChangesSlot (f n) r' n (Post n (r'.slot n)))
    (hout : ∀ n, n ∉ l → Post n (r.slot n) (r.slot n)) :
  ∃ r', l.forM f r = .ok () r' ∧ Keeps r r' ∧ ∀ n, Post n (r.slot n) (r'.slot n)
  := by
  obtain ⟨r', hr', hkeep, hother, hpost⟩ := forM_changesSlot hl hf
  refine ⟨r', hr', hkeep, ?_⟩
  intro n
  by_cases hn : n ∈ l
  · exact hpost n hn
  · rw [hother n hn]
    exact hout n hn

/-- The catalog with the state of the snapshot. -/
def shownCatalog (c : Option Catalog) (s : Snapshot R) : Option Catalog :=
  match c, s.catalog with
  | some cat, some state => some (cat.setState state)
  | c, _ => c

theorem shownCatalog_tables {c : Option Catalog} (h : c.isSome = s.catalog.isSome) :
  (shownCatalog c s).map state = s.catalog
  := by
  unfold shownCatalog
  cases c <;> cases hs : s.catalog <;> simp_all [Catalog.setState, state]

theorem catalogTables_of_state (h : r.catalog.map state = s.catalog) :
  r.catalogTables = s.catalogTables
  := by
  unfold catalogTables Snapshot.catalogTables
  rw [← h]
  cases r.catalog <;> rfl

/-- One catalog table: opened if it is new or not registered, and otherwise only ever removed. -/
def CatalogPost (s : Snapshot R) (before : TableMap TableMeta) (n : String) (σ σ' : Slot R) :
    Prop :=
  match s.catalogTables[n]? with
  | some m => σ' = σ ∧ before[n]? = some m ∨ σ'.rows = none ∧ σ'.storage = some (.opened m)
  | none => σ' = σ ∨ s.tables[n]? = none ∧ σ'.rows = none ∧ σ'.storage = none

theorem installCatalogTable_changesSlot (hf : ∀ n, faults.openTable n = none)
    {before : TableMap TableMeta} (hcat : r.catalogTables = s.catalogTables) :
  ChangesSlot (installCatalogTable faults s before n) r n (CatalogPost s before n (r.slot n))
  := by
  have hrun : installCatalogTable faults s before n r =
      (match r.catalogTables[n]? with
        | some entry =>
          if before[n]? ≠ some entry || !r.hasTable n then registerCatalogTable faults n
          else pure ()
        | none => if r.hasTable n && !s.tables.contains n then deregisterTable n
          else pure () : RegisteredM R Unit) r := rfl
  apply ChangesSlot.of_run _ hrun (fun _ h => h)
  unfold CatalogPost
  rw [← hcat]
  cases hm : r.catalogTables[n]? with
  | some m =>
    dsimp only
    split
    · exact (registerCatalogTable_changesSlot (hf n) hm).of_run rfl (fun _ => Or.inr)
    · next hsame =>
      rw [Bool.or_eq_true, not_or, decide_eq_true_eq, not_not] at hsame
      exact changesSlot_idle rfl (Or.inl ⟨rfl, hsame.1⟩)
  | none =>
    dsimp only
    split
    · next hgone =>
      rw [Bool.and_eq_true, Bool.not_eq_true', contains_eq_isSome_getElem?,
        isSome_eq_false_iff, isNone_iff_eq_none] at hgone
      apply (deregisterTable_changesSlot hgone.1).of_run rfl
      rintro σ rfl
      exact Or.inr ⟨hgone.2, rfl, rfl⟩
    · exact changesSlot_idle rfl (Or.inl rfl)

theorem installCatalog_runs (hf : ∀ n, faults.openTable n = none)
    (hcat : r.catalog.isSome = s.catalog.isSome) :
  ∃ restored r', installCatalog faults s r = .ok restored r' ∧
    (∀ n, n ∈ restored ↔ s.catalogTables[n]? ≠ none) ∧ r'.catalog = shownCatalog r.catalog s ∧
    r.dataEpoch ≤ r'.dataEpoch ∧ ∀ n, CatalogPost s r.catalogTables n (r.slot n) (r'.slot n)
  := by
  cases hc : r.catalog with
  | none =>
    rw [hc, isSome_none, eq_comm, isSome_eq_false_iff,
      isNone_iff_eq_none] at hcat
    have htables : s.catalogTables = ∅ := by rw [Snapshot.catalogTables, hcat]
    refine ⟨[], r, ?_, ?_, ?_, Nat.le_refl _, ?_⟩
    · simp [installCatalog, hc]
    · simp [htables]
    · simp only [hc, shownCatalog]
    · intro n
      rw [CatalogPost, htables, getElem?_empty]
      exact Or.inl rfl
  | some cat =>
    rw [hc, isSome_some, eq_comm, isSome_iff_exists] at hcat
    obtain ⟨state, hstate⟩ := hcat
    have htables : s.catalogTables = state.manifest.tables := by
      rw [Snapshot.catalogTables, hstate]
    have hbefore : r.catalogTables = cat.manifest.tables := by rw [catalogTables, hc]
    let r₁ : Registered R := { r with catalog := some (cat.setState state) }
    have hloop : ∃ r', (sortedKeys compare
        (cat.manifest.tables.keys ++ state.manifest.tables.keys)).forM
          (installCatalogTable faults s cat.manifest.tables) r₁ = .ok () r' ∧ Keeps r₁ r' ∧
        ∀ n, CatalogPost s cat.manifest.tables n (r₁.slot n) (r'.slot n) := by
      apply forM_allSlots (nodup_sortedKeys _)
      · intro n _ r' hkeep hslot'
        apply installCatalogTable_changesSlot hf
        apply catalogTables_of_state
        rw [hkeep.catalog, hstate]
        rfl
      · intro n hn
        rw [mem_sortedKeys, List.mem_append, not_or, mem_keys_iff, mem_keys_iff] at hn
        rw [CatalogPost, htables]
        cases hm : state.manifest.tables[n]? with
        | none => exact Or.inl rfl
        | some m => exact (hn.2 ⟨m, hm⟩).elim
    obtain ⟨r', hr', hkeep, hpost⟩ := hloop
    refine ⟨state.manifest.tables.keys, r', ?_, ?_, ?_, hkeep.epoch, ?_⟩
    · simp only [installCatalog, hc, hstate, run_bind, run_get, run_set]
      rw [hr']
      rfl
    · intro n
      rw [mem_keys_iff, htables, ne_none_iff_exists']
    · simp only [hkeep.catalog, shownCatalog, hstate, r₁]
    · rw [hbefore]
      exact hpost

/-- An in-memory table that the snapshot lacks is unregistered. -/
def RemovePost (s : Snapshot R) (n : String) (σ σ' : Slot R) : Prop :=
  if s.tables[n]? = none ∧ σ.rows ≠ none then σ'.rows = none ∧ σ'.storage = none else σ' = σ

theorem removeTable_changesSlot (hn : (r.slot n).rows ≠ none) :
  ChangesSlot (removeTable s n) r n (RemovePost s n (r.slot n))
  := by
  unfold removeTable RemovePost
  rw [contains_eq_isSome_getElem?]
  by_cases hs : s.tables[n]? = none
  · rw [hs, isSome_none, if_neg Bool.false_ne_true]
    simp only [hn, ne_eq, not_false_eq_true, and_self, if_true]
    have hhas : r.hasTable n = true := by
      rw [hasTable_eq, isSome_iff_ne_none.mpr hn]
      rfl
    apply (deregisterTable_changesSlot hhas).of_run rfl
    rintro σ rfl
    exact ⟨rfl, rfl⟩
  · rw [if_pos (isSome_iff_ne_none.mpr hs)]
    simp only [hs, false_and, if_false]
    exact changesSlot_idle rfl rfl

theorem getElem?_of_not_mem_keys {α : Type} {m : TableMap α} (h : n ∉ m.keys) :
  m[n]? = none
  := by
  by_contra hne
  exact h (mem_keys_iff.mpr (ne_none_iff_exists'.mp hne))

theorem removeTables_runs (r : Registered R) :
  ∃ r', r.tables.keys.forM (removeTable s) r = .ok () r' ∧ Keeps r r' ∧
    ∀ n, RemovePost s n (r.slot n) (r'.slot n)
  := by
  apply forM_allSlots nodup_keys
  · intro n hn r' _ hslot
    apply removeTable_changesSlot
    rw [hslot]
    exact ne_none_iff_exists'.mpr (mem_keys_iff.mp hn)
  · intro n hn
    rw [RemovePost, if_neg]
    exact fun h => h.2 (getElem?_of_not_mem_keys hn)

/-- An in-memory table of the snapshot is registered with its rows, unless its version is there. -/
def TablePost (s : Snapshot R) (n : String) (σ σ' : Slot R) : Prop :=
  match s.tables[n]? with
  | some rows => σ' = σ ∧ σ.rows ≠ none ∧ σ.version = s.tableVersions[n]? ∨
      σ'.rows = some rows ∧ σ'.storage = none
  | none => σ' = σ

theorem installTable_changesSlot (hf : ∀ n, faults.register n = none) :
  ChangesSlot (installTable faults s n) r n (TablePost s n (r.slot n))
  := by
  unfold TablePost
  cases hs : s.tables[n]? with
  | none =>
    have hrun : installTable faults s n r = .ok () r := by
      simp [installTable, hs]
    exact changesSlot_idle hrun rfl
  | some rows =>
    have hrun : installTable faults s n r =
        (if r.tables.contains n && r.tableVersions[n]? = s.tableVersions[n]? then pure ()
          else do
            if r.hasTable n then deregisterTable n
            registerTable faults n rows : RegisteredM R Unit) r := by
      simp only [installTable, hs, run_bind, run_get]
    by_cases hsame : (r.tables.contains n && r.tableVersions[n]? = s.tableVersions[n]?) = true
    · rw [if_pos hsame] at hrun
      rw [Bool.and_eq_true, decide_eq_true_eq, contains_eq_isSome_getElem?,
        isSome_iff_ne_none] at hsame
      exact changesSlot_idle hrun (Or.inl ⟨rfl, hsame⟩)
    · rw [if_neg hsame] at hrun
      apply ChangesSlot.of_run _ hrun (fun _ => Or.inr)
      apply changesSlot_replace
      intro r' _ hrows hstorage
      have := registerTable_changesSlot (hf n) (hasTable_eq_false hrows hstorage) rows
      rwa [hstorage] at this

theorem installTables_runs (hf : ∀ n, faults.register n = none) (r : Registered R) :
  ∃ r', s.tables.keys.forM (installTable faults s) r = .ok () r' ∧ Keeps r r' ∧
    ∀ n, TablePost s n (r.slot n) (r'.slot n)
  := by
  apply forM_allSlots nodup_keys
  · intro n _ r' _ _
    exact installTable_changesSlot hf
  · intro n hn
    rw [TablePost, getElem?_of_not_mem_keys hn]

/-- A storage table that is not the snapshot's is unregistered; catalog tables are left alone. -/
def RemoveStoragePost (s : Snapshot R) (n : String) (σ σ' : Slot R) : Prop :=
  if s.catalogTables[n]? = none ∧ σ.storage ≠ none ∧ s.storage[n]? ≠ σ.storage then
    σ'.rows = none ∧ σ'.storage = none
  else σ' = σ

theorem removeStorage_changesSlot (hcat : s.catalogTables[n]? = none)
    (hn : (r.slot n).storage ≠ none) :
  ChangesSlot (removeStorage s n) r n (RemoveStoragePost s n (r.slot n))
  := by
  have hrun : removeStorage s n r =
      (if s.storage[n]? = (r.slot n).storage then pure ()
        else deregisterTable n : RegisteredM R Unit) r := by
    simp only [removeStorage, run_bind, run_get]
    rfl
  unfold RemoveStoragePost
  by_cases hsame : s.storage[n]? = (r.slot n).storage
  · rw [if_pos hsame] at hrun
    simp only [hsame, ne_eq, not_true_eq_false, and_false, if_false]
    exact changesSlot_idle hrun rfl
  · rw [if_neg hsame] at hrun
    simp only [hcat, hn, hsame, ne_eq, not_false_eq_true, and_self, if_true]
    have hhas : r.hasTable n = true := by
      rw [hasTable_eq, isSome_iff_ne_none.mpr hn, Bool.or_true]
    apply (deregisterTable_changesSlot hhas).of_run hrun
    rintro σ rfl
    exact ⟨rfl, rfl⟩

theorem removeStorages_runs (r : Registered R) {restored : List String}
    (hrestored : ∀ n, n ∈ restored ↔ s.catalogTables[n]? ≠ none) :
  ∃ r', (r.storageTables.keys.filter (fun n => !restored.contains n)).forM (removeStorage s) r =
      .ok () r' ∧ Keeps r r' ∧ ∀ n, RemoveStoragePost s n (r.slot n) (r'.slot n)
  := by
  have hmem : ∀ n, n ∈ r.storageTables.keys.filter (fun n => !restored.contains n) ↔
      (r.slot n).storage ≠ none ∧ s.catalogTables[n]? = none := by
    intro n
    rw [List.mem_filter, mem_keys_iff, Bool.not_eq_true', List.contains_eq_mem,
      decide_eq_false_iff_not, hrestored, not_not, ne_none_iff_exists']
    rfl
  apply forM_allSlots (nodup_keys.filter _)
  · intro n hn r' _ hslot
    obtain ⟨hstorage, hcat⟩ := (hmem n).mp hn
    apply removeStorage_changesSlot hcat
    rwa [hslot]
  · intro n hn
    rw [RemoveStoragePost, if_neg]
    rintro ⟨hcat, hstorage, -⟩
    exact hn ((hmem n).mpr ⟨hstorage, hcat⟩)

/-- A storage table of the snapshot is registered, unless its name is taken. -/
def StoragePost (s : Snapshot R) (n : String) (σ σ' : Slot R) : Prop :=
  match s.storage[n]? with
  | some table => σ' = σ ∧ (σ.rows ≠ none ∨ σ.storage ≠ none) ∨
      σ'.rows = none ∧ σ'.storage = some table
  | none => σ' = σ

theorem installStorage_changesSlot :
  ChangesSlot (installStorage s n) r n (StoragePost s n (r.slot n))
  := by
  unfold StoragePost
  cases hs : s.storage[n]? with
  | none =>
    have hrun : installStorage s n r = .ok () r := by
      simp [installStorage, hs]
    exact changesSlot_idle hrun rfl
  | some table =>
    have hrun : installStorage s n r =
        (if r.hasTable n then pure ()
          else registerStorageTable n table : RegisteredM R Unit) r := by
      simp only [installStorage, hs, run_bind, run_get]
    by_cases hhas : r.hasTable n = true
    · rw [if_pos hhas] at hrun
      rw [hasTable_eq, Bool.or_eq_true, isSome_iff_ne_none,
        isSome_iff_ne_none] at hhas
      exact changesSlot_idle hrun (Or.inl ⟨rfl, hhas⟩)
    · rw [if_neg hhas] at hrun
      rw [Bool.not_eq_true] at hhas
      apply (registerStorageTable_changesSlot hhas table).of_run hrun
      rintro σ ⟨hrows, hstorage⟩
      rw [hasTable_eq, Bool.or_eq_false_iff, isSome_eq_false_iff,
        isNone_iff_eq_none] at hhas
      exact Or.inr ⟨hrows.trans hhas.1, hstorage⟩

theorem installStorages_runs (r : Registered R) :
  ∃ r', s.storage.keys.forM (installStorage s) r = .ok () r' ∧ Keeps r r' ∧
    ∀ n, StoragePost s n (r.slot n) (r'.slot n)
  := by
  apply forM_allSlots nodup_keys
  · intro n _ r' _ _
    exact installStorage_changesSlot
  · intro n hn
    rw [StoragePost, getElem?_of_not_mem_keys hn]

/-! ### Installing -/

/-- What the loops of `install` do to one name. -/
structure Posts (s : Snapshot R) (before : TableMap TableMeta) (n : String)
    (σ σ₁ σ₂ σ₃ σ₄ σ₅ : Slot R) : Prop where
  catalog : CatalogPost s before n σ σ₁
  remove : RemovePost s n σ₁ σ₂
  table : TablePost s n σ₂ σ₃
  removeStorage : RemoveStoragePost s n σ₃ σ₄
  storage : StoragePost s n σ₄ σ₅

/-- Installing a snapshot always comes to an end, if nothing fails. -/
theorem install_runs (hregister : ∀ n, faults.register n = none)
    (hopen : ∀ n, faults.openTable n = none) (hcat : r.catalog.isSome = s.catalog.isSome) :
  ∃ r', install faults s r = .ok () r' ∧ r'.catalog = shownCatalog r.catalog s ∧
    r'.views = s.views ∧ r'.tableVersions = s.tableVersions ∧ r.dataEpoch < r'.dataEpoch ∧
    ∀ n, ∃ σ₁ σ₂ σ₃ σ₄ σ₅, Posts s r.catalogTables n (r.slot n) σ₁ σ₂ σ₃ σ₄ σ₅ ∧
      (r'.slot n).rows = σ₅.rows ∧ (r'.slot n).storage = σ₅.storage
  := by
  obtain ⟨restored, r₁, h₁, hrestored, hcat₁, hepoch₁, hpost₁⟩ := installCatalog_runs hopen hcat
  obtain ⟨r₂, h₂, hkeep₂, hpost₂⟩ := removeTables_runs (s := s) r₁
  obtain ⟨r₃, h₃, hkeep₃, hpost₃⟩ := installTables_runs (s := s) hregister r₂
  obtain ⟨r₄, h₄, hkeep₄, hpost₄⟩ := removeStorages_runs r₃ hrestored
  obtain ⟨r₅, h₅, hkeep₅, hpost₅⟩ := installStorages_runs (s := s) r₄
  let r₆ : Registered R :=
    { r₅ with views := s.views, tableVersions := s.tableVersions, dataEpoch := r₅.dataEpoch + 1 }
  refine ⟨r₆, ?_, ?_, rfl, rfl, ?_, ?_⟩
  · simp only [install, run_bind, run_get, run_modify, h₁, h₂, h₃, h₄, h₅, bumpDataEpoch, r₆]
  · rw [← hcat₁, ← hkeep₂.catalog, ← hkeep₃.catalog, ← hkeep₄.catalog, ← hkeep₅.catalog]
  · have hepoch₂ := (hkeep₂.trans (hkeep₃.trans (hkeep₄.trans hkeep₅))).epoch
    have hlast : r₆.dataEpoch = r₅.dataEpoch + 1 := rfl
    omega
  · intro n
    exact ⟨_, _, _, _, _, ⟨hpost₁ n, hpost₂ n, hpost₃ n, hpost₄ n, hpost₅ n⟩, rfl, rfl⟩

/-- The slot of a name while the snapshot is installed. -/
def Installed (s : Snapshot R) (n : String) (rows : Option R) (storage : Option StorageTable) :
    Prop :=
  rows = s.tables[n]? ∧
    storage = match s.catalogTables[n]? with
      | some m => some (.opened m)
      | none => s.storage[n]?

section Slots

variable {σ σ₁ σ₂ σ₃ σ₄ σ₅ : Slot R} {before : TableMap TableMeta}
  (h : Posts s before n σ σ₁ σ₂ σ₃ σ₄ σ₅)

include h

/-- A catalog table of the snapshot. -/
theorem Posts.installed_catalog (hs : s.Settled) {m : TableMeta} (hm : s.catalogTables[n]? = some m)
    (hbefore : ∀ m, before[n]? = some m → σ.rows = none ∧ σ.storage = some (.opened m)) :
  Installed s n σ₅.rows σ₅.storage
  := by
  have hstorage : s.storage[n]? = none := hs.storage n (by rw [hm]; exact some_ne_none m)
  have htables : s.tables[n]? = none := by
    by_contra hne
    rw [(hs.memory n hne).2] at hm
    cases hm
  obtain ⟨h₁, h₂, h₃, h₄, h₅⟩ := h
  have hopened : σ₁.rows = none ∧ σ₁.storage = some (.opened m) := by
    rw [CatalogPost, hm] at h₁
    obtain ⟨rfl, heq⟩ | hslot := h₁
    · exact hbefore m heq
    · exact hslot
  rw [RemovePost, if_neg (fun h => h.2 hopened.1)] at h₂
  rw [TablePost, htables] at h₃
  rw [RemoveStoragePost, hm, if_neg (fun h => some_ne_none m h.1)] at h₄
  rw [StoragePost, hstorage] at h₅
  rw [h₅, h₄, h₃, h₂, Installed, hm, htables]
  exact hopened

/-- An in-memory table of the snapshot. -/
theorem Posts.installed_memory (hs : s.Settled) {rows : R} (hrows : s.tables[n]? = some rows)
    (hmemory : σ.rows ≠ none → σ.storage = none)
    (hagree : ∀ rows', σ.rows = some rows' → σ.version = s.tableVersions[n]? → rows' = rows) :
  Installed s n σ₅.rows σ₅.storage
  := by
  have hne : s.tables[n]? ≠ none := by
    rw [hrows]
    exact some_ne_none rows
  obtain ⟨hstorage, hcat⟩ := hs.memory n hne
  obtain ⟨h₁, h₂, h₃, h₄, h₅⟩ := h
  rw [CatalogPost, hcat] at h₁
  obtain rfl := h₁.resolve_right (fun h => hne h.1)
  rw [RemovePost, if_neg (fun h => hne h.1)] at h₂
  subst h₂
  have hslot : σ₃.rows = some rows ∧ σ₃.storage = none := by
    rw [TablePost, hrows] at h₃
    obtain ⟨rfl, hsome, hversion⟩ | hslot := h₃
    · obtain ⟨rows', hrows'⟩ := ne_none_iff_exists'.mp hsome
      rw [hrows', hagree rows' hrows' hversion]
      exact ⟨rfl, hmemory hsome⟩
    · exact hslot
  rw [RemoveStoragePost, if_neg (fun h => h.2.1 hslot.2)] at h₄
  rw [StoragePost, hstorage] at h₅
  rw [h₅, h₄, Installed, hcat, hrows, hstorage]
  exact hslot

/-- A registered storage table of the snapshot, or none. -/
theorem Posts.installed_storage (hcat : s.catalogTables[n]? = none)
    (htables : s.tables[n]? = none) :
  Installed s n σ₅.rows σ₅.storage
  := by
  obtain ⟨-, h₂, h₃, h₄, h₅⟩ := h
  have hrows₂ : σ₂.rows = none := by
    rw [RemovePost] at h₂
    split at h₂
    · exact h₂.1
    · next hkept =>
      rw [h₂]
      by_contra hne
      exact hkept ⟨htables, hne⟩
  rw [TablePost, htables] at h₃
  rw [← h₃] at hrows₂
  have hslot : σ₄.rows = none ∧ (σ₄.storage = none ∨ s.storage[n]? = σ₄.storage) := by
    rw [RemoveStoragePost] at h₄
    split at h₄
    · exact ⟨h₄.1, Or.inl h₄.2⟩
    · next hkept =>
      rw [h₄]
      refine ⟨hrows₂, ?_⟩
      by_contra hne
      rw [not_or] at hne
      exact hkept ⟨hcat, hne.1, hne.2⟩
  rw [Installed, hcat, htables]
  rw [StoragePost] at h₅
  cases hstorage : s.storage[n]? with
  | none =>
    rw [hstorage] at h₅ hslot
    rw [h₅]
    exact ⟨hslot.1, hslot.2.elim id Eq.symm⟩
  | some table =>
    rw [hstorage] at h₅ hslot
    obtain ⟨rfl, htaken⟩ | hnew := h₅
    · refine ⟨hslot.1, ?_⟩
      obtain hnone | heq := hslot.2
      · exact (htaken.elim (fun h => h hslot.1) (fun h => h hnone)).elim
      · exact heq.symm
    · exact hnew

end Slots

theorem shows_of_installed (hs : s.Settled)
    (hslots : ∀ n, Installed s n (r.slot n).rows (r.slot n).storage)
    (hversions : r.tableVersions = s.tableVersions) (hviews : r.views = s.views)
    (hcat : r.catalog.map state = s.catalog) :
  Shows r s
  := by
  have htables : r.tables = s.tables := ext_getElem? (fun n => (hslots n).1)
  have hcatalog := catalogTables_of_state hcat
  constructor
  · constructor
    · intro n hn
      rw [htables] at hn
      obtain ⟨hstorage, hnone⟩ := hs.memory n hn
      have := (hslots n).2
      rw [hnone, hstorage] at this
      exact this
    · intro n m hm
      rw [hcatalog] at hm
      have := (hslots n).2
      rw [hm] at this
      exact this
    · intro n hn
      rw [htables] at hn
      rw [hversions]
      exact hs.stamped n hn
  · have hstorage : r.capture.storage = s.storage := by
      apply ext_getElem?
      intro n
      rw [capture_storage, hcatalog, contains_eq_isSome_getElem?]
      have hslot : r.storageTables[n]? = _ := (hslots n).2
      cases hm : s.catalogTables[n]? with
      | none =>
        rw [hm] at hslot
        rw [isSome_none, if_neg Bool.false_ne_true, hslot]
      | some m =>
        rw [isSome_some, if_pos rfl, hs.storage n (by rw [hm]; exact some_ne_none m)]
    have heq : r.capture = ⟨r.tables, r.capture.storage, r.tableVersions, r.views,
        r.catalog.map state⟩ := rfl
    rw [heq, htables, hstorage, hversions, hviews, hcat]

/-- Installing a snapshot shows it, if equal versions mean equal rows. -/
theorem install_ok (hregister : ∀ n, faults.register n = none)
    (hopen : ∀ n, faults.openTable n = none) (hr : r.Settled) (hs : s.Settled)
    (hcat : r.catalog.isSome = s.catalog.isSome) (hagree : r.capture.Agree s) :
  ∃ r', install faults s r = .ok () r' ∧ Shows r' s ∧ r'.catalog = shownCatalog r.catalog s ∧
    r.dataEpoch < r'.dataEpoch
  := by
  obtain ⟨r', hrun, hcat', hviews, hversions, hepoch, hslots⟩ := install_runs hregister hopen hcat
  refine ⟨r', hrun, ?_, hcat', hepoch⟩
  apply shows_of_installed hs _ hversions hviews
  · rw [hcat', shownCatalog_tables hcat]
  · intro n
    obtain ⟨σ₁, σ₂, σ₃, σ₄, σ₅, hposts, hrows, hstorage⟩ := hslots n
    rw [hrows, hstorage]
    cases hm : s.catalogTables[n]? with
    | some m =>
      apply hposts.installed_catalog hs hm
      intro m' hm'
      exact ⟨hr.tables_eq_none hm', hr.entry n m' hm'⟩
    | none =>
      cases ht : s.tables[n]? with
      | some rows =>
        apply hposts.installed_memory hs ht (hr.memory n)
        intro rows' hrows' hversion
        exact hagree n rows' rows hrows' ht hversion
      | none => exact hposts.installed_storage hm ht

end Registered

end CratonBolt
