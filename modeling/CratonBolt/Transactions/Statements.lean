import CratonBolt.Library.Outcome
import CratonBolt.Transactions.Install

/-!
# What statements do

A statement, whether it fails or not, leaves a name with its version and its rows, drops the rows,
or gives the name a version that no state has had. It keeps names apart: a table has one kind, and
the catalog tables are opened from their entries.
-/

namespace CratonBolt

open Std ThreeWayMerge StateErrors Option ExtTreeMap

variable {R : Type}

/-! ### Effects -/

/-- How a statement may change the catalog. -/
structure CatalogEffect (c c' : Catalog) : Prop where
  readOnly : c'.readOnly = c.readOnly
  txnBase : c'.txnBase = c.txnBase
  unchanged : c.readOnly = true → c' = c
  outside : c.txnBase = none → c.published = c.manifest → c'.published = c'.manifest
  inside : c.txnBase ≠ none → c'.published = c.published

theorem CatalogEffect.refl (c : Catalog) :
  CatalogEffect c c
  := ⟨rfl, rfl, fun _ => rfl, fun _ h => h, fun _ => rfl⟩

theorem CatalogEffect.trans {c c' c'' : Catalog} (h : CatalogEffect c c')
    (h' : CatalogEffect c' c'') :
  CatalogEffect c c''
  := by
  constructor
  · rw [h'.readOnly, h.readOnly]
  · rw [h'.txnBase, h.txnBase]
  · intro hr
    rw [h'.unchanged (h.readOnly.trans hr), h.unchanged hr]
  · intro hn hp
    exact h'.outside (h.txnBase.trans hn) (h.outside hn hp)
  · intro hn
    rw [h'.inside (by rwa [h.txnBase]), h.inside hn]

namespace Registered

variable {r r' : Registered R} {n : String} {faults : Faults}

/-- What a statement may do to the registered tables. -/
structure Effect (r r' : Registered R) : Prop where
  settled : r.Settled → r'.Settled
  epoch : r.dataEpoch ≤ r'.dataEpoch
  slots : ∀ n, Evolves r.dataEpoch r'.dataEpoch (r.slot n) (r'.slot n)
  catalog : Rel CatalogEffect r.catalog r'.catalog

theorem catalogEffect_refl (c : Option Catalog) :
  Rel CatalogEffect c c
  := by
  cases c with
  | none => exact .none
  | some c => exact .some (CatalogEffect.refl c)

theorem Effect.refl (r : Registered R) :
  Effect r r
  := ⟨id, Nat.le_refl _, fun _ => Evolves.refl _ _ _, catalogEffect_refl _⟩

theorem Effect.trans {r'' : Registered R} (h : Effect r r') (h' : Effect r' r'') :
  Effect r r''
  := by
  constructor
  · exact h'.settled ∘ h.settled
  · exact Nat.le_trans h.epoch h'.epoch
  · intro n
    exact (h.slots n).trans h.epoch h'.epoch (h'.slots n)
  · generalize hc : r.catalog = c, hc' : r'.catalog = c', hc'' : r''.catalog = c''
    have hcat := h.catalog
    have hcat' := h'.catalog
    rw [hc, hc'] at hcat
    rw [hc', hc''] at hcat'
    cases hcat with
    | none =>
      cases hcat' with
      | none => exact .none
    | some hcat =>
      cases hcat' with
      | some hcat' => exact .some (hcat.trans hcat')

/-- What an operation on one name has to show. -/
structure EffectAt (r r' : Registered R) (n : String) : Prop where
  epoch : r.dataEpoch ≤ r'.dataEpoch
  others : ∀ n', n' ≠ n → r'.slot n' = r.slot n'
  entries : ∀ n' : String, n' ≠ n → r'.catalogTables[n']? = r.catalogTables[n']?
  evolves : Evolves r.dataEpoch r'.dataEpoch (r.slot n) (r'.slot n)
  memory : r.Settled → (r'.slot n).rows ≠ none → (r'.slot n).storage = none
  entry : r.Settled → ∀ m, r'.catalogTables[n]? = some m → (r'.slot n).storage = some (.opened m)
  stamped : r.Settled → (r'.slot n).rows ≠ none → (r'.slot n).version ≠ none
  catalog : Rel CatalogEffect r.catalog r'.catalog

theorem EffectAt.effect (h : EffectAt r r' n) :
  Effect r r'
  := by
  have hmap : ∀ n', n' ≠ n → r'.tables[n']? = r.tables[n']? ∧
      r'.storageTables[n']? = r.storageTables[n']? ∧
      r'.tableVersions[n']? = r.tableVersions[n']? := by
    intro n' hn'
    have := h.others n' hn'
    simp only [slot, Slot.mk.injEq] at this
    exact this
  refine ⟨?_, h.epoch, ?_, h.catalog⟩
  · intro hr
    constructor
    · intro n'
      by_cases hn' : n' = n
      · subst hn'
        exact h.memory hr
      · rw [(hmap n' hn').1, (hmap n' hn').2.1]
        exact hr.memory n'
    · intro n' m
      by_cases hn' : n' = n
      · subst hn'
        exact h.entry hr m
      · rw [h.entries n' hn', (hmap n' hn').2.1]
        exact hr.entry n' m
    · intro n'
      by_cases hn' : n' = n
      · subst hn'
        exact h.stamped hr
      · rw [(hmap n' hn').1, (hmap n' hn').2.2]
        exact hr.stamped n'
  · intro n'
    by_cases hn' : n' = n
    · subst hn'
      exact h.evolves
    · rw [h.others n' hn']
      exact Evolves.refl _ _ _

/-- Nothing that a name shows has changed. -/
theorem effect_same (hslots : ∀ n, r'.slot n = r.slot n) (he : r.dataEpoch ≤ r'.dataEpoch)
    (hcat : Rel CatalogEffect r.catalog r'.catalog) (htables : r'.catalogTables = r.catalogTables) :
  Effect r r'
  := by
  apply EffectAt.effect (n := "")
  constructor
  · exact he
  · exact fun n' _ => hslots n'
  · exact fun n' _ => by rw [htables]
  · rw [hslots]
    exact Evolves.refl _ _ _
  · rw [hslots]
    exact fun hr => hr.memory _
  · rw [hslots, htables]
    exact fun hr => hr.entry _
  · rw [hslots]
    exact fun hr => hr.stamped _
  · exact hcat

/-! ### Operations that may fail -/

/-- The state in which an operation ends, whether it fails or not. -/
def final {α : Type} (m : RegisteredM R α) (r : Registered R) : Registered R :=
  match m r with
  | .ok _ r' => r'
  | .error _ r' => r'

/-- However the operation ends, it has an effect of a statement. -/
def Does {α : Type} (m : RegisteredM R α) : Prop := ∀ r, Effect r (final m r)

variable {α : Type} {change : Manifest → BoltResult Manifest}

theorem does_pure (a : α) :
  Does (pure a : RegisteredM R α)
  := Effect.refl

section

variable (err : Option BoltError)

theorem does_raise :
  Does (raise err : RegisteredM R Unit)
  := by
  intro r
  cases err <;> exact Effect.refl r

theorem Does.bind {α β : Type} {m : RegisteredM R α} {f : α → RegisteredM R β} (hm : Does m)
    (hf : ∀ a, Does (f a)) :
  Does (m >>= f)
  := by
  intro r
  have hr := hm r
  unfold final at hr ⊢
  simp only [Bind.bind, EStateM.bind]
  cases hrun : m r with
  | error err r' =>
    rw [hrun] at hr
    exact hr
  | ok a r' =>
    rw [hrun] at hr
    exact hr.trans (hf a r')

theorem does_get {f : Registered R → RegisteredM R α} (hf : ∀ r, Effect r (final (f r) r)) :
  Does (do f (← get))
  := hf

theorem does_forM {f : α → RegisteredM R Unit} (hf : ∀ a, Does (f a)) (l : List α) :
  Does (l.forM f)
  := by
  induction l with
  | nil => exact does_pure ()
  | cons a l ih => exact (hf a).bind (fun _ => ih)

/-! ### Changes of in-memory and registered tables -/

theorem bumpDataEpoch_does :
  Does (bumpDataEpoch : RegisteredM R Unit)
  := fun _ => effect_same (fun _ => rfl) (Nat.le_succ _) (catalogEffect_refl _) rfl

/-- A name gets a new version and, as far as its kind allows, new content. -/
theorem effect_write (n : String) (rows : Option R) (storage : Option StorageTable) (v : Nat)
    (hcat : r'.catalog = r.catalog) (hothers : ∀ n', n' ≠ n → r'.slot n' = r.slot n')
    (hslot : r'.slot n = ⟨rows, storage, some (v % 2 ^ 64)⟩) (hv : r.dataEpoch < v)
    (hle : v ≤ r'.dataEpoch) (hmemory : r.Settled → rows ≠ none → storage = none)
    (hentry : r.Settled → ∀ m, r.catalogTables[n]? = some m → storage = some (.opened m)) :
  Effect r r'
  := by
  have htables : r'.catalogTables = r.catalogTables := by
    unfold catalogTables
    rw [hcat]
  apply EffectAt.effect (n := n)
  constructor
  · omega
  · exact hothers
  · intro n' _
    rw [htables]
  · exact Or.inr ⟨v, hv, hle, by rw [hslot]⟩
  · rw [hslot]
    exact hmemory
  · rw [hslot, htables]
    exact hentry
  · intro _ _
    rw [hslot]
    exact some_ne_none _
  · rw [hcat]
    exact catalogEffect_refl _

theorem touchTable_does (n : String) :
  Does (touchTable n : RegisteredM R Unit)
  := by
  intro r
  have hfinal : final (touchTable n) r = { r with
      dataEpoch := r.dataEpoch + 1
      tableVersions := r.tableVersions.insert n ((r.dataEpoch + 1) % 2 ^ 64) } := rfl
  rw [hfinal]
  apply effect_write n (r.slot n).rows (r.slot n).storage (r.dataEpoch + 1)
  · rfl
  · intro n' hn'
    simp [slot, getElem?_insert, Ne.symm hn']
  · simp [slot]
  · exact Nat.lt_succ_self _
  · exact Nat.le_refl _
  · exact fun hr => hr.memory n
  · exact fun hr => hr.entry n

/-- A free name is not a catalog table. -/
theorem Settled.entry_of_free (hr : r.Settled) (h : r.hasTable n = false) (m : TableMeta) :
  r.catalogTables[n]? ≠ some m
  := by
  intro hm
  rw [hasTable_eq, Bool.or_eq_false_iff] at h
  have hstorage : (r.slot n).storage = some (.opened m) := hr.entry n m hm
  rw [hstorage] at h
  exact Bool.noConfusion h.2

theorem insert_effect {rows : R} {v epoch : Nat} (hv : r.dataEpoch < v) (hle : v ≤ epoch)
    (hfree : r.Settled → (r.slot n).storage = none) :
  Effect r { r with
    dataEpoch := epoch
    tables := r.tables.insert n rows
    tableVersions := r.tableVersions.insert n (v % 2 ^ 64) }
  := by
  apply effect_write n (some rows) (r.slot n).storage v
  · rfl
  · intro n' hn'
    simp [slot, getElem?_insert, Ne.symm hn']
  · simp [slot]
  · exact hv
  · exact hle
  · exact fun hr _ => hfree hr
  · exact fun hr => hr.entry n

/-- What registering, replacing and appending have in common: the rows are stored, or it fails. -/
def storeRows (n : String) (rows : R) : RegisteredM R Unit := do
  bumpDataEpoch
  touchTable n
  raise err
  modify (fun r => { r with tables := r.tables.insert n rows })

theorem storeRows_effect (rows : R) (hfree : r.Settled → (r.slot n).storage = none) :
  Effect r (final (storeRows err n rows) r)
  := by
  cases err with
  | some err => exact bumpDataEpoch_does.bind (fun _ => touchTable_does n) r
  | none => exact insert_effect (Nat.lt_add_of_pos_right Nat.two_pos) (Nat.le_refl _) hfree

end

theorem registerTable_does (faults : Faults) (n : String) (rows : R) :
  Does (registerTable faults n rows)
  := by
  intro r
  have hbumped : hasTable { r with dataEpoch := r.dataEpoch + 1 } n = r.hasTable n := rfl
  by_cases h : r.hasTable n = true
  · have hfinal : final (registerTable faults n rows) r = final bumpDataEpoch r := by
      simp [final, registerTable, bumpDataEpoch, hbumped, h]
    rw [hfinal]
    exact bumpDataEpoch_does r
  · rw [Bool.not_eq_true] at h
    have hfinal : final (registerTable faults n rows) r =
        final (storeRows (faults.register n) n rows) r := by
      simp [final, registerTable, storeRows, bumpDataEpoch, hbumped, h]
    rw [hfinal]
    apply storeRows_effect
    intro _
    rw [hasTable_eq, Bool.or_eq_false_iff] at h
    exact isNone_iff_eq_none.mp (isSome_eq_false_iff.mp h.2)

/-- Replacing the rows of an in-memory table. -/
theorem replaceTable_does (faults : Faults) (n : String) (rows : R) :
  Does (replaceTable faults n rows)
  := by
  intro r
  by_cases h : r.tables.contains n = true
  · have hfinal : final (replaceTable faults n rows) r =
        final (storeRows (faults.register n) n rows) r := by
      simp [final, replaceTable, storeRows, h]
    rw [hfinal]
    apply storeRows_effect
    intro hr
    apply hr.memory n
    rw [contains_eq_isSome_getElem?] at h
    exact isSome_iff_ne_none.mp h
  · have hfinal : final (replaceTable faults n rows) r = r := by
      simp [final, replaceTable, h]
    rw [hfinal]
    exact Effect.refl r

theorem registerBatch_does [Append R] (faults : Faults) (n : String) (batch : R) :
  Does (registerBatch faults n batch)
  := by
  intro r
  cases h : r.tables[n]? with
  | none =>
    have hfinal : final (registerBatch faults n batch) r =
        final (do bumpDataEpoch; touchTable n; registerTable faults n batch) r := by
      simp [final, registerBatch, touchTable, bumpDataEpoch, h]
    rw [hfinal]
    apply bumpDataEpoch_does.bind
    intro _
    exact (touchTable_does n).bind (fun _ => registerTable_does faults n batch)
  | some existing =>
    have hfinal : final (registerBatch faults n batch) r =
        final (storeRows (faults.register n) n (existing ++ batch)) r := by
      -- whether coalescing fails or not, the appended batch stays
      cases hregister : faults.register n <;> cases hcoalesce : faults.coalesce n <;>
        simp [final, registerBatch, storeRows, touchTable, bumpDataEpoch, raise, h, hregister,
          hcoalesce]
    rw [hfinal]
    apply storeRows_effect
    intro hr
    apply hr.memory n
    rw [h]
    exact some_ne_none existing

/-- Registering a storage table under a free name. -/
theorem registerStorageTable_does (n : String) (table : StorageTable) :
  Does (registerStorageTable n table : RegisteredM R Unit)
  := by
  intro r
  by_cases h : r.hasTable n = true
  · have hfinal : final (registerStorageTable n table) r = r := by
      simp [final, registerStorageTable, ensureNameFree, h]
    rw [hfinal]
    exact Effect.refl r
  · rw [Bool.not_eq_true] at h
    have hfinal : final (registerStorageTable n table) r = { r with
        dataEpoch := r.dataEpoch + 1
        storageTables := r.storageTables.insert n table
        tableVersions := r.tableVersions.insert n ((r.dataEpoch + 1) % 2 ^ 64) } := by
      simp [final, registerStorageTable, ensureNameFree, touchTable, bumpDataEpoch, h]
    rw [hfinal]
    have hrows : (r.slot n).rows = none := by
      rw [hasTable_eq, Bool.or_eq_false_iff] at h
      exact isNone_iff_eq_none.mp (isSome_eq_false_iff.mp h.1)
    apply effect_write n none (some table) (r.dataEpoch + 1)
    · rfl
    · intro n' hn'
      simp [slot, getElem?_insert, Ne.symm hn']
    · have : r.tables[n]? = none := hrows
      simp [slot, this]
    · exact Nat.lt_succ_self _
    · exact Nat.le_refl _
    · exact fun _ hne => (hne rfl).elim
    · exact fun hr m hm => (hr.entry_of_free h m hm).elim

/-! ### Changes of the catalog -/

theorem commit_effect {cat cat' : Catalog} {next : Manifest} (hw : cat.writable = .ok ())
    (h : cat.commit faults next = .ok cat') :
  CatalogEffect cat cat' ∧ cat'.manifest.tables = next.tables
  := by
  have hro : cat.readOnly = false := by
    unfold Catalog.writable at hw
    cases hro : cat.readOnly with
    | false => rfl
    | true => simp [hro] at hw
  have hunchanged : cat.readOnly = true → cat' = cat := by
    rw [hro]
    exact fun h => Bool.noConfusion h
  unfold Catalog.commit at h
  cases hbase : cat.txnBase with
  | some base =>
    simp only [hbase, Except.ok.injEq] at h
    subst h
    refine ⟨⟨rfl, hbase.symm, hunchanged, ?_, fun _ => rfl⟩, rfl⟩
    intro hnone
    rw [hbase] at hnone
    cases hnone
  | none =>
    cases hf : faults.publish with
    | some err => simp [hbase, hf] at h
    | none =>
      simp only [hbase, hf, Except.ok.injEq] at h
      subst h
      exact ⟨⟨rfl, hbase.symm, hunchanged, fun _ _ => rfl, fun h => (h hbase).elim⟩, rfl⟩

/-- Changing the manifest fails and does nothing, or changes only the manifest. -/
theorem changeManifest_cases (faults : Faults) (change : Manifest → BoltResult Manifest)
    (r : Registered R) :
  (∃ err, changeManifest faults change r = .error err r) ∨
    ∃ cat next cat', r.catalog = some cat ∧ change cat.manifest = .ok next ∧
      changeManifest faults change r = .ok () { r with catalog := some cat' } ∧
      CatalogEffect cat cat' ∧ cat'.manifest.tables = next.tables
  := by
  simp only [changeManifest, run_bind, run_get]
  cases hc : r.catalog with
  | none => exact Or.inl ⟨.plan "no catalog attached", rfl⟩
  | some cat =>
    dsimp only
    generalize hresult : (do
      cat.writable
      let next ← change cat.manifest
      cat.commit faults next) = result
    cases result with
    | error err => exact Or.inl ⟨err, rfl⟩
    | ok cat' =>
      obtain ⟨_, hw, hcommit⟩ := Outcome.bind_eq_ok.mp hresult
      obtain ⟨next, hnext, hcommit⟩ := Outcome.bind_eq_ok.mp hcommit
      exact Or.inr ⟨cat, next, cat', rfl, hnext, rfl, commit_effect hw hcommit⟩

/-- A change that leaves the catalog tables alone. -/
theorem changeManifest_does (faults : Faults)
    (hchange : ∀ m next, change m = .ok next → next.tables = m.tables) :
  Does (changeManifest faults change : RegisteredM R Unit)
  := by
  intro r
  obtain ⟨err, hrun⟩ | ⟨cat, next, cat', hcat, hnext, hrun, heffect, htables⟩ :=
    changeManifest_cases faults change r
  · rw [final, hrun]
    exact Effect.refl r
  · rw [final, hrun]
    apply effect_same
    · exact fun _ => rfl
    · exact Nat.le_refl _
    · rw [hcat]
      exact .some heffect
    · simp only [catalogTables, hcat, htables, hchange _ _ hnext]

/-- One name is changed, and its entry in the catalog has been changed before. -/
theorem effect_changesSlot {m : RegisteredM R Unit} {new : Slot R → Prop}
    (h : ChangesSlot m r' n new) (hcat : Rel CatalogEffect r.catalog r'.catalog)
    (hslots : ∀ n, r'.slot n = r.slot n) (hepoch : r'.dataEpoch = r.dataEpoch)
    (hentries : ∀ n' : String, n' ≠ n → r'.catalogTables[n']? = r.catalogTables[n']?)
    (hnew : ∀ σ, new σ → (σ.rows = none ∨ σ = r.slot n) ∧
      ∀ entry, r'.catalogTables[n]? = some entry → σ.storage = some (.opened entry)) :
  Effect r (final m r')
  := by
  obtain ⟨r₂, hrun, hkeep, hother, hslot⟩ := h
  obtain ⟨hrows, hentry⟩ := hnew _ hslot
  have htables : r₂.catalogTables = r'.catalogTables := by
    unfold catalogTables
    rw [hkeep.catalog]
  rw [final, hrun]
  apply EffectAt.effect (n := n)
  constructor
  · rw [← hepoch]
    exact hkeep.epoch
  · intro n' hn'
    rw [hother n' hn', hslots]
  · intro n' hn'
    rw [htables, hentries n' hn']
  · rw [← hepoch, ← hslots]
    exact hkeep.evolves n
  · obtain hnone | hsame := hrows
    · exact fun _ hne => (hne hnone).elim
    · rw [hsame]
      exact fun hr => hr.memory n
  · rw [htables]
    exact fun _ => hentry
  · obtain hnone | hsame := hrows
    · exact fun _ hne => (hne hnone).elim
    · rw [hsame]
      exact fun hr => hr.stamped n
  · rw [hkeep.catalog]
    exact hcat

section

variable (hopen : faults.openTable n = none)
include hopen

/-- The manifest and the opened table of one name, together. -/
theorem openChanged_does {entry : TableMeta}
    (hchange : ∀ m next, change m = .ok next → next.tables = m.tables.insert n entry) :
  Does (do changeManifest faults change
           registerCatalogTable faults n : RegisteredM R Unit)
  := by
  intro r
  obtain ⟨err, hrun⟩ | ⟨cat, next, cat', hcat, hnext, hrun, heffect, htables⟩ :=
    changeManifest_cases faults change r
  · have hfinal : final (do changeManifest faults change; registerCatalogTable faults n) r = r := by
      simp only [final, run_bind, hrun]
    rw [hfinal]
    exact Effect.refl r
  · let r₁ : Registered R := { r with catalog := some cat' }
    have hentries : r₁.catalogTables = r.catalogTables.insert n entry := by
      simp only [catalogTables, r₁, hcat, htables, hchange _ _ hnext]
    have hopened := registerCatalogTable_changesSlot (r := r₁) hopen (m := entry)
      (by rw [hentries, getElem?_insert_self])
    have hfinal : final (do changeManifest faults change; registerCatalogTable faults n) r =
        final (registerCatalogTable faults n) r₁ := by
      simp only [final, run_bind, hrun, r₁]
    rw [hfinal]
    apply effect_changesSlot hopened
    · rw [hcat]
      exact .some heffect
    · exact fun _ => rfl
    · rfl
    · intro n' hn'
      rw [hentries, getElem?_insert]
      simp [Ne.symm hn']
    · rintro σ ⟨hrows, hstorage⟩
      refine ⟨Or.inl hrows, ?_⟩
      intro m hm
      rw [hentries, getElem?_insert_self, some.injEq] at hm
      rw [hstorage, hm]

theorem createCatalogTable_does (entry : TableMeta) :
  Does (createCatalogTable faults n entry : RegisteredM R Unit)
  := by
  have hfree : Does (ensureNameFree n : RegisteredM R Unit) := by
    intro r
    by_cases h : r.hasTable n = true <;>
      simp only [final, ensureNameFree, h, run_bind, run_get, if_true, Bool.false_eq_true,
        if_false] <;>
      exact Effect.refl r
  apply hfree.bind
  intro _
  apply openChanged_does hopen
  intro m next hnext
  split at hnext
  · cases hnext
  · cases hnext
    rfl

theorem changeCatalogTable_does (entry : TableMeta) :
  Does (changeCatalogTable faults n entry : RegisteredM R Unit)
  := by
  apply openChanged_does hopen
  intro m next hnext
  split at hnext
  · cases hnext
    rfl
  · cases hnext

end

/-- Unregistering a name that is no longer in the catalog. -/
theorem deregisterTable_effect (hcat : Rel CatalogEffect r.catalog r'.catalog)
    (hslots : ∀ n, r'.slot n = r.slot n) (hepoch : r'.dataEpoch = r.dataEpoch)
    (hentries : ∀ n' : String, n' ≠ n → r'.catalogTables[n']? = r.catalogTables[n']?)
    (hgone : r'.catalogTables[n]? = none) :
  Effect r (final (deregisterTable n) r')
  := by
  have hentry : ∀ (σ : Slot R) entry, r'.catalogTables[n]? = some entry →
      σ.storage = some (.opened entry) := by
    intro σ entry hm
    rw [hgone] at hm
    cases hm
  by_cases hhas : r'.hasTable n = true
  · apply effect_changesSlot (deregisterTable_changesSlot hhas) hcat hslots hepoch hentries
    rintro σ rfl
    exact ⟨Or.inl rfl, hentry _⟩
  · have hfinal : final (deregisterTable n) r' = final (pure () : RegisteredM R Unit) r' := by
      simp [final, deregisterTable, hhas]
    rw [hfinal]
    have hidle : ChangesSlot (pure ()) r' n (fun σ => σ = r'.slot n) := changesSlot_idle rfl rfl
    apply effect_changesSlot hidle hcat hslots hepoch hentries
    rintro σ rfl
    exact ⟨Or.inr (hslots n), hentry _⟩

theorem dropTable_does (faults : Faults) (n : String) :
  Does (dropTable faults n : RegisteredM R Unit)
  := by
  intro r
  by_cases hmem : r.catalogTables.contains n = true
  · have hfinal : final (dropTable faults n) r = final (do
        changeManifest faults (fun m => .ok { m with tables := m.tables.erase n })
        deregisterTable n) r := by
      simp only [final, dropTable, run_bind, run_get, hmem, if_true]
    rw [hfinal]
    obtain ⟨err, hrun⟩ | ⟨cat, next, cat', hcat, hnext, hrun, heffect, htables⟩ :=
      changeManifest_cases faults (fun m => .ok { m with tables := m.tables.erase n }) r
    · simp only [final, run_bind, hrun]
      exact Effect.refl r
    · cases hnext
      let r₁ : Registered R := { r with catalog := some cat' }
      have hentries : r₁.catalogTables = r.catalogTables.erase n := by
        simp only [catalogTables, r₁, hcat, htables]
      have hstep : final (do
          changeManifest faults (fun m => .ok { m with tables := m.tables.erase n })
          deregisterTable n) r = final (deregisterTable n) r₁ := by
        simp only [final, run_bind, hrun, r₁]
      rw [hstep]
      apply deregisterTable_effect
      · rw [hcat]
        exact .some heffect
      · exact fun _ => rfl
      · rfl
      · intro n' hn'
        rw [hentries, getElem?_erase]
        simp [Ne.symm hn']
      · rw [hentries, getElem?_erase_self]
  · have hfinal : final (dropTable faults n) r = final (deregisterTable n) r := by
      simp only [final, dropTable, run_bind, run_get, hmem, Bool.false_eq_true, if_false]
    rw [hfinal]
    apply deregisterTable_effect (catalogEffect_refl _) (fun _ => rfl) rfl (fun _ _ => rfl)
    rw [contains_eq_isSome_getElem?, Bool.not_eq_true, isSome_eq_false_iff,
      isNone_iff_eq_none] at hmem
    exact hmem

theorem putView_does (faults : Faults) (n : String) (v : ViewDef) (persisted : Option ViewMeta) :
  Does (putView faults n v persisted : RegisteredM R Unit)
  := by
  have hview : Does (modify (fun r => { r with views := r.views.insert n v }) :
      RegisteredM R Unit) :=
    fun r => effect_same (fun _ => rfl) (Nat.le_refl _) (catalogEffect_refl _) rfl
  cases persisted with
  | none => exact hview
  | some entry =>
    apply (changeManifest_does faults _).bind (fun _ => hview)
    intro m next hnext
    cases hnext
    rfl

theorem removeView_does (faults : Faults) (n : String) :
  Does (removeView faults n : RegisteredM R Unit)
  := by
  have hview : Does (modify (fun r => { r with views := r.views.erase n }) :
      RegisteredM R Unit) :=
    fun r => effect_same (fun _ => rfl) (Nat.le_refl _) (catalogEffect_refl _) rfl
  have hmanifest : Does (changeManifest faults (fun m => .ok { m with views := m.views.erase n }) :
      RegisteredM R Unit) := by
    apply changeManifest_does
    intro m next hnext
    cases hnext
    rfl
  apply does_get
  intro r
  by_cases h : r.views.contains n = true
  · rw [h]
    apply hview.bind
    intro _
    apply does_get
    intro r
    cases r.catalog with
    | none => exact Effect.refl r
    | some cat =>
      dsimp only
      split
      · exact hmanifest r
      · exact Effect.refl r
  · rw [Bool.not_eq_true] at h
    rw [h]
    exact Effect.refl r

variable [Append R]

/-- Every change has an effect of a statement, unless the files of a catalog table do not open. -/
theorem runChange_does (hopen : ∀ n, faults.openTable n = none) (change : Change R) :
  Does (runChange faults change)
  := by
  cases change with
  | registerTable n rows => exact registerTable_does faults n rows
  | replaceTable n rows => exact replaceTable_does faults n rows
  | registerBatch n batch => exact registerBatch_does faults n batch
  | registerStorageTable n pointer => exact registerStorageTable_does n _
  | createCatalogTable n entry => exact createCatalogTable_does (hopen n) entry
  | changeCatalogTable n entry => exact changeCatalogTable_does (hopen n) entry
  | dropTable n => exact dropTable_does faults n
  | putView n v persisted => exact putView_does faults n v persisted
  | removeView n => exact removeView_does faults n
  | touchTable n => exact touchTable_does n
  | bumpDataEpoch => exact bumpDataEpoch_does

theorem runStatement_does (hopen : ∀ n, faults.openTable n = none) (st : Statement R) :
  Does (runStatement faults st)
  := (does_forM (runChange_does hopen) st.changes).bind (fun _ => does_raise st.failure)

end Registered

end CratonBolt
