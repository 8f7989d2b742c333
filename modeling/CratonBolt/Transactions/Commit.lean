import CratonBolt.Transactions.Actions

/-!
# Committing a transaction

`COMMIT` merges the transaction's state into the committed one, publishes the catalog's part, and
installs the result. It either fails, and then the transaction is rolled back, or it installs a
merge of both parts.
-/

namespace CratonBolt

open Std List Option

variable {R : Type}

namespace Engine

variable {e : Engine R} {faults : Faults} {t : Transaction R}

/-- The transaction is over, and everything else is as it was. -/
structure RolledBack (e : Engine R) (t : Transaction R) (e' : Engine R) : Prop where
  inv : e'.Inv
  isolated : e'.isolated = e.isolated.set t.session none
  txn : e'.txn = none
  flags : e'.registered.flags = e.registered.flags
  epoch : e.registered.dataEpoch ≤ e'.registered.dataEpoch

/-- The states of the installed transaction. -/
theorem Inv.settled_all (h : e.Inv) (ht : e.txn = some t) :
  t.base.Settled ∧ e.capture.Settled ∧ e.isolated.committed.Settled ∧
    e.capture.Agree e.isolated.committed
  := by
  obtain ⟨ho, -, -⟩ := h.inside ht
  have hbase : e.isolated.Member (some t.session) t.base :=
    ⟨t, e.capture, ho, mem_cons_of_mem _ mem_cons_self⟩
  have hwork : e.isolated.Member (some t.session) e.capture :=
    ⟨t, e.capture, ho, mem_cons_self⟩
  have hcommitted : e.isolated.Member none e.isolated.committed := rfl
  exact ⟨h.good.settled _ _ hbase, h.good.settled _ _ hwork, h.good.settled _ _ hcommitted,
    h.good.agree _ _ _ _ hwork hcommitted⟩

/-- A state that is ready to become the committed one, with the registered tables at that point. -/
structure Ready (e : Engine R) (t : Transaction R) (new : Snapshot R) (r₁ : Registered R) :
    Prop where
  commits : Snapshot.Commits t.base e.capture e.isolated.committed new
  settled : r₁.Settled
  capture : r₁.capture = e.capture
  epoch : r₁.dataEpoch = e.registered.dataEpoch
  fits : CatalogFits r₁.flags none new
  others : ∀ b s : Snapshot R, CatalogFits e.registered.flags (some b) s →
    CatalogFits r₁.flags (some b) s

variable {new base work committed merged : Snapshot R}

theorem finishCommit_ok (h : e.Inv) (ht : e.txn = some t) (hf : Installs faults)
    {r₁ : Registered R} (hready : Ready e t new r₁)
    (hkinds : Snapshot.kindsApart t.base e.capture e.isolated.committed = true) :
  ∃ e', finishCommit faults new { e with registered := r₁ } = .ok () e' ∧ e'.Inv ∧
    e'.isolated = { e.isolated.set t.session none with committed := new } ∧ e'.txn = none ∧
    e'.registered.flags = r₁.flags ∧ e.registered.dataEpoch ≤ e'.registered.dataEpoch
  := by
  obtain ⟨hbase, hwork, hcommitted, hagree⟩ := h.settled_all ht
  obtain ⟨ho, -, hparked⟩ := h.inside ht
  have hsettled := hready.commits.settled hbase hwork hcommitted hagree hkinds
  obtain ⟨r', hrun, hshows, hflags, hepoch⟩ := install_shows hf hready.settled hsettled
    (by rw [hready.capture]; exact hready.commits.agree_work hagree) hready.fits.isSome
  rw [hready.epoch] at hepoch
  let e' : Engine R := { e with txn := none, committed := none, registered := r' }
  obtain ⟨hisolated, hinv⟩ := inv_outside (e := e')
    (i := { e.isolated.set t.session none with committed := new }) rfl rfl hparked hshows
    ((h.good.commit ho hready.commits hsettled).mono hepoch)
    (by
      have : e'.registered.flags = r₁.flags := hflags
      rw [this]
      refine ⟨hready.fits, ?_⟩
      intro b t' work s ht' hs
      exact hready.others _ _ ((h.catalog.close t.session).opened b t' work s ht' hs))
  refine ⟨e', ?_, hinv, hisolated, rfl, hflags, hepoch⟩
  simp [finishCommit, onRegistered, hrun, e']

/-! ### The catalog's part -/

/-- The states have no catalog, or one that cannot change. -/
theorem commits_of_sameCatalog
    (hmerged : Snapshot.Merged base work committed merged)
    (hnew : ∃ c, new = { merged with catalog := c }) (hbase : base.catalog = work.catalog)
    (hcommitted : new.catalog = committed.catalog) :
  Snapshot.Commits base work committed new
  := by
  obtain ⟨c, rfl⟩ := hnew
  refine ⟨hmerged.withCatalog c, ?_, ?_⟩
  · intro n
    refine Or.inl ⟨?_, ?_⟩
    · unfold Snapshot.catalogTables
      rw [hbase]
    · unfold Snapshot.catalogTables
      rw [hcommitted]
  · intro n
    refine Or.inl ⟨?_, ?_⟩
    · unfold Snapshot.catalogViews
      rw [hbase]
    · unfold Snapshot.catalogViews
      rw [hcommitted]

theorem commits_of_manifests {mb m p next : Manifest} {b w c : Option Manifest} {new : CatalogState}
    (hmerged : Snapshot.Merged base work committed merged) (hbase : base.catalog = some ⟨mb, b⟩)
    (hwork : work.catalog = some ⟨m, w⟩) (hcommitted : committed.catalog = some ⟨p, c⟩)
    (hnext : Manifest.merge mb m p = .ok next) (htables : new.manifest.tables = next.tables)
    (hviews : new.manifest.views = next.views) :
  Snapshot.Commits base work committed { merged with catalog := some new }
  := by
  have hmanifest := Manifest.merge_merged hnext
  refine ⟨hmerged.withCatalog _, ?_, ?_⟩
  · intro n
    simp only [Snapshot.catalogTables, hbase, hwork, hcommitted, htables]
    exact hmanifest.tables n
  · intro n
    simp only [Snapshot.catalogViews, hbase, hwork, hcommitted, hviews]
    exact hmanifest.views n

/-- What publishing the catalog's part leaves. -/
theorem commitConcurrent_cases {cat cat' : Catalog} {mb p : Manifest} {result : BoltResult Unit}
    (htxn : cat.txnBase = some mb) (hp : cat.published = p)
    (h : cat.commitConcurrent faults p = (result, cat')) :
  (∃ err, result = .error err) ∧ cat' = { cat with manifest := p, txnBase := none } ∨
    result = .ok () ∧ cat'.readOnly = cat.readOnly ∧ cat'.txnBase = none ∧
      cat'.published = cat'.manifest ∧
      ∃ next, Manifest.merge mb cat.manifest p = .ok next ∧
        cat'.manifest.tables = next.tables ∧ cat'.manifest.views = next.views
  := by
  unfold Catalog.commitConcurrent at h
  rw [htxn] at h
  dsimp only at h
  cases hmerge : Manifest.merge mb cat.manifest p with
  | error err =>
    rw [hmerge] at h
    cases h
    exact Or.inl ⟨⟨err, rfl⟩, rfl⟩
  | ok next =>
    rw [hmerge] at h
    dsimp only at h
    by_cases hsame : next = p
    · rw [if_pos hsame] at h
      cases h
      exact Or.inr ⟨rfl, rfl, rfl, hp, next, rfl, by rw [hsame], by rw [hsame]⟩
    · rw [if_neg hsame] at h
      simp only [Catalog.commit] at h
      cases hpublish : faults.publish with
      | some err =>
        rw [hpublish] at h
        cases h
        exact Or.inl ⟨⟨err, rfl⟩, rfl⟩
      | none =>
        rw [hpublish] at h
        cases h
        exact Or.inr ⟨rfl, rfl, rfl, rfl, next, rfl, rfl, rfl⟩

/-- The catalog's part of a commit: it conflicts, or it gives a state that is ready. -/
theorem publish_cases (h : e.Inv) (ht : e.txn = some t) (hf : Installs faults)
    (hmerge : Snapshot.merge t.base e.capture e.isolated.committed = .ok merged) :
  (∃ err e', publish faults e.capture e.isolated.committed merged e = .error err e' ∧
      RolledBack e t e') ∨
    ∃ new r₁, Ready e t new r₁ ∧ publish faults e.capture e.isolated.committed merged e =
      finishCommit faults new { e with registered := r₁ }
  := by
  obtain ⟨ho, -, -⟩ := h.inside ht
  have hmerged : Snapshot.Merged t.base e.capture e.isolated.committed merged :=
    Snapshot.merge_merged h.settled.capture.stamped hmerge
  have hfitsWork := h.catalog.opened _ _ _ e.capture ho mem_cons_self
  have hfitsBase := h.catalog.opened _ _ _ t.base ho (mem_cons_of_mem _ mem_cons_self)
  have hfits := h.catalog.committed
  cases hc : e.registered.catalog with
  | none =>
    -- no catalog: nothing to publish
    refine Or.inr ⟨merged, e.registered, ⟨?_, h.settled, rfl, rfl, ?_, fun _ _ h => h⟩, ?_⟩
    · simp only [CatalogFits, Registered.flags, hc, map_none] at hfitsWork hfitsBase
      apply commits_of_sameCatalog hmerged ⟨merged.catalog, rfl⟩
      · rw [hfitsWork, hfitsBase]
      · exact Snapshot.merge_catalog hmerge
    · simp only [CatalogFits, Registered.flags, hc, map_none] at hfits ⊢
      rw [Snapshot.merge_catalog hmerge, hfits]
    · simp [publish, hc]
  | some cat =>
    have hcapture : e.capture.catalog = some ⟨cat.manifest, cat.txnBase⟩ := by
      simp only [capture, Registered.capture, hc, map_some, Catalog.state]
    simp only [CatalogFits, Registered.flags, hc, map_some, hcapture, some.injEq,
      CatalogState.mk.injEq] at hfitsWork hfitsBase hfits
    by_cases hro : cat.readOnly = true
    · -- a read-only catalog takes no part in transactions
      rw [if_pos hro] at hfitsWork hfitsBase
      refine Or.inr ⟨{ merged with catalog := some cat.state }, e.registered,
        ⟨?_, h.settled, rfl, rfl, ?_, fun _ _ h => h⟩, ?_⟩
      · apply commits_of_sameCatalog hmerged ⟨_, rfl⟩
        · rw [hfitsBase, hcapture, hfitsWork.1, hfitsWork.2]
        · rw [hfits, Catalog.state, hfitsWork.1, hfitsWork.2]
      · simp only [CatalogFits, Registered.flags, hc, map_some, Catalog.state, hfitsWork.1,
          hfitsWork.2]
      · simp [publish, hc, Catalog.inTransaction, hfitsWork.2]
    · rw [if_neg hro] at hfitsWork hfitsBase
      obtain ⟨m, mb, ⟨hm, htxn⟩, hbase⟩ := hfitsWork
      have hstate : (e.isolated.committed.catalog.map CatalogState.manifest).getD cat.manifest =
          cat.published := by
        rw [hfits]
        rfl
      obtain ⟨result, cat', hresult⟩ : ∃ result cat',
          cat.commitConcurrent faults cat.published = (result, cat') := ⟨_, _, rfl⟩
      obtain ⟨⟨err, rfl⟩, rfl⟩ |
          ⟨rfl, hreadOnly, hnone, hpublished, next, hnext, htables, hviews⟩ :=
        commitConcurrent_cases htxn rfl hresult
      · -- the catalog is put back as it was, and the transaction is rolled back
        have hsame : ({ e with registered := { e.registered with
            catalog := some (Catalog.setState
              { cat with manifest := cat.published, txnBase := none }
              ⟨cat.manifest, cat.txnBase⟩) } } : Engine R) = e := by
          simp only [Catalog.setState, ← hc]
        have hrun : publish faults e.capture e.isolated.committed merged e =
            (rollbackTransaction faults >>= fun _ => throw err : EngineM R Unit) e := by
          conv_rhs => rw [← hsame]
          simp [publish, hc, Catalog.inTransaction, htxn, hstate, hresult, hcapture]
        rw [hrun]
        obtain ⟨e', hroll, hrolled⟩ := rollbackTransaction_ok h hf ht
        refine Or.inl ⟨err, e', ?_, ⟨hrolled.1, hrolled.2.1, hrolled.2.2.1, hrolled.2.2.2.1,
          hrolled.2.2.2.2⟩⟩
        simp [hroll]
      · refine Or.inr ⟨{ merged with catalog := some cat'.state }, { e.registered with
          catalog := some (cat'.setState ⟨cat.manifest, cat.txnBase⟩) },
          ⟨?_, ?_, ?_, rfl, ?_, ?_⟩, ?_⟩
        · exact commits_of_manifests hmerged hbase hcapture hfits hnext htables hviews
        · refine ⟨h.settled.memory, ?_, h.settled.stamped⟩
          have := h.settled.entry
          simp only [Registered.catalogTables, hc, Catalog.setState] at this ⊢
          exact this
        · simp only [capture, Registered.capture, Registered.catalogTables, hc, Catalog.setState,
            Catalog.state, map_some]
        · simp only [CatalogFits, Registered.flags, map_some, Catalog.setState,
            Catalog.state, hnone, hpublished]
        · intro b s hs
          simp only [CatalogFits, Registered.flags, hc, map_some, Catalog.setState,
            hreadOnly] at hs ⊢
          rw [if_neg hro] at hs ⊢
          exact hs
        · simp [publish, hc, Catalog.inTransaction, htxn, hstate, hresult, hcapture]

/-- A commit fails and rolls the transaction back, or installs a merge. -/
theorem commitTransaction_cases (h : e.Inv) (ht : e.txn = some t) (hf : Installs faults) :
  (∃ err e', commitTransaction faults e = .error err e' ∧ RolledBack e t e') ∨
    t.aborted = false ∧ ∃ new r₁, Ready e t new r₁ ∧
      commitTransaction faults e = finishCommit faults new { e with registered := r₁ }
  := by
  obtain ⟨-, hcommitted, -⟩ := h.inside ht
  obtain ⟨e', hroll, hrolled⟩ := rollbackTransaction_ok h hf ht
  have hrolledBack : RolledBack e t e' :=
    ⟨hrolled.1, hrolled.2.1, hrolled.2.2.1, hrolled.2.2.2.1, hrolled.2.2.2.2⟩
  cases haborted : t.aborted with
  | true =>
    refine Or.inl ⟨.plan "the transaction was aborted by an earlier error and has been rolled back",
      e', ?_, hrolledBack⟩
    simp [commitTransaction, ht, haborted, hroll]
  | false =>
    cases hmerge : Snapshot.merge t.base e.capture e.isolated.committed with
    | error err =>
      refine Or.inl ⟨err, e', ?_, hrolledBack⟩
      simp [commitTransaction, ht, hcommitted, haborted, hmerge, hroll]
    | ok merged =>
      have hrun : commitTransaction faults e =
          publish faults e.capture e.isolated.committed merged e := by
        simp [commitTransaction, ht, hcommitted, haborted, hmerge]
      rw [hrun]
      obtain hfailed | hready := publish_cases h ht hf hmerge
      · exact Or.inl hfailed
      · exact Or.inr ⟨rfl, hready⟩

theorem commitTransaction_acts [Append R] {a : Option Nat} (h : e.Inv) (hactive : e.Active a)
    (hf : Installs faults) (hkinds : ∀ t work, e.isolated.opened a = some (t, work) →
      Snapshot.kindsApart t.base work e.isolated.committed = true) :
  ActsTo e a faults .commitTransaction (after (commitTransaction faults) e)
  := by
  obtain ⟨ht, ho⟩ | ⟨t, ht, hsession, ho⟩ := hactive.cases h
  · have hafter : after (commitTransaction faults) e = e := by
      simp [after, commitTransaction, ht]
    rw [hafter]
    refine ⟨h, ?_, Nat.le_refl _⟩
    simp only [Isolated.Acts, ho]
  · obtain ⟨hbase, hwork, hcommitted, hagree⟩ := h.settled_all ht
    obtain ⟨err, e', hrun, hrolled⟩ | ⟨haborted, new, r₁, hready, hrun⟩ :=
      commitTransaction_cases h ht hf
    · rw [after, hrun]
      refine ⟨hrolled.inv, ?_, hrolled.epoch⟩
      simp only [Isolated.Acts, ho]
      rw [← hsession]
      exact Or.inl hrolled.isolated
    · have hapart := hkinds t e.capture ho
      obtain ⟨e', hfinish, hinv, hisolated, -, -, hepoch⟩ :=
        finishCommit_ok h ht hf hready hapart
      rw [after, hrun, hfinish]
      refine ⟨hinv, ?_, hepoch⟩
      simp only [Isolated.Acts, ho]
      rw [hsession] at hisolated
      have hwins := hready.commits.firstCommitterWins hbase hwork hcommitted hagree hapart
      exact Or.inr ⟨haborted, new, hwins, hisolated⟩

end Engine

end CratonBolt
