import CratonBolt.Transactions.Activation

/-!
# Actions of sessions

Each action of the engine, with its session activated, does what the action does to isolated
sessions. `COMMIT` has a module of its own.
-/

namespace CratonBolt

open Std List Function
open Option (some)
open Isolated (set_opened_of_ne set_opened_self)
open Transaction (snapshots)
open Registered (final runStatement)

variable {R : Type}

/-! ### Catalogs -/

section Catalogs

variable {flags : Option Flags} {i : Isolated R} (h : CatalogGood flags i)

include h

theorem CatalogGood.setOpened {a : Option Nat} {t t' : Transaction R} {work work' s' : Snapshot R}
    (ht : i.opened a = some (t, work)) (hbase : t'.base = t.base)
    (hfits : CatalogFits flags (some t.base) s')
    (hsub : ∀ x ∈ t'.snapshots work', x ∈ t.snapshots work ∨ x = s') :
  CatalogGood flags (i.set a (some (t', work')))
  := by
  refine ⟨h.committed, ?_⟩
  intro b t₂ work₂ x ht₂ hx
  by_cases hba : b = a
  · subst hba
    rw [set_opened_self, some.injEq, Prod.mk.injEq] at ht₂
    rw [← ht₂.1, ← ht₂.2] at hx
    rw [← ht₂.1, hbase]
    obtain hold | rfl := hsub x hx
    · exact h.opened b t work x ht hold
    · exact hfits
  · rw [set_opened_of_ne hba] at ht₂
    exact h.opened b t₂ work₂ x ht₂ hx

theorem CatalogGood.close (a : Option Nat) :
  CatalogGood flags (i.set a none)
  := by
  refine ⟨h.committed, ?_⟩
  intro b t work x ht hx
  by_cases hba : b = a
  · rw [hba, set_opened_self] at ht
    cases ht
  · rw [set_opened_of_ne hba] at ht
    exact h.opened b t work x ht hx

end Catalogs

namespace Engine

variable {e e' : Engine R} {faults : Faults} {a : Option Nat}

/-! ### Ending a transaction -/

theorem Active.cases (hactive : e.Active a) (h : e.Inv) :
  e.txn = none ∧ e.isolated.opened a = none ∨
    ∃ t, e.txn = some t ∧ t.session = a ∧ e.isolated.opened a = some (t, e.capture)
  := by
  unfold Active at hactive
  cases ho : e.opened a with
  | none =>
    rw [ho] at hactive
    exact Or.inl ⟨hactive, ho⟩
  | some p =>
    obtain ⟨t, work⟩ := p
    rw [ho] at hactive
    obtain ⟨ht, rfl⟩ := hactive
    exact Or.inr ⟨t, ht, h.good.session a t _ ho, ho⟩

theorem rollbackTransaction_ok (h : e.Inv) (hf : Installs faults) {t : Transaction R}
    (ht : e.txn = some t) :
  ∃ e', rollbackTransaction faults e = .ok () e' ∧ e'.Inv ∧
    e'.isolated = e.isolated.set t.session none ∧ e'.txn = none ∧
    e'.registered.flags = e.registered.flags ∧
    e.registered.dataEpoch ≤ e'.registered.dataEpoch
  := by
  obtain ⟨ho, hcommitted, hparked⟩ := h.inside ht
  obtain ⟨r', hrun, hshows, hflags, hepoch⟩ := installCommitted_ok h hf { e with txn := none }
    hcommitted rfl
  let e' : Engine R := { e with txn := none, committed := none, registered := r' }
  have hinv := inv_outside (e := e') (i := e.isolated.set t.session none) rfl rfl hparked hshows
    ((h.good.close t.session).mono hepoch) (by rw [hflags]; exact h.catalog.close t.session)
  refine ⟨e', ?_, hinv.2, hinv.1, rfl, hflags, hepoch⟩
  simp [rollbackTransaction, ht, hrun, e']

/-! ### Actions -/

/-- An action of the engine does what it does to isolated sessions. -/
structure ActsTo [Append R] (e : Engine R) (a : Option Nat) (faults : Faults) (action : Action R)
    (e' : Engine R) : Prop where
  inv : e'.Inv
  acts : e.isolated.Acts a faults action e'.isolated
  epoch : e.registered.dataEpoch ≤ e'.registered.dataEpoch

theorem ActsTo.unchanged [Append R] {action : Action R} (h : e.Inv) (he : e' = e)
    (hacts : e.isolated.Acts a faults action e.isolated) :
  ActsTo e a faults action e'
  := by
  subst he
  exact ⟨h, hacts, Nat.le_refl _⟩

/-- An action that changes the installed transaction but not its state. -/
theorem acts_setOpened (h : e.Inv) {t : Transaction R} (ht : e.txn = some t) (t' : Transaction R)
    (hbase : t'.base = t.base) (hsession : t'.session = t.session)
    (hsub : ∀ x ∈ t'.snapshots e.capture, x ∈ t.snapshots e.capture) :
  Inv { e with txn := some t' } ∧
    isolated { e with txn := some t' } = e.isolated.set t.session (some (t', e.capture))
  := by
  obtain ⟨ho, hcommitted, hparked⟩ := h.inside ht
  have hmem : e.capture ∈ t.snapshots e.capture := mem_cons_self
  have hsub' : ∀ x ∈ t'.snapshots e.capture, x ∈ t.snapshots e.capture ∨ x = e.capture :=
    fun x hx => Or.inl (hsub x hx)
  have hadv : Isolated.Advance e.registered.dataEpoch e.registered.dataEpoch e.capture e.capture :=
    Isolated.Advance.refl h.settled.capture
  obtain ⟨hisolated, hinv⟩ := inv_inside (a := t.session)
    (i := e.isolated.set t.session (some (t', e.capture))) (t := t')
    (e := { e with txn := some t' }) (set_opened_self _ _ _) rfl hcommitted
    (by rw [hparked]; exact (update_idem _ _ _).symm) ⟨h.settled, rfl⟩
    (h.good.setOpened (Nat.le_refl _) ho hbase hsession hmem hadv hsub')
    (h.catalog.setOpened ho hbase (h.catalog.opened _ _ _ _ ho hmem) hsub')
  exact ⟨hinv, hisolated⟩

theorem beginTransaction_ok (h : e.Inv) (ht : e.txn = none) :
  ∃ r' : Registered R,
    beginTransaction e = .ok () { e with
      registered := r'
      committed := some e.capture
      txn := some ⟨e.currentSession, false, r'.capture, []⟩ } ∧
    r'.Settled ∧ Isolated.Begins e.capture r'.capture ∧ r'.flags = e.registered.flags ∧
    r'.dataEpoch = e.registered.dataEpoch ∧ CatalogFits r'.flags (some r'.capture) r'.capture
  := by
  obtain ⟨-, -, hcapture⟩ := h.outside ht
  have hfits := h.catalog.committed
  rw [hcapture] at hfits
  cases hc : e.registered.catalog with
  | none =>
    refine ⟨e.registered, ?_, h.settled, ⟨_, rfl, rfl⟩, rfl, rfl, ?_⟩
    · simp [beginTransaction, ht, hc, capture]
    · simp only [CatalogFits, Registered.flags, Registered.capture, hc, Option.map_none]
  | some cat =>
    simp only [CatalogFits, Registered.flags, capture, Registered.capture, hc, Option.map_some,
      Catalog.state, Option.some.injEq, CatalogState.mk.injEq] at hfits
    cases hro : cat.readOnly with
    | true =>
      refine ⟨e.registered, ?_, h.settled, ⟨_, rfl, rfl⟩, rfl, rfl, ?_⟩
      · simp [beginTransaction, ht, hc, hro, capture]
      · simp only [CatalogFits, Registered.flags, Registered.capture, hc, hro, Option.map_some,
          Catalog.state, hfits, if_true]
    | false =>
      let cat' : Catalog := { cat with txnBase := some cat.manifest }
      let r' : Registered R := { e.registered with catalog := some cat' }
      have hbegin : cat.begin = .ok cat' := by
        simp only [Catalog.begin, Catalog.writable, Catalog.inTransaction, hro, hfits.2, cat',
          Bool.false_eq_true, if_false, Option.isSome_none, bind, Except.bind]
      have htables : r'.catalogTables = e.registered.catalogTables := by
        simp only [Registered.catalogTables, r', cat', hc]
      refine ⟨r', ?_, ?_, ⟨r'.capture.catalog, ?_, ?_⟩, ?_, rfl, ?_⟩
      · simp [beginTransaction, ht, hc, hro, hbegin, capture, r']
      · refine ⟨h.settled.memory, ?_, h.settled.stamped⟩
        rw [htables]
        exact h.settled.entry
      · simp only [capture, Registered.capture, htables, r']
      · simp only [capture, Registered.capture, Option.map_some, Catalog.state, hc, r', cat']
      · simp only [Registered.flags, hc, Option.map_some, r', cat']
      · simp only [CatalogFits, Registered.flags, Registered.capture, Option.map_some,
          Catalog.state, hro, Bool.false_eq_true, if_false, r', cat']
        exact ⟨_, _, rfl, rfl⟩

/-- The savepoints that are kept, and the state that was found, are among the savepoints. -/
theorem findSavepoint_mem {name : String} {l kept : List (String × Snapshot R)} {s : Snapshot R}
    (h : findSavepoint name l = some (kept, s)) :
  (∀ p ∈ kept, p ∈ l) ∧ s ∈ l.map Prod.snd
  := by
  induction l generalizing kept with
  | nil => cases h
  | cons p l ih =>
    obtain ⟨n, s'⟩ := p
    rw [findSavepoint] at h
    split at h
    · next kept' found hfound =>
      rw [some.injEq, Prod.mk.injEq] at h
      obtain ⟨rfl, rfl⟩ := h
      obtain ⟨hkept, hmem⟩ := ih hfound
      refine ⟨?_, mem_cons_of_mem _ hmem⟩
      intro p hp
      rw [mem_cons] at hp ⊢
      obtain rfl | hp := hp
      · exact Or.inl rfl
      · exact Or.inr (hkept p hp)
    · split at h
      · rw [some.injEq, Prod.mk.injEq] at h
        obtain ⟨rfl, rfl⟩ := h
        refine ⟨?_, mem_cons_self⟩
        intro p hp
        rw [mem_singleton] at hp
        rw [hp]
        exact mem_cons_self
      · cases h

variable [Append R]

/-- A statement that the open transaction, if there is one, lets run. -/
theorem after_executeStatement (faults : Faults) (st : Statement R)
    (hu : ∀ t, e.txn = some t → t.aborted = false) :
  ∃ failed : Bool,
    (failed = true ↔ ∃ err r', runStatement faults st e.registered = .error err r') ∧
    after (executeStatement faults st) e =
      { e with
        registered := final (runStatement faults st) e.registered
        txn := e.txn.map (fun t => { t with aborted := failed }) }
  := by
  have husable : ensureTransactionUsable e = .ok () e := by
    cases ht : e.txn with
    | none =>
      simp [ensureTransactionUsable, ht]
    | some t =>
      simp [ensureTransactionUsable, ht, hu t ht]
  have hkept : e.txn.map (fun t => { t with aborted := false }) = e.txn := by
    cases ht : e.txn with
    | none => rfl
    | some t =>
      rw [Option.map_some]
      have := hu t ht
      obtain ⟨session, aborted, base, savepoints⟩ := t
      cases this
      rfl
  cases hrun : runStatement faults st e.registered with
  | ok u r' =>
    refine ⟨false, by simp, ?_⟩
    rw [hkept]
    simp only [after, executeStatement, bind, EStateM.bind, husable, onRegistered, hrun,
      final]
  | error err r' =>
    refine ⟨true, by simp, ?_⟩
    simp only [after, executeStatement, bind, EStateM.bind, husable, onRegistered, hrun,
      final, abortTransactionOnError]

variable (h : e.Inv)
include h

/-- A statement on the committed state. -/
theorem executeStatement_outside (ht : e.txn = none)
    (hopen : ∀ n, faults.openTable n = none) (st : Statement R)
    (hbound : (after (executeStatement faults st) e).registered.dataEpoch < 2 ^ 64) :
  (after (executeStatement faults st) e).Inv ∧
    (∃ committed' failed, Isolated.Statement faults st e.isolated.committed committed' failed ∧
      (after (executeStatement faults st) e).isolated =
        { e.isolated with committed := committed' }) ∧
    e.registered.dataEpoch ≤ (after (executeStatement faults st) e).registered.dataEpoch
  := by
  obtain ⟨failed, hfailed, hafter⟩ := after_executeStatement faults st (e := e) (by
    intro t ht'
    rw [ht] at ht'
    cases ht')
  rw [hafter] at hbound ⊢
  have heffect := Registered.runStatement_does hopen st e.registered
  obtain ⟨hcommitted, hparked, hcapture⟩ := h.outside ht
  have hadv := advance_of_effect heffect h.settled hbound
  have hfits := h.catalog.committed
  rw [hcapture] at hfits
  obtain ⟨hfits', hothers⟩ := catalogFits_outside heffect hfits
  let s' := (final (runStatement faults st) e.registered).capture
  obtain ⟨hisolated, hinv⟩ := inv_outside (i := { e.isolated with committed := s' })
    (e := { e with
      registered := final (runStatement faults st) e.registered
      txn := e.txn.map (fun t => { t with aborted := failed }) })
    (by rw [ht]; rfl) hcommitted hparked ⟨heffect.settled h.settled, rfl⟩
    (h.good.setCommitted heffect.epoch (by rw [hcapture]; exact hadv))
    ⟨hfits', fun a t work s ht hs => hothers _ _ (h.catalog.opened a t work s ht hs)⟩
  refine ⟨hinv, ⟨_, failed, ⟨e.registered, ⟨h.settled, hcapture.symm⟩, rfl, hfailed⟩, hisolated⟩,
    heffect.epoch⟩

variable (hactive : e.Active a)
include hactive

theorem executeStatement_acts (hopen : ∀ n, faults.openTable n = none) (st : Statement R)
    (hbound : (after (executeStatement faults st) e).registered.dataEpoch < 2 ^ 64) :
  ActsTo e a faults (.statement st) (after (executeStatement faults st) e)
  := by
  obtain ⟨ht, ho⟩ | ⟨t, ht, hsession, ho⟩ := hactive.cases h
  · obtain ⟨hinv, hacts, hepoch⟩ := executeStatement_outside h ht hopen st hbound
    refine ⟨hinv, ?_, hepoch⟩
    simp only [Isolated.Acts, ho]
    exact hacts
  · cases haborted : t.aborted with
    | true =>
      apply ActsTo.unchanged h
      · simp only [after, executeStatement, bind, EStateM.bind]
        simp [ensureTransactionUsable, ht, haborted]
      · simp only [Isolated.Acts, ho, haborted, if_true]
    | false =>
      obtain ⟨failed, hfailed, hafter⟩ := after_executeStatement faults st (e := e) (by
        intro t' ht'
        rw [ht, some.injEq] at ht'
        rwa [← ht'])
      rw [hafter] at hbound ⊢
      have heffect := Registered.runStatement_does hopen st e.registered
      obtain ⟨-, hcommitted, hparked⟩ := h.inside ht
      rw [hsession] at hparked
      have hadv := advance_of_effect heffect h.settled hbound
      have hmem : e.capture ∈ t.snapshots e.capture := mem_cons_self
      obtain ⟨hfits, hflags⟩ := catalogFits_inside heffect (h.catalog.opened a t _ _ ho hmem)
      let s' := (Registered.final (Registered.runStatement faults st) e.registered).capture
      let t' : Transaction R := { t with aborted := failed }
      have hsub : ∀ x ∈ t'.snapshots s', x ∈ t.snapshots e.capture ∨ x = s' := by
        intro x hx
        simp only [snapshots, mem_cons] at hx ⊢
        tauto
      rw [hflags] at hfits
      obtain ⟨hisolated, hinv⟩ := inv_inside (a := a) (i := e.isolated.set a (some (t', s')))
        (t := t') (e := { e with
          registered := Registered.final (Registered.runStatement faults st) e.registered
          txn := e.txn.map (fun t => { t with aborted := failed }) })
        (set_opened_self _ _ _) (by rw [ht]; rfl) hcommitted
        (by rw [hparked]; exact (update_idem _ _ _).symm)
        ⟨heffect.settled h.settled, rfl⟩
        (h.good.setOpened heffect.epoch ho rfl rfl hmem hadv hsub)
        (by rw [hflags]; exact h.catalog.setOpened ho rfl hfits hsub)
      refine ⟨hinv, ?_, heffect.epoch⟩
      simp only [Isolated.Acts, ho, haborted, Bool.false_eq_true, if_false]
      exact ⟨s', failed, ⟨e.registered, ⟨h.settled, rfl⟩, rfl, hfailed⟩, hisolated⟩

theorem beginTransaction_acts (hsession : e.currentSession = a) :
  ActsTo e a faults .beginTransaction (after beginTransaction e)
  := by
  subst hsession
  obtain ⟨ht, ho⟩ | ⟨t, ht, -, ho⟩ := hactive.cases h
  · obtain ⟨r', hrun, hr, hbegins, hflags, hepoch, hfits⟩ := beginTransaction_ok h ht
    obtain ⟨hcommitted, hparked, hcapture⟩ := h.outside ht
    rw [← hcapture] at hbegins
    rw [after, hrun]
    let t : Transaction R := ⟨e.currentSession, false, r'.capture, []⟩
    have hcat : CatalogGood r'.flags
        (e.isolated.set e.currentSession (some (t, r'.capture))) := by
      refine ⟨by rw [hflags]; exact h.catalog.committed, ?_⟩
      intro b t₂ work₂ x ht₂ hx
      by_cases hba : b = e.currentSession
      · rw [hba, set_opened_self, some.injEq, Prod.mk.injEq] at ht₂
        rw [← ht₂.1, ← ht₂.2] at hx
        simp only [t, snapshots, map_nil, mem_cons, not_mem_nil,
          or_false, or_self] at hx
        rw [← ht₂.1, hx]
        exact hfits
      · rw [set_opened_of_ne hba] at ht₂
        rw [hflags]
        exact h.catalog.opened b t₂ work₂ x ht₂ hx
    obtain ⟨hisolated, hinv⟩ := inv_inside (a := e.currentSession) (t := t)
      (i := e.isolated.set e.currentSession (some (t, r'.capture)))
      (e := { e with registered := r', committed := some e.capture, txn := some t })
      (set_opened_self _ _ _) rfl (by rw [← hcapture]; rfl)
      (by
        rw [Isolated.set]
        dsimp only
        rw [update_idem, hparked]
        exact (update_eq_self_iff.mpr ho.symm).symm)
      ⟨hr, rfl⟩ (by rw [hepoch]; exact h.good.begin hbegins ho) hcat
    refine ⟨hinv, ?_, Nat.le_of_eq hepoch.symm⟩
    simp only [Isolated.Acts, ho]
    exact ⟨r'.capture, hbegins, hisolated⟩
  · apply ActsTo.unchanged h
    · simp [after, beginTransaction, ht]
    · simp only [Isolated.Acts, ho]

theorem rollbackTransaction_acts (hf : Installs faults) :
  ActsTo e a faults .rollbackTransaction (after (rollbackTransaction faults) e)
  := by
  obtain ⟨ht, ho⟩ | ⟨t, ht, hsession, ho⟩ := hactive.cases h
  · have hafter : after (rollbackTransaction faults) e = e := by
      simp [after, rollbackTransaction, ht]
    rw [hafter]
    refine ⟨h, ?_, Nat.le_refl _⟩
    simp only [Isolated.Acts]
    rw [Isolated.set, update_eq_self_iff.mpr ho.symm]
  · obtain ⟨e', hrun, hinv, hisolated, -, -, hepoch⟩ := rollbackTransaction_ok h hf ht
    rw [after, hrun]
    rw [hsession] at hisolated
    exact ⟨hinv, hisolated, hepoch⟩

theorem savepoint_acts (name : String) :
  ActsTo e a faults (.savepoint name) (after (savepoint name) e)
  := by
  obtain ⟨ht, ho⟩ | ⟨t, ht, hsession, ho⟩ := hactive.cases h
  · apply ActsTo.unchanged h
    · simp [after, savepoint, ensureTransactionUsable, ht]
    · simp only [Isolated.Acts, ho]
  · cases haborted : t.aborted with
    | true =>
      apply ActsTo.unchanged h
      · simp [after, savepoint, ensureTransactionUsable, ht, haborted]
      · simp only [Isolated.Acts, ho, haborted, if_true]
    | false =>
      have hafter : after (savepoint name) e = { e with
          txn := some { t with savepoints := t.savepoints ++ [(name, e.capture)] } } := by
        simp [after, savepoint, ensureTransactionUsable, ht, haborted]
      rw [hafter]
      obtain ⟨hinv, hisolated⟩ := acts_setOpened h ht
        { t with savepoints := t.savepoints ++ [(name, e.capture)] } rfl rfl (by
          intro x hx
          simp only [snapshots, map_append, map_cons, map_nil,
            mem_cons, mem_append, not_mem_nil, or_false] at hx ⊢
          tauto)
      refine ⟨hinv, ?_, Nat.le_refl _⟩
      simp only [Isolated.Acts, ho]
      rw [if_neg (by rw [haborted]; exact Bool.false_ne_true), hisolated, hsession]

theorem rollbackToSavepoint_acts (hf : Installs faults) (name : String) :
  ActsTo e a faults (.rollbackToSavepoint name) (after (rollbackToSavepoint faults name) e)
  := by
  obtain ⟨ht, ho⟩ | ⟨t, ht, hsession, ho⟩ := hactive.cases h
  · apply ActsTo.unchanged h
    · simp [after, rollbackToSavepoint, savepointIndex, ht]
    · simp only [Isolated.Acts, ho]
  · cases hfind : findSavepoint name t.savepoints with
    | none =>
      apply ActsTo.unchanged h
      · simp [after, rollbackToSavepoint, savepointIndex, ht, hfind]
      · simp only [Isolated.Acts, ho, hfind]
    | some p =>
      obtain ⟨kept, saved⟩ := p
      obtain ⟨hkept, hsaved⟩ := findSavepoint_mem hfind
      have hmem : saved ∈ t.snapshots e.capture :=
        mem_cons_of_mem _ (mem_cons_of_mem _ hsaved)
      have hmember : e.isolated.Member (some a) saved := ⟨t, e.capture, ho, hmem⟩
      obtain ⟨r', hrun, hshows, hflags, hepoch⟩ := install_member h hf hmember
      obtain ⟨-, hcommitted, hparked⟩ := h.inside ht
      rw [hsession] at hparked
      let t' : Transaction R := { t with savepoints := kept, aborted := false }
      let e' : Engine R := { e with registered := r', txn := some t' }
      have hafter : after (rollbackToSavepoint faults name) e = e' := by
        simp [after, rollbackToSavepoint, savepointIndex, ht, hfind, onRegistered, hrun, e', t']
      have hsub : ∀ x ∈ t'.snapshots saved, x ∈ t.snapshots e.capture ∨ x = saved := by
        intro x hx
        simp only [snapshots, mem_cons] at hx ⊢
        obtain rfl | rfl | hx := hx
        · exact Or.inr rfl
        · exact Or.inl (Or.inr (Or.inl rfl))
        · obtain ⟨p, hp, rfl⟩ := mem_map.mp hx
          exact Or.inl (Or.inr (Or.inr (mem_map_of_mem (hkept p hp))))
      obtain ⟨hisolated, hinv⟩ := inv_inside (a := a) (t := t') (e := e')
        (i := e.isolated.set a (some (t', saved))) (set_opened_self _ _ _) rfl hcommitted
        (by
          have : e'.parked = e.parked := rfl
          rw [this, hparked]
          exact (update_idem _ _ _).symm)
        hshows
        (h.good.setOpened hepoch ho rfl rfl hmem
          (Isolated.Advance.refl (h.good.settled _ _ hmember)) hsub)
        (by
          have : e'.registered.flags = e.registered.flags := hflags
          rw [this]
          exact h.catalog.setOpened ho rfl (h.catalog.opened a t _ _ ho hmem) hsub)
      rw [hafter]
      refine ⟨hinv, ?_, hepoch⟩
      simp only [Isolated.Acts, ho, hfind]
      exact hisolated

theorem releaseSavepoint_acts (name : String) :
  ActsTo e a faults (.releaseSavepoint name) (after (releaseSavepoint name) e)
  := by
  obtain ⟨ht, ho⟩ | ⟨t, ht, hsession, ho⟩ := hactive.cases h
  · apply ActsTo.unchanged h
    · simp [after, releaseSavepoint, ensureTransactionUsable, savepointIndex, ht]
    · simp only [Isolated.Acts, ho]
  · cases haborted : t.aborted with
    | true =>
      apply ActsTo.unchanged h
      · simp [after, releaseSavepoint, ensureTransactionUsable, ht, haborted]
      · simp only [Isolated.Acts, ho, haborted, if_true]
    | false =>
      cases hfind : findSavepoint name t.savepoints with
      | none =>
        apply ActsTo.unchanged h
        · simp [after, releaseSavepoint, ensureTransactionUsable, savepointIndex, ht, haborted,
            hfind]
        · simp only [Isolated.Acts, ho, haborted, hfind, Bool.false_eq_true, if_false]
      | some p =>
        obtain ⟨kept, saved⟩ := p
        have hafter : after (releaseSavepoint name) e = { e with
            txn := some { t with savepoints := kept.dropLast } } := by
          simp [after, releaseSavepoint, ensureTransactionUsable, savepointIndex, ht, haborted,
            hfind]
        rw [hafter]
        obtain ⟨hinv, hisolated⟩ := acts_setOpened h ht
          { t with savepoints := kept.dropLast } rfl rfl (by
            intro x hx
            simp only [snapshots, mem_cons] at hx ⊢
            obtain rfl | rfl | hx := hx
            · exact Or.inl rfl
            · exact Or.inr (Or.inl rfl)
            · obtain ⟨p, hp, rfl⟩ := mem_map.mp hx
              have hp' := (findSavepoint_mem hfind).1 p ((dropLast_sublist kept).subset hp)
              exact Or.inr (Or.inr (mem_map_of_mem hp')))
        refine ⟨hinv, ?_, Nat.le_refl _⟩
        simp only [Isolated.Acts, ho, hfind]
        rw [if_neg (by rw [haborted]; exact Bool.false_ne_true), hisolated, hsession]

end Engine

end CratonBolt
