import CratonBolt.Transactions.Commit

/-!
# Snapshot isolation over runs

Every run of jobs, from an engine without transactions, is a run of isolated sessions, and every
session that is activated sees its own state. This needs that the states to be installed can be
installed: a device or disk error in the middle leaves the engine with parts of two states. A
commit follows the first-committer-wins rule exactly when it meets no name that is new in both
states with tables of different kinds.
-/

namespace CratonBolt

open Std ExtTreeMap
open Catalog (published)

variable {R : Type}

/-- Nothing fails while states are installed. Statements may fail to register in-memory tables and
to publish manifests. -/
def Job.Installs : Job R → Prop
  | .run _ action activation faults => Engine.Installs activation ∧
    match action with
    | .statement _ => ∀ n, faults.openTable n = none
    | .commitTransaction => Engine.Installs faults
    | .rollbackTransaction => Engine.Installs faults
    | .rollbackToSavepoint _ => Engine.Installs faults
    | _ => True
  | .refresh _ activation faults => Engine.Installs activation ∧ ∀ n, faults.openTable n = none

namespace Engine

/-- At a `COMMIT`, no name is new both in the transaction and in what was committed since it began
with tables of different kinds. -/
def KindsApart (e : Engine R) : Job R → Prop
  | .run session .commitTransaction _ _ =>
    match e.opened session with
    | some (t, work) => Snapshot.kindsApart t.base work e.committedState = true
    | none => True
  | _ => True

variable [Append R]

/-- At each job of the run, states can be installed, kinds do not clash, and the counter of changes
has not wrapped around. -/
def Safe (e : Engine R) : List (Job R) → Prop
  | [] => True
  | job :: jobs => job.Installs ∧ e.KindsApart job ∧
    (e.runJob job).registered.dataEpoch < 2 ^ 64 ∧ (e.runJob job).Safe jobs

/-- An engine without transactions. -/
structure Initial (e : Engine R) : Prop where
  settled : e.registered.Settled
  txn : e.txn = none
  committed : e.committed = none
  parked : e.parked = fun _ => none
  bounded : ∀ (n : String) v, e.registered.tableVersions[n]? = some v → v ≤ e.registered.dataEpoch
  catalog : ∀ c, e.registered.catalog = some c → c.txnBase = none ∧ c.published = c.manifest

variable {e : Engine R} {jobs : List (Job R)}

omit [Append R] in
theorem Initial.inv (h : e.Initial) :
  e.isolated = ⟨e.capture, fun _ => none⟩ ∧ e.Inv
  := by
  apply inv_outside h.txn h.committed h.parked ⟨h.settled, rfl⟩
  · constructor
    · intro a t work ht
      cases ht
    · intro who s hs
      cases who with
      | none =>
        rw [show s = e.capture from hs]
        exact h.settled.capture
      | some a =>
        obtain ⟨t, work, ht, -⟩ := hs
        cases ht
    · intro who s hs
      cases who with
      | none =>
        rw [show s = e.capture from hs]
        exact h.bounded
      | some a =>
        obtain ⟨t, work, ht, -⟩ := hs
        cases ht
    · intro who s who' s' hs hs'
      cases who with
      | some a =>
        obtain ⟨t, work, ht, -⟩ := hs
        cases ht
      | none =>
        cases who' with
        | some a =>
          obtain ⟨t, work, ht, -⟩ := hs'
          cases ht
        | none =>
          rw [show s = e.capture from hs, show s' = e.capture from hs']
          exact Isolated.agree_refl _
    · intro a t work s ht
      cases ht
  · constructor
    · unfold CatalogFits Registered.flags
      cases hc : e.registered.catalog with
      | none => simp only [Option.map_none, capture, Registered.capture, hc]
      | some c =>
        obtain ⟨htxn, hpublished⟩ := h.catalog c hc
        simp only [Option.map_some, capture, Registered.capture, hc, Catalog.state, htxn,
          hpublished]
    · intro a t work s ht
      cases ht

/-- One action, after its session was activated. -/
theorem runAction_acts {a : Option Nat} {action : Action R} {activation faults : Faults}
    (h : e.Inv) (hactive : e.Active a) (hsession : e.currentSession = a)
    (hinstalls : (Job.run a action activation faults).Installs)
    (hkinds : e.KindsApart (.run a action activation faults))
    (hbound : (after (runAction faults action) e).registered.dataEpoch < 2 ^ 64) :
  ActsTo e a faults action (after (runAction faults action) e)
  := by
  cases action with
  | statement st => exact executeStatement_acts h hactive hinstalls.2 st hbound
  | beginTransaction => exact beginTransaction_acts h hactive hsession
  | commitTransaction =>
    apply commitTransaction_acts h hactive hinstalls.2
    intro t work ho
    have ho' : e.opened a = some (t, work) := ho
    rw [KindsApart, ho'] at hkinds
    exact hkinds
  | rollbackTransaction => exact rollbackTransaction_acts h hactive hinstalls.2
  | savepoint name => exact savepoint_acts h hactive name
  | rollbackToSavepoint name => exact rollbackToSavepoint_acts h hactive hinstalls.2 name
  | releaseSavepoint name => exact releaseSavepoint_acts h hactive name

/-- One job. -/
theorem runJob_step (h : e.Inv) {job : Job R} (hinstalls : job.Installs)
    (hkinds : e.KindsApart job) (hbound : (e.runJob job).registered.dataEpoch < 2 ^ 64) :
  (e.runJob job).Inv ∧ e.isolated.Step job (e.runJob job).isolated
  := by
  cases job with
  | run a action activation faults =>
    obtain ⟨e₁, hrun, hinv, hisolated, hactive, -, -⟩ := activateSession_ok h hinstalls.1 a
    let e₂ : Engine R := { e₁ with currentSession := a }
    have hinv₂ : e₂.Inv := ⟨hinv.settled, hinv.kept, hinv.apart, hinv.good, hinv.catalog⟩
    have hactive₂ : e₂.Active a := hactive
    have hisolated₂ : e₂.isolated = e.isolated := hisolated
    have hjob : e.runJob (.run a action activation faults) =
        { after (runAction faults action) e₂ with currentSession := none } := by
      rw [runJob, hrun]
    rw [hjob] at hbound ⊢
    have hkinds₂ : e₂.KindsApart (.run a action activation faults) := by
      have hopened : e₂.opened = e.opened := congrArg Isolated.opened hisolated₂
      have hcommitted : e₂.committedState = e.committedState :=
        congrArg Isolated.committed hisolated₂
      unfold KindsApart at hkinds ⊢
      rw [hopened, hcommitted]
      exact hkinds
    have hacts := runAction_acts hinv₂ hactive₂ rfl hinstalls hkinds₂ hbound
    have hdone := hacts.inv
    refine ⟨⟨hdone.settled, hdone.kept, hdone.apart, hdone.good, hdone.catalog⟩, ?_⟩
    rw [← hisolated₂]
    exact hacts.acts
  | refresh st activation faults =>
    have hactivate : ∃ e₁, activateCommitted activation e = .ok () e₁ ∧ e₁.Inv ∧
        e₁.isolated = e.isolated ∧ e₁.txn = none := by
      unfold activateCommitted
      simp
      cases ht : e.txn with
      | none => exact ⟨e, rfl, h, rfl, ht⟩
      | some t =>
        obtain ⟨e₁, hrun, hinv, hisolated, htxn, -, -⟩ := installCommitted_park h hinstalls.1
        exact ⟨e₁, hrun, hinv, hisolated, htxn⟩
    obtain ⟨e₁, hrun, hinv, hisolated, htxn⟩ := hactivate
    have hjob : e.runJob (.refresh st activation faults) =
        after (executeStatement faults st) e₁ := by
      rw [runJob, hrun]
    rw [hjob] at hbound ⊢
    obtain ⟨hdone, hacts, -⟩ := executeStatement_outside hinv htxn hinstalls.2 st hbound
    refine ⟨hdone, ?_⟩
    rw [← hisolated]
    exact hacts

/-- A run of jobs. -/
theorem runJobs_run (h : e.Inv) (hsafe : e.Safe jobs) :
  (e.runJobs jobs).Inv ∧ e.isolated.Run jobs (e.runJobs jobs).isolated
  := by
  induction jobs generalizing e with
  | nil => exact ⟨h, rfl⟩
  | cons job jobs ih =>
    obtain ⟨hinstalls, hkinds, hbound, hsafe⟩ := hsafe
    obtain ⟨hinv, hstep⟩ := runJob_step h hinstalls hkinds hbound
    obtain ⟨hinv', hrun⟩ := ih hinv hsafe
    exact ⟨hinv', _, hstep, hrun⟩

/-- Every run of jobs is a run of isolated sessions, and at its end every session that is activated
is shown its own state. -/
theorem sessions_see_isolated_states (hinit : e.Initial) (hsafe : e.Safe jobs) :
  Isolated.Run ⟨e.capture, fun _ => none⟩ jobs (e.runJobs jobs).isolated ∧
    ∀ (session : Option Nat) (activation : Faults), Installs activation →
      ∃ e', activateSession activation session (e.runJobs jobs) = .ok () e' ∧
        Shows e'.registered ((e.runJobs jobs).isolated.visible session)
  := by
  obtain ⟨hisolated, hinv⟩ := hinit.inv
  obtain ⟨hinv', hrun⟩ := runJobs_run hinv hsafe
  rw [hisolated] at hrun
  refine ⟨hrun, ?_⟩
  intro session activation hf
  obtain ⟨e', hactivate, hdone, hsame, hactive, -, -⟩ := activateSession_ok hinv' hf session
  refine ⟨e', hactivate, hdone.settled, ?_⟩
  rw [← hsame]
  exact hactive.visible.symm

omit [Append R] in
theorem installs_none :
  Installs Faults.none
  := ⟨fun _ => rfl, fun _ => rfl⟩

/-- Two in-memory tables, and no transactions. -/
def twoTables : Engine (List Nat) where
  registered :=
    { tables := (∅ : TableMap (List Nat)).insert "a" [1] |>.insert "b" [1]
      storageTables := ∅
      tableVersions := (∅ : TableMap Nat).insert "a" 1 |>.insert "b" 2
      views := ∅
      catalog := none
      dataEpoch := 2 }
  txn := none
  parked := fun _ => none
  committed := none
  currentSession := none

/-- A session changes both tables in a transaction; another session asks for a statement. -/
def otherSessionReads (activation : Faults) : List (Job (List Nat)) :=
  [.run (some 1) .beginTransaction Faults.none Faults.none,
   .run (some 1) (.statement ⟨[.replaceTable "a" [2], .replaceTable "b" [2]], none⟩)
     Faults.none Faults.none,
   .run (some 2) (.statement ⟨[], none⟩) activation Faults.none]

theorem twoTables_initial :
  twoTables.Initial
  := by
  refine ⟨⟨?_, ?_, ?_⟩, rfl, rfl, rfl, ?_, ?_⟩
  · intro n _
    exact getElem?_empty
  · intro n m hm
    simp only [Registered.catalogTables, twoTables, getElem?_empty] at hm
    cases hm
  · intro n hn
    simp only [twoTables, getElem?_insert] at hn ⊢
    split
    · exact Option.some_ne_none _
    · next hb =>
      rw [if_neg hb] at hn
      split
      · exact Option.some_ne_none _
      · next ha =>
        rw [if_neg ha] at hn
        exact (hn getElem?_empty).elim
  · intro n v hv
    simp only [twoTables, getElem?_insert] at hv ⊢
    split at hv
    · cases hv
      decide
    · split at hv
      · cases hv
        decide
      · rw [getElem?_empty] at hv
        cases hv
  · intro c hc
    cases hc

theorem otherSessionReads_safe :
  twoTables.Safe (otherSessionReads Faults.none)
  := by
  refine ⟨⟨installs_none, trivial⟩, trivial, by decide, ?_⟩
  refine ⟨⟨installs_none, fun _ => rfl⟩, trivial, by decide, ?_⟩
  exact ⟨⟨installs_none, fun _ => rfl⟩, trivial, by decide, trivial⟩

theorem otherSessionReads_see_isolated_states :
  twoTables.Initial ∧ twoTables.Safe (otherSessionReads Faults.none) ∧
    Isolated.Run ⟨twoTables.capture, fun _ => none⟩ (otherSessionReads Faults.none)
      (twoTables.runJobs (otherSessionReads Faults.none)).isolated ∧
    ∀ (session : Option Nat) (activation : Faults), Installs activation →
      ∃ e', activateSession activation session
          (twoTables.runJobs (otherSessionReads Faults.none)) = .ok () e' ∧
        Shows e'.registered
          ((twoTables.runJobs (otherSessionReads Faults.none)).isolated.visible session)
  := ⟨twoTables_initial, otherSessionReads_safe,
    sessions_see_isolated_states twoTables_initial otherSessionReads_safe⟩

/-- If a table cannot be registered while the committed state is installed, later statements
outside transactions see what is left: here the uncommitted rows of another session. -/
theorem failed_activation_shows_uncommitted :
  (after (activateSession Faults.none (some 3))
    (twoTables.runJobs (otherSessionReads Faults.none))).registered.tables["b"]? = some [1] ∧
  (after (activateSession Faults.none (some 3))
    (twoTables.runJobs (otherSessionReads { Faults.none with
      register := fun n => if n = "a" then some (.other "out of device memory") else none }))
    ).registered.tables["b"]? = some [2]
  := by
  decide

/-! ### First committer wins -/

omit [Append R] in
/-- The session's transaction is over; the committed state and what is published are as before. -/
def ClosedOnly (e : Engine R) (session : Option Nat) (e' : Engine R) : Prop :=
  e'.opened session = none ∧ e'.committedState = e.committedState ∧
    e'.registered.catalog.map published = e.registered.catalog.map published

/-- The session's transaction is over; the committed state is the transaction's where it changed
something, and is published. -/
def CommittedFirst (e : Engine R) (session : Option Nat) (t : Transaction R) (work : Snapshot R)
    (e' : Engine R) : Prop :=
  e'.opened session = none ∧
    Snapshot.FirstCommitterWins t.base work e.committedState e'.committedState ∧
    e'.registered.catalog.map published =
      e'.committedState.catalog.map CatalogState.manifest

omit [Append R] in
/-- A commit always comes to an end, if nothing fails while states are installed. -/
theorem finishCommit_runs {t : Transaction R} {faults : Faults} (hf : Installs faults)
    {new : Snapshot R} {r₁ : Registered R} (hready : Ready e t new r₁) :
  ∃ r', finishCommit faults new { e with registered := r₁ } =
    .ok () { e with registered := r', txn := none, committed := none }
  := by
  have hcat : r₁.catalog.isSome = new.catalog.isSome := by
    rw [hready.fits.isSome, flags_isSome]
  obtain ⟨r', hrun, -⟩ := Registered.install_runs hf.1 hf.2 hcat
  refine ⟨r', ?_⟩
  simp [finishCommit, onRegistered, hrun]

omit [Append R] in
theorem published_of_flags {r r' : Registered R} (h : r.flags = r'.flags) :
  r.catalog.map published = r'.catalog.map published
  := by
  have hmap := congrArg (Option.map Flags.published) h
  simp only [Registered.flags, Option.map_map] at hmap
  exact hmap

omit [Append R] in
theorem published_of_fits {r : Registered R} {s : Snapshot R} (h : CatalogFits r.flags none s) :
  r.catalog.map published = s.catalog.map CatalogState.manifest
  := by
  unfold CatalogFits Registered.flags at h
  cases hc : r.catalog with
  | none =>
    rw [hc] at h
    rw [show s.catalog = none from h]
    rfl
  | some c =>
    rw [hc] at h
    rw [show s.catalog = some ⟨c.published, none⟩ from h]
    rfl

/-- A `COMMIT` that fails only closes the transaction. One that succeeds follows the rule exactly
if no name is new in both states with tables of different kinds. -/
theorem commit_closes_or_wins (hinit : e.Initial) (hsafe : e.Safe jobs) {session : Option Nat}
    {t : Transaction R} {work : Snapshot R} (ho : (e.runJobs jobs).opened session = some (t, work))
    {activation faults : Faults} (hactivation : Installs activation) (hf : Installs faults) :
  ∃ e₁, activateSession activation session (e.runJobs jobs) = .ok () e₁ ∧
    (∀ err e', commitTransaction faults { e₁ with currentSession := session } = .error err e' →
      (e.runJobs jobs).ClosedOnly session e') ∧
    ∀ e', commitTransaction faults { e₁ with currentSession := session } = .ok () e' →
      ((e.runJobs jobs).CommittedFirst session t work e' ↔
        Snapshot.kindsApart t.base work (e.runJobs jobs).committedState = true)
  := by
  obtain ⟨-, hinv₀⟩ := hinit.inv
  obtain ⟨hinv, -⟩ := runJobs_run hinv₀ hsafe
  obtain ⟨e₁, hactivate, hinv₁, hisolated₁, hactive, -, hflags₁⟩ :=
    activateSession_ok hinv hactivation session
  refine ⟨e₁, hactivate, ?_⟩
  let e₂ : Engine R := { e₁ with currentSession := session }
  have hinv₂ : e₂.Inv := ⟨hinv₁.settled, hinv₁.kept, hinv₁.apart, hinv₁.good, hinv₁.catalog⟩
  have hisolated₂ : e₂.isolated = (e.runJobs jobs).isolated := hisolated₁
  have hactive₂ : e₂.Active session := hactive
  have ho₂ : e₂.isolated.opened session = some (t, work) := by
    rw [hisolated₂]
    exact ho
  have hstate : e₂.isolated.committed = (e.runJobs jobs).committedState :=
    congrArg Isolated.committed hisolated₂
  -- the transaction is the installed one
  obtain ⟨-, hnone⟩ | ⟨t', ht, hsession, hcapture⟩ := hactive₂.cases hinv₂
  · rw [ho₂] at hnone
    cases hnone
  · rw [ho₂, Option.some.injEq, Prod.mk.injEq] at hcapture
    obtain ⟨rfl, rfl⟩ := hcapture
    obtain ⟨err, e', hrun, hrolled⟩ | ⟨-, new, r₁, hready, hrun⟩ :=
      commitTransaction_cases hinv₂ ht hf
    · have hrun' : commitTransaction faults { e₁ with currentSession := session } =
          .error err e' := hrun
      rw [hrun']
      have hisolated' := hrolled.isolated
      refine ⟨?_, (by intro _ hok; cases hok)⟩
      intro _ _ herror
      cases herror
      refine ⟨?_, ?_, ?_⟩
      · have hopened : e'.isolated.opened session = none := by
          rw [hisolated', hsession, Isolated.set_opened_self]
        exact hopened
      · have hcommitted : e'.isolated.committed = e₂.isolated.committed := by
          rw [hisolated']
          rfl
        exact hcommitted.trans hstate
      · exact published_of_flags (hrolled.flags.trans hflags₁)
    · obtain ⟨r', hfinish⟩ := finishCommit_runs hf hready
      have hrun' : commitTransaction faults { e₁ with currentSession := session } =
          .ok () { e₂ with registered := r', txn := none, committed := none } :=
        hrun.trans hfinish
      rw [hrun', ← hstate]
      refine ⟨(by intro _ _ herror; cases herror), ?_⟩
      intro _ hok
      cases hok
      constructor
      · rintro ⟨-, hwins, -⟩
        rw [← hstate] at hwins
        exact hwins.kindsApart
      · intro hkinds
        obtain ⟨hbase, hwork, hcommitted, hagree⟩ := hinv₂.settled_all ht
        obtain ⟨e', hfinish', -, hisolated', -, hflags', -⟩ :=
          finishCommit_ok hinv₂ ht hf hready hkinds
        rw [hfinish'] at hfinish
        cases hfinish
        have hnew : committedState
            { e₂ with registered := r', txn := none, committed := none } = new :=
          congrArg Isolated.committed hisolated'
        refine ⟨?_, ?_, ?_⟩
        · have hopened := congrFun (congrArg Isolated.opened hisolated') session
          rw [hsession] at hopened
          exact hopened.trans (Isolated.set_opened_self _ _ _)
        · rw [hnew, ← hstate]
          exact hready.commits.firstCommitterWins hbase hwork hcommitted hagree hkinds
        · rw [hnew]
          exact (published_of_flags hflags').trans (published_of_fits hready.fits)

theorem otherSessionReads_commit_closes_or_wins :
  ∃ t work, (twoTables.runJobs (otherSessionReads Faults.none)).opened (some 1) = some (t, work) ∧
    ∃ e₁, activateSession Faults.none (some 1)
        (twoTables.runJobs (otherSessionReads Faults.none)) = .ok () e₁ ∧
      (∀ err e',
        commitTransaction Faults.none { e₁ with currentSession := some 1 } = .error err e' →
        (twoTables.runJobs (otherSessionReads Faults.none)).ClosedOnly (some 1) e') ∧
      ∀ e', commitTransaction Faults.none { e₁ with currentSession := some 1 } = .ok () e' →
        ((twoTables.runJobs (otherSessionReads Faults.none)).CommittedFirst (some 1) t work e' ↔
          Snapshot.kindsApart t.base work
            (twoTables.runJobs (otherSessionReads Faults.none)).committedState = true)
  := by
  have hsome :
      ((twoTables.runJobs (otherSessionReads Faults.none)).opened (some 1)).isSome = true := by
    decide
  obtain ⟨⟨t, work⟩, ho⟩ := Option.isSome_iff_exists.mp hsome
  exact ⟨t, work, ho,
    commit_closes_or_wins twoTables_initial otherSessionReads_safe ho installs_none installs_none⟩

/-- The catalog entry of a table. -/
def ordersEntry : TableMeta := ⟨1, .managed, [⟨"id", .int64, false⟩], ["orders-1"], 1, none, []⟩

/-- An engine with an empty catalog. -/
def emptyCatalog : Engine (List Nat) where
  registered :=
    { tables := ∅
      storageTables := ∅
      tableVersions := ∅
      views := ∅
      catalog := some ⟨⟨1, 1, ∅, ∅⟩, none, false, ⟨1, 1, ∅, ∅⟩⟩
      dataEpoch := 0 }
  txn := none
  parked := fun _ => none
  committed := none
  currentSession := none

/-- A transaction creates an in-memory table; meanwhile another session creates a durable one of
the same name. -/
def clashingTables : List (Job (List Nat)) :=
  [.run (some 1) .beginTransaction Faults.none Faults.none,
   .run (some 1) (.statement ⟨[.registerTable "orders" [1]], none⟩) Faults.none Faults.none,
   .run (some 2) (.statement ⟨[.createCatalogTable "orders" ordersEntry], none⟩)
     Faults.none Faults.none]

/-- The commit of the transaction succeeds, and the committed durable table is gone from sight. -/
theorem commit_overwrites_other_kind :
  (emptyCatalog.runJobs clashingTables).committedState.catalogTables["orders"]? = some ordersEntry ∧
    (emptyCatalog.runJobs (clashingTables ++
      [.run (some 1) .commitTransaction Faults.none Faults.none])).txn.isNone = true ∧
    (emptyCatalog.runJobs (clashingTables ++
      [.run (some 1) .commitTransaction Faults.none Faults.none])).capture.tables["orders"]? =
        some [1] ∧
    (emptyCatalog.runJobs (clashingTables ++
      [.run (some 1) .commitTransaction Faults.none Faults.none])
      ).registered.storageTables["orders"]? = none
  := by
  decide +kernel

end Engine

end CratonBolt
