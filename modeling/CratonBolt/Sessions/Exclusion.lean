import CratonBolt.Sessions.OpenTransactions
import CratonBolt.Sessions.Order
import Mathlib.Data.List.Dedup

/-!
# Sessions served one transaction at a time

Under serializable isolation at most one transaction is open, and while it is, only jobs of its
session run. Once the last handle is gone the loop serves what is left and returns. Together with
the order of jobs this is what the runtime promises its sessions.
-/

namespace CratonBolt.Runtime

open List

variable {R : Type} {p : Poll R} {st st' : State R}

/-! ### The open transactions during a run -/

/-- The open transactions belong to sessions that have submitted jobs. -/
structure Tracked (st : State R) : Prop where
  filed : st.engine.Filed
  known : ∀ session, st.engine.hasTransaction session = true → session ∈ st.sessions
  jobs : ∀ job ∈ st.deferred ++ st.channel, job.session ∈ st.sessions

theorem head?_eq_none_iff (h : Tracked st) (walk : List (Option Nat)) :
  (transactionSessions walk st).head? = none ↔ ∀ session, st.engine.hasTransaction session = false
  := by
  rw [List.head?_eq_none_iff, transactionSessions, append_eq_nil_iff]
  constructor
  · rintro ⟨hholder, hparked⟩ session
    rw [Bool.eq_false_iff]
    intro hopen
    obtain hinstalled | hsome := Engine.hasTransaction_iff.mp hopen
    · rw [hinstalled] at hholder
      cases hholder
    · rw [filter_eq_nil_iff] at hparked
      exact hparked session (mem_append_right _ (h.known session hopen)) hsome
  · intro hclosed
    constructor
    · cases hholder : st.engine.transactionHolder with
      | none => rfl
      | some session =>
        have hopen := Engine.hasTransaction_iff.mpr (Or.inl hholder)
        rw [hclosed] at hopen
        cases hopen
    · rw [filter_eq_nil_iff]
      intro session _ hsome
      have hopen := Engine.hasTransaction_iff.mpr (Or.inr hsome)
      rw [hclosed] at hopen
      cases hopen

theorem hasTransaction_of_head? {walk : List (Option Nat)} {session : Option Nat}
    (h : (transactionSessions walk st).head? = some session) :
  st.engine.hasTransaction session = true
  := by
  have hmem := mem_of_head? h
  rw [transactionSessions, mem_append, Option.mem_toList, mem_filter] at hmem
  rw [Engine.hasTransaction_iff]
  obtain hholder | ⟨-, hparked⟩ := hmem
  · exact Or.inl hholder
  · exact Or.inr hparked

variable [Append R]

/-- A job leaves the transactions of other sessions alone. -/
theorem runJob_engine (p : Poll R) (job : Job R) (st : State R) (hfiled : st.engine.Filed) :
  (runJob p job st).engine.Filed ∧ ∀ session, session ≠ job.session →
    (runJob p job st).engine.hasTransaction session = st.engine.hasTransaction session
  := by
  unfold runJob
  obtain ⟨e, hrun, hfiled', hinstalled, hsame⟩ | ⟨err, e, hrun, hfiled', -, hsame⟩ :=
    Engine.activateSession_cases hfiled p.activation job.session
  · rw [hrun]
    dsimp only
    split
    · refine ⟨hfiled'.congr rfl rfl, ?_⟩
      intro session _
      rw [← hsame]
      exact Engine.hasTransaction_congr rfl rfl
    · obtain ⟨hfiled'', hothers⟩ := Engine.runActions_filed hfiled' hinstalled job.actions
      refine ⟨hfiled'', ?_⟩
      intro session hsession
      rw [← hsame]
      exact hothers session hsession
  · rw [hrun]
    exact ⟨hfiled', hsame⟩

theorem refreshViews_engine (hfiled : st.engine.Filed) (p : Poll R) :
  (refreshViews p st).engine.Filed ∧ ∀ session,
    (refreshViews p st).engine.hasTransaction session = st.engine.hasTransaction session
  := by
  unfold refreshViews
  split
  · exact ⟨hfiled, fun _ => rfl⟩
  · exact Engine.runJob_refresh hfiled _ _ _

omit [Append R] in
/-- An abandoned transaction is over. -/
theorem abandon_engine {e : Engine R} (hfiled : e.Filed) (p : Poll R) (session : Option Nat)
    (hopen : e.hasTransaction session = true) :
  (abandon p session e).Filed ∧ (abandon p session e).hasTransaction session = false ∧
    ∀ other, other ≠ session → (abandon p session e).hasTransaction other = e.hasTransaction other
  := by
  unfold abandon
  obtain ⟨e₁, hrun, hfiled₁, hinstalled, hsame⟩ | ⟨err, e₁, hrun, hfiled₁, htxn, hsame⟩ :=
    Engine.activateSession_cases hfiled p.activation session
  · rw [hrun]
    dsimp only
    have hsome : e₁.txn.isSome = true := by
      rw [← hinstalled.hasTransaction_self, hsame, hopen]
    obtain ⟨c, r, hroll⟩ := Engine.rollbackTransaction_cases p.activation hsome
    let e₂ : Engine R := { e₁ with txn := none, committed := c, registered := r }
    have hinstalled₂ : e₂.Installed session := ⟨Or.inl rfl, hinstalled.unparked⟩
    have hfiled₂ : e₂.Filed := hinstalled₂.filed hfiled₁.parked
    have hothers : ∀ other, other ≠ session → e₂.hasTransaction other = e.hasTransaction other := by
      intro other hother
      rw [hinstalled₂.hasTransaction_of_ne hother, ← hsame, hinstalled.hasTransaction_of_ne hother]
    obtain hok | ⟨err, herror⟩ := hroll
    · rw [hok]
      exact ⟨hfiled₂, hinstalled₂.hasTransaction_self, hothers⟩
    · rw [herror]
      obtain ⟨hfiled₃, hclosed, hrest⟩ := Engine.unpark_spec hfiled₂ rfl session
      refine ⟨hfiled₃, hclosed, ?_⟩
      intro other hother
      exact (hrest other hother).trans (hothers other hother)
  · rw [hrun]
    obtain ⟨hfiled₂, hclosed, hrest⟩ := Engine.unpark_spec hfiled₁ htxn session
    refine ⟨hfiled₂, hclosed, ?_⟩
    intro other hother
    exact (hrest other hother).trans (hsame other hother)

/-- The work left in the queues. -/
def load (st : State R) : Nat :=
  3 * st.channel.length + 2 * st.deferred.length + st.connected.toNat

/-- What a pass does with the transactions and with the work that is left. -/
inductive Engages (owner : Option (Option Nat)) (st st' : State R) : Prop
  /-- A job runs, or fails on the way. -/
  | serves (job : Job R) (may : mayRun owner job = true) (waits : job ∈ st.deferred ++ st.channel)
      (less : load st' + 2 ≤ load st) (filed : st'.engine.Filed)
      (others : ∀ s, s ≠ job.session → st'.engine.hasTransaction s = st.engine.hasTransaction s)
  /-- Jobs are set aside or fail. -/
  | sorts (less : st.accepting = false → load st' < load st) (engine : st'.engine = st.engine)
  /-- An abandoned transaction is rolled back. -/
  | ends (session : Option Nat) (less : load st' ≤ load st)
      (opened : st.engine.hasTransaction session = true) (filed : st'.engine.Filed)
      (closed : st'.engine.hasTransaction session = false)
      (others : ∀ s, s ≠ session → st'.engine.hasTransaction s = st.engine.hasTransaction s)
  | returns (returned : st'.returned = true) (engine : st'.engine = st.engine)

omit [Append R] in
theorem load_failExpired (p : Poll R) (st : State R) :
  load (failExpired p st) ≤ load st
  := by
  have hlength : (failExpired p st).deferred.length ≤ st.deferred.length :=
    length_filter_le _ _
  unfold load
  have hchannel : (failExpired p st).channel = st.channel := rfl
  have hconnected : (failExpired p st).connected = st.connected := rfl
  rw [hchannel, hconnected]
  omega

theorem receive_engages (hfiled : st.engine.Filed) (hconnected : st.connected = true) (p : Poll R)
    (owner : Option (Option Nat)) :
  Engages owner st (receive p owner (failExpired p st))
  := by
  have hload := load_failExpired p st
  unfold receive
  cases hchannel : st.channel with
  | nil =>
    have hchannel' : (failExpired p st).channel = [] := hchannel
    rw [hchannel']
    dsimp only
    split
    · rename_i haccepting
      apply Engages.sorts
      · intro hshut
        rw [show (failExpired p st).accepting = st.accepting from rfl, hshut] at haccepting
        cases haccepting
      · rfl
    · apply Engages.sorts
      · intro _
        have hconnected' : (failExpired p st).connected = true := hconnected
        simp only [load, hconnected', hchannel', Bool.toNat_true, Bool.toNat_false,
          length_nil] at hload ⊢
        omega
      · rfl
  | cons job rest =>
    have hchannel' : (failExpired p st).channel = job :: rest := hchannel
    rw [hchannel']
    dsimp only
    simp only [load, hchannel', length_cons] at hload
    split
    · rename_i hmay
      obtain ⟨hfiled', hothers⟩ := runJob_engine p job { failExpired p st with channel := rest }
        hfiled
      refine Engages.serves job hmay ?_ ?_ hfiled' hothers
      · rw [hchannel]
        exact mem_append_right _ mem_cons_self
      · simp only [load, runJob_keeps]
        omega
    · apply Engages.sorts
      · intro _
        simp only [load, length_append, length_singleton]
        omega
      · rfl

section

variable (h : Tracked st)
include h

variable (p : Poll R)

theorem serve_engages (owner : Option (Option Nat)) :
  Engages owner st (serve p owner st)
  := by
  obtain ⟨job, rest, hfree, hdeferred, hserve⟩ | ⟨-, hconnected, hserve⟩ | ⟨-, -, hserve⟩ :=
    serve_cases p owner st
  · rw [hserve]
    obtain ⟨hfiled, hothers⟩ := runJob_engine p job { st with deferred := rest } h.filed
    refine Engages.serves job ?_ ?_ ?_ hfiled hothers
    · rw [hfree]
      rfl
    · rw [hdeferred]
      exact mem_append_left _ mem_cons_self
    · simp only [load, runJob_keeps, hdeferred, length_cons]
      omega
  · rw [hserve]
    exact receive_engages h.filed hconnected p owner
  · rw [hserve]
    unfold wind
    split
    · rename_i session hhead
      have hopen := hasTransaction_of_head? hhead
      obtain ⟨hfiled, hclosed, hothers⟩ := abandon_engine h.filed p session hopen
      exact Engages.ends session (Nat.le_refl _) hopen hfiled hclosed hothers
    · exact Engages.returns rfl rfl

theorem refreshViews_tracked :
  Tracked (refreshViews p st)
  := by
  obtain ⟨hfiled, hsame⟩ := refreshViews_engine h.filed p
  refine ⟨hfiled, ?_, ?_⟩
  · intro session hopen
    rw [hsame] at hopen
    simp only [refreshViews_keeps]
    exact h.known session hopen
  · simp only [refreshViews_keeps]
    exact h.jobs

theorem Tracked.serve (owner : Option (Option Nat)) :
  Tracked (serve p owner st)
  := by
  obtain ⟨entries, -, hmoves, -⟩ := serve_moves p owner st
  have hkept := serve_kept p owner st
  have hjobs : ∀ job ∈ (Runtime.serve p owner st).deferred ++ (Runtime.serve p owner st).channel,
      job.session ∈ (Runtime.serve p owner st).sessions := by
    intro job hjob
    rw [hkept.sessions]
    exact h.jobs job (hmoves.waits.subset hjob)
  cases serve_engages h p owner with
  | serves job hmay hwaits hless hfiled hothers =>
    refine ⟨hfiled, ?_, hjobs⟩
    intro session hopen
    rw [hkept.sessions]
    by_cases hsession : session = job.session
    · rw [hsession]
      exact h.jobs job hwaits
    · rw [hothers session hsession] at hopen
      exact h.known session hopen
  | sorts _ hengine | returns _ hengine =>
    refine ⟨?_, ?_, hjobs⟩
    · rw [hengine]
      exact h.filed
    · rw [hengine, hkept.sessions]
      exact h.known
  | ends session hless hopened hfiled hclosed hothers =>
    refine ⟨hfiled, ?_, hjobs⟩
    intro other hopen
    rw [hkept.sessions]
    by_cases hother : other = session
    · rw [hother, hclosed] at hopen
      cases hopen
    · rw [hothers other hother] at hopen
      exact h.known other hopen

theorem Tracked.iterate :
  Tracked (iterate p st)
  := by
  unfold Runtime.iterate
  split
  · exact h
  · exact (refreshViews_tracked h p).serve p (holder p st)

theorem Tracked.step (event : Event R) :
  Tracked (step st event)
  := by
  cases event with
  | submit session queued actions =>
    refine ⟨h.filed, ?_, ?_⟩
    · intro s hopen
      exact mem_append_left _ (h.known s hopen)
    · intro job hjob
      unfold Runtime.step submit at hjob ⊢
      dsimp only at hjob ⊢
      split at hjob
      · rw [← append_assoc, mem_append, mem_singleton] at hjob
        obtain hold | rfl := hjob
        · exact mem_append_left _ (h.jobs job hold)
        · exact mem_append_right _ mem_cons_self
      · exact mem_append_left _ (h.jobs job hjob)
  | close => exact ⟨h.filed, h.known, h.jobs⟩
  | iterate p => exact h.iterate p

theorem Tracked.run (events : List (Event R)) :
  Tracked (run st events)
  := by
  induction events generalizing st with
  | nil => exact h
  | cons event events ih => exact ih (h.step event)

end

/-! ### Exclusion -/

/-- At most one session has a transaction open. -/
def Exclusive (e : Engine R) : Prop :=
  ∀ s s', e.hasTransaction s = true → e.hasTransaction s' = true → s = s'

omit [Append R] in
/-- Under serializable isolation the holder is the session with the open transaction. -/
theorem holder_of_open (h : Tracked st) (hexclusive : Exclusive st.engine)
    (hserializable : p.serializable = true) {session : Option Nat}
    (hopen : st.engine.hasTransaction session = true) :
  holder p st = some session
  := by
  rw [holder, hserializable, if_pos rfl]
  cases hhead : (transactionSessions p.walk st).head? with
  | none =>
    rw [(head?_eq_none_iff h p.walk).mp hhead session] at hopen
    cases hopen
  | some s => rw [hexclusive s session (hasTransaction_of_head? hhead) hopen]

theorem Exclusive.serve {owner : Option (Option Nat)} (hexclusive : Exclusive st.engine)
    (h : Tracked st) (howner : ∀ s, st.engine.hasTransaction s = true → owner = some s)
    (p : Poll R) :
  Exclusive (serve p owner st).engine
  := by
  cases serve_engages h p owner with
  | serves job hmay hwaits hless hfiled hothers =>
    -- whoever has a transaction open afterwards is the session of the job
    have hall : ∀ s, (Runtime.serve p owner st).engine.hasTransaction s = true →
        s = job.session := by
      intro s hopen
      by_contra hs
      rw [hothers s hs] at hopen
      rw [howner s hopen, mayRun, beq_iff_eq] at hmay
      exact hs hmay
    intro s s' hs hs'
    rw [hall s hs, hall s' hs']
  | sorts _ hengine | returns _ hengine =>
    rw [hengine]
    exact hexclusive
  | ends session hless hopened hfiled hclosed hothers =>
    intro s s' hs hs'
    have hbefore : ∀ s, (Runtime.serve p owner st).engine.hasTransaction s = true →
        st.engine.hasTransaction s = true := by
      intro s hopen
      by_cases hsession : s = session
      · rw [hsession]
        exact hopened
      · rw [← hothers s hsession]
        exact hopen
    exact hexclusive s s' (hbefore s hs) (hbefore s' hs')

theorem Exclusive.iterate (hexclusive : Exclusive st.engine) (h : Tracked st)
    (hserializable : p.serializable = true) :
  Exclusive (iterate p st).engine
  := by
  unfold Runtime.iterate
  split
  · exact hexclusive
  · obtain ⟨-, hsame⟩ := refreshViews_engine h.filed p
    apply Exclusive.serve _ (refreshViews_tracked h p)
    · intro s hopen
      rw [hsame] at hopen
      exact holder_of_open h hexclusive hserializable hopen
    · intro s s' hs hs'
      rw [hsame] at hs hs'
      exact hexclusive s s' hs hs'

/-- While a session has a transaction open, a pass refreshes no view and runs no job but its own. -/
def Excludes (st st' : State R) : Prop :=
  ∀ session, st.engine.hasTransaction session = true →
    ∀ entries, st'.trace = st.trace ++ entries →
      .refreshed ∉ entries ∧ ∀ job, .ran job ∈ entries → job.session = session

theorem iterate_excludes (h : Tracked st) (hexclusive : Exclusive st.engine)
    (hserializable : p.serializable = true) :
  Excludes st (iterate p st)
  := by
  intro session hopen entries htrace
  have howner := holder_of_open h hexclusive hserializable hopen
  obtain ⟨entries', htrace', hmoves, hrefreshed⟩ := iterate_moves p st
  obtain rfl : entries = entries' := by
    rw [htrace] at htrace'
    exact append_cancel_left htrace'
  constructor
  · intro hmem
    rw [howner] at hrefreshed
    cases hrefreshed hmem
  · intro job hran
    have hmem : job ∈ entries.filterMap Entry.ran? := mem_filterMap.mpr ⟨_, hran, rfl⟩
    rw [howner] at hmoves
    cases hmoves with
    | rest hstopped hjobs hdeferred hchannel =>
      rw [ran?_eq_nil_of_job?_eq_nil hjobs] at hmem
      cases hmem
    | resume job' hfree hdeferred hchannel hjobs => cases hfree
    | take job' hmay hfree hchannel hdeferred hjobs hsub =>
      rw [mem_singleton.mp (hsub.subset hmem)]
      rw [mayRun, beq_iff_eq] at hmay
      exact hmay.symm
    | setAside _ _ _ _ _ hnone | idle _ _ _ _ hnone =>
      rw [hnone] at hmem
      cases hmem

/-- Under serializable isolation, every run keeps other sessions out of open transactions. -/
theorem run_exclusive (hexclusive : Exclusive st.engine) (h : Tracked st) {events : List (Event R)}
    (hserializable : ∀ p, Event.iterate p ∈ events → p.serializable = true) :
  Exclusive (run st events).engine
  := by
  induction events generalizing st with
  | nil => exact hexclusive
  | cons event events ih =>
    refine ih ?_ (h.step event) (fun p hp => hserializable p (mem_cons_of_mem _ hp))
    cases event with
    | submit session queued actions => exact hexclusive
    | close => exact hexclusive
    | iterate p => exact hexclusive.iterate h (hserializable p mem_cons_self)

/-! ### The end of the loop -/

omit [Append R] in
/-- Counting the sessions that satisfy two conditions which differ at one session only. -/
theorem countP_exchange {l : List (Option Nat)} (hnodup : l.Nodup) {a : Option Nat} (ha : a ∈ l)
    {f g : Option Nat → Bool} (h : ∀ s, s ≠ a → g s = f s) :
  l.countP g + (f a).toNat = l.countP f + (g a).toNat
  := by
  induction l with
  | nil => cases ha
  | cons x l ih =>
    obtain ⟨hx, hl⟩ := nodup_cons.mp hnodup
    obtain rfl | hmem := mem_cons.mp ha
    · have hsame : l.countP g = l.countP f := by
        apply countP_congr
        intro s hs
        rw [h s (fun heq => hx (heq ▸ hs))]
      rw [countP_cons, countP_cons, hsame]
      cases f a <;> cases g a <;> simp
    · have hxa : x ≠ a := fun heq => hx (heq ▸ hmem)
      rw [countP_cons, countP_cons, h x hxa]
      have := ih hl hmem
      omega

/-- A bound on the passes that are left once no job comes any more. -/
def owed (st : State R) : Nat :=
  load st + st.sessions.dedup.countP st.engine.hasTransaction

theorem serve_owed (h : Tracked st) (hclosed : st.accepting = false) (p : Poll R)
    (owner : Option (Option Nat)) :
  owed (serve p owner st) < owed st ∨ (serve p owner st).returned = true
  := by
  have hkept := serve_kept p owner st
  have hnodup := nodup_dedup st.sessions
  unfold owed
  rw [hkept.sessions]
  cases serve_engages h p owner with
  | serves job hmay hwaits hless hfiled hothers =>
    left
    have hcount := countP_exchange hnodup (mem_dedup.mpr (h.jobs job hwaits)) hothers
    have hbefore := Bool.toNat_le (st.engine.hasTransaction job.session)
    have hafter := Bool.toNat_le ((serve p owner st).engine.hasTransaction job.session)
    omega
  | sorts hless hengine =>
    left
    rw [hengine]
    have := hless hclosed
    omega
  | ends session hless hopened hfiled hclosed' hothers =>
    left
    have hcount := countP_exchange hnodup (mem_dedup.mpr (h.known session hopened)) hothers
    rw [hopened, hclosed', Bool.toNat_true, Bool.toNat_false] at hcount
    omega
  | returns hreturned hengine => exact Or.inr hreturned

theorem owed_refreshViews (h : Tracked st) (p : Poll R) :
  owed (refreshViews p st) = owed st
  := by
  obtain ⟨-, hsame⟩ := refreshViews_engine h.filed p
  have hopen : (refreshViews p st).engine.hasTransaction = st.engine.hasTransaction := funext hsame
  simp only [owed, load, refreshViews_keeps, hopen]

theorem run_of_returned (hreturned : st.returned = true) (polls : List (Poll R)) :
  run st (polls.map Event.iterate) = st
  := by
  induction polls with
  | nil => rfl
  | cons p polls ih =>
    have hstep : step st (.iterate p) = st := if_pos hreturned
    rw [map_cons, run, foldl_cons, hstep]
    exact ih

/-- Without handles the loop returns after a bounded number of passes. -/
theorem run_returns (h : Tracked st) (hclosed : st.accepting = false) (polls : List (Poll R))
    (hlong : owed st < polls.length) :
  (run st (polls.map Event.iterate)).returned = true
  := by
  induction polls generalizing st with
  | nil => cases hlong
  | cons p polls ih =>
    cases hreturned : st.returned with
    | true =>
      rw [run_of_returned hreturned]
      exact hreturned
    | false =>
      have hiterate : iterate p st = serve p (holder p st) (refreshViews p st) := by
        unfold iterate
        rw [hreturned]
        rfl
      have hprogress :=
        serve_owed (refreshViews_tracked h p) (by simpa using hclosed) p (holder p st)
      rw [owed_refreshViews h p, ← hiterate] at hprogress
      change (run (iterate p st) (polls.map Event.iterate)).returned = true
      obtain hless | hdone := hprogress
      · apply ih (h.iterate p)
        · rw [(iterate_kept p st).accepting]
          exact hclosed
        · rw [length_cons] at hlong
          omega
      · rw [run_of_returned hdone]
        exact hdone

/-! ### What the runtime promises -/

/-- What the runtime promises about a run of events. -/
structure Served (engine : Engine R) (now : Nat) (events : List (Event R)) : Prop where
  /-- Every job submitted so far was run, failed or dropped once, or still waits. -/
  once : ((jobs (run (start engine now) events)).map Job.id).Perm
    (List.range (run (start engine now) events).submitted)
  /-- No job waits when the loop has returned. -/
  none_left : (run (start engine now) events).returned = true →
    (run (start engine now) events).deferred = [] ∧ (run (start engine now) events).channel = []
  /-- Once the last handle is gone, the loop returns. -/
  returns : (run (start engine now) events).accepting = false →
    ∀ polls : List (Poll R), owed (run (start engine now) events) < polls.length →
      (run (run (start engine now) events) (polls.map Event.iterate)).returned = true
  /-- Under serializable isolation nothing runs between a session's `BEGIN` and the end of its
  transaction but the session's own jobs. -/
  excludes : (∀ p, Event.iterate p ∈ events → p.serializable = true) →
    ∀ before p later, events = before ++ Event.iterate p :: later →
      Excludes (run (start engine now) before) (iterate p (run (start engine now) before))
  /-- Under snapshot isolation each session's jobs run in the order they arrived. -/
  snapshot : (∀ p, Event.iterate p ∈ events → p.serializable = false) →
    InOrder (run (start engine now) events)
  /-- Under either they do so unless a job overtakes an earlier one that was set aside. -/
  ordered : Undisturbed (start engine now) events → InOrder (run (start engine now) events)
  /-- When all jobs have run, their order tells whether one did. -/
  ordered_iff : (run (start engine now) events).returned = true →
    AllRan (run (start engine now) events) →
      (InOrder (run (start engine now) events) ↔ Undisturbed (start engine now) events)

omit [Append R] in
theorem tracked_start {engine : Engine R} (htxn : engine.txn = none)
    (hparked : ∀ session, engine.parked session = none) (now : Nat) :
  Tracked (start engine now) ∧ Exclusive engine
  := by
  have hclosed : ∀ session, engine.hasTransaction session = false := by
    intro session
    simp [Engine.hasTransaction, Engine.transactionHolder, htxn, hparked]
  refine ⟨⟨⟨?_, ?_⟩, ?_, ?_⟩, ?_⟩
  · intro s t work hs
    change engine.parked s = _ at hs
    rw [hparked] at hs
    cases hs
  · intro t ht
    change engine.txn = _ at ht
    rw [htxn] at ht
    cases ht
  · intro session hopen
    change engine.hasTransaction session = true at hopen
    rw [hclosed] at hopen
    cases hopen
  · intro job hjob
    cases hjob
  · intro s s' hs
    rw [hclosed] at hs
    cases hs

omit [Append R] in
theorem ordered_start (engine : Engine R) (now : Nat) :
  Ordered (start engine now)
  := fun _ => Pairwise.nil

/-- The runtime serves every run of events that starts without open transactions. -/
theorem run_served {engine : Engine R} (htxn : engine.txn = none)
    (hparked : ∀ session, engine.parked session = none) (now : Nat) (events : List (Event R)) :
  Served engine now events
  := by
  have haccounted := accounted_start engine now
  obtain ⟨htracked, hexclusive⟩ := tracked_start htxn hparked now
  have hfinal := haccounted.run events
  have hordered := (ordered_start engine now).run haccounted events
  refine ⟨hfinal.once, ?_, ?_, ?_, ?_, ?_, ?_⟩
  · intro hreturned
    obtain ⟨hgone, hdeferred⟩ := hfinal.ended hreturned
    exact ⟨hdeferred, (hfinal.shut hgone).2⟩
  · intro hclosed polls hlong
    exact run_returns (htracked.run events) hclosed polls hlong
  · intro hserializable before p later hevents
    have hbefore : ∀ q, Event.iterate q ∈ before → q.serializable = true := by
      intro q hq
      apply hserializable q
      rw [hevents]
      exact mem_append_left _ hq
    apply iterate_excludes (htracked.run before) (run_exclusive hexclusive htracked hbefore)
    apply hserializable p
    rw [hevents]
    exact mem_append_right _ mem_cons_self
  · intro hsnapshot
    exact (hordered (undisturbed_of_snapshot hsnapshot)).inOrder
  · intro hcalm
    exact (hordered hcalm).inOrder
  · intro hreturned hran
    constructor
    · intro horder
      exact undisturbed_of_inOrder haccounted hreturned hran horder
    · intro hcalm
      exact (hordered hcalm).inOrder

/-- An engine without tables. -/
def emptyEngine : Engine (List Nat) where
  registered :=
    { tables := ∅, storageTables := ∅, tableVersions := ∅, views := ∅, catalog := none
      dataEpoch := 0 }
  txn := none
  parked := fun _ => none
  committed := none
  currentSession := none

/-- A pass under serializable isolation in which nothing fails. -/
def serialPass : Event (List Nat) :=
  .iterate
    { now := 0, serializable := true, waitLimit := 30000000000, walk := [], scheduled := none
      cancelled := fun _ => false, activation := Faults.none, refresh := Faults.none }

/-- Session 2 sends `BEGIN`, a statement that creates a table, one that adds rows to it and
`COMMIT` without waiting for results, the first two while session 1 is in a transaction. -/
def pipelined : List (Event (List Nat)) :=
  [.submit (some 1) 0 [(.beginTransaction, Faults.none)],
   .submit (some 2) 0 [(.beginTransaction, Faults.none)],
   .submit (some 2) 0 [(.statement ⟨[.registerTable "t" [1]], none⟩, Faults.none)],
   .submit (some 1) 0 [(.commitTransaction, Faults.none)],
   .submit (some 2) 0 [(.statement ⟨[.registerBatch "t" [2]], none⟩, Faults.none)],
   .submit (some 2) 0 [(.commitTransaction, Faults.none)]] ++
  List.replicate 8 serialPass

/-- Session 2 sends a statement while session 1 is in a transaction, and another one later. -/
def patient : List (Event (List Nat)) :=
  [.submit (some 1) 0 [(.beginTransaction, Faults.none)],
   .submit (some 2) 0 [(.statement ⟨[.registerTable "t" [1]], none⟩, Faults.none)],
   .submit (some 1) 0 [(.statement ⟨[.registerTable "u" [1]], none⟩, Faults.none)],
   .submit (some 1) 0 [(.commitTransaction, Faults.none)],
   .submit (some 2) 0 [(.statement ⟨[.registerBatch "t" [2]], none⟩, Faults.none)],
   .close] ++
  List.replicate 8 serialPass

/-- The statement that has to wait still runs before the later one, and the loop returns. -/
theorem patient_served :
  Undisturbed (start emptyEngine 0) patient ∧
    (run (start emptyEngine 0) (patient.take 8)).deferred.map Job.id = [1] ∧
    (run (start emptyEngine 0) patient).returned = true ∧
    (ranJobs (run (start emptyEngine 0) patient)).map Job.id = [0, 2, 3, 1, 4] ∧
    InOrder (run (start emptyEngine 0) patient)
  := by
  have hcalm : Undisturbed (start emptyEngine 0) patient := by decide +kernel
  refine ⟨hcalm, by decide +kernel, by decide +kernel, by decide +kernel, ?_⟩
  exact (run_served rfl (fun _ => rfl) 0 patient).ordered hcalm

/-- The statement that creates the table runs last, outside the transaction. -/
theorem pipelined_not_inOrder :
  places (some 2) (ranJobs (run (start emptyEngine 0) pipelined)) = [1, 4, 5, 2] ∧
    ¬ InOrder (run (start emptyEngine 0) pipelined)
  := by
  have hplaces :
      places (some 2) (ranJobs (run (start emptyEngine 0) pipelined)) = [1, 4, 5, 2] := by
    decide +kernel
  refine ⟨hplaces, ?_⟩
  intro horder
  have hsession := horder (some 2)
  rw [hplaces] at hsession
  revert hsession
  decide

end CratonBolt.Runtime
