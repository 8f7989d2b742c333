import CratonBolt.Sessions.Runtime
import Mathlib.Data.List.Perm.Lattice
import Mathlib.Data.List.Pairwise

/-!
# The jobs of the runtime loop

What one pass of the loop does with the queues, said once in `Moves`. Every job that was submitted
is in the history or waits, and is so once. The jobs of a session run in the order they arrived as
long as no job of the session is taken from the channel while an earlier one is set aside.
-/

namespace CratonBolt.Runtime

open List

variable {R : Type} {p : Poll R} {st st' : State R} {owner : Option (Option Nat)}
variable {entries : List (Entry R)}

/-! ### What a pass does with the queues -/

/-- The job an entry says has run. -/
def Entry.ran? : Entry R → Option (Job R)
  | ran job => some job
  | _ => none

/-- The jobs set aside that still wait after the late ones are failed. -/
def waiting (p : Poll R) (st : State R) : List (Job R) :=
  st.deferred.filter (fun job => !expired p job)

/-- The jobs set aside that waited too long. -/
def late (p : Poll R) (st : State R) : List (Job R) := st.deferred.filter (expired p)

theorem late_append_waiting_perm (p : Poll R) (st : State R) :
  (late p st ++ waiting p st).Perm st.deferred
  := filter_append_perm (expired p) st.deferred

/--
What a pass that adds `entries` to the history does with the queues, where `owner` holds a
transaction.
-/
inductive Moves (p : Poll R) (owner : Option (Option Nat)) (st st' : State R)
    (entries : List (Entry R)) : Prop
  /-- The loop has lost its channel or returned; no job is touched. -/
  | rest (stopped : st.returned = true ∨ st.connected = false)
      (jobs : entries.filterMap Entry.job? = [])
      (deferred : st'.deferred = st.deferred) (channel : st'.channel = st.channel)
  /-- The oldest job set aside is taken up. -/
  | resume (job : Job R) (free : owner = none) (deferred : st.deferred = job :: st'.deferred)
      (channel : st'.channel = st.channel) (jobs : entries.filterMap Entry.job? = [job])
  /-- The next job of the channel is taken at once. -/
  | take (job : Job R) (may : mayRun owner job = true) (free : owner = none → st.deferred = [])
      (channel : st.channel = job :: st'.channel) (deferred : st'.deferred = waiting p st)
      (jobs : entries.filterMap Entry.job? = late p st ++ [job])
      (ran : (entries.filterMap Entry.ran?).Sublist [job])
  /-- The next job of the channel is set aside. -/
  | setAside (job : Job R) (may : mayRun owner job = false)
      (channel : st.channel = job :: st'.channel) (deferred : st'.deferred = waiting p st ++ [job])
      (jobs : entries.filterMap Entry.job? = late p st)
      (ran : entries.filterMap Entry.ran? = [])
  /-- The channel is empty. -/
  | idle (empty : st.channel = []) (channel : st'.channel = st.channel)
      (deferred : st'.deferred = waiting p st) (jobs : entries.filterMap Entry.job? = late p st)
      (ran : entries.filterMap Entry.ran? = [])

theorem refreshed_ne {entry : Entry R} {job : Job R} (h : entry.job? = some job) :
  .refreshed ≠ entry
  := by
  rintro rfl
  cases h

theorem ran?_sublist_job? (entries : List (Entry R)) :
  (entries.filterMap Entry.ran?).Sublist (entries.filterMap Entry.job?)
  := by
  induction entries with
  | nil => exact Sublist.refl _
  | cons entry entries ih =>
    cases entry with
    | ran job => exact ih.cons_cons job
    | failed job err => exact ih.cons job
    | dropped job => exact ih.cons job
    | refreshed => exact ih

/-- Jobs that waited too long are failed, and none of them runs. -/
theorem filterMap_failed (jobs : List (Job R)) (err : BoltError) :
  ((jobs.map (fun job => Entry.failed job err)).filterMap Entry.job? = jobs) ∧
    (jobs.map (fun job => Entry.failed job err)).filterMap Entry.ran? = []
  := by
  induction jobs with
  | nil => exact ⟨rfl, rfl⟩
  | cons job jobs ih => simp [Entry.job?, Entry.ran?, ih.1]

theorem ran?_eq_nil_of_job?_eq_nil (h : entries.filterMap Entry.job? = []) :
  entries.filterMap Entry.ran? = []
  := by
  have hsub := ran?_sublist_job? entries
  rw [h] at hsub
  exact eq_nil_of_sublist_nil hsub

/-- Entries about no job may stand before. -/
theorem Moves.after {e : Engine R} {tick : Nat} {before entries trace : List (Entry R)}
    (h : Moves p owner { st with engine := e, lastTick := tick, trace := trace } st' entries)
    (hbefore : before.filterMap Entry.job? = []) :
  Moves p owner st st' (before ++ entries)
  := by
  have hran := ran?_eq_nil_of_job?_eq_nil hbefore
  have hjobs : (before ++ entries).filterMap Entry.job? = entries.filterMap Entry.job? := by
    rw [filterMap_append, hbefore, nil_append]
  have hruns : (before ++ entries).filterMap Entry.ran? = entries.filterMap Entry.ran? := by
    rw [filterMap_append, hran, nil_append]
  cases h with
  | rest stopped jobs deferred channel =>
    exact Moves.rest stopped (hjobs.trans jobs) deferred channel
  | resume job free deferred channel jobs =>
    exact Moves.resume job free deferred channel (hjobs.trans jobs)
  | take job may free channel deferred jobs ran =>
    exact Moves.take job may free channel deferred (hjobs.trans jobs) (hruns ▸ ran)
  | setAside job may channel deferred jobs ran =>
    exact Moves.setAside job may channel deferred (hjobs.trans jobs) (hruns.trans ran)
  | idle empty channel deferred jobs ran =>
    exact Moves.idle empty channel deferred (hjobs.trans jobs) (hruns.trans ran)

variable [Append R]

section

variable (p : Poll R)

theorem runJob_spec (job : Job R) (st : State R) :
  ∃ e entry, runJob p job st = { st with engine := e, trace := st.trace ++ [entry] } ∧
    entry.job? = some job
  := by
  unfold runJob
  split
  · exact ⟨_, _, rfl, rfl⟩
  · split
    · exact ⟨_, _, rfl, rfl⟩
    · exact ⟨_, _, rfl, rfl⟩

theorem refreshViews_spec (st : State R) :
  ∃ e tick entries,
    refreshViews p st = { st with engine := e, lastTick := tick, trace := st.trace ++ entries } ∧
      entries.filterMap Entry.job? = []
  := by
  unfold refreshViews
  split
  · refine ⟨st.engine, st.lastTick, [], ?_, rfl⟩
    rw [append_nil]
  · exact ⟨_, _, [.refreshed], rfl, rfl⟩

variable (owner : Option (Option Nat)) (st : State R)

/-- Reading the channel: the next job is run or set aside. -/
theorem receive_spec :
  (∃ job entry, mayRun owner job = true ∧ st.channel = job :: (receive p owner st).channel ∧
      (receive p owner st).deferred = st.deferred ∧
      (receive p owner st).trace = st.trace ++ [entry] ∧ entry.job? = some job) ∨
    (∃ job, mayRun owner job = false ∧ st.channel = job :: (receive p owner st).channel ∧
      (receive p owner st).deferred = st.deferred ++ [job] ∧
      (receive p owner st).trace = st.trace) ∨
    (st.channel = [] ∧ (receive p owner st).channel = st.channel ∧
      (receive p owner st).deferred = st.deferred ∧ (receive p owner st).trace = st.trace)
  := by
  unfold receive
  cases hchannel : st.channel with
  | nil =>
    refine Or.inr (Or.inr ?_)
    dsimp only
    split
    · exact ⟨rfl, hchannel, rfl, rfl⟩
    · exact ⟨rfl, rfl, rfl, rfl⟩
  | cons job rest =>
    cases hmay : mayRun owner job with
    | true =>
      obtain ⟨e, entry, hrun, hentry⟩ := runJob_spec p job { st with channel := rest }
      refine Or.inl ⟨job, entry, hmay, ?_⟩
      simp only [hmay, if_true, hrun]
      exact ⟨trivial, trivial, trivial, hentry⟩
    | false =>
      refine Or.inr (Or.inl ⟨job, hmay, ?_⟩)
      simp only [hmay, Bool.false_eq_true, if_false]
      exact ⟨trivial, trivial, trivial⟩

theorem receive_moves (hfree : owner = none → st.deferred = []) :
  ∃ entries, (receive p owner (failExpired p st)).trace = st.trace ++ entries ∧
    Moves p owner st (receive p owner (failExpired p st)) entries ∧ .refreshed ∉ entries
  := by
  obtain ⟨hfailed, hunran⟩ := filterMap_failed (late p st) (timedOut p.waitLimit)
  let failures : List (Entry R) := (late p st).map (fun job => .failed job (timedOut p.waitLimit))
  have hjobs : .refreshed ∉ failures := by simp [failures]
  obtain ⟨job, entry, hmay, hchannel, hdeferred, htrace, hentry⟩ |
      ⟨job, hmay, hchannel, hdeferred, htrace⟩ | ⟨hempty, hchannel, hdeferred, htrace⟩ :=
    receive_spec p owner (failExpired p st)
  · refine ⟨failures ++ [entry], ?_, .take job hmay hfree hchannel hdeferred ?_ ?_, ?_⟩
    · rw [htrace]
      exact append_assoc ..
    · rw [filterMap_append, hfailed, filterMap_cons_some hentry, filterMap_nil]
    · rw [filterMap_append, hunran, nil_append]
      have hsub := ran?_sublist_job? [entry]
      rw [filterMap_cons_some hentry, filterMap_nil] at hsub
      exact hsub
    · rw [mem_append, mem_singleton, not_or]
      exact ⟨hjobs, refreshed_ne hentry⟩
  · exact ⟨failures, htrace, .setAside job hmay hchannel hdeferred hfailed hunran, hjobs⟩
  · exact ⟨failures, htrace, .idle hempty hchannel hdeferred hfailed hunran, hjobs⟩

omit [Append R] in
theorem wind_spec :
  (wind p st).trace = st.trace ∧ (wind p st).deferred = st.deferred ∧
    (wind p st).channel = st.channel
  := by
  unfold wind
  split
  · exact ⟨rfl, rfl, rfl⟩
  · exact ⟨rfl, rfl, rfl⟩

/-- A pass takes up a job set aside when no transaction is open; otherwise it reads the channel or,
when there is none left to read, winds up. -/
theorem serve_cases :
  (∃ job rest, owner = none ∧ st.deferred = job :: rest ∧
      serve p owner st = runJob p job { st with deferred := rest }) ∨
    ((owner = none → st.deferred = []) ∧ st.connected = true ∧
      serve p owner st = receive p owner (failExpired p st)) ∨
    ((owner = none → st.deferred = []) ∧ st.connected = false ∧ serve p owner st = wind p st)
  := by
  unfold serve
  cases owner with
  | none =>
    cases hdeferred : st.deferred with
    | cons job rest => exact Or.inl ⟨job, rest, rfl, rfl, rfl⟩
    | nil =>
      cases hconnected : st.connected with
      | true => exact Or.inr (Or.inl ⟨fun _ => rfl, rfl, rfl⟩)
      | false => exact Or.inr (Or.inr ⟨fun _ => rfl, rfl, rfl⟩)
  | some session =>
    have hheld : some session = none → st.deferred = [] := by
      intro hfalse
      cases hfalse
    cases hconnected : st.connected with
    | true => exact Or.inr (Or.inl ⟨hheld, rfl, rfl⟩)
    | false => exact Or.inr (Or.inr ⟨hheld, rfl, rfl⟩)

theorem serve_moves :
  ∃ entries, (serve p owner st).trace = st.trace ++ entries ∧
    Moves p owner st (serve p owner st) entries ∧ .refreshed ∉ entries
  := by
  obtain ⟨job, rest, hfree, hdeferred, hserve⟩ | ⟨hfree, -, hserve⟩ | ⟨-, hconnected, hserve⟩ :=
    serve_cases p owner st
  · obtain ⟨e, entry, hrun, hentry⟩ := runJob_spec p job { st with deferred := rest }
    rw [hserve, hrun]
    refine ⟨[entry], rfl, .resume job hfree hdeferred rfl ?_, ?_⟩
    · rw [filterMap_cons_some hentry, filterMap_nil]
    · rw [mem_singleton]
      exact refreshed_ne hentry
  · rw [hserve]
    exact receive_moves p owner st hfree
  · rw [hserve]
    obtain ⟨htrace, hdeferred, hchannel⟩ := wind_spec p st
    refine ⟨[], ?_, .rest (Or.inr hconnected) rfl hdeferred hchannel, not_mem_nil⟩
    rw [htrace, append_nil]

end

/-- Views are refreshed only while no transaction has to be waited for. -/
theorem refreshViews_of_holder (hheld : holder p st ≠ none) :
  refreshViews p st = st
  := by
  have hticks : ticks p st = none := by
    unfold ticks
    cases howner : holder p st with
    | none => exact absurd howner hheld
    | some owner => rfl
  rw [refreshViews, hticks]

/-- The queues after a pass. -/
theorem iterate_moves (p : Poll R) (st : State R) :
  ∃ entries, (iterate p st).trace = st.trace ++ entries ∧
    Moves p (holder p st) st (iterate p st) entries ∧
    (.refreshed ∈ entries → holder p st = none)
  := by
  unfold iterate
  split
  · rename_i hreturned
    refine ⟨[], (append_nil _).symm, .rest (Or.inl hreturned) rfl rfl rfl, ?_⟩
    intro hmem
    cases hmem
  · obtain ⟨entries, htrace, hmoves, hrefreshed⟩ := serve_moves p (holder p st) (refreshViews p st)
    by_cases hheld : holder p st = none
    · obtain ⟨e, tick, before, hrefresh, hbefore⟩ := refreshViews_spec p st
      refine ⟨before ++ entries, ?_, ?_, fun _ => hheld⟩
      · rw [htrace, hrefresh, append_assoc]
      · rw [hrefresh] at hmoves ⊢
        exact hmoves.after hbefore
    · rw [refreshViews_of_holder hheld] at htrace hmoves ⊢
      exact ⟨entries, htrace, hmoves, fun hmem => absurd hmem hrefreshed⟩

/-! ### Every job once -/

/-- The jobs in the history, then those that wait. -/
def jobs (st : State R) : List (Job R) :=
  st.trace.filterMap Entry.job? ++ (st.deferred ++ st.channel)

omit [Append R] in
theorem Moves.jobs_perm (h : Moves p owner st st' entries)
    (htrace : st'.trace = st.trace ++ entries) :
  (jobs st').Perm (jobs st)
  := by
  unfold jobs
  rw [htrace, filterMap_append, append_assoc]
  apply Perm.append_left
  have hsplit := late_append_waiting_perm p st
  cases h with
  | rest hstopped hjobs hdeferred hchannel => rw [hjobs, hdeferred, hchannel, nil_append]
  | resume job hfree hdeferred hchannel hjobs => rw [hjobs, hdeferred, hchannel]; rfl
  | take job hmay hfree hchannel hdeferred hjobs hran =>
    rw [hjobs, hdeferred, hchannel, append_assoc]
    calc late p st ++ ([job] ++ (waiting p st ++ st'.channel))
      _ |>.Perm (late p st ++ (waiting p st ++ ([job] ++ st'.channel))) := by
          apply Perm.append_left
          exact perm_append_comm_assoc ..
      _ |>.Perm (st.deferred ++ job :: st'.channel) := by
          rw [← append_assoc]
          exact hsplit.append_right _
  | setAside job hmay hchannel hdeferred hjobs hran =>
    rw [hjobs, hdeferred, hchannel, append_assoc, ← append_assoc]
    exact hsplit.append_right _
  | idle hempty hchannel hdeferred hjobs hran =>
    rw [hjobs, hdeferred, hchannel, ← append_assoc]
    exact hsplit.append_right _

/-! ### What a pass leaves alone -/

section

variable (p : Poll R)

@[simp]
theorem runJob_keeps (job : Job R) (st : State R) :
  (runJob p job st).deferred = st.deferred ∧ (runJob p job st).channel = st.channel ∧
    (runJob p job st).connected = st.connected ∧ (runJob p job st).accepting = st.accepting ∧
    (runJob p job st).returned = st.returned ∧ (runJob p job st).submitted = st.submitted ∧
    (runJob p job st).sessions = st.sessions
  := by
  obtain ⟨e, entry, hrun, -⟩ := runJob_spec p job st
  rw [hrun]
  exact ⟨rfl, rfl, rfl, rfl, rfl, rfl, rfl⟩

@[simp]
theorem refreshViews_keeps (st : State R) :
  (refreshViews p st).deferred = st.deferred ∧ (refreshViews p st).channel = st.channel ∧
    (refreshViews p st).connected = st.connected ∧
    (refreshViews p st).accepting = st.accepting ∧ (refreshViews p st).returned = st.returned ∧
    (refreshViews p st).submitted = st.submitted ∧ (refreshViews p st).sessions = st.sessions
  := by
  obtain ⟨e, tick, before, hrefresh, -⟩ := refreshViews_spec p st
  rw [hrefresh]
  exact ⟨rfl, rfl, rfl, rfl, rfl, rfl, rfl⟩

/-- What a pass does not touch. -/
structure Kept (st st' : State R) : Prop where
  submitted : st'.submitted = st.submitted
  sessions : st'.sessions = st.sessions
  accepting : st'.accepting = st.accepting

theorem receive_kept (owner : Option (Option Nat)) (st : State R) :
  Kept st (receive p owner st)
  := by
  unfold receive
  split
  · split
    · exact ⟨by simp, by simp, by simp⟩
    · exact ⟨rfl, rfl, rfl⟩
  · split
    · exact ⟨rfl, rfl, rfl⟩
    · exact ⟨rfl, rfl, rfl⟩

omit [Append R] in
theorem wind_kept (st : State R) :
  Kept st (wind p st)
  := by
  unfold wind
  split
  · exact ⟨rfl, rfl, rfl⟩
  · exact ⟨rfl, rfl, rfl⟩

theorem serve_kept (owner : Option (Option Nat)) (st : State R) :
  Kept st (serve p owner st)
  := by
  obtain ⟨job, rest, -, -, hserve⟩ | ⟨-, -, hserve⟩ | ⟨-, -, hserve⟩ := serve_cases p owner st
  · rw [hserve]
    exact ⟨by simp, by simp, by simp⟩
  · rw [hserve]
    obtain ⟨hsubmitted, hsessions, haccepting⟩ := receive_kept p owner (failExpired p st)
    exact ⟨hsubmitted, hsessions, haccepting⟩
  · rw [hserve]
    exact wind_kept p st

theorem iterate_kept (st : State R) :
  Kept st (iterate p st)
  := by
  unfold iterate
  split
  · exact ⟨rfl, rfl, rfl⟩
  · obtain ⟨hsubmitted, hsessions, haccepting⟩ := serve_kept p (holder p st) (refreshViews p st)
    exact ⟨by simp [hsubmitted], by simp [hsessions], by simp [haccepting]⟩

end

/-- Every job that was submitted is in the history or waits, once; those that wait do so in the
order they arrived. When the last handle is gone and the channel read, no job comes any more. -/
structure Accounted (st : State R) : Prop where
  once : ((jobs st).map Job.id).Perm (List.range st.submitted)
  waits : ((st.deferred ++ st.channel).map Job.id).Pairwise (· < ·)
  shut : st.connected = false → st.accepting = false ∧ st.channel = []
  ended : st.returned = true → st.connected = false ∧ st.deferred = []

omit [Append R] in
theorem Accounted.id_lt (h : Accounted st) {job : Job R} (hjob : job ∈ jobs st) :
  job.id < st.submitted
  := by
  rw [← mem_range, ← h.once.mem_iff]
  exact mem_map_of_mem hjob

omit [Append R] in
/-- The jobs that wait after a pass waited before. -/
theorem Moves.waits (h : Moves p owner st st' entries) :
  (st'.deferred ++ st'.channel).Sublist (st.deferred ++ st.channel)
  := by
  have hsub : (waiting p st).Sublist st.deferred := filter_sublist
  cases h with
  | rest hstopped hjobs hdeferred hchannel => rw [hdeferred, hchannel]
  | resume job hfree hdeferred hchannel hjobs =>
    rw [hdeferred, hchannel]
    exact sublist_cons_self ..
  | take job hmay hfree hchannel hdeferred hjobs hran =>
    rw [hdeferred, hchannel]
    exact hsub.append (sublist_cons_self ..)
  | setAside job hmay hchannel hdeferred hjobs hran =>
    rw [hdeferred, hchannel, append_assoc]
    exact hsub.append (Sublist.refl _)
  | idle hempty hchannel hdeferred hjobs hran =>
    rw [hdeferred, hchannel]
    exact hsub.append (Sublist.refl _)

/-- The loop notices that the handles are gone when the channel is empty. -/
theorem receive_shut (p : Poll R) (owner : Option (Option Nat)) (st : State R) :
  (receive p owner st).returned = st.returned ∧
    ((receive p owner st).connected = st.connected ∨
      st.accepting = false ∧ (receive p owner st).channel = [])
  := by
  unfold receive
  cases hchannel : st.channel with
  | nil =>
    dsimp only
    cases haccepting : st.accepting with
    | true => exact ⟨rfl, Or.inl rfl⟩
    | false => exact ⟨rfl, Or.inr ⟨rfl, rfl⟩⟩
  | cons job rest =>
    dsimp only
    split
    · exact ⟨by simp, Or.inl (by simp)⟩
    · exact ⟨rfl, Or.inl rfl⟩

theorem serve_shut (p : Poll R) (owner : Option (Option Nat))
    (h : st.connected = false → st.accepting = false ∧ st.channel = []) :
  (serve p owner st).connected = false → st.accepting = false ∧ (serve p owner st).channel = []
  := by
  obtain ⟨job, rest, -, -, hserve⟩ | ⟨-, hconnected, hserve⟩ | ⟨-, hconnected, hserve⟩ :=
    serve_cases p owner st
  · rw [hserve]
    simpa using h
  · rw [hserve]
    intro hgone
    obtain hstays | hshut := (receive_shut p owner (failExpired p st)).2
    · rw [hstays, show (failExpired p st).connected = st.connected from rfl, hconnected] at hgone
      cases hgone
    · exact hshut
  · rw [hserve, (wind_spec p st).2.2]
    exact fun _ => h hconnected

/-- The loop returns when no job and no transaction is left. -/
theorem serve_ended (p : Poll R) (hreturned : st.returned = false)
    (howner : owner ≠ none → (transactionSessions p.walk st).head? ≠ none) :
  (serve p owner st).returned = true →
    (serve p owner st).connected = false ∧ (serve p owner st).deferred = []
  := by
  obtain ⟨job, rest, -, -, hserve⟩ | ⟨-, -, hserve⟩ | ⟨hfree, hconnected, hserve⟩ :=
    serve_cases p owner st
  · rw [hserve]
    simp [hreturned]
  · rw [hserve, (receive_shut p owner (failExpired p st)).1,
      show (failExpired p st).returned = st.returned from rfl, hreturned]
    intro hfalse
    cases hfalse
  · rw [hserve]
    unfold wind
    split
    · rw [hreturned]
      intro hfalse
      cases hfalse
    · rename_i hnone
      refine fun _ => ⟨hconnected, hfree ?_⟩
      by_contra hheld
      exact howner hheld hnone

theorem Accounted.iterate (h : Accounted st) (p : Poll R) :
  Accounted (iterate p st)
  := by
  obtain ⟨entries, htrace, hmoves, -⟩ := iterate_moves p st
  have hkept := iterate_kept p st
  refine ⟨?_, ?_, ?_, ?_⟩
  · rw [hkept.submitted]
    exact ((hmoves.jobs_perm htrace).map Job.id).trans h.once
  · exact h.waits.sublist (hmoves.waits.map Job.id)
  · rw [hkept.accepting]
    unfold Runtime.iterate
    split
    · exact h.shut
    · have hbefore : (refreshViews p st).connected = false →
          (refreshViews p st).accepting = false ∧ (refreshViews p st).channel = [] := by
        simpa using h.shut
      simpa using serve_shut p (holder p st) hbefore
  · unfold Runtime.iterate
    split
    · exact h.ended
    · rename_i hreturned
      apply serve_ended p (by simpa using hreturned)
      intro hheld
      rw [refreshViews_of_holder hheld]
      unfold holder at hheld
      split at hheld
      · exact hheld
      · exact absurd rfl hheld

omit [Append R] in
theorem Accounted.submit (h : Accounted st) (session : Option Nat) (queued : Nat)
    (actions : List (Action R × Faults)) :
  Accounted (submit session queued actions st)
  := by
  have hids : ∀ l : List (Job R), (∀ job ∈ l, job ∈ jobs st) →
      ∀ id ∈ l.map Job.id, id < st.submitted := by
    intro l hl id hid
    obtain ⟨job, hjob, rfl⟩ := mem_map.mp hid
    exact h.id_lt (hl job hjob)
  unfold Runtime.submit
  cases haccepting : st.accepting with
  | true =>
    refine ⟨?_, ?_, ?_, h.ended⟩
    · simp only [jobs, if_true, ← append_assoc, map_append, map_cons, map_nil,
        range_succ]
      have honce := h.once
      simp only [jobs, ← append_assoc, map_append] at honce
      exact honce.append_right _
    · simp only [if_true, ← append_assoc, map_append, map_cons, map_nil]
      have hwaits := h.waits
      rw [map_append] at hwaits
      apply pairwise_append.mpr ⟨hwaits, pairwise_singleton .., ?_⟩
      intro id hid id' hid'
      rw [mem_singleton] at hid'
      rw [hid']
      apply hids (st.deferred ++ st.channel)
      · intro job hjob
        exact mem_append_right _ hjob
      · rw [map_append]
        exact hid
    · intro hgone
      have hshut := (h.shut hgone).1
      rw [haccepting] at hshut
      cases hshut
  | false =>
    refine ⟨?_, h.waits, ?_, h.ended⟩
    · simp only [jobs, Bool.false_eq_true, if_false, filterMap_append, map_append,
        range_succ]
      have honce := h.once
      simp only [jobs, map_append] at honce
      apply Perm.trans _ (honce.append_right _)
      rw [append_assoc, append_assoc]
      exact Perm.append_left _ perm_append_comm
    · intro hgone
      exact ⟨rfl, (h.shut hgone).2⟩

theorem Accounted.step (h : Accounted st) (event : Event R) :
  Accounted (step st event)
  := by
  cases event with
  | submit session queued actions => exact h.submit session queued actions
  | close => exact ⟨h.once, h.waits, fun hgone => ⟨rfl, (h.shut hgone).2⟩, h.ended⟩
  | iterate p => exact h.iterate p

omit [Append R] in
theorem accounted_start (engine : Engine R) (now : Nat) :
  Accounted (start engine now)
  := by
  refine ⟨Perm.refl _, Pairwise.nil, ?_, ?_⟩
  · intro hgone
    cases hgone
  · intro hreturned
    cases hreturned

theorem Accounted.run (h : Accounted st) (events : List (Event R)) :
  Accounted (run st events)
  := by
  induction events generalizing st with
  | nil => exact h
  | cons event events ih => exact ih (h.step event)

end CratonBolt.Runtime
