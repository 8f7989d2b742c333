import CratonBolt.Sessions.Queues

/-!
# The order of a session's jobs

A session's jobs run in the order they arrived as long as none of them is taken from the channel
while an earlier one is set aside.
-/

namespace CratonBolt.Runtime

open List

variable {R : Type} {p : Poll R} {st st' : State R} {events : List (Event R)}

/-- The jobs that ran, in the order they did. -/
def ranJobs (st : State R) : List (Job R) := st.trace.filterMap Entry.ran?

/-- The places, among all jobs submitted, of a session's jobs. -/
def places (session : Option Nat) (l : List (Job R)) : List Nat :=
  (l.filter (fun job => job.session = session)).map Job.id

/-- The jobs of each session ran in the order they arrived. -/
def InOrder (st : State R) : Prop :=
  ∀ session, (places session (ranJobs st)).Pairwise (· < ·)

/-- The next job of the channel belongs to the session that holds the transaction, and an earlier
job of that session still waits. -/
def Overtakes (p : Poll R) (st : State R) : Prop :=
  ∃ job rest, st.channel = job :: rest ∧ holder p st = some job.session ∧
    ∃ earlier ∈ waiting p st, earlier.session = job.session

instance (p : Poll R) (st : State R) : Decidable (Overtakes p st) :=
  match hchannel : st.channel with
  | [] => isFalse (by
      rintro ⟨job, rest, h, -⟩
      rw [hchannel] at h
      cases h)
  | job :: rest =>
    decidable_of_iff
      (holder p st = some job.session ∧ ∃ earlier ∈ waiting p st, earlier.session = job.session)
      (by simp [Overtakes, hchannel])

theorem places_append (session : Option Nat) (l l' : List (Job R)) :
  places session (l ++ l') = places session l ++ places session l'
  := by
  rw [places, filter_append, map_append]
  rfl

theorem places_sublist (session : Option Nat) {l l' : List (Job R)} (h : l.Sublist l') :
  (places session l).Sublist (places session l')
  := (h.filter _).map _

theorem places_singleton_of_ne {session : Option Nat} {job : Job R} (h : job.session ≠ session) :
  places session [job] = []
  := by
  simp [places, h]

/-- The jobs of the session that ran, then those that wait, in the order they arrived. -/
def Ordered (st : State R) : Prop :=
  ∀ session, (places session (ranJobs st ++ (st.deferred ++ st.channel))).Pairwise (· < ·)

theorem Ordered.inOrder (h : Ordered st) :
  InOrder st
  := by
  intro session
  exact (h session).sublist (places_sublist session (sublist_append_left ..))

variable [Append R]

omit [Append R] in
/-- What a session's jobs look like after a pass is part of what they looked like before. -/
theorem Moves.places_sublist {entries : List (Entry R)} (h : Moves p (holder p st) st st' entries)
    (htrace : st'.trace = st.trace ++ entries) (hcalm : ¬ Overtakes p st) (session : Option Nat) :
  (places session (ranJobs st' ++ (st'.deferred ++ st'.channel))).Sublist
    (places session (ranJobs st ++ (st.deferred ++ st.channel)))
  := by
  have hran : ranJobs st' = ranJobs st ++ entries.filterMap Entry.ran? := by
    rw [ranJobs, htrace, filterMap_append]
    rfl
  rw [hran, append_assoc, places_append, places_append session (ranJobs st)]
  apply Sublist.append_left
  have hsub : (waiting p st).Sublist st.deferred := filter_sublist
  cases h with
  | rest hstopped hjobs hdeferred hchannel =>
    rw [hdeferred, hchannel, ran?_eq_nil_of_job?_eq_nil hjobs, nil_append]
  | resume job hfree hdeferred hchannel hjobs =>
    rw [hdeferred, hchannel]
    apply Runtime.places_sublist
    have hsub' := ran?_sublist_job? entries
    rw [hjobs] at hsub'
    exact hsub'.append_right _
  | take job hmay hfree hchannel hdeferred hjobs hran =>
    rw [hdeferred, hchannel]
    by_cases hsession : job.session = session
    · -- nothing of the session waits, so the job is the next one
      have hnone : places session (waiting p st) = [] := by
        rw [places, map_eq_nil_iff, filter_eq_nil_iff]
        intro earlier hearlier hsame
        rw [decide_eq_true_eq] at hsame
        cases howner : holder p st with
        | none =>
          rw [waiting, hfree howner] at hearlier
          cases hearlier
        | some owner =>
          rw [howner, mayRun, beq_iff_eq] at hmay
          exact hcalm ⟨job, st'.channel, hchannel, hmay ▸ howner, earlier, hearlier,
            hsame.trans hsession.symm⟩
      rw [places_append, places_append, hnone, nil_append, ← places_append]
      apply Runtime.places_sublist
      calc entries.filterMap Entry.ran? ++ st'.channel
        _ |>.Sublist ([job] ++ st'.channel) := hran.append_right _
        _ |>.Sublist (st.deferred ++ job :: st'.channel) := sublist_append_right ..
    · have hnone : places session (entries.filterMap Entry.ran?) = [] := by
        have hsub' := Runtime.places_sublist session hran
        rw [places_singleton_of_ne hsession] at hsub'
        exact eq_nil_of_sublist_nil hsub'
      rw [places_append, hnone, nil_append]
      apply Runtime.places_sublist
      exact hsub.append (sublist_cons_self ..)
  | setAside job hmay hchannel hdeferred hjobs hran =>
    rw [hran, hdeferred, hchannel, nil_append, append_assoc]
    apply Runtime.places_sublist
    exact hsub.append (Sublist.refl _)
  | idle hempty hchannel hdeferred hjobs hran =>
    rw [hran, hdeferred, hchannel, nil_append]
    apply Runtime.places_sublist
    exact hsub.append (Sublist.refl _)

theorem Ordered.iterate (h : Ordered st) (hcalm : ¬ Overtakes p st) :
  Ordered (iterate p st)
  := by
  obtain ⟨entries, htrace, hmoves, -⟩ := iterate_moves p st
  intro session
  exact (h session).sublist (hmoves.places_sublist htrace hcalm session)

omit [Append R] in
theorem Ordered.submit (h : Ordered st) (ha : Accounted st) (session : Option Nat) (queued : Nat)
    (actions : List (Action R × Faults)) :
  Ordered (submit session queued actions st)
  := by
  intro s
  cases haccepting : st.accepting with
  | false =>
    simp only [Runtime.submit, haccepting, Bool.false_eq_true, if_false, ranJobs,
      filterMap_append, filterMap_cons, Entry.ran?, filterMap_nil, append_nil]
    exact h s
  | true =>
    simp only [Runtime.submit, haccepting, if_true, ranJobs, ← append_assoc]
    rw [places_append]
    have hs := h s
    rw [ranJobs, ← append_assoc] at hs
    apply pairwise_append.mpr ⟨hs, ?_, ?_⟩
    · exact Pairwise.sublist (filter_sublist.map _) (pairwise_singleton ..)
    · intro id hid id' hid'
      obtain ⟨job', hjob', rfl⟩ := mem_map.mp hid'
      obtain rfl := mem_singleton.mp (mem_of_mem_filter hjob')
      obtain ⟨job, hjob, rfl⟩ := mem_map.mp hid
      apply ha.id_lt
      have hsub :
          (st.trace.filterMap Entry.ran? ++ st.deferred ++ st.channel).Sublist (jobs st) := by
        rw [jobs, append_assoc]
        exact (ran?_sublist_job? st.trace).append_right _
      exact hsub.subset (mem_of_mem_filter hjob)

/-- No job overtakes an earlier one of its session during the run. -/
def Undisturbed (st : State R) : List (Event R) → Prop
  | [] => True
  | event :: events =>
    (∀ p, event = .iterate p → ¬ Overtakes p st) ∧ Undisturbed (step st event) events

instance decidableUndisturbed : (events : List (Event R)) → (st : State R) →
    Decidable (Undisturbed st events)
  | [], _ => isTrue trivial
  | event :: events, st =>
    have := decidableUndisturbed events (step st event)
    match event with
    | .iterate p => decidable_of_iff (¬ Overtakes p st ∧ Undisturbed (step st (.iterate p)) events)
        (by simp [Undisturbed])
    | .submit session queued actions =>
      decidable_of_iff (Undisturbed (step st (.submit session queued actions)) events)
        (by simp [Undisturbed])
    | .close => decidable_of_iff (Undisturbed (step st .close) events) (by simp [Undisturbed])

theorem Ordered.run (h : Ordered st) (ha : Accounted st) (events : List (Event R))
    (hcalm : Undisturbed st events) :
  Ordered (run st events)
  := by
  induction events generalizing st with
  | nil => exact h
  | cons event events ih =>
    obtain ⟨hstep, hrest⟩ := hcalm
    refine ih ?_ (ha.step event) hrest
    cases event with
    | submit session queued actions => exact h.submit ha session queued actions
    | close => exact h
    | iterate p => exact h.iterate (hstep p rfl)

/-! ### Overtaken jobs -/

theorem step_trace (st : State R) (event : Event R) :
  ∃ entries, (step st event).trace = st.trace ++ entries
  := by
  cases event with
  | submit session queued actions =>
    unfold step submit
    dsimp only
    split
    · exact ⟨[], (append_nil _).symm⟩
    · exact ⟨_, rfl⟩
  | close => exact ⟨[], (append_nil _).symm⟩
  | iterate p =>
    obtain ⟨entries, htrace, -⟩ := iterate_moves p st
    exact ⟨entries, htrace⟩

theorem run_trace (st : State R) (events : List (Event R)) :
  ∃ entries, (run st events).trace = st.trace ++ entries
  := by
  induction events generalizing st with
  | nil => exact ⟨[], (append_nil _).symm⟩
  | cons event events ih =>
    obtain ⟨before, hbefore⟩ := step_trace st event
    obtain ⟨after, hafter⟩ := ih (step st event)
    refine ⟨before ++ after, ?_⟩
    rw [← append_assoc, ← hbefore]
    exact hafter

/-- A pass in which a job overtakes takes that job and leaves the earlier one waiting. -/
theorem Overtakes.iterate (h : Overtakes p st) (ha : Accounted st) :
  ∃ job earlier, job ∈ (iterate p st).trace.filterMap Entry.job? ∧
    earlier ∈ (iterate p st).deferred ∧ earlier.session = job.session ∧ earlier.id < job.id
  := by
  obtain ⟨job, rest, hchannel, howner, earlier, hearlier, hsession⟩ := h
  have hid : earlier.id < job.id := by
    have hwaits := ha.waits
    rw [map_append, pairwise_append] at hwaits
    apply hwaits.2.2
    · exact mem_map_of_mem (mem_of_mem_filter hearlier)
    · rw [hchannel]
      exact mem_cons_self
  refine ⟨job, earlier, ?_⟩
  obtain ⟨entries, htrace, hmoves, -⟩ := iterate_moves p st
  rw [howner] at hmoves
  cases hmoves with
  | rest hstopped hjobs hdeferred hchannel' =>
    have hgone : st.connected = false := by
      obtain hreturned | hconnected := hstopped
      · exact (ha.ended hreturned).1
      · exact hconnected
    rw [(ha.shut hgone).2] at hchannel
    cases hchannel
  | resume job' hfree hdeferred hchannel' hjobs => cases hfree
  | take job' hmay hfree hchannel' hdeferred hjobs hran =>
    rw [hchannel] at hchannel'
    obtain ⟨rfl, -⟩ := List.cons.inj hchannel'
    refine ⟨?_, ?_, hsession, hid⟩
    · rw [htrace, filterMap_append, hjobs]
      exact mem_append_right _ (mem_append_right _ mem_cons_self)
    · rw [hdeferred]
      exact hearlier
  | setAside job' hmay hchannel' hdeferred hjobs hran =>
    rw [hchannel] at hchannel'
    obtain ⟨rfl, -⟩ := List.cons.inj hchannel'
    simp [mayRun] at hmay
  | idle hempty hchannel' hdeferred hjobs hran =>
    rw [hchannel] at hempty
    cases hempty

/-- Jobs are never lost. -/
theorem step_jobs (st : State R) (event : Event R) :
  jobs st ⊆ jobs (step st event)
  := by
  cases event with
  | submit session queued actions =>
    intro job hjob
    simp only [jobs, mem_append] at hjob ⊢
    unfold step submit
    cases st.accepting with
    | true =>
      simp only [if_true, mem_append]
      tauto
    | false =>
      simp only [Bool.false_eq_true, if_false, filterMap_append, mem_append]
      tauto
  | close => exact Subset.refl _
  | iterate p =>
    obtain ⟨entries, htrace, hmoves, -⟩ := iterate_moves p st
    exact (hmoves.jobs_perm htrace).symm.subset

theorem run_jobs (st : State R) (events : List (Event R)) :
  jobs st ⊆ jobs (run st events)
  := by
  induction events generalizing st with
  | nil => exact Subset.refl _
  | cons event events ih => exact Subset.trans (step_jobs st event) (ih (step st event))

/-- Every entry of the history is about a job that ran, or about no job. -/
def AllRan (st : State R) : Prop := ∀ entry ∈ st.trace, entry.job? = entry.ran?

omit [Append R] in
theorem AllRan.jobs_eq {entries : List (Entry R)} (h : ∀ entry ∈ entries, entry.job? = entry.ran?) :
  entries.filterMap Entry.job? = entries.filterMap Entry.ran?
  := filterMap_congr h

/-- Once a job has overtaken an earlier one of its session that runs later, the order is lost. -/
theorem not_inOrder_of_overtaken (ha : Accounted st) {job earlier : Job R}
    (hjob : job ∈ st.trace.filterMap Entry.job?) (hearlier : earlier ∈ st.deferred)
    (hsession : earlier.session = job.session) (hid : earlier.id < job.id)
    (hreturned : (run st events).returned = true) (hran : AllRan (run st events)) :
  ¬ InOrder (run st events)
  := by
  intro horder
  have hfinal := ha.run events
  obtain ⟨entries, htrace⟩ := run_trace st events
  obtain ⟨hgone, hdeferred⟩ := hfinal.ended hreturned
  have hchannel := (hfinal.shut hgone).2
  -- the earlier job is in the history of the whole run, but not in the history so far
  have hwhole : earlier ∈ jobs (run st events) := by
    apply run_jobs st events
    exact mem_append_right _ (mem_append_left _ hearlier)
  rw [jobs, hdeferred, hchannel, append_nil, append_nil, htrace,
    filterMap_append, mem_append] at hwhole
  have hfresh : earlier ∉ st.trace.filterMap Entry.job? := by
    intro hold
    have hnodup : ((jobs st).map Job.id).Nodup := ha.once.nodup_iff.mpr nodup_range
    rw [jobs, map_append, nodup_append] at hnodup
    apply hnodup.2.2 earlier.id (mem_map_of_mem hold) earlier.id _ rfl
    exact mem_map_of_mem (mem_append_left _ hearlier)
  have hlater : earlier ∈ entries.filterMap Entry.job? := hwhole.resolve_left hfresh
  unfold AllRan at hran
  rw [htrace] at hran
  rw [AllRan.jobs_eq (fun entry hentry => hran entry (mem_append_right _ hentry))] at hlater
  rw [AllRan.jobs_eq (fun entry hentry => hran entry (mem_append_left _ hentry))] at hjob
  have hpairs := horder job.session
  rw [ranJobs, htrace, filterMap_append, places_append, pairwise_append] at hpairs
  have hlt : job.id < earlier.id := by
    apply hpairs.2.2
    · exact mem_map_of_mem (mem_filter.mpr ⟨hjob, by simp⟩)
    · exact mem_map_of_mem (mem_filter.mpr ⟨hlater, by simp [hsession]⟩)
  exact absurd hlt (Nat.lt_asymm hid)

/-- When the loop has returned with every job run, the order tells that no job overtook. -/
theorem undisturbed_of_inOrder (ha : Accounted st) (hreturned : (run st events).returned = true)
    (hran : AllRan (run st events)) (horder : InOrder (run st events)) :
  Undisturbed st events
  := by
  induction events generalizing st with
  | nil => trivial
  | cons event events ih =>
    refine ⟨?_, ih (ha.step event) hreturned hran horder⟩
    rintro p rfl hovertakes
    obtain ⟨job, earlier, hjob, hearlier, hsession, hid⟩ := hovertakes.iterate ha
    exact not_inOrder_of_overtaken (ha.iterate p) hjob hearlier hsession hid hreturned hran horder

/-- Under snapshot isolation no job is ever held back. -/
theorem undisturbed_of_snapshot (h : ∀ p, Event.iterate p ∈ events → p.serializable = false) :
  Undisturbed st events
  := by
  induction events generalizing st with
  | nil => trivial
  | cons event events ih =>
    refine ⟨?_, ih (fun p hp => h p (mem_cons_of_mem _ hp))⟩
    rintro p rfl ⟨job, rest, -, howner, -⟩
    rw [holder, h p mem_cons_self] at howner
    cases howner

end CratonBolt.Runtime
