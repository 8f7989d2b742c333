import CratonBolt.Transactions.SnapshotIsolation

/-!
# Transactions that are rolled back

A transaction that ends with `ROLLBACK` leaves nothing behind: the other sessions could have done
what they did without it. Nothing that the others do changes what it sees before that.
-/

namespace CratonBolt

variable {R : Type} {a b : Option Nat}

/-- The job is an action of the session. -/
def Job.isOf (a : Option Nat) : Job R → Bool
  | .run session _ _ _ => session = a
  | .refresh _ _ _ => false

/-- The job does not end a transaction of the session. -/
def Job.keepsOpen (a : Option Nat) : Job R → Bool
  | .run session .commitTransaction _ _ | .run session .rollbackTransaction _ _ => session ≠ a
  | _ => true

namespace Isolated

variable [Append R] {i i' : Isolated R} {x : Option (Transaction R × Snapshot R)} {job : Job R}
  {jobs : List (Job R)}

omit [Append R] in
theorem set_comm (h : b ≠ a) (y : Option (Transaction R × Snapshot R)) :
  (i.set b y).set a x = (i.set a x).set b y
  := by
  simp only [set, Function.update_comm h]

omit [Append R] in
theorem set_set (y : Option (Transaction R × Snapshot R)) :
  (i.set a y).set a x = i.set a x
  := by
  simp only [set, Function.update_idem]

omit [Append R] in
theorem set_none (h : i.opened a = none) :
  i.set a none = i
  := by
  rw [set, ← h, Function.update_eq_self]

/-- An action neither reads nor changes the transaction of another session. -/
theorem Acts.apart {faults : Faults} {action : Action R} (hb : b ≠ a)
    (h : i.Acts b faults action i') :
  (i.set a x).Acts b faults action (i'.set a x) ∧ i'.opened a = i.opened a
  := by
  have hopened : (i.set a x).opened b = i.opened b := set_opened_of_ne hb
  have hsame : (i.set a x).committed = i.committed := rfl
  have hself (y : Option (Transaction R × Snapshot R)) : (i.set b y).opened a = i.opened a :=
    set_opened_of_ne hb.symm
  have hcomm (y : Option (Transaction R × Snapshot R)) :
    (i.set b y).set a x = (i.set a x).set b y := set_comm hb y
  have hcommitted (c : Snapshot R) : ({ i with committed := c } : Isolated R).set a x =
    { i.set a x with committed := c } := rfl
  have hboth (c : Snapshot R) (y : Option (Transaction R × Snapshot R)) :
      ({ i.set b y with committed := c } : Isolated R).set a x =
        { (i.set a x).set b y with committed := c } := by
    rw [← set_comm hb]
    rfl
  rcases ho : i.opened b with _ | ⟨t, work⟩ <;> cases action <;>
    simp only [Acts, hopened, ho, hsame] at h ⊢ <;> (repeat' split at h) <;> grind

theorem Step.apart (hjob : job.isOf a = false) (h : i.Step job i') :
  (i.set a x).Step job (i'.set a x) ∧ i'.opened a = i.opened a
  := by
  cases job with
  | run session action activation faults => exact Acts.apart (by simpa [Job.isOf] using hjob) h
  | refresh st activation faults =>
    obtain ⟨committed', failed, hst, rfl⟩ := h
    exact ⟨⟨committed', failed, hst, rfl⟩, rfl⟩

/-- Inside its transaction a session changes nothing but the transaction. -/
theorem Step.inside (hjob : job.isOf a = true) (hopen : job.keepsOpen a = true)
    (ho : (i.opened a).isSome = true) (h : i.Step job i') :
  i'.set a x = i.set a x ∧ (i'.opened a).isSome = true
  := by
  have hset (y : Option (Transaction R × Snapshot R)) : (i.set a y).set a x = i.set a x :=
    set_set y
  have hself (y : Option (Transaction R × Snapshot R)) : (i.set a y).opened a = y :=
    set_opened_self i a y
  cases job with
  | refresh st activation faults => cases hjob
  | run session action activation faults =>
    obtain rfl : session = a := by simpa [Job.isOf] using hjob
    obtain ⟨⟨t, work⟩, ht⟩ := Option.isSome_iff_exists.mp ho
    cases action <;> simp only [Step, Acts, ht, Job.keepsOpen] at h hopen <;>
      (repeat' split at h) <;> grind

/-- Without a transaction that is rolled back, the others' jobs lead to the same state. -/
theorem Run.without {g g' : Faults} (hopen : ∀ job ∈ jobs, job.keepsOpen a = true)
    (ho : (i.opened a).isSome = true)
    (h : i.Run (jobs ++ [.run a .rollbackTransaction g g']) i') :
  (i.set a none).Run (jobs.filter (fun job => !job.isOf a)) i'
  := by
  induction jobs generalizing i with
  | nil =>
    obtain ⟨i₁, hstep, rfl⟩ := h
    exact hstep
  | cons job jobs ih =>
    obtain ⟨i₁, hstep, hrun⟩ := h
    obtain ⟨hjob, hjobs⟩ := List.forall_mem_cons.mp hopen
    cases hof : job.isOf a with
    | true =>
      obtain ⟨hsame, ho₁⟩ := hstep.inside (x := none) hof hjob ho
      rw [List.filter_cons_of_neg (by simp [hof]), ← hsame]
      exact ih hjobs ho₁ hrun
    | false =>
      obtain ⟨hstep', ho₁⟩ := hstep.apart (x := none) hof
      rw [List.filter_cons_of_pos (by simp [hof])]
      exact ⟨_, hstep', ih hjobs (ho₁ ▸ ho) hrun⟩

theorem Run.opened (hothers : ∀ job ∈ jobs, job.isOf a = false) (h : i.Run jobs i') :
  i'.opened a = i.opened a
  := by
  induction jobs generalizing i with
  | nil => rw [show i' = i from h]
  | cons job jobs ih =>
    obtain ⟨i₁, hstep, hrun⟩ := h
    obtain ⟨hjob, hjobs⟩ := List.forall_mem_cons.mp hothers
    rw [ih hjobs hrun, (hstep.apart (x := none) hjob).2]

end Isolated

namespace Engine

variable [Append R] {e : Engine R} {pre jobs : List (Job R)} {f f' g g' : Faults}

/--
When a session begins a transaction in a reachable state and rolls it back, the state that is left
is one to which the jobs of the others alone lead.
-/
theorem rollback_leaves_no_trace (hinit : e.Initial) (hpre : e.Safe pre)
    (hclosed : (e.runJobs pre).opened a = none) (hopen : ∀ job ∈ jobs, job.keepsOpen a = true)
    (hsafe : (e.runJobs pre).Safe
      (.run a .beginTransaction f f' :: (jobs ++ [.run a .rollbackTransaction g g']))) :
  (e.runJobs pre).isolated.Run (jobs.filter (fun job => !job.isOf a))
    ((e.runJobs pre).runJobs
      (.run a .beginTransaction f f' :: (jobs ++ [.run a .rollbackTransaction g g']))).isolated
  := by
  obtain ⟨hinv, -⟩ := runJobs_run hinit.inv.2 hpre
  obtain ⟨-, i₁, hbegin, hrun⟩ := runJobs_run hinv hsafe
  have hnone : (e.runJobs pre).isolated.opened a = none := hclosed
  simp only [Isolated.Step, Isolated.Acts, hnone] at hbegin
  obtain ⟨base, -, rfl⟩ := hbegin
  have hwithout := Isolated.Run.without hopen (by simp) hrun
  rwa [Isolated.set_set, Isolated.set_none hnone] at hwithout

/-- What a session sees inside its transaction does not change while only others run jobs. -/
theorem reads_repeat (hinit : e.Initial) (hpre : e.Safe pre) {t : Transaction R}
    {work : Snapshot R} (ho : (e.runJobs pre).opened a = some (t, work))
    (hothers : ∀ job ∈ jobs, job.isOf a = false) (hsafe : (e.runJobs pre).Safe jobs)
    (hf : Installs f) :
  ∃ e', activateSession f a ((e.runJobs pre).runJobs jobs) = .ok () e' ∧ Shows e'.registered work
  := by
  obtain ⟨hinv, -⟩ := runJobs_run hinit.inv.2 hpre
  obtain ⟨hinv', hrun⟩ := runJobs_run hinv hsafe
  obtain ⟨e', hactivate, hdone, hsame, hactive, -, -⟩ := activateSession_ok hinv' hf a
  refine ⟨e', hactivate, hdone.settled, ?_⟩
  have hopened : e'.isolated.opened a = some (t, work) := by
    rw [hsame, hrun.opened hothers]
    exact ho
  have hvisible := hactive.visible
  rw [Isolated.visible, hopened] at hvisible
  exact hvisible.symm

/-- Session 1 replaces a table in its transaction, session 2 outside of one. -/
def bothReplace : List (Job (List Nat)) :=
  [.run (some 1) (.statement ⟨[.replaceTable "a" [2]], none⟩) Faults.none Faults.none,
   .run (some 2) (.statement ⟨[.replaceTable "a" [3]], none⟩) Faults.none Faults.none]

theorem bothReplace_leaves_no_trace :
  twoTables.isolated.Run [bothReplace[1]]
    (twoTables.runJobs (.run (some 1) .beginTransaction Faults.none Faults.none ::
      (bothReplace ++ [.run (some 1) .rollbackTransaction Faults.none Faults.none]))).isolated
  := by
  have hsafe : twoTables.Safe (.run (some 1) .beginTransaction Faults.none Faults.none ::
      (bothReplace ++ [.run (some 1) .rollbackTransaction Faults.none Faults.none])) := by
    refine ⟨⟨installs_none, trivial⟩, trivial, by decide, ?_⟩
    refine ⟨⟨installs_none, fun _ => rfl⟩, trivial, by decide, ?_⟩
    refine ⟨⟨installs_none, fun _ => rfl⟩, trivial, by decide, ?_⟩
    exact ⟨⟨installs_none, installs_none⟩, trivial, by decide, trivial⟩
  have hpre : twoTables.Safe [] := trivial
  exact rollback_leaves_no_trace twoTables_initial hpre rfl (by decide) hsafe

theorem bothReplace_reads_repeat :
  ∃ t work, (twoTables.runJobs [.run (some 1) .beginTransaction Faults.none Faults.none]).opened
      (some 1) = some (t, work) ∧
    ∃ e', activateSession Faults.none (some 1) ((twoTables.runJobs
      [.run (some 1) .beginTransaction Faults.none Faults.none]).runJobs [bothReplace[1]]) =
        .ok () e' ∧ Shows e'.registered work
  := by
  refine ⟨_, _, rfl, reads_repeat twoTables_initial ?_ rfl (by decide) ?_ installs_none⟩
  · exact ⟨⟨installs_none, trivial⟩, trivial, by decide, trivial⟩
  · exact ⟨⟨installs_none, fun _ => rfl⟩, trivial, by decide, trivial⟩

end Engine
end CratonBolt
