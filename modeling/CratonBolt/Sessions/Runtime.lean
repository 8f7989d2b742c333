import CratonBolt.Transactions.Engine

/-!
# The runtime loop

One thread owns the engine and runs the jobs of all sessions (`exec/session.rs`). Jobs arrive in
a channel. Under serializable isolation the loop sets the jobs of other sessions aside while a
transaction is open; it takes them up again, oldest first, when no transaction is open, and fails
those that waited too long.

A run of the system is a list of events: a job is submitted, the last handle goes away, or the
loop makes one pass. What a pass reads of its surroundings (the clock, the isolation level, which
jobs were cancelled, what fails) is the data of the event.
-/

namespace CratonBolt

namespace Engine

variable {R : Type} [Append R]

/-- The statements of a job, up to the first that fails. -/
def runActions : List (Action R × Faults) → EngineM R Unit
  | [] => pure ()
  | (action, faults) :: rest => do
    runAction faults action
    runActions rest

/-- Forget the parked transaction of a session. -/
def unpark (e : Engine R) (session : Option Nat) : Engine R :=
  { e with parked := Function.update e.parked session none }

end Engine

namespace Runtime

/-- A unit of work for the runtime thread. -/
structure Job (R : Type) where
  /-- Its place among all jobs that were submitted. -/
  id : Nat
  /-- The submitting session; none for the jobs of the database itself. -/
  session : Option Nat
  /-- When it was submitted. -/
  queued : Nat
  actions : List (Action R × Faults)

/-- What became of a job, or a refresh of the scheduled views. -/
inductive Entry (R : Type) where
  | ran (job : Job R)
  | failed (job : Job R) (err : BoltError)
  /-- Cancelled before it started, or submitted to a closed database. -/
  | dropped (job : Job R)
  | refreshed

/-- The job an entry is about. -/
def Entry.job? {R : Type} : Entry R → Option (Job R)
  | ran job => some job
  | failed job _ => some job
  | dropped job => some job
  | refreshed => none

/-- The loop, its channel and its history. -/
structure State (R : Type) where
  engine : Engine R
  deferred : List (Job R)
  connected : Bool
  lastTick : Nat
  channel : List (Job R)
  /-- Whether there is a handle left that jobs can be submitted through. -/
  accepting : Bool
  returned : Bool
  submitted : Nat
  /-- The sessions that have submitted jobs. -/
  sessions : List (Option Nat)
  trace : List (Entry R)

/-- What one pass of the loop reads. -/
structure Poll (R : Type) where
  /-- The clock, in nanoseconds. -/
  now : Nat
  serializable : Bool
  waitLimit : Nat
  /-- Sessions in the order in which the map of parked transactions is walked. -/
  walk : List (Option Nat)
  /-- What a refresh of the due views runs; none without scheduled views. -/
  scheduled : Option (Statement R)
  /-- The jobs whose result nobody waits for any more. -/
  cancelled : Nat → Bool
  /-- What fails while a session's state is installed. -/
  activation : Faults
  /-- What fails while views are refreshed. -/
  refresh : Faults

/-- How often the loop checks scheduled views. -/
def viewTick : Nat := 500000000

variable {R : Type}

/-- The sessions with an open transaction. -/
def transactionSessions (walk : List (Option Nat)) (st : State R) : List (Option Nat) :=
  st.engine.transactionHolder.toList ++
    (walk ++ st.sessions).filter (fun s => (st.engine.parked s).isSome)

/-- The transaction other sessions must wait for. -/
def holder (p : Poll R) (st : State R) : Option (Option Nat) :=
  if p.serializable then (transactionSessions p.walk st).head? else none

/-- Whether a job may run while `holder` holds a transaction. -/
def mayRun (holder : Option (Option Nat)) (job : Job R) : Bool :=
  match holder with
  | none => true
  | some owner => owner == job.session

/-- The error of a job that waited too long; the limit is printed in nanoseconds. -/
def timedOut (limit : Nat) : BoltError :=
  .plan s!"timed out after {limit}ns waiting for another session's transaction"

def expired (p : Poll R) (job : Job R) : Bool := p.waitLimit ≤ p.now - job.queued

/-- Fail the jobs that waited too long. -/
def failExpired (p : Poll R) (st : State R) : State R :=
  { st with
    deferred := st.deferred.filter (fun job => !expired p job)
    trace := st.trace ++
      (st.deferred.filter (expired p)).map (fun job => .failed job (timedOut p.waitLimit)) }

variable [Append R]

section

variable (p : Poll R)

/-- Run a job on the state of its session. -/
def runJob (job : Job R) (st : State R) : State R :=
  match Engine.activateSession p.activation job.session st.engine with
  | .error err e => { st with engine := e, trace := st.trace ++ [.failed job err] }
  | .ok _ e =>
    if p.cancelled job.id then
      { st with
        engine := { e with currentSession := none }
        trace := st.trace ++ [.dropped job] }
    else
      { st with
        engine :=
          { Engine.after (Engine.runActions job.actions)
              { e with currentSession := job.session } with
            currentSession := none }
        trace := st.trace ++ [.ran job] }

variable (st : State R)

/-- Whether the scheduled views are checked in this pass. -/
def ticks : Option (Statement R) :=
  if (holder p st).isNone && viewTick ≤ p.now - st.lastTick then p.scheduled else none

/-- Refresh the scheduled views, between statements, over the committed state. -/
def refreshViews : State R :=
  match ticks p st with
  | none => st
  | some views =>
    { st with
      engine := st.engine.runJob (.refresh views p.activation p.refresh)
      lastTick := p.now
      trace := st.trace ++ [.refreshed] }

/-- Roll back a transaction that nobody can end any more. -/
def abandon (session : Option Nat) (e : Engine R) : Engine R :=
  match Engine.activateSession p.activation session e with
  | .error _ e' => e'.unpark session
  | .ok _ e' =>
    match Engine.rollbackTransaction p.activation e' with
    | .error _ e'' => e''.unpark session
    | .ok _ e'' => e''

/-- Every handle is gone: end the open transactions one by one, then return. -/
def wind : State R :=
  match (transactionSessions p.walk st).head? with
  | some session => { st with engine := abandon p session st.engine }
  | none => { st with returned := true }

/-- Take the next job from the channel. -/
def receive (holder : Option (Option Nat)) (st : State R) : State R :=
  match st.channel with
  | job :: rest =>
    if mayRun holder job then runJob p job { st with channel := rest }
    else { st with channel := rest, deferred := st.deferred ++ [job] }
  | [] => if st.accepting then st else { st with connected := false }

/-- The part of a pass after the scheduled views. -/
def serve (holder : Option (Option Nat)) (st : State R) : State R :=
  match holder, st.deferred with
  | none, job :: rest => runJob p job { st with deferred := rest }
  | _, _ => if st.connected then receive p holder (failExpired p st) else wind p st

/-- One pass of the loop. -/
def iterate : State R :=
  if st.returned then st else serve p (holder p st) (refreshViews p st)

end

inductive Event (R : Type) where
  | submit (session : Option Nat) (queued : Nat) (actions : List (Action R × Faults))
  | close
  | iterate (p : Poll R)

/-- Queue a job, or drop it when the database is closed. -/
def submit (session : Option Nat) (queued : Nat) (actions : List (Action R × Faults))
    (st : State R) : State R :=
  let job : Job R := ⟨st.submitted, session, queued, actions⟩
  { st with
    submitted := st.submitted + 1
    sessions := st.sessions ++ [session]
    channel := if st.accepting then st.channel ++ [job] else st.channel
    trace := if st.accepting then st.trace else st.trace ++ [.dropped job] }

def step (st : State R) : Event R → State R
  | .submit session queued actions => submit session queued actions st
  | .close => { st with accepting := false }
  | .iterate p => iterate p st

def run (st : State R) (events : List (Event R)) : State R := events.foldl step st

/-- The loop when the database is opened. -/
def start (engine : Engine R) (now : Nat) : State R where
  engine := engine
  deferred := []
  connected := true
  lastTick := now
  channel := []
  accepting := true
  returned := false
  submitted := 0
  sessions := []
  trace := []

end Runtime

end CratonBolt
