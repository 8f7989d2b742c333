import Mathlib.Data.List.Induction
import Mathlib.Logic.Function.Basic

/-!
# Freeing device buffers

Streams may still work on a buffer when it is dropped. Its block goes back to the pool when events
recorded on these streams have passed, and waits in a list until then. All work is enqueued by
calls that mark the stream. A step that is not enabled changes nothing.
-/

namespace CratonBolt.Reclaim

/-- A point of a stream: the stream, and how many operations it had been given. -/
abbrev Point := Nat × Nat

/-- `uses` are the operations on the block, which the code does not record. -/
structure GpuBuffer where
  ptr : Nat
  usedStreams : List Nat
  uses : List Point
deriving DecidableEq

structure PendingFree where
  ptr : Nat
  events : List Point
  sweepsNotReady : Nat
  uses : List Point
deriving DecidableEq

structure State where
  /-- How many operations each stream was given, and how many it has finished. -/
  issued : Nat → Nat := fun _ => 0
  completed : Nat → Nat := fun _ => 0
  buffers : List GpuBuffer := []
  pendingFrees : List PendingFree := []
  /-- All blocks that went back to the pool or the driver, with the operations on them. -/
  freed : List (Nat × List Point) := []

/-- The driver may fail to record events, to answer queries of them and to wait for them. -/
inductive Event where
  | alloc (ptr : Nat)
  | enqueue (b : GpuBuffer) (stream : Nat)
  | complete (stream : Nat)
  | drop (b : GpuBuffer) (records answers waits : Bool)
  | sweep (e : PendingFree) (answers waits : Bool)
  | drain (e : PendingFree) (waits : Bool)

def maxPendingSweeps : Nat := 1024

/-- When the events have passed, the operations have been done. -/
def Covers (events uses : List Point) : Prop := ∀ p ∈ uses, ∃ q ∈ events, q.1 = p.1 ∧ p.2 ≤ q.2

namespace State

variable (s : State)

/-- `event_query`. -/
def passed (p : Point) : Bool := p.2 ≤ s.completed p.1

/-- `event_synchronize` and the stream fences. -/
def synchronize (points : List Point) : State :=
  { s with completed := fun stream =>
      points.foldl (fun n p => if p.1 = stream then max n p.2 else n) (s.completed stream) }

def free (ptr : Nat) (uses : List Point) : State := { s with freed := (ptr, uses) :: s.freed }

/-- `force_reclaim_pending`, and `fence_all_streams` with the free after it: an error is ignored. -/
def forceReclaim (waits : Bool) (ptr : Nat) (points uses : List Point) : State :=
  (if waits then s.synchronize points else s).free ptr uses

def recordDeferEvents (b : GpuBuffer) : List Point :=
  b.usedStreams.map (fun stream => (stream, s.issued stream))

def realDropReclaim (b : GpuBuffer) (records answers waits : Bool) : State :=
  if records then
    if answers ∧ (s.recordDeferEvents b).all s.passed then s.free b.ptr b.uses
    else { s with pendingFrees := ⟨b.ptr, s.recordDeferEvents b, 0, b.uses⟩ :: s.pendingFrees }
  else s.forceReclaim waits b.ptr (s.recordDeferEvents b) b.uses

/-- What `sweep_pending_frees` does with one entry. -/
def sweepEntry (e : PendingFree) (answers waits : Bool) : State :=
  if answers ∧ e.events.all s.passed then s.free e.ptr e.uses
  else if maxPendingSweeps ≤ e.sweepsNotReady + 1 then
    s.forceReclaim waits e.ptr e.events e.uses
  else
    { s with pendingFrees := { e with sweepsNotReady := e.sweepsNotReady + 1 } :: s.pendingFrees }

def step : Event → State
  | .alloc ptr => { s with buffers := ⟨ptr, [], []⟩ :: s.buffers }
  | .enqueue b stream =>
    if b ∈ s.buffers then
      let n := s.issued stream + 1
      { s with
        issued := Function.update s.issued stream n
        -- `mark_stream_use`
        buffers := ⟨b.ptr, b.usedStreams.insert stream, (stream, n) :: b.uses⟩ ::
          s.buffers.erase b }
    else s
  | .complete stream =>
    if s.completed stream < s.issued stream then s.synchronize [(stream, s.completed stream + 1)]
    else s
  | .drop b records answers waits =>
    let s' := { s with buffers := s.buffers.erase b }
    if b ∉ s.buffers then s
    else if b.ptr = 0 then s'
    else if b.usedStreams = [] then s'.free b.ptr b.uses
    else s'.realDropReclaim b records answers waits
  | .sweep e answers waits =>
    if e ∈ s.pendingFrees then
      { s with pendingFrees := s.pendingFrees.erase e }.sweepEntry e answers waits
    else s
  -- `drain_pending_frees_blocking`
  | .drain e waits =>
    if e ∈ s.pendingFrees then
      { s with pendingFrees := s.pendingFrees.erase e }.forceReclaim waits e.ptr e.events e.uses
    else s

/-- No stream is still at work on a block that was freed. -/
def Idle : Prop := ∀ f ∈ s.freed, ∀ p ∈ f.2, s.passed p

/--
The driver fails to wait where a block is to be freed by force: no events could be recorded for it,
it was swept too often, or the pool shuts down; and a stream is still at work on it.
-/
def WaitFails : Event → Prop
  | .drop b records _ waits =>
    b ∈ s.buffers ∧ b.ptr ≠ 0 ∧ records = false ∧ waits = false ∧ ∃ p ∈ b.uses, ¬ s.passed p
  | .sweep e _ waits =>
    e ∈ s.pendingFrees ∧ maxPendingSweeps ≤ e.sweepsNotReady + 1 ∧ waits = false ∧
      ∃ p ∈ e.uses, ¬ s.passed p
  | .drain e waits => e ∈ s.pendingFrees ∧ waits = false ∧ ∃ p ∈ e.uses, ¬ s.passed p
  | _ => False

structure Inv : Prop where
  held : ∀ b ∈ s.buffers, Covers (s.recordDeferEvents b) b.uses
  parked : ∀ e ∈ s.pendingFrees, Covers e.events e.uses
  idle : s.Idle

variable {s} {points uses : List Point} {waits : Bool} {ptr : Nat}

theorem synchronize_spec :
  (∀ p, s.passed p → (s.synchronize points).passed p) ∧
    ∀ p ∈ points, (s.synchronize points).passed p
  := by
  have hfold (stream n : Nat) :
      n ≤ points.foldl (fun n p => if p.1 = stream then max n p.2 else n) n ∧
      ∀ p ∈ points, p.1 = stream →
        p.2 ≤ points.foldl (fun n p => if p.1 = stream then max n p.2 else n) n := by
    induction points generalizing n with
    | nil => simp
    | cons q points ih => grind
  constructor
  · intro p hp
    exact decide_eq_true (Nat.le_trans (of_decide_eq_true hp) (hfold _ _).1)
  · intro p hp
    exact decide_eq_true ((hfold _ _).2 p hp rfl)

theorem passed_of_covers (hc : Covers points uses) (hpoints : points.all s.passed) :
  ∀ p ∈ uses, s.passed p
  := by
  intro p hp
  obtain ⟨q, hq, hs, hle⟩ := hc p hp
  have hpassed := List.all_eq_true.mp hpoints q hq
  simp only [State.passed, decide_eq_true_eq] at hpassed ⊢
  grind

theorem Inv.free (h : s.Inv) (hpassed : ∀ p ∈ uses, s.passed p) :
  (s.free ptr uses).Inv
  := ⟨h.held, h.parked, List.forall_mem_cons.mpr ⟨hpassed, h.idle⟩⟩

theorem Inv.synchronize (h : s.Inv) :
  (s.synchronize points).Inv
  := ⟨h.held, h.parked, fun f hf p hp => synchronize_spec.1 p (h.idle f hf p hp)⟩

theorem Inv.forceReclaim (h : s.Inv) (hc : Covers points uses)
    (hwaits : waits = false → ∀ p ∈ uses, s.passed p) :
  (s.forceReclaim waits ptr points uses).Inv
  := by
  cases waits with
  | true => exact h.synchronize.free (passed_of_covers hc (List.all_eq_true.mpr synchronize_spec.2))
  | false => exact h.free (hwaits rfl)

theorem Inv.step (h : s.Inv) {event : Event} (hwaits : ¬ s.WaitFails event) :
  (s.step event).Inv
  := by
  have herase (b : GpuBuffer) : { s with buffers := s.buffers.erase b }.Inv :=
    ⟨fun b hb => h.held b (List.mem_of_mem_erase hb), h.parked, h.idle⟩
  have htake (e : PendingFree) : { s with pendingFrees := s.pendingFrees.erase e }.Inv :=
    ⟨h.held, fun e he => h.parked e (List.mem_of_mem_erase he), h.idle⟩
  cases event with
  | alloc ptr => exact ⟨List.forall_mem_cons.mpr ⟨by simp [Covers], h.held⟩, h.parked, h.idle⟩
  | enqueue b stream =>
    simp only [State.step]
    split
    · next hb =>
      refine ⟨?_, h.parked, h.idle⟩
      have hb := h.held b hb
      have hothers := (herase b).held
      simp only [Covers, recordDeferEvents, List.mem_map] at hb hothers ⊢
      grind
    · exact h
  | complete stream =>
    simp only [State.step]
    split
    · exact h.synchronize
    · exact h
  | drop b records answers waits =>
    simp only [State.step, realDropReclaim]
    split
    · exact h
    next hb =>
      have hc := h.held b (by simpa using hb)
      repeat' split
      · exact herase b
      · next hnone =>
        rw [recordDeferEvents, hnone] at hc
        exact (herase b).free (passed_of_covers hc List.all_nil)
      · next hready => exact (herase b).free (passed_of_covers hc hready.2)
      · exact ⟨(herase b).held, List.forall_mem_cons.mpr ⟨hc, h.parked⟩, h.idle⟩
      · have hdone : waits = false → ∀ p ∈ b.uses, s.passed p := by grind [WaitFails]
        exact (herase b).forceReclaim hc hdone
  | sweep e answers waits =>
    simp only [State.step, sweepEntry]
    repeat' split
    · next he hready => exact (htake e).free (passed_of_covers (h.parked e he) hready.2)
    · next he _ _ =>
      have hdone : waits = false → ∀ p ∈ e.uses, s.passed p := by grind [WaitFails]
      exact (htake e).forceReclaim (h.parked e he) hdone
    · next he _ _ =>
      exact ⟨h.held, List.forall_mem_cons.mpr ⟨h.parked e he, (htake e).parked⟩, h.idle⟩
    · exact h
  | drain e waits =>
    simp only [State.step]
    split
    · next he =>
      have hdone : waits = false → ∀ p ∈ e.uses, s.passed p := by grind [WaitFails]
      exact (htake e).forceReclaim (h.parked e he) hdone
    · exact h

/-- When the wait fails, the block is freed under the operation. -/
theorem not_idle_of_waitFails (h : s.Inv) {event : Event} (hfails : s.WaitFails event) :
  ¬ (s.step event).Idle
  := by
  cases event with
  | alloc => exact hfails.elim
  | enqueue => exact hfails.elim
  | complete => exact hfails.elim
  | drop b records answers waits =>
    obtain ⟨hb, hptr, rfl, rfl, p, hp, hrunning⟩ := hfails
    have hused : b.usedStreams ≠ [] := by
      rintro hnone
      have hc := h.held b hb
      rw [recordDeferEvents, hnone] at hc
      exact hrunning (passed_of_covers hc List.all_nil p hp)
    intro hidle
    simp only [State.step, hb, hptr, hused, realDropReclaim, not_true_eq_false, if_false] at hidle
    exact hrunning (hidle _ List.mem_cons_self p hp)
  | sweep e answers waits =>
    obtain ⟨he, hswept, rfl, p, hp, hrunning⟩ := hfails
    intro hidle
    rw [State.step, if_pos he, sweepEntry] at hidle
    split at hidle
    · next hready => exact hrunning (passed_of_covers (h.parked e he) hready.2 p hp)
    · exact hrunning (hidle _ List.mem_cons_self p hp)
  | drain e waits =>
    obtain ⟨he, rfl, p, hp, hrunning⟩ := hfails
    intro hidle
    rw [State.step, if_pos he] at hidle
    exact hrunning (hidle _ List.mem_cons_self p hp)

end State

def run (events : List Event) : State := events.foldl State.step {}

theorem run_inv {events : List Event}
    (h : ∀ before event, before ++ [event] <+: events → ¬ (run before).WaitFails event) :
  (run events).Inv
  := by
  induction events using List.reverseRecOn with
  | nil => exact ⟨by simp [run], by simp [run], by simp [run, State.Idle]⟩
  | append_singleton before event ih =>
    have hbefore := ih (fun b e hp => h b e (hp.trans (List.prefix_append _ _)))
    have hstep := hbefore.step (h before event (List.prefix_refl _))
    rwa [run, List.foldl_append]

/--
However allocations, launches, drops and sweeps interleave, no block is ever freed under a running
operation, if and only if the driver never fails to wait for one that is to be freed by force.
-/
theorem freed_idle_iff (events : List Event) :
  (∀ before, before <+: events → (run before).Idle) ↔
    ∀ before event, before ++ [event] <+: events → ¬ (run before).WaitFails event
  := by
  constructor
  · intro hidle
    induction events using List.reverseRecOn with
    | nil => simp
    | append_singleton events last ih =>
      have hearlier := ih (fun before h => hidle before (h.trans (List.prefix_append _ _)))
      intro before event hp hfails
      obtain heq | hbefore := List.prefix_concat_iff.mp hp
      · -- nothing has failed before the last event
        obtain ⟨rfl, rfl⟩ := List.append_singleton_inj.mp heq
        have hafter := hidle _ (List.prefix_refl _)
        rw [run, List.foldl_append] at hafter
        exact State.not_idle_of_waitFails (run_inv hearlier) hfails hafter
      · exact hearlier before event hbefore hfails
  · intro h before hp
    exact (run_inv (fun b e hb => h b e (hb.trans hp))).idle

-- No event can be recorded, the fence fails, and the block is freed.
example : ¬ (run [.alloc 1, .enqueue ⟨1, [], []⟩ 0,
    .drop ⟨1, [0], [(0, 1)]⟩ false true false]).Idle := by
  unfold State.Idle
  decide

end CratonBolt.Reclaim
