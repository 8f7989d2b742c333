import Mathlib.Data.List.Basic

/-!
# The owning context of the device pool

Threads without a CUDA context of their own borrow the one the pool has recorded. Each step below
is one atomic access or one critical section of `CTX_BIND_GUARD`; a step that is not enabled
changes nothing. The driver may hand out the address of a destroyed context again.
-/

namespace CratonBolt.CtxBinder

/-- A capture on its way to `capture_owning_ctx`. -/
inductive Capture where
  /-- `CudaContext::new` has created the context. -/
  | created (raw : Nat)
  /-- A thread has read the epoch. -/
  | observed (epoch : Nat)
  /-- The context to record, and the epoch that was read before it was known. -/
  | holding (ctx epoch : Nat)
deriving DecidableEq

/-- The binder's statics, the thread in the critical section, and the contexts of the driver. -/
structure State where
  owningCtx : Nat := 0
  epoch : Nat := 0
  /-- The context that the thread in the critical section has bound. -/
  bound : Option Nat := none
  /-- The context that `real_ctx_attach` has left current on the watcher's thread, and the epoch at
  which it was attached. -/
  watcher : Option (Nat × Nat) := none
  captures : List Capture := []
  live : List Nat := []
  /-- The contexts between `invalidate_owning_ctx` and `cuCtxDestroy_v2`. -/
  dropping : List Nat := []

inductive Event where
  | create (raw : Nat)
  | register (raw : Nat)
  | snapshot
  | ctxGetCurrent (epoch ctx : Nat)
  | captureOwningCtx (ctx epoch : Nat)
  | driverFree
  | realCtxAttach
  | release
  | invalidateOwningCtx (raw : Nat)
  | destroy (raw : Nat)

def step (s : State) : Event → State
  | .create raw =>
    if raw ≠ 0 ∧ raw ∉ s.live then
      { s with live := raw :: s.live, captures := .created raw :: s.captures }
    else s
  -- `pool_register_owning_ctx` reads the epoch.
  | .register raw =>
    if .created raw ∈ s.captures then
      { s with captures := .holding raw s.epoch :: s.captures.erase (.created raw) }
    else s
  -- `retry_context_capture` and `ensure_started` read the epoch, then ask the driver.
  | .snapshot => { s with captures := .observed s.epoch :: s.captures }
  -- A thread keeps a context current while it is dropped, and after that.
  | .ctxGetCurrent e ctx =>
    if .observed e ∈ s.captures ∧ ctx ≠ 0 then
      { s with captures := .holding ctx e :: s.captures.erase (.observed e) }
    else s
  | .captureOwningCtx ctx e =>
    if .holding ctx e ∈ s.captures ∧ s.bound = none then
      { s with
        captures := s.captures.erase (.holding ctx e)
        owningCtx := if s.epoch = e then ctx else s.owningCtx }
    else s
  -- Both load and bind under the guard. `driver_free_default_backend` binds null again before it
  -- releases the guard, `real_ctx_attach` does not.
  | .driverFree =>
    if s.bound = none ∧ s.owningCtx ≠ 0 then { s with bound := some s.owningCtx } else s
  | .realCtxAttach =>
    if s.bound = none ∧ s.owningCtx ≠ 0 then
      { s with bound := some s.owningCtx, watcher := some (s.owningCtx, s.epoch) }
    else s
  | .release => { s with bound := none }
  -- `CudaContext::drop`, of a context that `CudaContext::new` has returned.
  | .invalidateOwningCtx raw =>
    if raw ∈ s.live ∧ raw ∉ s.dropping ∧ .created raw ∉ s.captures ∧ s.bound = none then
      { s with
        epoch := s.epoch + 1
        owningCtx := if s.owningCtx = raw then 0 else s.owningCtx
        dropping := raw :: s.dropping }
    else s
  | .destroy raw =>
    if raw ∈ s.dropping then
      { s with live := s.live.filter (· ≠ raw), dropping := s.dropping.filter (· ≠ raw) }
    else s

def run (events : List Event) : State := events.foldl step {}

/-- The context exists and nobody is about to destroy it. -/
def State.Usable (s : State) (ctx : Nat) : Prop := ctx ∈ s.live ∧ ctx ∉ s.dropping

instance (s : State) (ctx : Nat) : Decidable (s.Usable ctx) := inferInstanceAs (Decidable (_ ∧ _))

/--
The contexts that threads borrow are usable: the recorded one, the one bound in the critical
section, and the watcher's as long as no context is dropped after it was attached.
-/
structure Lent (s : State) : Prop where
  owningCtx : s.owningCtx ≠ 0 → s.Usable s.owningCtx
  bound : ∀ ctx, s.bound = some ctx → s.Usable ctx
  watcher : ∀ ctx, s.watcher = some (ctx, s.epoch) → s.Usable ctx

/-- The context that a thread finds current is usable. -/
def Punctual (s : State) : Event → Prop
  | .ctxGetCurrent _ ctx => s.Usable ctx
  | _ => True

def PunctualRun (s : State) : List Event → Prop
  | [] => True
  | ev :: events => Punctual s ev ∧ PunctualRun (step s ev) events

/-- A capture whose epoch is still the current one holds a usable context. -/
structure Inv (s : State) : Prop extends Lent s where
  dropping : s.dropping ⊆ s.live
  attached : ∀ ctx e, s.watcher = some (ctx, e) → e ≤ s.epoch
  created : ∀ raw, .created raw ∈ s.captures → s.Usable raw
  observed : ∀ e, .observed e ∈ s.captures → e ≤ s.epoch
  holding : ∀ ctx e, .holding ctx e ∈ s.captures → e ≤ s.epoch ∧ (e = s.epoch → s.Usable ctx)

theorem Inv.step {s : State} (h : Inv s) (ev : Event) (hpunctual : Punctual s ev) :
  Inv (step s ev)
  := by
  obtain ⟨⟨howning, hbound, hwatcher⟩, hdropping, hattached, hcreated, hobserved, hholding⟩ := h
  cases ev with
  | invalidateOwningCtx raw =>
    simp only [CtxBinder.step]
    split
    · -- nobody is in the critical section, and the new epoch makes every capture in flight stale
      have hstale (ctx e : Nat) (he : .holding ctx e ∈ s.captures) : e < s.epoch + 1 :=
        Nat.lt_succ_of_le (hholding ctx e he).1
      refine ⟨?_, ?_, ?_, ?_, ?_, ?_⟩
      · constructor <;> grind [State.Usable]
      all_goals grind [State.Usable]
    · exact ⟨⟨howning, hbound, hwatcher⟩, hdropping, hattached, hcreated, hobserved, hholding⟩
  | destroy raw =>
    -- what goes was not usable any more
    simp only [CtxBinder.step]
    split
    · refine ⟨?_, ?_, ?_, ?_, ?_, ?_⟩
      · constructor <;> grind [State.Usable]
      all_goals grind [State.Usable]
    · exact ⟨⟨howning, hbound, hwatcher⟩, hdropping, hattached, hcreated, hobserved, hholding⟩
  | _ =>
    simp only [CtxBinder.step, Punctual] at hpunctual ⊢
    try split
    all_goals refine ⟨?_, ?_, ?_, ?_, ?_, ?_⟩
    all_goals first | grind [State.Usable] | (constructor <;> grind [State.Usable])

theorem inv_init :
  Inv {}
  := ⟨by constructor <;> simp, by simp, by simp, by simp, by simp, by simp⟩

theorem Inv.run {s : State} (h : Inv s) {events : List Event} (hpunctual : PunctualRun s events) :
  Inv (events.foldl CtxBinder.step s)
  := by
  induction events generalizing s with
  | nil => exact h
  | cons ev events ih => exact ih (h.step ev hpunctual.1) hpunctual.2

/--
On every run in which threads find only usable contexts current, the contexts that threads borrow
are usable. No such find can be let off: with the epoch that is still the current one, what the
thread finds is recorded, and is borrowed from then on.
-/
theorem owningCtx_usable_iff (events : List Event) (hpunctual : PunctualRun {} events) :
  Lent (run events) ∧
    ∀ ctx, ctx ≠ 0 → .observed (run events).epoch ∈ (run events).captures →
      (run events).bound = none →
        (Lent (step (step (run events) (.ctxGetCurrent (run events).epoch ctx))
            (.captureOwningCtx ctx (run events).epoch)) ↔
          (run events).Usable ctx)
  := by
  have hinv : Inv (run events) := Inv.run inv_init hpunctual
  refine ⟨hinv.toLent, fun ctx hctx hobserved hfree => ⟨fun hlent => ?_, fun husable => ?_⟩⟩
  · -- the capture records the context
    have howning := hlent.owningCtx
    simp only [step, hobserved, hctx, hfree, ne_eq, not_false_eq_true, and_self, if_true,
      List.mem_cons, true_or] at howning
    exact howning trivial
  · have hfound := hinv.step (.ctxGetCurrent (run events).epoch ctx) husable
    exact (hfound.step (.captureOwningCtx ctx (run events).epoch) trivial).toLent

/--
The watcher's thread keeps its context current after it was dropped and destroyed. If a thread
records it again, others borrow a destroyed context.
-/
theorem owningCtx_usable_watcher :
  let s := run [.create 1, .register 1, .captureOwningCtx 1 0, .realCtxAttach, .release,
    .invalidateOwningCtx 1, .destroy 1, .snapshot]
  s.watcher = some (1, 0) ∧ 1 ∉ s.live ∧ Lent s ∧
    ¬ Lent (step (step s (.ctxGetCurrent 1 1)) (.captureOwningCtx 1 1))
  := by
  have hlent := owningCtx_usable_iff [.create 1, .register 1, .captureOwningCtx 1 0,
    .realCtxAttach, .release, .invalidateOwningCtx 1, .destroy 1, .snapshot]
    ⟨trivial, trivial, trivial, trivial, trivial, trivial, trivial, trivial, trivial⟩
  refine ⟨by decide, by decide, hlent.1, fun h => ?_⟩
  exact absurd ((hlent.2 1 (by decide) (by decide) (by decide)).mp h) (by decide)

end CratonBolt.CtxBinder
