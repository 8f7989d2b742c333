import CratonBolt.Library.StateErrors
import CratonBolt.Sessions.Runtime

/-!
# Which sessions have a transaction open

Activating a session leaves every transaction open, except that a transaction whose state cannot
be installed is lost. The actions of a session open, change or end its own transaction only.
-/

namespace CratonBolt.Engine

open Function StateErrors
open Option (map_eq_some_iff map_some some)
open Registered (install runStatement)

variable {R : Type} {e e₁ e₂ : Engine R} {a b : Option Nat} {faults : Faults}

/-! ### Where transactions are kept -/

/-- Every parked transaction is filed under its session, and the installed one is not parked. -/
structure Filed (e : Engine R) : Prop where
  parked : ∀ s t work, e.parked s = some (t, work) → t.session = s
  apart : ∀ t, e.txn = some t → e.parked t.session = none

theorem hasTransaction_iff :
  e.hasTransaction a = true ↔ e.transactionHolder = some a ∨ (e.parked a).isSome = true
  := by
  simp [hasTransaction]

/-- Two engines that keep the same transactions at the same places. -/
theorem hasTransaction_congr (hholder : e₁.transactionHolder = e.transactionHolder)
    (hparked : e₁.parked = e.parked) :
  e₁.hasTransaction b = e.hasTransaction b
  := by
  rw [hasTransaction, hasTransaction, hholder, hparked]

theorem Filed.congr (h : e.Filed) (hholder : e₁.transactionHolder = e.transactionHolder)
    (hparked : e₁.parked = e.parked) :
  e₁.Filed
  := by
  refine ⟨?_, ?_⟩
  · rw [hparked]
    exact h.parked
  · intro t ht
    have hsome : e.transactionHolder = some t.session := by
      rw [← hholder, transactionHolder, ht, map_some]
    rw [transactionHolder, map_eq_some_iff] at hsome
    obtain ⟨t', ht', hsession⟩ := hsome
    rw [hparked, ← hsession]
    exact h.apart t' ht'

@[simp]
theorem park_txn (e : Engine R) :
  e.park.txn = none
  := by
  unfold park
  split
  · rfl
  · assumption

@[simp]
theorem park_transactionHolder (e : Engine R) :
  e.park.transactionHolder = none
  := by
  rw [transactionHolder, park_txn, Option.map_none]

theorem park_hasTransaction (e : Engine R) (b : Option Nat) :
  e.park.hasTransaction b = e.hasTransaction b
  := by
  rw [Bool.eq_iff_iff, hasTransaction_iff, hasTransaction_iff, park_transactionHolder]
  unfold park transactionHolder
  cases ht : e.txn with
  | none => simp
  | some t =>
    by_cases hb : b = t.session
    · subst hb
      simp
    · simp [update_of_ne hb, Ne.symm hb]

theorem Filed.park (h : e.Filed) :
  e.park.Filed
  := by
  refine ⟨?_, by simp⟩
  unfold Engine.park
  cases ht : e.txn with
  | none => exact h.parked
  | some t =>
    intro s t' work hs
    by_cases hb : s = t.session
    · subst hb
      simp only [update_self, some.injEq, Prod.mk.injEq] at hs
      rw [hs.1]
    · simp only [update_of_ne hb] at hs
      exact h.parked s t' work hs

/-! ### Actions -/

/-- Only the installed transaction may differ, and only the current session's is new. -/
structure Confined (e e' : Engine R) : Prop where
  parked : e'.parked = e.parked
  currentSession : e'.currentSession = e.currentSession
  holder : e'.transactionHolder = e.transactionHolder ∨ e'.transactionHolder = none ∨
    e'.transactionHolder = some e.currentSession

theorem Confined.refl (e : Engine R) :
  Confined e e
  := ⟨rfl, rfl, Or.inl rfl⟩

theorem Confined.trans (h₁ : Confined e e₁) (h₂ : Confined e₁ e₂) :
  Confined e e₂
  := by
  refine ⟨h₂.parked.trans h₁.parked, h₂.currentSession.trans h₁.currentSession, ?_⟩
  obtain h | h | h := h₂.holder
  · rw [h]
    exact h₁.holder
  · exact Or.inr (Or.inl h)
  · rw [h, h₁.currentSession]
    exact Or.inr (Or.inr rfl)

variable {α β : Type}

/-- The engine of a computation that goes on in another one. -/
theorem after_bind [Append R] (m : EngineM R α) (f : α → EngineM R β) (e : Engine R) :
  after (m >>= f) e = match m e with
    | .ok x e' => after (f x) e'
    | .error _ e' => e'
  := by
  unfold after
  simp only [run_bind]
  cases m e <;> rfl

variable [Append R]

theorem Confined.bind {m : EngineM R α} {f : α → EngineM R β}
    (hm : Confined e (after m e)) (hf : ∀ x e', m e = .ok x e' → Confined e' (after (f x) e')) :
  Confined e (after (m >>= f) e)
  := by
  rw [after_bind]
  unfold after at hm
  cases hrun : m e with
  | error err e' =>
    rw [hrun] at hm
    exact hm
  | ok x e' =>
    rw [hrun] at hm
    exact hm.trans (hf x e' hrun)

omit [Append R] in
theorem onRegistered_cases (m : RegisteredM R α) (e : Engine R) :
  (∃ x r, onRegistered m e = .ok x { e with registered := r }) ∨
    ∃ err r, onRegistered m e = .error err { e with registered := r }
  := by
  unfold onRegistered
  cases m e.registered with
  | ok x r => exact Or.inl ⟨x, r, rfl⟩
  | error err r => exact Or.inr ⟨err, r, rfl⟩

omit [Append R] in
theorem confined_onRegistered (m : RegisteredM R α) (e : Engine R) :
  Confined e (after (onRegistered m) e)
  := by
  unfold after onRegistered
  cases m e.registered <;> exact ⟨rfl, rfl, Or.inl rfl⟩

variable (faults : Faults)

section

variable (e : Engine R)

theorem confined_installCommitted :
  Confined e (after (installCommitted faults) e)
  := by
  apply Confined.bind (Confined.refl e)
  rintro _ _ ⟨⟩
  cases e.committed with
  | none => exact Confined.refl e
  | some c =>
    apply Confined.bind
    · exact ⟨rfl, rfl, Or.inl rfl⟩
    · intro _ e' _
      exact confined_onRegistered _ e'

theorem confined_rollbackTransaction :
  Confined e (after (rollbackTransaction faults) e)
  := by
  apply Confined.bind (Confined.refl e)
  rintro _ _ ⟨⟩
  dsimp only
  split
  · exact Confined.refl e
  · apply Confined.bind
    · exact ⟨rfl, rfl, Or.inr (Or.inl rfl)⟩
    · intro _ e₁ _
      exact confined_installCommitted faults e₁

theorem confined_finishCommit (merged : Snapshot R) (e : Engine R) :
  Confined e (after (finishCommit faults merged) e)
  := by
  apply Confined.bind
  · exact ⟨rfl, rfl, Or.inr (Or.inl rfl)⟩
  · intro _ e₁ _
    exact confined_onRegistered _ e₁

omit [Append R] in
theorem confined_throw (err : BoltError) (e : Engine R) :
  Confined e (after (throw err : EngineM R α) e)
  := Confined.refl e

theorem confined_publish (work committed merged : Snapshot R) (e : Engine R) :
  Confined e (after (publish faults work committed merged) e)
  := by
  apply Confined.bind (Confined.refl e)
  rintro _ _ ⟨⟩
  split
  · exact confined_finishCommit faults merged e
  · split
    · exact confined_finishCommit faults _ e
    · apply Confined.bind
      · exact ⟨rfl, rfl, Or.inl rfl⟩
      · intro _ e₁ _
        split
        · apply Confined.bind (confined_rollbackTransaction faults e₁)
          intro _ e₂ _
          exact confined_throw _ e₂
        · exact confined_finishCommit faults _ e₁

theorem confined_commitTransaction :
  Confined e (after (commitTransaction faults) e)
  := by
  apply Confined.bind (Confined.refl e)
  rintro _ _ ⟨⟩
  split
  · exact confined_throw _ e
  · split
    · apply Confined.bind (confined_rollbackTransaction faults e)
      intro _ e₁ _
      exact confined_throw _ e₁
    · split
      · exact confined_throw _ e
      · split
        · apply Confined.bind (confined_rollbackTransaction faults e)
          intro _ e₁ _
          exact confined_throw _ e₁
        · exact confined_publish faults _ _ _ e

theorem confined_beginTransaction :
  Confined e (after beginTransaction e)
  := by
  apply Confined.bind (Confined.refl e)
  rintro _ _ ⟨⟩
  dsimp only
  split
  · exact Confined.refl e
  · split
    · exact ⟨rfl, rfl, Or.inr (Or.inr rfl)⟩
    · split
      · exact ⟨rfl, rfl, Or.inr (Or.inr rfl)⟩
      · split
        · exact Confined.refl e
        · exact ⟨rfl, rfl, Or.inr (Or.inr rfl)⟩

omit [Append R] in
theorem ensureTransactionUsable_cases :
  ensureTransactionUsable e = .ok () e ∨ ∃ err, ensureTransactionUsable e = .error err e
  := by
  simp only [ensureTransactionUsable, run_bind, run_get]
  cases e.txn with
  | none => exact Or.inl rfl
  | some t =>
    cases haborted : t.aborted with
    | true =>
      simp only [haborted, if_true]
      exact Or.inr ⟨_, rfl⟩
    | false =>
      simp only [haborted, Bool.false_eq_true, if_false]
      exact Or.inl rfl

omit [Append R] in
theorem confined_ensureTransactionUsable :
  Confined e (after ensureTransactionUsable e)
  := by
  unfold after
  obtain husable | ⟨err, husable⟩ := ensureTransactionUsable_cases e
  · rw [husable]
    exact Confined.refl e
  · rw [husable]
    exact Confined.refl e

end

theorem confined_savepoint (name : String) (e : Engine R) :
  Confined e (after (savepoint name) e)
  := by
  apply Confined.bind (confined_ensureTransactionUsable e)
  intro _ e₁ _
  apply Confined.bind (Confined.refl e₁)
  rintro _ _ ⟨⟩
  split
  · exact confined_throw _ e₁
  · rename_i t ht
    refine ⟨rfl, rfl, Or.inl ?_⟩
    simp [after, transactionHolder, ht]

omit [Append R] in
theorem savepointIndex_txn {name : String} {t : Transaction R} {kept : List (String × Snapshot R)}
    {s : Snapshot R} (h : e.savepointIndex name = .ok (t, kept, s)) :
  e.txn = some t
  := by
  unfold savepointIndex at h
  cases ht : e.txn with
  | none =>
    rw [ht] at h
    cases h
  | some t' =>
    rw [ht] at h
    dsimp only at h
    split at h
    · cases h
    · cases h
      rfl

theorem confined_rollbackToSavepoint (name : String) (e : Engine R) :
  Confined e (after (rollbackToSavepoint faults name) e)
  := by
  apply Confined.bind (Confined.refl e)
  rintro _ _ ⟨⟩
  split
  · exact confined_throw _ e
  · rename_i t kept s hfound
    apply Confined.bind
    · refine ⟨rfl, rfl, Or.inl ?_⟩
      rw [transactionHolder, transactionHolder, savepointIndex_txn hfound]
      rfl
    · intro _ e₁ _
      exact confined_onRegistered _ e₁

theorem confined_releaseSavepoint (name : String) (e : Engine R) :
  Confined e (after (releaseSavepoint name) e)
  := by
  apply Confined.bind (confined_ensureTransactionUsable e)
  intro _ e₁ _
  apply Confined.bind (Confined.refl e₁)
  rintro _ _ ⟨⟩
  split
  · exact confined_throw _ e₁
  · rename_i t kept s hfound
    refine ⟨rfl, rfl, Or.inl ?_⟩
    rw [transactionHolder, transactionHolder, savepointIndex_txn hfound]
    rfl

omit [Append R] in
theorem abortTransactionOnError_holder (e : Engine R) :
  e.abortTransactionOnError.transactionHolder = e.transactionHolder
  := by
  unfold transactionHolder abortTransactionOnError
  cases e.txn <;> rfl

theorem confined_executeStatement (st : Statement R) (e : Engine R) :
  Confined e (after (executeStatement faults st) e)
  := by
  apply Confined.bind (confined_ensureTransactionUsable e)
  intro _ e₁ _
  have h := confined_onRegistered (runStatement faults st) e₁
  unfold after at h ⊢
  dsimp only
  cases hrun : onRegistered (runStatement faults st) e₁ with
  | ok x e₂ =>
    rw [hrun] at h
    exact h
  | error err e₂ =>
    rw [hrun] at h
    refine ⟨h.parked, h.currentSession, ?_⟩
    dsimp only
    rw [abortTransactionOnError_holder]
    exact h.holder

theorem executeStatement_holder (st : Statement R) (e : Engine R) :
  (after (executeStatement faults st) e).transactionHolder = e.transactionHolder
  := by
  unfold after executeStatement
  simp only [bind, EStateM.bind]
  obtain husable | ⟨err, husable⟩ := ensureTransactionUsable_cases e
  · simp only [husable]
    obtain ⟨x, r, hrun⟩ | ⟨err, r, hrun⟩ := onRegistered_cases (runStatement faults st) e
    · simp only [hrun]
      rfl
    · simp only [hrun, abortTransactionOnError_holder]
      rfl
  · simp only [husable]

/-- An action touches no transaction but the installed one. -/
theorem confined_runAction (action : Action R) (e : Engine R) :
  Confined e (after (runAction faults action) e)
  := by
  cases action with
  | statement st => exact confined_executeStatement faults st e
  | beginTransaction => exact confined_beginTransaction e
  | commitTransaction => exact confined_commitTransaction faults e
  | rollbackTransaction => exact confined_rollbackTransaction faults e
  | savepoint name => exact confined_savepoint name e
  | rollbackToSavepoint name => exact confined_rollbackToSavepoint faults name e
  | releaseSavepoint name => exact confined_releaseSavepoint name e

theorem confined_runActions (actions : List (Action R × Faults)) (e : Engine R) :
  Confined e (after (runActions actions) e)
  := by
  induction actions generalizing e with
  | nil => exact Confined.refl e
  | cons p rest ih =>
    apply Confined.bind (confined_runAction p.2 p.1 e)
    intro _ e₁ _
    exact ih e₁

/-! ### Activating a session -/

/-- The installed transaction, if any, is the session's, and the session has none parked. -/
structure Installed (e : Engine R) (a : Option Nat) : Prop where
  own : e.transactionHolder = none ∨ e.transactionHolder = some a
  unparked : e.parked a = none

omit [Append R] in
theorem Installed.filed (h : e.Installed a)
    (hparked : ∀ s t work, e.parked s = some (t, work) → t.session = s) :
  e.Filed
  := by
  refine ⟨hparked, ?_⟩
  intro t ht
  have hsome : e.transactionHolder = some t.session := by
    rw [transactionHolder, ht, map_some]
  obtain hnone | hown := h.own
  · rw [hnone] at hsome
    cases hsome
  · rw [hown, some.injEq] at hsome
    rw [← hsome]
    exact h.unparked

omit [Append R] in
/-- The actions of a session leave the transactions of the others alone. -/
theorem Confined.installed (h : Confined e e₁) (hi : e.Installed e.currentSession) :
  e₁.Installed e.currentSession
  := by
  refine ⟨?_, ?_⟩
  · obtain hsame | hnone | hown := h.holder
    · rw [hsame]
      exact hi.own
    · exact Or.inl hnone
    · exact Or.inr hown
  · rw [h.parked]
    exact hi.unparked

omit [Append R] in
theorem Installed.hasTransaction_of_ne (h : e.Installed a) (hb : b ≠ a) :
  e.hasTransaction b = (e.parked b).isSome
  := by
  rw [Bool.eq_iff_iff, hasTransaction_iff]
  constructor
  · rintro (hholder | hparked)
    · obtain hnone | hown := h.own
      · rw [hnone] at hholder
        cases hholder
      · rw [hown, some.injEq] at hholder
        exact absurd hholder.symm hb
    · exact hparked
  · exact Or.inr

omit [Append R] in
theorem Installed.hasTransaction_self (h : e.Installed a) :
  e.hasTransaction a = e.txn.isSome
  := by
  rw [Bool.eq_iff_iff, hasTransaction_iff, h.unparked]
  unfold transactionHolder
  constructor
  · rintro (hholder | hnone)
    · obtain ⟨t, ht, -⟩ := map_eq_some_iff.mp hholder
      rw [ht]
      rfl
    · cases hnone
  · intro hsome
    obtain ⟨t, ht⟩ := Option.isSome_iff_exists.mp hsome
    obtain hnone | hown := h.own
    · rw [transactionHolder, ht] at hnone
      cases hnone
    · exact Or.inl hown

omit [Append R] in
theorem installCommitted_cases (e : Engine R) :
  ∃ c r, installCommitted faults e = .ok () { e with committed := c, registered := r } ∨
    ∃ err, installCommitted faults e = .error err { e with committed := c, registered := r }
  := by
  simp only [installCommitted, run_bind, run_get]
  cases hc : e.committed with
  | none =>
    exact ⟨e.committed, e.registered, Or.inr ⟨.other "committed state saved", rfl⟩⟩
  | some c =>
    simp only [run_bind, run_modify]
    obtain ⟨x, r, hrun⟩ | ⟨err, r, hrun⟩ :=
      onRegistered_cases (install faults c) { e with committed := none }
    · exact ⟨none, r, Or.inl hrun⟩
    · exact ⟨none, r, Or.inr ⟨err, hrun⟩⟩

omit [Append R] in
/-- A session is activated with all transactions still open, or fails with at most its own lost. -/
theorem activateSession_cases (h : e.Filed) (faults : Faults) (a : Option Nat) :
  (∃ e', activateSession faults a e = .ok () e' ∧ e'.Filed ∧ e'.Installed a ∧
      ∀ b, e'.hasTransaction b = e.hasTransaction b) ∨
    ∃ err e', activateSession faults a e = .error err e' ∧ e'.Filed ∧ e'.txn = none ∧
      ∀ b, b ≠ a → e'.hasTransaction b = e.hasTransaction b
  := by
  simp only [activateSession, run_bind, run_get]
  by_cases htarget : e.transactionHolder = if e.hasTransaction a then some a else none
  · -- the state is installed already
    rw [if_pos htarget]
    refine Or.inl ⟨e, rfl, h, ?_, fun _ => rfl⟩
    split at htarget
    · refine ⟨Or.inr htarget, ?_⟩
      obtain ⟨t, ht, hsession⟩ := map_eq_some_iff.mp htarget
      rw [← hsession]
      exact h.apart t ht
    · rename_i hopen
      refine ⟨Or.inl htarget, ?_⟩
      rw [hasTransaction_iff, not_or] at hopen
      exact Option.not_isSome_iff_eq_none.mp hopen.2
  · rw [if_neg htarget]
    simp only [run_bind, run_set]
    cases hopen : e.hasTransaction a with
    | false =>
      simp only [Bool.false_eq_true, if_false]
      obtain ⟨c, r, hrun | ⟨err, hrun⟩⟩ := installCommitted_cases faults e.park
      · have hfiled : Filed { e.park with committed := c, registered := r } :=
          h.park.congr rfl rfl
        have hsame : ∀ b, hasTransaction { e.park with committed := c, registered := r } b =
            e.hasTransaction b := by
          intro b
          rw [← park_hasTransaction e b]
          exact hasTransaction_congr rfl rfl
        refine Or.inl ⟨_, hrun, hfiled, ⟨Or.inl (by simp [transactionHolder]), ?_⟩, hsame⟩
        have hclosed := hsame a
        rw [hopen, Bool.eq_false_iff, ne_eq, hasTransaction_iff, not_or] at hclosed
        exact Option.not_isSome_iff_eq_none.mp hclosed.2
      · refine Or.inr ⟨err, _, hrun, h.park.congr rfl rfl, by simp, ?_⟩
        intro b _
        rw [← park_hasTransaction e b]
        exact hasTransaction_congr rfl rfl
    | true =>
      simp only [if_true]
      cases hparked : e.park.parked a with
      | none =>
        refine Or.inr ⟨_, e.park, rfl, h.park, by simp, ?_⟩
        intro b _
        exact park_hasTransaction e b
      | some p =>
        obtain ⟨t, work⟩ := p
        have hsession : t.session = a := h.park.parked a t work hparked
        have hfiled : ∀ s t' work', update e.park.parked a none s = some (t', work') →
            t'.session = s := by
          intro s t' work' hs
          by_cases hsa : s = a
          · rw [hsa, update_self] at hs
            cases hs
          · rw [update_of_ne hsa] at hs
            exact h.park.parked s t' work' hs
        simp only [run_bind, run_modify]
        obtain ⟨x, r, hrun⟩ | ⟨err, r, hrun⟩ := onRegistered_cases
          (install faults work) { e.park with parked := update e.park.parked a none }
        · rw [hrun]
          let e' : Engine R := { e.park with
            parked := update e.park.parked a none, registered := r, txn := some t }
          have hinstalled : e'.Installed a := by
            refine ⟨Or.inr ?_, update_self ..⟩
            rw [transactionHolder, map_some, hsession]
          refine Or.inl ⟨e', rfl, hinstalled.filed hfiled, hinstalled, ?_⟩
          intro b
          by_cases hb : b = a
          · rw [hb, hinstalled.hasTransaction_self, hopen]
            rfl
          · rw [hinstalled.hasTransaction_of_ne hb, ← park_hasTransaction]
            simp [hasTransaction, e', update_of_ne hb]
        · rw [hrun]
          refine Or.inr ⟨err, _, rfl, ⟨hfiled, by simp⟩, by simp, ?_⟩
          intro b hb
          rw [← park_hasTransaction e b]
          simp [hasTransaction, transactionHolder, update_of_ne hb]

/-! ### Jobs of the runtime -/

/-- The engine of a job whose session is activated. -/
theorem runActions_filed (hfiled : e.Filed) (hi : e.Installed a)
    (actions : List (Action R × Faults)) :
  Filed { after (runActions actions) { e with currentSession := a } with currentSession := none } ∧
    ∀ b, b ≠ a → hasTransaction
      { after (runActions actions) { e with currentSession := a } with currentSession := none } b =
        e.hasTransaction b
  := by
  have hconfined := confined_runActions actions { e with currentSession := a }
  have hstart : Installed { e with currentSession := a } a := ⟨hi.own, hi.unparked⟩
  have hinstalled := hconfined.installed hstart
  have hparked : (after (runActions actions) { e with currentSession := a }).parked = e.parked :=
    hconfined.parked
  have hkeyed : ∀ s t work, (after (runActions actions) { e with currentSession := a }).parked s =
      some (t, work) → t.session = s := by
    rw [hparked]
    exact hfiled.parked
  refine ⟨(hinstalled.filed hkeyed).congr rfl rfl, ?_⟩
  intro b hb
  have hafter := hinstalled.hasTransaction_of_ne hb
  rw [hparked] at hafter
  exact (hasTransaction_congr rfl rfl).trans (hafter.trans (hi.hasTransaction_of_ne hb).symm)

omit [Append R] in
theorem activateCommitted_cases (h : e.Filed) (faults : Faults) :
  ∃ e', (activateCommitted faults e = .ok () e' ∨
      ∃ err, activateCommitted faults e = .error err e') ∧
    e'.Filed ∧ ∀ b, e'.hasTransaction b = e.hasTransaction b
  := by
  simp only [activateCommitted, run_bind, run_get]
  cases e.txn with
  | none => exact ⟨e, Or.inl rfl, h, fun _ => rfl⟩
  | some t =>
    simp only [run_bind, run_set]
    obtain ⟨c, r, hrun⟩ := installCommitted_cases faults e.park
    refine ⟨_, hrun, h.park.congr rfl rfl, ?_⟩
    intro b
    rw [← park_hasTransaction e b]
    exact hasTransaction_congr rfl rfl

/-- A refresh of views opens and ends no transaction. -/
theorem runJob_refresh (h : e.Filed) (views : Statement R) (activation faults : Faults) :
  (e.runJob (.refresh views activation faults)).Filed ∧
    ∀ b, (e.runJob (.refresh views activation faults)).hasTransaction b = e.hasTransaction b
  := by
  obtain ⟨e', hrun | ⟨err, hrun⟩, hfiled, hsame⟩ := activateCommitted_cases h activation
  · have hconfined := confined_executeStatement faults views e'
    have hholder := executeStatement_holder faults views e'
    simp only [runJob, hrun]
    refine ⟨hfiled.congr hholder hconfined.parked, ?_⟩
    intro b
    rw [hasTransaction_congr hholder hconfined.parked, hsame]
  · simp only [runJob, hrun]
    exact ⟨hfiled, hsame⟩

omit [Append R] in
theorem rollbackTransaction_cases (ht : e.txn.isSome = true) :
  ∃ c r, rollbackTransaction faults e =
        .ok () { e with txn := none, committed := c, registered := r } ∨
    ∃ err, rollbackTransaction faults e =
      .error err { e with txn := none, committed := c, registered := r }
  := by
  simp only [rollbackTransaction, run_bind, run_get]
  have hopen : ¬ e.txn.isNone = true := by simp [Option.isSome_iff_ne_none.mp ht]
  rw [if_neg hopen]
  exact installCommitted_cases faults { e with txn := none }

omit [Append R] in
theorem unpark_spec (h : e.Filed) (htxn : e.txn = none) (a : Option Nat) :
  (e.unpark a).Filed ∧ (e.unpark a).hasTransaction a = false ∧
    ∀ b, b ≠ a → (e.unpark a).hasTransaction b = e.hasTransaction b
  := by
  refine ⟨⟨?_, ?_⟩, ?_, ?_⟩
  · intro s t work hs
    by_cases hsa : s = a
    · simp only [unpark, hsa, update_self] at hs
      cases hs
    · simp only [unpark, update_of_ne hsa] at hs
      exact h.parked s t work hs
  · intro t ht
    simp only [unpark, htxn] at ht
    cases ht
  · simp [hasTransaction, transactionHolder, unpark, htxn]
  · intro b hb
    simp [hasTransaction, transactionHolder, unpark, update_of_ne hb]

end CratonBolt.Engine
