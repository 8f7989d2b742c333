import CratonBolt.Transactions.Isolated

/-!
# Activating sessions

The engine has one registered state for all sessions. Activating a session takes that state aside
and installs the session's own. What carries the argument is the invariant on versions: two states
that can be installed one after the other have equal rows where they have equal versions.
-/

namespace CratonBolt

open Std Option Function
open Registered (capture install)

variable {R : Type}

/-! ### The catalog of each state -/

/-- What a catalog keeps while states are installed. -/
structure Flags where
  readOnly : Bool
  published : Manifest

def Registered.flags (r : Registered R) : Option Flags :=
  r.catalog.map (fun c => ⟨c.readOnly, c.published⟩)

/-- The catalog of a state: outside a transaction the published manifest, inside one that began
with `base` any manifest over the one at the beginning. A read-only catalog has no transactions. -/
def CatalogFits (flags : Option Flags) (base : Option (Snapshot R)) (s : Snapshot R) : Prop :=
  match flags with
  | none => s.catalog = none
  | some f =>
    match base with
    | none => s.catalog = some ⟨f.published, none⟩
    | some b =>
      if f.readOnly then s.catalog = some ⟨f.published, none⟩
      else ∃ m mb, s.catalog = some ⟨m, some mb⟩ ∧ b.catalog = some ⟨mb, some mb⟩

variable {s : Snapshot R} {i : Isolated R} {t : Transaction R}

theorem CatalogFits.isSome {flags : Option Flags} {base : Option (Snapshot R)}
    (h : CatalogFits flags base s) :
  s.catalog.isSome = flags.isSome
  := by
  unfold CatalogFits at h
  cases flags with
  | none => rw [h]; rfl
  | some f =>
    cases base with
    | none => rw [h]; rfl
    | some b =>
      dsimp only at h
      split at h
      · rw [h]; rfl
      · obtain ⟨m, mb, hs, -⟩ := h
        rw [hs]; rfl

/-- The catalogs of all states fit. -/
structure CatalogGood (flags : Option Flags) (i : Isolated R) : Prop where
  committed : CatalogFits flags none i.committed
  opened : ∀ a t work s, i.opened a = some (t, work) → s ∈ t.snapshots work →
    CatalogFits flags (some t.base) s

theorem Registered.Effect.catalog_cases {r r' : Registered R} (h : Registered.Effect r r') :
  r.catalog = none ∧ r'.catalog = none ∨
    ∃ c c', r.catalog = some c ∧ r'.catalog = some c' ∧ CatalogEffect c c'
  := by
  generalize hc : r.catalog = c, hc' : r'.catalog = c'
  have hcat := h.catalog
  rw [hc, hc'] at hcat
  cases hcat with
  | none => exact Or.inl ⟨rfl, rfl⟩
  | some heffect => exact Or.inr ⟨_, _, rfl, rfl, heffect⟩

section Effects

variable {r r' : Registered R} (h : Registered.Effect r r')

include h

/-- A statement outside transactions. -/
theorem catalogFits_outside (hfits : CatalogFits r.flags none r.capture) :
  CatalogFits r'.flags none r'.capture ∧
    ∀ (b s : Snapshot R), CatalogFits r.flags (some b) s → CatalogFits r'.flags (some b) s
  := by
  obtain ⟨hc, hc'⟩ | ⟨c, c', hc, hc', heffect⟩ := h.catalog_cases
  · simp only [CatalogFits, Registered.flags, capture, hc, hc', map_none] at *
    exact ⟨trivial, fun _ _ h => h⟩
  · simp only [CatalogFits, Registered.flags, capture, hc, hc', map_some,
      Catalog.state, some.injEq, CatalogState.mk.injEq] at *
    refine ⟨⟨(heffect.outside hfits.2 hfits.1.symm).symm, heffect.txnBase.trans hfits.2⟩, ?_⟩
    intro b s hs
    by_cases hro : c.readOnly = true
    · rw [heffect.unchanged hro]
      exact hs
    · rw [heffect.readOnly, if_neg hro]
      rwa [if_neg hro] at hs

/-- A statement inside a transaction. -/
theorem catalogFits_inside {b : Snapshot R} (hfits : CatalogFits r.flags (some b) r.capture) :
  CatalogFits r'.flags (some b) r'.capture ∧ r'.flags = r.flags
  := by
  obtain ⟨hc, hc'⟩ | ⟨c, c', hc, hc', heffect⟩ := h.catalog_cases
  · simp only [CatalogFits, Registered.flags, capture, hc, hc', map_none] at *
    exact ⟨trivial, trivial⟩
  · simp only [CatalogFits, Registered.flags, capture, hc, hc', map_some,
      Catalog.state, some.injEq, CatalogState.mk.injEq, Flags.mk.injEq] at *
    by_cases hro : c.readOnly = true
    · rw [heffect.unchanged hro]
      exact ⟨hfits, rfl, rfl⟩
    · rw [if_neg hro] at hfits
      obtain ⟨m, mb, ⟨hm, htxn⟩, hb⟩ := hfits
      have hsome : c.txnBase ≠ none := by
        rw [htxn]
        exact some_ne_none mb
      rw [heffect.readOnly, if_neg hro, heffect.txnBase, heffect.inside hsome]
      exact ⟨⟨c'.manifest, mb, ⟨rfl, htxn⟩, hb⟩, rfl, rfl⟩

theorem advance_of_effect (hr : r.Settled) (hbound : r'.dataEpoch < 2 ^ 64) :
  Isolated.Advance r.dataEpoch r'.dataEpoch r.capture r'.capture
  := by
  refine ⟨(h.settled hr).capture, ?_⟩
  intro n
  obtain hkept | ⟨v, hlt, hle, hv⟩ := h.slots n
  · exact Or.inl hkept
  · refine Or.inr ⟨v, hlt, hle, ?_⟩
    rw [Nat.mod_eq_of_lt (by omega)] at hv
    exact hv

end Effects

/-! ### The states of the engine -/

namespace Engine

/-- The committed state, wherever it is. -/
def committedState (e : Engine R) : Snapshot R :=
  match e.txn, e.committed with
  | some _, some c => c
  | _, _ => e.capture

/-- The open transaction of a session with its state, wherever it is. -/
def opened (e : Engine R) (a : Option Nat) : Option (Transaction R × Snapshot R) :=
  match e.txn with
  | some t => if t.session = a then some (t, e.capture) else e.parked a
  | none => e.parked a

/-- What the sessions of the engine are meant to see. -/
def isolated (e : Engine R) : Isolated R := ⟨e.committedState, e.opened⟩

/-- The invariant of the engine. -/
structure Inv (e : Engine R) : Prop where
  settled : e.registered.Settled
  kept : e.txn.isSome = e.committed.isSome
  apart : ∀ t, e.txn = some t → e.parked t.session = none
  good : e.isolated.Good e.registered.dataEpoch
  catalog : CatalogGood e.registered.flags e.isolated

/-- The state of the session is installed. -/
def Active (e : Engine R) (a : Option Nat) : Prop :=
  match e.opened a with
  | some (t, work) => e.txn = some t ∧ work = e.capture
  | none => e.txn = none

variable {e : Engine R} {faults : Faults} {a : Option Nat}

theorem Active.visible (h : e.Active a) :
  e.isolated.visible a = e.capture
  := by
  unfold Active at h
  unfold Isolated.visible isolated
  dsimp only
  cases ho : e.opened a with
  | some p =>
    rw [ho] at h
    exact h.2
  | none =>
    rw [ho] at h
    dsimp only at h ⊢
    rw [committedState, h]

theorem capture_member (e : Engine R) :
  ∃ who, e.isolated.Member who e.capture
  := by
  cases ht : e.txn with
  | none =>
    refine ⟨none, ?_⟩
    simp only [Isolated.Member, isolated, committedState, ht]
  | some t =>
    refine ⟨some t.session, t, e.capture, ?_, List.mem_cons_self⟩
    simp only [isolated, opened, ht, if_pos]

/-! ### Installing a state -/

/-- Nothing fails while a state is installed. -/
def Installs (faults : Faults) : Prop :=
  (∀ n, faults.register n = none) ∧ ∀ n, faults.openTable n = none

theorem flags_isSome (r : Registered R) :
  r.flags.isSome = r.catalog.isSome
  := isSome_map

theorem install_shows {r : Registered R} (hf : Installs faults) (hr : r.Settled)
    (hs : s.Settled) (hagree : r.capture.Agree s) (hcat : s.catalog.isSome = r.flags.isSome) :
  ∃ r', install faults s r = .ok () r' ∧ Shows r' s ∧ r'.flags = r.flags ∧
    r.dataEpoch ≤ r'.dataEpoch
  := by
  have hsome : r.catalog.isSome = s.catalog.isSome := by rw [hcat, flags_isSome]
  obtain ⟨r', hrun, hshows, hcat', hepoch⟩ := Registered.install_ok hf.1 hf.2 hr hs hsome hagree
  refine ⟨r', hrun, hshows, ?_, Nat.le_of_lt hepoch⟩
  unfold Registered.flags
  rw [hcat']
  unfold Registered.shownCatalog
  cases hc : r.catalog with
  | none => rfl
  | some c => cases s.catalog <;> rfl

/-- A state of the engine's sessions can be installed. -/
theorem install_member (h : e.Inv) (hf : Installs faults) {who : Option (Option Nat)}
    (hs : e.isolated.Member who s) :
  ∃ r', install faults s e.registered = .ok () r' ∧ Shows r' s ∧
    r'.flags = e.registered.flags ∧ e.registered.dataEpoch ≤ r'.dataEpoch
  := by
  obtain ⟨who', hcapture⟩ := e.capture_member
  apply install_shows hf h.settled (h.good.settled who s hs) (h.good.agree who' _ who s hcapture hs)
  cases who with
  | none =>
    rw [show s = e.isolated.committed from hs]
    exact h.catalog.committed.isSome
  | some a =>
    obtain ⟨t, work, ht, hmem⟩ := hs
    exact (h.catalog.opened a t work s ht hmem).isSome

/-- Parking takes the installed state aside. -/
theorem park_spec (h : e.Inv) :
  e.park.txn = none ∧ e.park.committed = some e.committedState ∧ e.park.parked = e.opened ∧
    e.park.registered = e.registered
  := by
  unfold park committedState opened
  cases ht : e.txn with
  | none => exact ⟨rfl, rfl, rfl, rfl⟩
  | some t =>
    have hkept := h.kept
    rw [ht, isSome_some, eq_comm, isSome_iff_exists] at hkept
    obtain ⟨c, hc⟩ := hkept
    simp only [hc]
    refine ⟨trivial, trivial, ?_, trivial⟩
    funext b
    by_cases hb : t.session = b
    · subst hb
      rw [if_pos rfl]
      exact update_self _ _ _
    · rw [if_neg hb]
      exact update_of_ne (Ne.symm hb) _ _

/-- The committed state is installed. -/
theorem inv_outside (htxn : e.txn = none) (hcommitted : e.committed = none)
    (hparked : e.parked = i.opened) (hshows : Shows e.registered i.committed)
    (hgood : i.Good e.registered.dataEpoch) (hcat : CatalogGood e.registered.flags i) :
  e.isolated = i ∧ e.Inv
  := by
  have hisolated : e.isolated = i := by
    have hopened : e.opened = i.opened := by
      funext b
      rw [opened, htxn, ← hparked]
    rw [isolated, hopened, committedState, htxn]
    dsimp only
    rw [capture, hshows.capture]
  refine ⟨hisolated, hshows.settled, ?_, ?_, ?_, ?_⟩
  · rw [htxn, hcommitted]
    rfl
  · intro t ht
    rw [htxn] at ht
    cases ht
  · rwa [hisolated]
  · rwa [hisolated]

/-- The state of a transaction is installed. -/
theorem inv_inside {work : Snapshot R} (ho : i.opened a = some (t, work)) (htxn : e.txn = some t)
    (hcommitted : e.committed = some i.committed) (hparked : e.parked = update i.opened a none)
    (hshows : Shows e.registered work) (hgood : i.Good e.registered.dataEpoch)
    (hcat : CatalogGood e.registered.flags i) :
  e.isolated = i ∧ e.Inv
  := by
  have hsession : t.session = a := hgood.session a t work ho
  have hisolated : e.isolated = i := by
    have hopened : e.opened = i.opened := by
      funext b
      rw [opened, htxn]
      dsimp only
      by_cases hb : t.session = b
      · rw [if_pos hb, ← hb, hsession, ho, capture, hshows.capture]
      · rw [if_neg hb, hparked]
        rw [hsession] at hb
        exact update_of_ne (Ne.symm hb) _ _
    rw [isolated, hopened, committedState, htxn, hcommitted]
  refine ⟨hisolated, hshows.settled, ?_, ?_, ?_, ?_⟩
  · rw [htxn, hcommitted]
    rfl
  · intro t' ht'
    rw [htxn, some.injEq] at ht'
    rw [← ht', hparked, hsession]
    exact update_self _ _ _
  · rwa [hisolated]
  · rwa [hisolated]

/-- The shape of an engine with an installed transaction. -/
theorem Inv.inside (h : e.Inv) (ht : e.txn = some t) :
  e.isolated.opened t.session = some (t, e.capture) ∧ e.committed = some e.isolated.committed ∧
    e.parked = update e.isolated.opened t.session none
  := by
  have hkept := h.kept
  rw [ht, isSome_some, eq_comm, isSome_iff_exists] at hkept
  obtain ⟨c, hc⟩ := hkept
  refine ⟨?_, ?_, ?_⟩
  · simp only [isolated, opened, ht, if_pos]
  · simp only [isolated, committedState, ht, hc]
  · funext b
    by_cases hb : b = t.session
    · rw [hb, h.apart t ht, update_self]
    · rw [update_of_ne hb]
      simp only [isolated, opened, ht, if_neg (Ne.symm hb)]

/-- The shape of an engine without an installed transaction. -/
theorem Inv.outside (h : e.Inv) (ht : e.txn = none) :
  e.committed = none ∧ e.parked = e.isolated.opened ∧ e.isolated.committed = e.capture
  := by
  have hkept := h.kept
  rw [ht, isSome_none, eq_comm, isSome_eq_false_iff,
    isNone_iff_eq_none] at hkept
  refine ⟨hkept, ?_, ?_⟩
  · funext b
    simp only [isolated, opened, ht]
  · simp only [isolated, committedState, ht]

theorem hasTransaction_eq (e : Engine R) (a : Option Nat) :
  e.hasTransaction a = (e.opened a).isSome
  := by
  unfold hasTransaction transactionHolder opened
  cases ht : e.txn with
  | none => simp
  | some t =>
    by_cases hb : t.session = a
    · simp [hb]
    · simp [hb]

/-! ### Activating a session -/

theorem installCommitted_ok (h : e.Inv) (hf : Installs faults) (e₁ : Engine R)
    (hcommitted : e₁.committed = some e.isolated.committed) (hreg : e₁.registered = e.registered) :
  ∃ r', installCommitted faults e₁ = .ok () { e₁ with committed := none, registered := r' } ∧
    Shows r' e.isolated.committed ∧ r'.flags = e.registered.flags ∧
    e.registered.dataEpoch ≤ r'.dataEpoch
  := by
  obtain ⟨r', hrun, hrest⟩ := install_member h hf
    (show e.isolated.Member none e.isolated.committed from rfl)
  refine ⟨r', ?_, hrest⟩
  simp [installCommitted, hcommitted, onRegistered, hreg, hrun]

/-- The committed state becomes the installed one, after parking. -/
theorem installCommitted_park (h : e.Inv) (hf : Installs faults) :
  ∃ e', installCommitted faults e.park = .ok () e' ∧ e'.Inv ∧ e'.isolated = e.isolated ∧
    e'.txn = none ∧ e.registered.dataEpoch ≤ e'.registered.dataEpoch ∧
    e'.registered.flags = e.registered.flags
  := by
  obtain ⟨htxn, hcommitted, hparked, hreg⟩ := park_spec h
  obtain ⟨r', hrun, hshows, hflags, hepoch⟩ := installCommitted_ok h hf e.park hcommitted hreg
  have hinv := inv_outside (i := e.isolated)
    (e := { e.park with committed := none, registered := r' }) htxn rfl hparked hshows
    (h.good.mono hepoch) (by rw [hflags]; exact h.catalog)
  exact ⟨_, hrun, hinv.2, hinv.1, htxn, hepoch, hflags⟩

theorem activateSession_ok (h : e.Inv) (hf : Installs faults) (a : Option Nat) :
  ∃ e', activateSession faults a e = .ok () e' ∧ e'.Inv ∧ e'.isolated = e.isolated ∧ e'.Active a ∧
    e.registered.dataEpoch ≤ e'.registered.dataEpoch ∧ e'.registered.flags = e.registered.flags
  := by
  unfold activateSession
  simp [hasTransaction_eq]
  cases ho : e.opened a with
  | none =>
    simp only [isSome_none, Bool.false_eq_true, if_false]
    cases ht : e.txn with
    | none =>
      have hholder : e.transactionHolder = none := by rw [transactionHolder, ht, map_none]
      rw [if_pos hholder]
      refine ⟨e, rfl, h, rfl, ?_, Nat.le_refl _, rfl⟩
      simp only [Active, ho, ht]
    | some t =>
      have hholder : e.transactionHolder ≠ none := by
        rw [transactionHolder, ht, map_some]
        exact some_ne_none _
      rw [if_neg hholder]
      obtain ⟨e', hrun, hinv, hisolated, htxn, hepoch, hflags⟩ := installCommitted_park h hf
      refine ⟨e', hrun, hinv, hisolated, ?_, hepoch, hflags⟩
      have ho' : e'.opened a = none := by
        rw [← ho]
        exact congrFun (congrArg Isolated.opened hisolated) a
      simp only [Active, ho', htxn]
  | some p =>
    obtain ⟨t, work⟩ := p
    simp only [isSome_some, if_true]
    have hsession : t.session = a := h.good.session a t work ho
    by_cases hholder : e.transactionHolder = some a
    · rw [if_pos hholder]
      refine ⟨e, rfl, h, rfl, ?_, Nat.le_refl _, rfl⟩
      rw [transactionHolder, map_eq_some_iff] at hholder
      obtain ⟨t', ht', hsession'⟩ := hholder
      have ho' := ho
      rw [opened, ht'] at ho'
      dsimp only at ho'
      rw [if_pos hsession', some.injEq, Prod.mk.injEq] at ho'
      simp only [Active, ho, ht', ho'.1, ho'.2, and_self]
    · rw [if_neg hholder]
      obtain ⟨htxn, hcommitted, hparked, hreg⟩ := park_spec h
      obtain ⟨r', hrun, hshows, hflags, hepoch⟩ := install_member h hf
        (show e.isolated.Member (some a) work from ⟨t, work, ho, List.mem_cons_self⟩)
      let e' : Engine R := { e.park with
        parked := update e.park.parked a none
        registered := r'
        txn := some t }
      have hothers : e'.parked = update e.isolated.opened a none := by
        simp only [e', hparked, isolated]
      have hinv := inv_inside (e := e') (i := e.isolated) ho rfl hcommitted hothers hshows
        (h.good.mono hepoch) (by rw [hflags]; exact h.catalog)
      refine ⟨e', ?_, hinv.2, hinv.1, ?_, hepoch, hflags⟩
      · have hp : e.park.parked a = some (t, work) := by rw [hparked, ho]
        simp [hp, onRegistered, hreg, hrun, e']
      · have ho' : e'.opened a = some (t, work) := by
          rw [← ho]
          exact congrFun (congrArg Isolated.opened hinv.1) a
        simp only [Active, ho', capture, e', hshows.capture, and_self]

end Engine

end CratonBolt
