import CratonBolt.Transactions.Merge
import CratonBolt.Transactions.Statements

/-!
# Isolated sessions

What sessions with transactions are meant to see. Each open transaction has a state of its own,
which starts as the committed state and which only its session's statements change; a session
without a transaction works on the committed state. Nothing is parked, captured or installed here.
-/

namespace CratonBolt

open Std List
open Option (some)

variable {R : Type} {a : Option Nat}

/-- The committed state, and the open transactions with their states. -/
structure Isolated (R : Type) where
  committed : Snapshot R
  opened : Option Nat → Option (Transaction R × Snapshot R)

namespace Isolated

/-- What a session sees. -/
def visible (i : Isolated R) (session : Option Nat) : Snapshot R :=
  match i.opened session with
  | some (_, work) => work
  | none => i.committed

/-- Open, change or close the transaction of a session. -/
def set (i : Isolated R) (session : Option Nat) (t : Option (Transaction R × Snapshot R)) :
    Isolated R :=
  { i with opened := Function.update i.opened session t }

/-- A transaction begins with the tables and views of the committed state. -/
def Begins (committed base : Snapshot R) : Prop :=
  ∃ c, base = { committed with catalog := c } ∧
    c.map CatalogState.manifest = committed.catalog.map CatalogState.manifest

variable [Append R]

/-- A statement that sees `s`. -/
def Statement (faults : Faults) (st : CratonBolt.Statement R) (s s' : Snapshot R) (failed : Bool) :
    Prop :=
  ∃ r, Shows r s ∧ s' = (Registered.final (Registered.runStatement faults st) r).capture ∧
    (failed = true ↔ ∃ err r', Registered.runStatement faults st r = .error err r')

/-- What an action of a session may do. -/
def Acts (i : Isolated R) (session : Option Nat) (faults : Faults) :
    Action R → Isolated R → Prop
  | .statement st, i' =>
    match i.opened session with
    | some (t, work) =>
      if t.aborted then i' = i
      else ∃ work' failed, Statement faults st work work' failed ∧
        i' = i.set session (some ({ t with aborted := failed }, work'))
    | none => ∃ committed' failed, Statement faults st i.committed committed' failed ∧
        i' = { i with committed := committed' }
  | .beginTransaction, i' =>
    match i.opened session with
    | some _ => i' = i
    | none => ∃ base, Begins i.committed base ∧
        i' = i.set session (some (⟨session, false, base, []⟩, base))
  | .commitTransaction, i' =>
    match i.opened session with
    | some (t, work) => i' = i.set session none ∨
        t.aborted = false ∧ ∃ committed',
          Snapshot.FirstCommitterWins t.base work i.committed committed' ∧
          i' = { i.set session none with committed := committed' }
    | none => i' = i
  | .rollbackTransaction, i' => i' = i.set session none
  | .savepoint name, i' =>
    match i.opened session with
    | some (t, work) =>
      if t.aborted then i' = i
      else i' = i.set session (some ({ t with savepoints := t.savepoints ++ [(name, work)] }, work))
    | none => i' = i
  | .rollbackToSavepoint name, i' =>
    match i.opened session with
    | some (t, _) =>
      match Engine.findSavepoint name t.savepoints with
      | some (kept, saved) =>
        i' = i.set session (some ({ t with savepoints := kept, aborted := false }, saved))
      | none => i' = i
    | none => i' = i
  | .releaseSavepoint name, i' =>
    match i.opened session with
    | some (t, work) =>
      if t.aborted then i' = i
      else
        match Engine.findSavepoint name t.savepoints with
        | some (kept, _) => i' = i.set session (some ({ t with savepoints := kept.dropLast }, work))
        | none => i' = i
    | none => i' = i

/-- One job. -/
def Step (i : Isolated R) : Job R → Isolated R → Prop
  | .run session action _ faults, i' => i.Acts session faults action i'
  | .refresh st _ faults, i' =>
    ∃ committed' failed, Statement faults st i.committed committed' failed ∧
      i' = { i with committed := committed' }

/-- A run of jobs. -/
def Run (i : Isolated R) : List (Job R) → Isolated R → Prop
  | [], i' => i' = i
  | job :: jobs, i' => ∃ i₁, i.Step job i₁ ∧ i₁.Run jobs i'

end Isolated

/-! ### The invariant -/

/-- The states that an open transaction can show. -/
def Transaction.snapshots (t : Transaction R) (work : Snapshot R) : List (Snapshot R) :=
  work :: t.base :: t.savepoints.map Prod.snd

namespace Isolated

/-- The states of the committed side (`none`) or of a session's transaction. -/
def Member (i : Isolated R) : Option (Option Nat) → Snapshot R → Prop
  | none, s => s = i.committed
  | some session, s => ∃ t work, i.opened session = some (t, work) ∧ s ∈ t.snapshots work

/-- The versions in all states tell contents apart. A version that a transaction gave to a name
occurs in no other state. -/
structure Good (epoch : Nat) (i : Isolated R) : Prop where
  session : ∀ a t work, i.opened a = some (t, work) → t.session = a
  settled : ∀ who s, i.Member who s → s.Settled
  bounded : ∀ who s, i.Member who s → ∀ (n : String) v, s.tableVersions[n]? = some v → v ≤ epoch
  agree : ∀ who s who' s', i.Member who s → i.Member who' s' → s.Agree s'
  own : ∀ a t work s, i.opened a = some (t, work) → s ∈ t.snapshots work →
    ∀ (n : String) v, s.tableVersions[n]? = some v → t.base.tableVersions[n]? ≠ some v →
      ∀ who s', who ≠ some a → i.Member who s' → s'.tableVersions[n]? ≠ some v

/-- A state goes on: names keep their version and rows, lose their rows, or get a new version. -/
structure Advance (epoch epoch' : Nat) (s s' : Snapshot R) : Prop where
  settled : s'.Settled
  evolves : ∀ n : String, s'.tableVersions[n]? = s.tableVersions[n]? ∧
      (s'.tables[n]? = s.tables[n]? ∨ s'.tables[n]? = none) ∨
    ∃ v, epoch < v ∧ v ≤ epoch' ∧ s'.tableVersions[n]? = some v

section Advance

variable {epoch epoch' : Nat} {s s' : Snapshot R}

theorem Advance.refl (hs : s.Settled) :
  Advance epoch epoch' s s
  := ⟨hs, fun _ => Or.inl ⟨rfl, Or.inl rfl⟩⟩

theorem Advance.version_cases (h : Advance epoch epoch' s s') {n : String} {v : Nat}
    (hv : s'.tableVersions[n]? = some v) :
  s.tableVersions[n]? = some v ∨ epoch < v ∧ v ≤ epoch'
  := by
  obtain ⟨heq, -⟩ | ⟨v', hlt, hle, heq⟩ := h.evolves n
  · rw [heq] at hv
    exact Or.inl hv
  · rw [heq, some.injEq] at hv
    subst hv
    exact Or.inr ⟨hlt, hle⟩

theorem Advance.agree (h : Advance epoch epoch' s s') {x : Snapshot R} (hx : s.Agree x)
    (hbounded : ∀ (n : String) v, x.tableVersions[n]? = some v → v ≤ epoch) :
  s'.Agree x
  := by
  intro n rows rows' hrows hrows' hv
  obtain ⟨heq, hkept | hgone⟩ | ⟨v, hlt, -, heq⟩ := h.evolves n
  · rw [hkept] at hrows
    exact hx n rows rows' hrows hrows' (heq.symm.trans hv)
  · rw [hgone] at hrows
    cases hrows
  · have := hbounded n v (hv.symm.trans heq)
    omega

end Advance

theorem member_mem {i : Isolated R} {t : Transaction R} {work s : Snapshot R}
    (ht : i.opened a = some (t, work)) :
  i.Member (some a) s ↔ s ∈ t.snapshots work
  := by
  constructor
  · rintro ⟨t', work', ht', hs⟩
    rw [ht, some.injEq, Prod.mk.injEq] at ht'
    rwa [ht'.1, ht'.2]
  · exact fun hs => ⟨t, work, ht, hs⟩

theorem agree_refl (s : Snapshot R) :
  s.Agree s
  := by
  intro n rows rows' hrows hrows' _
  rw [hrows] at hrows'
  exact some.inj hrows'

theorem catalogTables_of_begins {committed base : Snapshot R} (hb : Begins committed base) :
  base.catalogTables = committed.catalogTables
  := by
  obtain ⟨c, rfl, hc⟩ := hb
  unfold Snapshot.catalogTables
  cases c <;> cases hcat : committed.catalog <;> simp_all

@[simp]
theorem set_opened_self (i : Isolated R) (a : Option Nat)
    (t : Option (Transaction R × Snapshot R)) :
  (i.set a t).opened a = t
  := by
  rw [set]
  exact Function.update_self a t i.opened

theorem set_opened_of_ne {i : Isolated R} {a b : Option Nat}
    {t : Option (Transaction R × Snapshot R)} (h : b ≠ a) :
  (i.set a t).opened b = i.opened b
  := by
  rw [set]
  exact Function.update_of_ne h t i.opened

section Good

variable {epoch epoch' : Nat} {i i' : Isolated R} (h : Good epoch i)

include h

/-- At most one state goes on; others may be dropped. -/
theorem Good.advance (he : epoch ≤ epoch') {who : Option (Option Nat)} {s s' : Snapshot R}
    (hs : i.Member who s) (hadv : Advance epoch epoch' s s')
    (hmember : ∀ who' x, i'.Member who' x → i.Member who' x ∨ who' = who ∧ x = s')
    (hopened : ∀ a t' work', i'.opened a = some (t', work') →
      ∃ t work, i.opened a = some (t, work) ∧ t'.base = t.base ∧ t'.session = t.session) :
  Good epoch' i'
  := by
  have hagree : ∀ who' x, i.Member who' x → s'.Agree x :=
    fun who' x hx => hadv.agree (h.agree who s who' x hs hx) (h.bounded who' x hx)
  constructor
  · intro a t' work' ht'
    obtain ⟨t, work, ht, -, hsession⟩ := hopened a t' work' ht'
    rw [hsession]
    exact h.session a t work ht
  · intro who' x hx
    obtain hold | ⟨-, rfl⟩ := hmember who' x hx
    · exact h.settled who' x hold
    · exact hadv.settled
  · intro who' x hx n v hv
    obtain hold | ⟨-, rfl⟩ := hmember who' x hx
    · exact Nat.le_trans (h.bounded who' x hold n v hv) he
    · obtain hkept | ⟨-, hle⟩ := hadv.version_cases hv
      · exact Nat.le_trans (h.bounded who s hs n v hkept) he
      · exact hle
  · intro who₁ x₁ who₂ x₂ hx₁ hx₂
    obtain hold₁ | ⟨-, rfl⟩ := hmember who₁ x₁ hx₁
    · obtain hold₂ | ⟨-, rfl⟩ := hmember who₂ x₂ hx₂
      · exact h.agree who₁ x₁ who₂ x₂ hold₁ hold₂
      · exact (hagree who₁ x₁ hold₁).symm
    · obtain hold₂ | ⟨-, rfl⟩ := hmember who₂ x₂ hx₂
      · exact hagree who₂ x₂ hold₂
      · exact agree_refl _
  · intro a t' work' x ht' hx n v hv hbase who' y hwho hy hyv
    obtain ⟨t, work, ht, heq, -⟩ := hopened a t' work' ht'
    rw [heq] at hbase
    obtain holdx | ⟨hax, rfl⟩ := hmember (some a) x ⟨t', work', ht', hx⟩
    · obtain holdy | ⟨rfl, rfl⟩ := hmember who' y hy
      · exact h.own a t work x ht ((member_mem ht).mp holdx) n v hv hbase who' y hwho holdy hyv
      · obtain hkept | ⟨hlt, -⟩ := hadv.version_cases hyv
        · exact h.own a t work x ht ((member_mem ht).mp holdx) n v hv hbase who' s hwho hs hkept
        · have := h.bounded (some a) x holdx n v hv
          omega
    · obtain holdy | ⟨hay, -⟩ := hmember who' y hy
      · obtain hkept | ⟨hlt, -⟩ := hadv.version_cases hv
        · rw [← hax] at hs
          exact h.own a t work s ht ((member_mem ht).mp hs) n v hkept hbase who' y hwho holdy hyv
        · have := h.bounded who' y holdy n v hyv
          omega
      · exact hwho (hay.trans hax.symm)

theorem Good.mono (he : epoch ≤ epoch') :
  Good epoch' i
  := by
  refine ⟨h.session, h.settled, ?_, h.agree, h.own⟩
  intro who s hs n v hv
  exact Nat.le_trans (h.bounded who s hs n v hv) he

/-- A new transaction. -/
theorem Good.begin {base : Snapshot R} (hb : Begins i.committed base) (hnone : i.opened a = none) :
  Good epoch (i.set a (some (⟨a, false, base, []⟩, base)))
  := by
  have hopened : ∀ b t work,
      (i.set a (some (⟨a, false, base, []⟩, base))).opened b = some (t, work) →
      i.opened b = some (t, work) ∨ b = a ∧ t = ⟨a, false, base, []⟩ ∧ work = base := by
    intro b t work ht
    by_cases hba : b = a
    · rw [hba, set_opened_self, some.injEq, Prod.mk.injEq] at ht
      exact Or.inr ⟨hba, ht.1.symm, ht.2.symm⟩
    · rw [set_opened_of_ne hba] at ht
      exact Or.inl ht
  -- a new member has the tables and versions of the committed state
  have hmember : ∀ who x, (i.set a (some (⟨a, false, base, []⟩, base))).Member who x →
      i.Member who x ∨ who = some a ∧ x = base := by
    intro who x hx
    cases who with
    | none => exact Or.inl hx
    | some b =>
      obtain ⟨t, work, ht, hmem⟩ := hx
      obtain hold | ⟨rfl, rfl, rfl⟩ := hopened b t work ht
      · exact Or.inl ⟨t, work, hold, hmem⟩
      · simp only [Transaction.snapshots, map_nil, mem_cons, not_mem_nil, or_false,
          or_self] at hmem
        exact Or.inr ⟨rfl, hmem⟩
  have hsource : i.Member none i.committed := rfl
  have htables := catalogTables_of_begins hb
  obtain ⟨c, rfl, -⟩ := hb
  constructor
  · intro b t work ht
    obtain hold | ⟨rfl, rfl, -⟩ := hopened b t work ht
    · exact h.session b t work hold
    · rfl
  · intro who x hx
    obtain hold | ⟨-, rfl⟩ := hmember who x hx
    · exact h.settled who x hold
    · have hs := h.settled none i.committed hsource
      constructor
      · intro n
        rw [htables]
        exact hs.memory n
      · intro n
        rw [htables]
        exact hs.storage n
      · exact hs.stamped
  · intro who x hx
    obtain hold | ⟨-, rfl⟩ := hmember who x hx
    · exact h.bounded who x hold
    · exact h.bounded none i.committed hsource
  · intro who₁ x₁ who₂ x₂ hx₁ hx₂
    obtain hold₁ | ⟨-, rfl⟩ := hmember who₁ x₁ hx₁
    · obtain hold₂ | ⟨-, rfl⟩ := hmember who₂ x₂ hx₂
      · exact h.agree who₁ x₁ who₂ x₂ hold₁ hold₂
      · exact h.agree who₁ x₁ none i.committed hold₁ hsource
    · obtain hold₂ | ⟨-, rfl⟩ := hmember who₂ x₂ hx₂
      · exact h.agree none i.committed who₂ x₂ hsource hold₂
      · exact agree_refl _
  · intro b t work x ht hx n v hv hbase who y hwho hy
    obtain hold | ⟨rfl, rfl, rfl⟩ := hopened b t work ht
    · obtain holdy | ⟨-, rfl⟩ := hmember who y hy
      · exact h.own b t work x hold hx n v hv hbase who y hwho holdy
      · exact h.own b t work x hold hx n v hv hbase none i.committed (by simp) hsource
    · simp only [Transaction.snapshots, map_nil, mem_cons, not_mem_nil, or_false,
        or_self] at hx
      rw [hx] at hv
      exact (hbase hv).elim

/-- A commit. -/
theorem Good.commit {t : Transaction R} {work new : Snapshot R} (ht : i.opened a = some (t, work))
    (hnew : Snapshot.Commits t.base work i.committed new) (hsettled : new.Settled) :
  Good epoch { i.set a none with committed := new }
  := by
  have hopened : ∀ b t' work', (i.set a none).opened b = some (t', work') →
      b ≠ a ∧ i.opened b = some (t', work') := by
    intro b t' work' ht'
    by_cases hba : b = a
    · rw [hba, set_opened_self] at ht'
      cases ht'
    · rw [set_opened_of_ne hba] at ht'
      exact ⟨hba, ht'⟩
  have hmember : ∀ who x, Isolated.Member { i.set a none with committed := new } who x →
      (∃ b, who = some b ∧ b ≠ a ∧ i.Member who x) ∨ who = none ∧ x = new := by
    intro who x hx
    cases who with
    | none => exact Or.inr ⟨rfl, hx⟩
    | some b =>
      obtain ⟨t', work', ht', hmem⟩ := hx
      obtain ⟨hba, hold⟩ := hopened b t' work' ht'
      exact Or.inl ⟨b, rfl, hba, t', work', hold, hmem⟩
  have hwork : i.Member (some a) work := ⟨t, work, ht, mem_cons_self⟩
  have hcommitted : i.Member none i.committed := rfl
  have hagree : ∀ b x, b ≠ a → i.Member (some b) x → x.Agree new := by
    intro b x hba hx
    apply hnew.agree (h.agree _ _ _ _ hx hwork) (h.agree _ _ _ _ hx hcommitted)
    intro n v hv hbase
    exact h.own a t work work ht mem_cons_self n v hv hbase (some b) x (by simpa using hba) hx
  constructor
  · intro b t' work' ht'
    exact h.session b t' work' (hopened b t' work' ht').2
  · intro who x hx
    obtain ⟨b, -, -, hold⟩ | ⟨-, rfl⟩ := hmember who x hx
    · exact h.settled who x hold
    · exact hsettled
  · intro who x hx n v hv
    obtain ⟨b, -, -, hold⟩ | ⟨-, rfl⟩ := hmember who x hx
    · exact h.bounded who x hold n v hv
    · obtain hv | hv := hnew.version_mem hv
      · exact h.bounded _ _ hwork n v hv
      · exact h.bounded _ _ hcommitted n v hv
  · intro who₁ x₁ who₂ x₂ hx₁ hx₂
    obtain ⟨b₁, rfl, hb₁, hold₁⟩ | ⟨-, rfl⟩ := hmember who₁ x₁ hx₁
    · obtain ⟨b₂, rfl, hb₂, hold₂⟩ | ⟨-, rfl⟩ := hmember who₂ x₂ hx₂
      · exact h.agree _ _ _ _ hold₁ hold₂
      · exact hagree b₁ x₁ hb₁ hold₁
    · obtain ⟨b₂, rfl, hb₂, hold₂⟩ | ⟨-, rfl⟩ := hmember who₂ x₂ hx₂
      · exact (hagree b₂ x₂ hb₂ hold₂).symm
      · exact agree_refl _
  · intro b t' work' x ht' hx n v hv hbase who y hwho hy hyv
    obtain ⟨hba, hold⟩ := hopened b t' work' ht'
    obtain ⟨b₂, rfl, -, holdy⟩ | ⟨-, rfl⟩ := hmember who y hy
    · exact h.own b t' work' x hold hx n v hv hbase (some b₂) y hwho holdy hyv
    · obtain hyv | hyv := hnew.version_mem hyv
      · exact h.own b t' work' x hold hx n v hv hbase (some a) work (by simpa using Ne.symm hba)
          hwork hyv
      · exact h.own b t' work' x hold hx n v hv hbase none i.committed (by simp) hcommitted hyv

/-- One transaction changes; at most one of its states goes on. -/
theorem Good.setOpened (he : epoch ≤ epoch') {t t' : Transaction R}
    {work work' s s' : Snapshot R} (ht : i.opened a = some (t, work)) (hbase : t'.base = t.base)
    (hsession : t'.session = t.session) (hs : s ∈ t.snapshots work)
    (hadv : Advance epoch epoch' s s')
    (hsub : ∀ x ∈ t'.snapshots work', x ∈ t.snapshots work ∨ x = s') :
  Good epoch' (i.set a (some (t', work')))
  := by
  apply h.advance he ((member_mem ht).mpr hs) hadv
  · intro who x hx
    cases who with
    | none => exact Or.inl hx
    | some b =>
      obtain ⟨t₂, work₂, ht₂, hmem⟩ := hx
      by_cases hba : b = a
      · subst hba
        rw [set_opened_self, some.injEq, Prod.mk.injEq] at ht₂
        rw [← ht₂.1, ← ht₂.2] at hmem
        obtain hold | rfl := hsub x hmem
        · exact Or.inl ((member_mem ht).mpr hold)
        · exact Or.inr ⟨rfl, rfl⟩
      · rw [set_opened_of_ne hba] at ht₂
        exact Or.inl ⟨t₂, work₂, ht₂, hmem⟩
  · intro b t₂ work₂ ht₂
    by_cases hba : b = a
    · subst hba
      rw [set_opened_self, some.injEq, Prod.mk.injEq] at ht₂
      rw [← ht₂.1]
      exact ⟨t, work, ht, hbase, hsession⟩
    · rw [set_opened_of_ne hba] at ht₂
      exact ⟨t₂, work₂, ht₂, rfl, rfl⟩

/-- A statement outside transactions. -/
theorem Good.setCommitted (he : epoch ≤ epoch') {s : Snapshot R}
    (hadv : Advance epoch epoch' i.committed s) :
  Good epoch' { i with committed := s }
  := by
  apply h.advance he (show i.Member none i.committed from rfl) hadv
  · intro who x hx
    cases who with
    | none => exact Or.inr ⟨rfl, hx⟩
    | some b => exact Or.inl hx
  · intro b t work ht
    exact ⟨t, work, ht, rfl, rfl⟩

/-- A transaction ends. -/
theorem Good.close (a : Option Nat) :
  Good epoch (i.set a none)
  := by
  have hcommitted : i.Member none i.committed := rfl
  apply h.advance (Nat.le_refl _) hcommitted (Advance.refl (h.settled _ _ hcommitted))
  · intro who x hx
    cases who with
    | none => exact Or.inl hx
    | some b =>
      obtain ⟨t, work, ht, hmem⟩ := hx
      by_cases hba : b = a
      · rw [hba, set_opened_self] at ht
        cases ht
      · rw [set_opened_of_ne hba] at ht
        exact Or.inl ⟨t, work, ht, hmem⟩
  · intro b t work ht
    by_cases hba : b = a
    · rw [hba, set_opened_self] at ht
      cases ht
    · rw [set_opened_of_ne hba] at ht
      exact ⟨t, work, ht, rfl, rfl⟩

end Good

end Isolated

end CratonBolt
