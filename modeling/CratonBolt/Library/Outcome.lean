import Mathlib.Data.List.Forall2
import Mathlib.Data.Option.Basic

/-!
# Computations that may fail

When a sequence of steps in `Except` succeeds, every step does.
-/

namespace Outcome

open List

variable {ε α β : Type} {x : Except ε α} {l : List α} {f : α → Except ε β}

variable {b : β} {a : α} {c : Prop} {y : Except ε α} {l' : List β}

@[simp]
theorem bind_eq_ok :
  (x >>= f) = .ok b ↔ ∃ a, x = .ok a ∧ f a = .ok b
  := by
  cases x with
  | error e => simp [bind, Except.bind]
  | ok a => simp [bind, Except.bind]

@[simp]
theorem map_eq_ok {f : α → β} :
  x.map f = .ok b ↔ ∃ a, x = .ok a ∧ f a = b
  := by
  cases x with
  | error e => simp [Except.map]
  | ok a => simp [Except.map]

@[simp]
theorem mapError_eq_ok {ε' : Type} {f : ε → ε'} :
  x.mapError f = .ok a ↔ x = .ok a
  := by
  cases x with
  | error e => simp [Except.mapError]
  | ok b => simp [Except.mapError]

@[simp]
theorem toOption_eq_some :
  x.toOption = some a ↔ x = .ok a
  := by
  cases x with
  | error e => simp [Except.toOption]
  | ok b => simp [Except.toOption]

/-- A check that succeeds exactly when its condition holds. -/
@[simp]
theorem guard_eq_ok [Decidable c] {a b : α} {e : ε} :
  (if c then Except.ok a else .error e) = .ok b ↔ c ∧ a = b
  := by
  by_cases h : c <;> simp [h]

/-- The computation returns the value if the condition holds, and nothing otherwise. -/
def OkIf (P : Prop) (x : Except ε α) (a : α) : Prop :=
  ∀ b, x = .ok b ↔ P ∧ b = a

theorem OkIf.eq_ok {P : Prop} (h : OkIf P x a) :
  x = .ok a ↔ P
  := by
  simp [h a]

theorem OkIf.congr {P P' : Prop} (h : OkIf P x a) (hP : P ↔ P') :
  OkIf P' x a
  := by
  rwa [hP] at h

theorem OkIf.bind {P P' : Prop} (h : OkIf P x a) (hf : OkIf P' (f a) b) :
  OkIf (P ∧ P') (x >>= f) b
  := by
  intro c
  simp only [bind_eq_ok, h _, and_assoc]
  constructor
  · rintro ⟨_, hP, rfl, hc⟩
    exact ⟨hP, (hf c).mp hc⟩
  · rintro ⟨hP, hc⟩
    exact ⟨a, hP, rfl, (hf c).mpr hc⟩

/-- What comes next returns from the value. -/
theorem OkIf.bind_ok {P : Prop} (h : OkIf P x a) (hf : f a = .ok b) :
  OkIf P (x >>= f) b
  := by
  have hok : OkIf True (f a) b := fun c => by simp [hf, eq_comm]
  exact (h.bind hok).congr (and_iff_left trivial)

theorem OkIf.map {P : Prop} (h : OkIf P x a) (f : α → β) :
  OkIf P (x.map f) (f a)
  := by
  intro c
  simp only [map_eq_ok, h _, and_assoc]
  constructor
  · rintro ⟨_, hP, rfl, rfl⟩
    exact ⟨hP, rfl⟩
  · rintro ⟨hP, rfl⟩
    exact ⟨a, hP, rfl, rfl⟩

/-- A computation that is refused under a condition. -/
theorem OkIf.unless [Decidable c] {P : Prop} {e : ε} (h : OkIf P x a) :
  OkIf (¬ c ∧ P) (if c then .error e else x) a
  := by
  intro b
  by_cases hc : c
  · simp [hc]
  · simp [hc, h b]

/-- Where both computations return, they return the same. -/
def Agree (x y : Except ε α) : Prop :=
  ∀ a b, x = .ok a → y = .ok b → a = b

theorem Agree.refl (x : Except ε α) :
  Agree x x
  := fun _ _ ha hb => Except.ok.inj (ha.symm.trans hb)

theorem Agree.bind {f g : α → Except ε β} (h : Agree x y) (hf : ∀ a, Agree (f a) (g a)) :
  Agree (x >>= f) (y >>= g)
  := by
  intro b b' hb hb'
  obtain ⟨a, ha, hb⟩ := bind_eq_ok.mp hb
  obtain ⟨a', ha', hb'⟩ := bind_eq_ok.mp hb'
  obtain rfl := h a a' ha ha'
  exact hf a b b' hb hb'

theorem Agree.map (h : Agree x y) (f : α → β) :
  Agree (x.map f) (y.map f)
  := by
  intro b b' hb hb'
  obtain ⟨a, ha, rfl⟩ := map_eq_ok.mp hb
  obtain ⟨a', ha', rfl⟩ := map_eq_ok.mp hb'
  rw [h a a' ha ha']

theorem Agree.ite [Decidable c] {x y x' y' : Except ε α} (h : Agree x x') (h' : Agree y y') :
  Agree (if c then x else y) (if c then x' else y')
  := by
  split
  · exact h
  · exact h'

/-- Each computation may be refused on its own. -/
theorem Agree.unless {c' : Prop} [Decidable c] [Decidable c'] {e e' : ε} (h : Agree x y) :
  Agree (if c then .error e else x) (if c' then .error e' else y)
  := by
  intro a b ha hb
  split at ha
  · cases ha
  split at hb
  · cases hb
  exact h a b ha hb

/-- A list of optional results is there exactly when each of them is. -/
theorem mapM_eq_some_iff {f : α → Option β} :
  l.mapM f = some l' ↔ Forall₂ (fun a b => f a = some b) l l'
  := by
  induction l generalizing l' with
  | nil => simp [eq_comm]
  | cons a l ih =>
    cases hf : f a with
    | none =>
      constructor
      · simp [hf]
      · rintro ⟨⟩
        simp_all
    | some b =>
      cases l' with
      | nil => simp [hf, Option.bind_eq_some_iff]
      | cons b' l' => simp [hf, ← ih, Option.bind_eq_some_iff, and_comm]

/-- A list of fallible computations succeeds exactly when each of them does. -/
theorem mapM_eq_ok_iff :
  l.mapM f = .ok l' ↔ Forall₂ (fun a b => f a = .ok b) l l'
  := by
  induction l generalizing l' with
  | nil => simp [pure, Except.pure, eq_comm]
  | cons a l ih =>
    rw [mapM_cons]
    cases l' with
    | nil => simp [pure, Except.pure]
    | cons b l' =>
      simp only [bind_eq_ok, pure, Except.pure, Except.ok.injEq, List.cons.injEq,
        forall₂_cons, ← ih]
      constructor
      · rintro ⟨b', hb, l'', hl, rfl, rfl⟩
        exact ⟨hb, hl⟩
      · rintro ⟨hb, hl⟩
        exact ⟨b, hb, l', hl, rfl, rfl⟩

/-- A list of checks succeeds exactly when each of them does. -/
theorem forM_eq_ok_iff {f : α → Except ε Unit} :
  l.forM f = .ok () ↔ ∀ a ∈ l, f a = .ok ()
  := by
  induction l with
  | nil => simp [pure, Except.pure]
  | cons a l ih =>
    rw [List.forM, bind_eq_ok, forall_mem_cons, ← ih]
    constructor
    · rintro ⟨⟨⟩, ha, hl⟩
      exact ⟨ha, hl⟩
    · rintro ⟨ha, hl⟩
      exact ⟨(), ha, hl⟩

/-- Every result of a list of fallible computations is the result of one of them. -/
theorem exists_of_mem_mapM (h : l.mapM f = .ok l') (hb : b ∈ l') :
  ∃ a ∈ l, f a = .ok b
  := by
  have hall := mapM_eq_ok_iff.mp h
  clear h
  induction hall with
  | nil => cases hb
  | @cons a b' l l' hab _ ih =>
    obtain rfl | hb := mem_cons.mp hb
    · exact ⟨a, mem_cons_self, hab⟩
    · obtain ⟨a', ha', hab'⟩ := ih hb
      exact ⟨a', mem_cons_of_mem a ha', hab'⟩

end Outcome
