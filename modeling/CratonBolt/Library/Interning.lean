import Mathlib.Data.List.Nodup

/-!
# Interning

Keys are numbered in the order in which they are first seen. Two keys numbered with one
dictionary have the same number exactly when they are equal; a missing key has no number.
-/

namespace CratonBolt.Interning

open List Option

variable {κ : Type} {dict dict' : List κ}

/-- A number stands for a key: the dictionary holds the key there. -/
def Numbers (dict : List κ) (key : Option κ) (code : Option Nat) : Prop :=
  match key, code with
  | none, none => True
  | some k, some c => dict[c]? = some k
  | _, _ => False

theorem Numbers.mono {key : Option κ} {code : Option Nat} (hp : dict <+: dict')
    (h : Numbers dict key code) :
  Numbers dict' key code
  := by
  cases key with
  | none => cases code <;> exact h
  | some k =>
    cases code with
    | none => exact h
    | some c =>
      obtain ⟨rest, rfl⟩ := hp
      have hc : c < dict.length := (List.getElem?_eq_some_iff.mp h).1
      simp only [Numbers]
      rwa [getElem?_append_left hc]

/-- Under a dictionary without repetition, numbers are equal exactly when the keys are. -/
theorem code_eq_iff {dict : List κ} (hnodup : dict.Nodup) {k k' : κ} {c c' : Nat}
    (h : dict[c]? = some k) (h' : dict[c']? = some k') :
  c = c' ↔ k = k'
  := by
  obtain ⟨hc, hk⟩ := List.getElem?_eq_some_iff.mp h
  obtain ⟨hc', hk'⟩ := List.getElem?_eq_some_iff.mp h'
  rw [← hk, ← hk']
  exact hnodup.getElem_inj_iff.symm

variable [DecidableEq κ]

/-- The number of a key, which is entered if it is new; none if the numbers are used up. -/
def enter (limit : Nat) (dict : List κ) (key : κ) : Option (List κ × Nat) :=
  match dict.idxOf? key with
  | some i => some (dict, i)
  | none => if dict.length < limit then some (dict ++ [key], dict.length) else none

/-- The numbers of some keys, one after the other. -/
def enterAll (limit : Nat) : List κ → List (Option κ) → Option (List κ × List (Option Nat))
  | dict, [] => some (dict, [])
  | dict, none :: keys => do
    let rest ← enterAll limit dict keys
    some (rest.1, none :: rest.2)
  | dict, some key :: keys => do
    let entered ← enter limit dict key
    let rest ← enterAll limit entered.1 keys
    some (rest.1, some entered.2 :: rest.2)

variable {limit : Nat}

theorem enter_spec {key : κ} {code : Nat} (hnodup : dict.Nodup)
    (hlen : dict.length ≤ limit) (h : enter limit dict key = some (dict', code)) :
  dict'.Nodup ∧ dict'.length ≤ limit ∧ dict <+: dict' ∧ dict'[code]? = some key
  := by
  unfold enter at h
  split at h
  · rename_i i hi
    rw [some.injEq, Prod.mk.injEq] at h
    obtain ⟨rfl, rfl⟩ := h
    obtain ⟨hlt, heq⟩ := findIdx?_eq_some_iff_getElem.mp hi
    refine ⟨hnodup, hlen, prefix_refl _, ?_⟩
    rw [getElem?_eq_getElem hlt, some.injEq]
    exact eq_of_beq heq.1
  · rename_i hnone
    split at h
    · rename_i hlt
      rw [some.injEq, Prod.mk.injEq] at h
      obtain ⟨rfl, rfl⟩ := h
      have hnot : key ∉ dict := by
        intro hmem
        obtain ⟨x, hx, hne⟩ : ∃ x ∈ dict, (x == key) = true := ⟨key, hmem, beq_self_eq_true key⟩
        have hall := findIdx?_eq_none_iff.mp hnone x hx
        rw [hne] at hall
        cases hall
      refine ⟨?_, ?_, prefix_append _ _, getElem?_concat_length⟩
      · exact nodup_append.mpr ⟨hnodup, nodup_singleton key, by
          intro a ha b hb
          rw [mem_singleton] at hb
          subst hb
          rintro rfl
          exact hnot ha⟩
      · rw [length_append, length_singleton]
        exact hlt
    · cases h

/-- The numbers stand for the keys, under the dictionary at the end. -/
theorem enterAll_spec {keys : List (Option κ)} {codes : List (Option Nat)} (hnodup : dict.Nodup)
    (hlen : dict.length ≤ limit) (h : enterAll limit dict keys = some (dict', codes)) :
  dict'.Nodup ∧ dict'.length ≤ limit ∧ dict <+: dict' ∧
    Forall₂ (Numbers dict') keys codes
  := by
  induction keys generalizing dict codes with
  | nil =>
    rw [enterAll, some.injEq, Prod.mk.injEq] at h
    obtain ⟨rfl, rfl⟩ := h
    exact ⟨hnodup, hlen, prefix_refl _, .nil⟩
  | cons key keys ih =>
    cases key with
    | none =>
      obtain ⟨⟨dict₁, codes₁⟩, hrest, h⟩ := bind_eq_some_iff.mp h
      rw [some.injEq, Prod.mk.injEq] at h
      obtain ⟨rfl, rfl⟩ := h
      obtain ⟨hn, hl, hp, hall⟩ := ih hnodup hlen hrest
      exact ⟨hn, hl, hp, .cons trivial hall⟩
    | some key =>
      obtain ⟨⟨dict₁, code⟩, henter, h⟩ := bind_eq_some_iff.mp h
      obtain ⟨⟨dict₂, codes₂⟩, hrest, h⟩ := bind_eq_some_iff.mp h
      rw [some.injEq, Prod.mk.injEq] at h
      obtain ⟨rfl, rfl⟩ := h
      obtain ⟨hn₁, hl₁, hp₁, hcode⟩ := enter_spec hnodup hlen henter
      obtain ⟨hn, hl, hp, hall⟩ := ih hn₁ hl₁ hrest
      exact ⟨hn, hl, hp₁.trans hp, .cons (Numbers.mono hp hcode) hall⟩

theorem enter_isSome {dict : List κ} (key : κ) (h : dict.length < limit) :
  ∃ dict' code, enter limit dict key = some (dict', code) ∧ dict'.length ≤ dict.length + 1
  := by
  unfold enter
  split
  · exact ⟨_, _, rfl, Nat.le_succ _⟩
  · rw [if_pos h]
    exact ⟨_, _, rfl, by simp⟩

/-- With room for all keys, all are numbered. -/
theorem enterAll_isSome (limit : Nat) (dict : List κ) (keys : List (Option κ))
    (h : dict.length + keys.length ≤ limit) :
  ∃ dict' codes, enterAll limit dict keys = some (dict', codes) ∧
    dict'.length ≤ dict.length + keys.length
  := by
  induction keys generalizing dict with
  | nil => exact ⟨dict, [], rfl, Nat.le_refl _⟩
  | cons key keys ih =>
    rw [length_cons] at h
    cases key with
    | none =>
      obtain ⟨dict', codes, hrest, hlen⟩ := ih dict (by omega)
      refine ⟨dict', none :: codes, ?_, by rw [length_cons]; omega⟩
      rw [enterAll, hrest]
      rfl
    | some key =>
      obtain ⟨dict₁, code, henter, hlen₁⟩ := enter_isSome key
        (show dict.length < limit by omega)
      obtain ⟨dict', codes, hrest, hlen⟩ := ih dict₁ (by omega)
      refine ⟨dict', some code :: codes, ?_, by rw [length_cons]; omega⟩
      rw [enterAll, henter]
      simp only [bind_eq_bind, bind_some, hrest]

end CratonBolt.Interning
