import Mathlib.Data.List.Nodup
import Mathlib.Data.List.Perm.Basic

/-!
# Bounded maps with a FIFO log

Entries by key, and a log of the keys from the oldest to the newest. Room for a new entry is made
by dropping the oldest ones, so what stays is a suffix of the log.
-/

namespace FifoMap

open List

variable {K V : Type} {log : List K} {entries : List (K × V)} {k : K}

/-- The log names the keys of the entries, each of them once. -/
structure InStep (log : List K) (entries : List (K × V)) : Prop where
  nodup : log.Nodup
  keys : (entries.map Prod.fst).Perm log

theorem InStep.cons (h : InStep log entries) (hk : k ∉ entries.map Prod.fst) (v : V) :
  InStep (log ++ [k]) ((k, v) :: entries)
  := by
  constructor
  · rw [nodup_append_comm, singleton_append, nodup_cons]
    exact ⟨fun hmem => hk (h.keys.mem_iff.mpr hmem), h.nodup⟩
  · rw [map_cons]
    exact (h.keys.cons k).trans (perm_append_singleton k log).symm

variable [DecidableEq K]

/-- Drop the oldest entries while there are `cap` or more of them. -/
def makeRoom (cap : Nat) : List K → List (K × V) → List K × List (K × V)
  | [], entries => ([], entries)
  | oldest :: log, entries =>
    if cap ≤ entries.length then makeRoom cap log (entries.filter (fun e => e.1 ≠ oldest))
    else (oldest :: log, entries)

theorem InStep.tail (h : InStep (k :: log) entries) :
  InStep log (entries.filter (fun e => e.1 ≠ k))
  := by
  obtain ⟨hk, hlog⟩ := nodup_cons.mp h.nodup
  refine ⟨hlog, ?_⟩
  have hkeys := h.keys.filter (fun k' => k' ≠ k)
  rw [filter_map, filter_cons_of_neg (by simp)] at hkeys
  apply hkeys.trans
  apply Perm.of_eq
  apply filter_eq_self.mpr
  intro k' hk'
  rw [decide_eq_true_eq]
  rintro rfl
  exact hk hk'

/-- What stays when room is made: entries whose keys are the newest ones of the log. -/
theorem makeRoom_spec (cap : Nat) (h : InStep log entries) :
  InStep (makeRoom cap log entries).1 (makeRoom cap log entries).2 ∧
    (makeRoom cap log entries).1 <:+ log ∧ (makeRoom cap log entries).2 ⊆ entries ∧
    ((makeRoom cap log entries).1 = [] ∨ (makeRoom cap log entries).1.length < cap)
  := by
  fun_induction makeRoom cap log entries with
  | case1 entries => exact ⟨h, suffix_rfl, fun _ he => he, Or.inl rfl⟩
  | case2 oldest log entries hfull ih =>
    obtain ⟨hstep, hsuffix, hsub, hroom⟩ := ih h.tail
    refine ⟨hstep, hsuffix.trans (suffix_cons oldest log), ?_, hroom⟩
    intro e he
    exact mem_of_mem_filter (hsub he)
  | case3 oldest log entries hroom =>
    refine ⟨h, suffix_rfl, fun _ he => he, Or.inr ?_⟩
    have hlen := h.keys.length_eq
    rw [length_map] at hlen
    dsimp only
    omega

end FifoMap
