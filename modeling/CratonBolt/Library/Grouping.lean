import Mathlib.Data.List.Perm.Basic
import Mathlib.Data.List.Dedup

/-!
# Grouping rows by key

A list of rows, each with its key, is grouped by a list of groups, each with its key and its
rows, when the keys of the groups are distinct, every group holds the rows of its key and at
least one, and the key of every row has a group. `collect` builds such a list row by row.
-/

namespace Grouping

open List
open Prod (fst)

variable {ρ κ μ : Type} {groups : List (κ × List ρ)}

/-- The groups `out` are those of the rows `keyed`. -/
structure IsGrouping [DecidableEq κ] (keyed : List (ρ × κ)) (out : List (κ × List ρ)) : Prop where
  distinct : (out.map fst).Nodup
  members : ∀ g ∈ out, g.2.Perm ((keyed.filter (fun p => p.2 = g.1)).map fst)
  occupied : ∀ g ∈ out, g.2 ≠ []
  complete : ∀ p ∈ keyed, ∃ g ∈ out, g.1 = p.2

variable {g : κ × List ρ} {p : ρ × κ}

namespace IsGrouping

variable [DecidableEq κ] [DecidableEq μ] {keyed : List (ρ × κ)} {out : List (κ × List ρ)}

theorem perm {out' : List (κ × List ρ)} (h : IsGrouping keyed out) (hp : out.Perm out') :
  IsGrouping keyed out'
  := by
  constructor
  · exact (hp.map fst).nodup_iff.mp h.distinct
  · intro g hg
    exact h.members g (hp.mem_iff.mpr hg)
  · intro g hg
    exact h.occupied g (hp.mem_iff.mpr hg)
  · intro p hpk
    obtain ⟨g, hg, hk⟩ := h.complete p hpk
    exact ⟨g, hp.mem_iff.mp hg, hk⟩

/-- A row of a group is a row of the list, with the key of the group. -/
theorem row_mem (h : IsGrouping keyed out) (hg : g ∈ out) {r : ρ} (hr : r ∈ g.2) :
  (r, g.1) ∈ keyed
  := by
  have hr' := (h.members g hg).mem_iff.mp hr
  simp only [mem_map, mem_filter, decide_eq_true_eq] at hr'
  obtain ⟨⟨r', k⟩, ⟨hp, rfl⟩, rfl⟩ := hr'
  exact hp

/-- The key of a group is the key of a row. -/
theorem key_mem (h : IsGrouping keyed out) (hg : g ∈ out) :
  ∃ r, (r, g.1) ∈ keyed
  := by
  obtain ⟨r, hr⟩ := exists_mem_of_ne_nil g.2 (h.occupied g hg)
  exact ⟨r, h.row_mem hg hr⟩

/-- Every row is in a group. -/
theorem row_covered (h : IsGrouping keyed out) (hp : p ∈ keyed) :
  ∃ g ∈ out, p.1 ∈ g.2
  := by
  obtain ⟨g, hg, hk⟩ := h.complete p hp
  refine ⟨g, hg, (h.members g hg).mem_iff.mpr ?_⟩
  apply mem_map_of_mem
  simp [hp, hk]

/-- Renaming the keys, when distinct keys of rows keep distinct names. -/
theorem map {f : κ → μ} (h : IsGrouping keyed out)
    (hf : ∀ p ∈ keyed, ∀ q ∈ keyed, f p.2 = f q.2 → p.2 = q.2) :
  IsGrouping (keyed.map (Prod.map id f)) (out.map (Prod.map f id))
  := by
  have hf' : ∀ g ∈ out, ∀ p ∈ keyed, f p.2 = f g.1 → p.2 = g.1 := by
    intro g hg p hp hpg
    obtain ⟨r, hr⟩ := h.key_mem hg
    exact hf p hp (r, g.1) hr hpg
  constructor
  · rw [map_map]
    have hfst : (Prod.fst ∘ Prod.map f id : κ × List ρ → μ) = f ∘ Prod.fst := rfl
    rw [hfst, ← map_map]
    apply Nodup.map_on _ h.distinct
    intro k hk k' hk' hkk
    obtain ⟨g, hg, rfl⟩ := mem_map.mp hk
    obtain ⟨g', hg', rfl⟩ := mem_map.mp hk'
    obtain ⟨r, hr⟩ := h.key_mem hg
    exact hf' g' hg' (r, g.1) hr hkk
  · intro g' hg'
    obtain ⟨g, hg, rfl⟩ := mem_map.mp hg'
    have hfilter : (keyed.map (Prod.map id f)).filter (fun p => p.2 = f g.1)
        = (keyed.filter (fun p => p.2 = g.1)).map (Prod.map id f) := by
      rw [filter_map]
      congr 1
      apply filter_congr
      intro p hp
      simp only [Function.comp_apply, Prod.map_snd, decide_eq_decide]
      exact ⟨hf' g hg p hp, fun e => e ▸ rfl⟩
    simp only [Prod.map_fst, Prod.map_snd, id_eq]
    rw [hfilter, map_map]
    exact h.members g hg
  · intro g' hg'
    obtain ⟨g, hg, rfl⟩ := mem_map.mp hg'
    exact h.occupied g hg
  · intro p' hp'
    obtain ⟨p, hp, rfl⟩ := mem_map.mp hp'
    obtain ⟨g, hg, hk⟩ := h.complete p hp
    exact ⟨Prod.map f id g, mem_map_of_mem hg, by simp [hk]⟩

/-- Groups found by the encodings of the keys, when an encoding decodes to its key. -/
theorem decode {enc : μ → κ} (dec : κ → μ) {plain : List (ρ × μ)} {out : List (κ × List ρ)}
    (h : IsGrouping (plain.map (Prod.map id enc)) out) (hdec : ∀ p ∈ plain, dec (enc p.2) = p.2) :
  IsGrouping plain (out.map (Prod.map dec id))
  := by
  have hinj : ∀ p ∈ plain.map (Prod.map id enc), ∀ q ∈ plain.map (Prod.map id enc),
      dec p.2 = dec q.2 → p.2 = q.2 := by
    intro p' hp' q' hq' hpq
    obtain ⟨p, hp, rfl⟩ := mem_map.mp hp'
    obtain ⟨q, hq, rfl⟩ := mem_map.mp hq'
    rw [Prod.map_snd, Prod.map_snd, hdec p hp, hdec q hq] at hpq
    rw [Prod.map_snd, Prod.map_snd, hpq]
  have hself : (plain.map (Prod.map id enc)).map (Prod.map id dec) = plain := by
    rw [map_map]
    conv_rhs => rw [← map_id plain]
    apply map_congr_left
    intro p hp
    exact Prod.ext rfl (hdec p hp)
  exact hself ▸ h.map hinj

end IsGrouping

/-! ### Building the groups row by row -/

/-- Add a row to the group of its key, which is opened if there is none. -/
def enter [DecidableEq κ] (groups : List (κ × List ρ)) (p : ρ × κ) : List (κ × List ρ) :=
  match groups with
  | [] => [(p.2, [p.1])]
  | g :: groups => if g.1 = p.2 then (g.1, g.2 ++ [p.1]) :: groups else g :: enter groups p

/-- The groups of a list of rows, in the order in which their keys first occur. -/
def collect [DecidableEq κ] (keyed : List (ρ × κ)) : List (κ × List ρ) := keyed.foldl enter []

section Collect

variable [DecidableEq κ]

theorem mem_keys_enter {k : κ} :
  k ∈ (enter groups p).map fst ↔ k ∈ groups.map fst ∨ k = p.2
  := by
  induction groups with
  | nil => simp [enter]
  | cons g groups ih =>
    by_cases hk : g.1 = p.2
    · simp only [enter, hk, if_true, map_cons, mem_cons]
      tauto
    · simp only [enter, hk, if_false, map_cons, mem_cons, ih]
      tauto

theorem nodup_enter (p : ρ × κ) (h : (groups.map fst).Nodup) :
  ((enter groups p).map fst).Nodup
  := by
  induction groups with
  | nil => simp [enter]
  | cons g groups ih =>
    rw [map_cons, nodup_cons] at h
    by_cases hk : g.1 = p.2
    · simpa only [enter, hk, if_true, map_cons, nodup_cons] using hk ▸ h
    · simp only [enter, if_neg hk, map_cons, nodup_cons, mem_keys_enter]
      exact ⟨fun hg => hg.elim h.1 hk, ih h.2⟩

/-- What a group of the list holds once the row is entered. -/
theorem mem_enter (hn : (groups.map fst).Nodup) (hg : g ∈ enter groups p) :
  (g.1 ≠ p.2 ∧ g ∈ groups) ∨
    (g.1 = p.2 ∧ ((∃ rows, (g.1, rows) ∈ groups ∧ g.2 = rows ++ [p.1]) ∨
      (g.1 ∉ groups.map fst ∧ g.2 = [p.1])))
  := by
  induction groups with
  | nil =>
    simp only [enter, mem_singleton] at hg
    subst hg
    simp
  | cons g' groups ih =>
    rw [map_cons, nodup_cons] at hn
    by_cases hk : g'.1 = p.2
    · simp only [enter, hk, if_true, mem_cons] at hg
      obtain rfl | hg := hg
      · exact Or.inr ⟨rfl, Or.inl ⟨g'.2, by simp [← hk], rfl⟩⟩
      · refine Or.inl ⟨?_, by simp [hg]⟩
        intro hgp
        apply hn.1
        rw [hk, ← hgp]
        exact mem_map_of_mem hg
    · simp only [enter, hk, if_false, mem_cons] at hg
      obtain rfl | hg := hg
      · exact Or.inl ⟨hk, by simp⟩
      · obtain ⟨hne, hmem⟩ | ⟨heq, ⟨rows, hmem, hrows⟩ | ⟨hnew, hrows⟩⟩ := ih hn.2 hg
        · exact Or.inl ⟨hne, by simp [hmem]⟩
        · exact Or.inr ⟨heq, Or.inl ⟨rows, by simp [hmem], hrows⟩⟩
        · refine Or.inr ⟨heq, Or.inr ⟨?_, hrows⟩⟩
          rw [map_cons, mem_cons, not_or]
          exact ⟨fun e => hk (e ▸ heq), hnew⟩

theorem isGrouping_nil :
  IsGrouping ([] : List (ρ × κ)) []
  := by
  constructor <;> simp

/-- Entering one more row. -/
theorem IsGrouping.enter {keyed : List (ρ × κ)} (h : IsGrouping keyed groups) (p : ρ × κ) :
  IsGrouping (keyed ++ [p]) (enter groups p)
  := by
  constructor
  · exact nodup_enter p h.distinct
  · intro g hg
    rw [filter_append, map_append]
    obtain ⟨hne, hmem⟩ | ⟨heq, ⟨rows, hmem, hrows⟩ | ⟨hnew, hrows⟩⟩ := mem_enter h.distinct hg
    · simpa [Ne.symm hne] using h.members g hmem
    · rw [hrows]
      simpa [heq] using (h.members _ hmem).append_right [p.1]
    · have hnone : keyed.filter (fun q => q.2 = g.1) = [] := by
        rw [filter_eq_nil_iff]
        intro q hq hqg
        obtain ⟨g', hg', hk⟩ := h.complete q hq
        apply hnew
        rw [← of_decide_eq_true hqg, ← hk]
        exact mem_map_of_mem hg'
      rw [hrows, hnone]
      simp [heq]
  · intro g hg
    obtain ⟨-, hmem⟩ | ⟨-, ⟨rows, -, hrows⟩ | ⟨-, hrows⟩⟩ := mem_enter h.distinct hg
    · exact h.occupied g hmem
    · simp [hrows]
    · simp [hrows]
  · intro q hq
    have hk : q.2 ∈ (Grouping.enter groups p).map fst := by
      rw [mem_keys_enter]
      rw [mem_append, mem_singleton] at hq
      obtain hq | rfl := hq
      · obtain ⟨g, hg, hk⟩ := h.complete q hq
        exact Or.inl (hk ▸ mem_map_of_mem hg)
      · exact Or.inr rfl
    obtain ⟨g, hg, hk⟩ := mem_map.mp hk
    exact ⟨g, hg, hk⟩

theorem foldl_enter {done : List (ρ × κ)} (h : IsGrouping done groups) (keyed : List (ρ × κ)) :
  IsGrouping (done ++ keyed) (keyed.foldl enter groups)
  := by
  induction keyed generalizing done groups with
  | nil => simpa using h
  | cons p keyed ih =>
    rw [foldl_cons]
    simpa using ih (h.enter p)

theorem collect_isGrouping (keyed : List (ρ × κ)) :
  IsGrouping keyed (collect keyed)
  := foldl_enter isGrouping_nil keyed

end Collect

end Grouping
