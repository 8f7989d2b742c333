import Mathlib.Tactic.Common

/-!
# Three-way merge of finite maps

Changes from `base` to `work` are carried over to `committed`. A key whose entry was changed both
in `work` and in `committed` is a conflict. Entries are compared by an identity, which may be less
than the whole entry.
-/

namespace ThreeWayMerge

open Std List

variable {K I σ : Type} [DecidableEq I]

/-- Carry changed keys over, in order, and stop at the first conflict. -/
def merge (base work committed : K → I) (take : σ → K → σ) : List K → σ → Except K σ
  | [], next => .ok next
  | k :: ks, next =>
    if base k = work k then merge base work committed take ks next
    else if committed k ≠ base k then .error k
    else merge base work committed take ks (take next k)

variable {base work committed : K → I} {take : σ → K → σ}

variable {ks : List K} {next next' : σ} {k : K} {β : Type}

theorem merge_eq_ok :
  merge base work committed take ks next = .ok next' ↔
    (∀ k ∈ ks, base k ≠ work k → committed k = base k) ∧
      next' = (ks.filter (fun k => decide (base k ≠ work k))).foldl take next
  := by
  induction ks generalizing next with
  | nil => simp [merge, eq_comm]
  | cons k ks ih =>
    rw [merge]
    by_cases hk : base k = work k
    · simp [hk, ih]
    · by_cases hc : committed k = base k <;> simp [hk, hc, ih]

section Maps

variable {V : Type} {cmp : K → K → Ordering} [TransCmp cmp] [LawfulEqCmp cmp]

theorem mem_keys_iff {t : ExtTreeMap K V cmp} :
  k ∈ t.keys ↔ ∃ v, t[k]? = some v
  := by
  rw [ExtTreeMap.mem_keys, ExtTreeMap.mem_iff_isSome_getElem?, Option.isSome_iff_exists]

/-- The entry of a key becomes the one of another map. -/
def takeFrom (source next : ExtTreeMap K V cmp) (k : K) : ExtTreeMap K V cmp :=
  match source[k]? with
  | some v => next.insert k v
  | none => next.erase k

theorem getElem?_takeFrom [DecidableEq K] (source next : ExtTreeMap K V cmp) (k k' : K) :
  (takeFrom source next k)[k']? = if k = k' then source[k]? else next[k']?
  := by
  unfold takeFrom
  split
  · next v hv =>
    simp only [ExtTreeMap.getElem?_insert, LawfulEqCmp.compare_eq_iff_eq, hv]
  · next hv =>
    simp only [ExtTreeMap.getElem?_erase, LawfulEqCmp.compare_eq_iff_eq, hv]

/-- The keys of several maps, in order and without repetition. -/
def sortedKeys (cmp : K → K → Ordering) [TransCmp cmp] (keys : List K) : List K :=
  (keys.foldl (fun s k => s.insert k ()) (∅ : ExtTreeMap K Unit cmp)).keys

omit [LawfulEqCmp cmp] in
theorem nodup_sortedKeys (keys : List K) :
  (sortedKeys cmp keys).Nodup
  := ExtTreeMap.nodup_keys

theorem mem_sortedKeys {keys : List K} :
  k ∈ sortedKeys cmp keys ↔ k ∈ keys
  := by
  have hfold : ∀ (s : ExtTreeMap K Unit cmp),
      k ∈ keys.foldl (fun s k => s.insert k ()) s ↔ k ∈ keys ∨ k ∈ s := by
    induction keys with
    | nil => simp
    | cons k' keys ih =>
      intro s
      rw [foldl_cons, ih, ExtTreeMap.mem_insert, mem_cons, LawfulEqCmp.compare_eq_iff_eq]
      tauto
  rw [sortedKeys, ExtTreeMap.mem_keys, hfold]
  simp

end Maps

/-- A projection of the state that a step changes only at its key. -/
theorem foldl_take_at [DecidableEq K] (look : σ → K → β) (new : K → β) (ks : List K)
    (hlook : ∀ next k k', look (take next k) k' = if k = k' then new k else look next k')
    (next : σ) (k : K) :
  look (ks.foldl take next) k = if k ∈ ks then new k else look next k
  := by
  induction ks generalizing next with
  | nil => simp
  | cons k' ks ih =>
    rw [foldl_cons, ih, hlook]
    by_cases hk : k' = k <;> by_cases hks : k ∈ ks <;> simp [hk, hks, Ne.symm]

/-- A projection of the state that no step changes. -/
theorem foldl_take_fixed (look : σ → β) (ks : List K)
    (hlook : ∀ next k, look (take next k) = look next) (next : σ) :
  look (ks.foldl take next) = look next
  := by
  induction ks generalizing next with
  | nil => rfl
  | cons k ks ih => rw [foldl_cons, ih, hlook]

/-- A merge without conflicts, seen at one key. -/
theorem merge_at [DecidableEq K] (look : σ → K → β) (new : K → β)
    (hlook : ∀ next k k', look (take next k) k' = if k = k' then new k else look next k')
    (hcover : ∀ k, base k ≠ work k → k ∈ ks)
    (h : merge base work committed take ks next = .ok next') (k : K) :
  (base k ≠ work k → committed k = base k) ∧
    look next' k = if base k = work k then look next k else new k
  := by
  obtain ⟨hsame, rfl⟩ := merge_eq_ok.mp h
  refine ⟨fun hk => hsame k (hcover k hk) hk, ?_⟩
  rw [foldl_take_at look new _ hlook]
  by_cases hk : base k = work k
  · simp [hk]
  · simp [hk, hcover k hk]

/-- What no step of a merge changes. -/
theorem merge_fixed (look : σ → β) (h : merge base work committed take ks next = .ok next')
    (hlook : ∀ next k, look (take next k) = look next) :
  look next' = look next
  := by
  obtain ⟨-, rfl⟩ := merge_eq_ok.mp h
  exact foldl_take_fixed look _ hlook next

end ThreeWayMerge
