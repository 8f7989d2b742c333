import CratonBolt.Optimizer.JoinCostSound

/-!
# The graph of the equality keys

Two relations are linked when a key connects them. The search of `is_connected` finds exactly the
relations that a path leads to from the first one, so its answer is whether the keys connect all
relations.
-/

namespace CratonBolt

open Relation List

namespace CardModel

variable (model : CardModel)

/-- A key connects the two relations. -/
def Linked (a b : Nat) : Prop := (a, b) ∈ model.edges ∨ (b, a) ∈ model.edges

/-- Every key connects two different relations, the lower one first. -/
def WellFormed : Prop :=
  ∀ e ∈ model.edges, e.1 < e.2 ∧ e.2 < model.leafRows.length

/-- Paths of keys connect all relations. -/
def Connected : Prop :=
  ∀ a < model.leafRows.length, ∀ b < model.leafRows.length, ReflTransGen model.Linked a b

end CardModel

section Graph

variable {model : CardModel} {a b : Nat}

theorem CardModel.Linked.symm (h : model.Linked a b) :
  model.Linked b a
  := Or.symm h

theorem CardModel.WellFormed.lt (hwf : model.WellFormed) (h : model.Linked a b) :
  a < model.leafRows.length ∧ b < model.leafRows.length
  := by
  obtain h | h := h
  · have := hwf _ h
    omega
  · have := hwf _ h
    omega

theorem normalizeEdge_eq {e : Nat × Nat} (hne : e.1 ≠ e.2) :
  normalizeEdge e = (a, b) ↔ a < b ∧ (e = (a, b) ∨ e = (b, a))
  := by
  obtain ⟨x, y⟩ := e
  unfold normalizeEdge
  simp only [ne_eq] at hne
  split <;> simp only [Prod.mk.injEq] <;> omega

theorem CardModel.mem_edges_new {leafRows : List Nat} {keyEdges : List (Nat × Nat)} :
  (a, b) ∈ (CardModel.new leafRows keyEdges).edges ↔
    a < b ∧ b < leafRows.length ∧ ((a, b) ∈ keyEdges ∨ (b, a) ∈ keyEdges)
  := by
  simp only [CardModel.new, mem_map, mem_filter, Bool.and_eq_true, bne_iff_ne,
    decide_eq_true_eq]
  constructor
  · rintro ⟨e, ⟨he, ⟨hne, h₁⟩, h₂⟩, hnorm⟩
    obtain ⟨hlt, rfl | rfl⟩ := (normalizeEdge_eq hne).mp hnorm
    · exact ⟨hlt, h₂, .inl he⟩
    · exact ⟨hlt, h₁, .inr he⟩
  · rintro ⟨hlt, hb, he | he⟩
    · exact ⟨(a, b), ⟨he, ⟨by simp; omega, by simp; omega⟩, hb⟩,
        (normalizeEdge_eq (by simp; omega)).mpr ⟨hlt, .inl rfl⟩⟩
    · exact ⟨(b, a), ⟨he, ⟨by simp; omega, hb⟩, by simp; omega⟩,
        (normalizeEdge_eq (by simp; omega)).mpr ⟨hlt, .inr rfl⟩⟩

theorem CardModel.wellFormed_new (leafRows : List Nat) (keyEdges : List (Nat × Nat)) :
  (CardModel.new leafRows keyEdges).WellFormed
  := by
  rintro ⟨a, b⟩ he
  obtain ⟨hlt, hb, -⟩ := mem_edges_new.mp he
  exact ⟨hlt, hb⟩

/-- Keys cross between two sets exactly when two of their relations are linked. -/
theorem CardModel.crossingKeys_ne_zero {left right : List Nat} :
  model.crossingKeys left right ≠ 0 ↔ ∃ a ∈ left, ∃ b ∈ right, model.Linked a b
  := by
  rw [crossingKeys, Ne, countP_eq_zero]
  simp only [Bool.or_eq_true, Bool.and_eq_true, contains_iff_mem, not_forall, not_not]
  constructor
  · rintro ⟨⟨x, y⟩, he, ⟨hx, hy⟩ | ⟨hx, hy⟩⟩
    · exact ⟨x, hx, y, hy, .inl he⟩
    · exact ⟨y, hy, x, hx, .inr he⟩
  · rintro ⟨x, hx, y, hy, he | he⟩
    · exact ⟨(x, y), he, .inl ⟨hx, hy⟩⟩
    · exact ⟨(y, x), he, .inr ⟨hy, hx⟩⟩

theorem path_symm (h : ReflTransGen model.Linked a b) :
  ReflTransGen model.Linked b a
  := by
  induction h with
  | refl => exact ReflTransGen.refl
  | tail _ huv ih => exact ReflTransGen.head huv.symm ih

/-- A path that leaves a set leaves it over a key. -/
theorem exists_linked_of_path {S : Nat → Prop} (h : ReflTransGen model.Linked a b) (ha : S a)
    (hb : ¬S b) :
  ∃ u v, S u ∧ ¬S v ∧ model.Linked u v
  := by
  induction h with
  | refl => exact absurd ha hb
  | @tail u v _ huv ih =>
    by_cases hu : S u
    · exact ⟨u, v, hu, hb, huv⟩
    · exact ih hu

end Graph

/-! ### The search -/

section Search

variable {model : CardModel} {seen stack : List Nat}

theorem mem_neighbours {u v : Nat} :
  v ∈ neighbours model u ↔ model.Linked u v
  := by
  simp only [neighbours, mem_filterMap]
  constructor
  · rintro ⟨⟨x, y⟩, he, h⟩
    dsimp only at h
    split at h
    · next hx =>
      obtain rfl := Option.some.inj h
      exact .inl (hx ▸ he)
    · split at h
      · next hy =>
        obtain rfl := Option.some.inj h
        exact .inr (hy ▸ he)
      · cases h
  · rintro (he | he)
    · exact ⟨(u, v), he, by simp⟩
    · refine ⟨(v, u), he, ?_⟩
      by_cases hvu : v = u
      · simp [hvu]
      · simp [hvu]

/-- What marking some relations does: the new ones are seen and on the stack. -/
structure Visited (vs seen stack seen' stack' : List Nat) : Prop where
  mem : ∀ v, v ∈ seen' ↔ v ∈ seen ∨ v ∈ vs
  nodup : seen.Nodup → seen'.Nodup
  stack_subset : ∀ v, v ∈ stack' → v ∈ stack ∨ v ∈ vs
  fresh : ∀ v, v ∈ seen' → v ∉ stack' → v ∈ seen ∧ v ∉ stack
  length : seen'.length + stack.length = seen.length + stack'.length

theorem visited_foldl (vs : List Nat) (state : List Nat × List Nat) :
  Visited vs state.1 state.2 (vs.foldl visit state).1 (vs.foldl visit state).2
  := by
  induction vs generalizing state with
  | nil => exact ⟨by simp, id, by simp, fun v h h' => ⟨h, h'⟩, rfl⟩
  | cons v vs ih =>
    rw [foldl_cons]
    obtain ⟨hmem, hnodup, hstack, hfresh, hlen⟩ := ih (visit state v)
    unfold visit at hmem hnodup hstack hfresh hlen ⊢
    by_cases hv : state.1.contains v = true
    · rw [if_pos hv] at hmem hnodup hstack hfresh hlen ⊢
      rw [contains_iff_mem] at hv
      refine ⟨?_, hnodup, ?_, hfresh, hlen⟩
      · intro x
        rw [hmem, mem_cons]
        constructor
        · rintro (hx | hx)
          · exact .inl hx
          · exact .inr (.inr hx)
        · rintro (hx | rfl | hx)
          · exact .inl hx
          · exact .inl hv
          · exact .inr hx
      · intro x hx
        exact (hstack x hx).imp_right (mem_cons_of_mem _)
    · rw [if_neg hv] at hmem hnodup hstack hfresh hlen ⊢
      rw [contains_iff_mem] at hv
      refine ⟨?_, ?_, ?_, ?_, ?_⟩
      · intro x
        rw [hmem, mem_cons, mem_cons]
        constructor
        · rintro ((rfl | hx) | hx)
          · exact .inr (.inl rfl)
          · exact .inl hx
          · exact .inr (.inr hx)
        · rintro (hx | rfl | hx)
          · exact .inl (.inr hx)
          · exact .inl (.inl rfl)
          · exact .inr hx
      · intro hnd
        exact hnodup (nodup_cons.mpr ⟨hv, hnd⟩)
      · intro x hx
        obtain hx | hx := hstack x hx
        · obtain rfl | hx := mem_cons.mp hx
          · exact .inr mem_cons_self
          · exact .inl hx
        · exact .inr (mem_cons_of_mem _ hx)
      · intro x hx hx'
        obtain ⟨hseen, hstk⟩ := hfresh x hx hx'
        rw [mem_cons, not_or] at hstk
        exact ⟨(mem_cons.mp hseen).resolve_left hstk.1, hstk.2⟩
      · simp only [length_cons] at hlen
        omega

/-- The state of the search. -/
structure Searching (model : CardModel) (seen stack : List Nat) : Prop where
  start : 0 ∈ seen
  nodup : seen.Nodup
  lt : ∀ v ∈ seen, v < model.leafRows.length
  reached : ∀ v ∈ seen, ReflTransGen model.Linked 0 v
  stack_subset : ∀ v ∈ stack, v ∈ seen
  closed : ∀ u ∈ seen, u ∉ stack → ∀ v, model.Linked u v → v ∈ seen

theorem Searching.pop {u : Nat} (hwf : model.WellFormed) (h : Searching model seen (u :: stack))
    {seen' stack' : List Nat} (hv : Visited (neighbours model u) seen stack seen' stack') :
  Searching model seen' stack'
  := by
  have hu := h.stack_subset u mem_cons_self
  constructor
  · exact (hv.mem 0).mpr (.inl h.start)
  · exact hv.nodup h.nodup
  · intro v hv'
    obtain hv' | hv' := (hv.mem v).mp hv'
    · exact h.lt v hv'
    · exact (hwf.lt (mem_neighbours.mp hv')).2
  · intro v hv'
    obtain hv' | hv' := (hv.mem v).mp hv'
    · exact h.reached v hv'
    · exact (h.reached u hu).tail (mem_neighbours.mp hv')
  · intro v hv'
    obtain hv' | hv' := hv.stack_subset v hv'
    · exact (hv.mem v).mpr (.inl (h.stack_subset v (mem_cons_of_mem _ hv')))
    · exact (hv.mem v).mpr (.inr hv')
  · intro w hw hw' v hlink
    obtain ⟨hseen, hstk⟩ := hv.fresh w hw hw'
    by_cases hwu : w = u
    · subst hwu
      exact (hv.mem v).mpr (.inr (mem_neighbours.mpr hlink))
    · refine (hv.mem v).mpr (.inl (h.closed w hseen ?_ v hlink))
      rw [mem_cons, not_or]
      exact ⟨hwu, hstk⟩

theorem Searching.length_le (h : Searching model seen stack) :
  seen.length ≤ model.leafRows.length
  := by
  have hsub : seen ⊆ range model.leafRows.length := by
    intro v hv
    exact mem_range.mpr (h.lt v hv)
  have := (subperm_of_subset h.nodup hsub).length_le
  rwa [length_range] at this

/-- With fuel for the relations on the stack and those not seen, the search ends. -/
theorem Searching.reach (hwf : model.WellFormed) {fuel : Nat} (h : Searching model seen stack)
    (hfuel : stack.length + (model.leafRows.length - seen.length) ≤ fuel) :
  Searching model (CratonBolt.reach model fuel seen stack) []
  := by
  induction fuel generalizing seen stack with
  | zero =>
    have hnil : stack = [] := length_eq_zero_iff.mp (by omega)
    subst hnil
    exact h
  | succ fuel ih =>
    cases stack with
    | nil => exact h
    | cons u stack =>
      have hv := visited_foldl (neighbours model u) (seen, stack)
      have hpop := h.pop hwf hv
      apply ih hpop
      have hlen := hv.length
      have hle := h.length_le
      have hle' := hpop.length_le
      simp only [length_cons] at hfuel
      dsimp only at hlen
      omega

/-- When the stack is empty, what was seen is what a path leads to. -/
theorem Searching.mem_iff (h : Searching model seen []) {v : Nat} :
  v ∈ seen ↔ ReflTransGen model.Linked 0 v
  := by
  constructor
  · exact h.reached v
  · intro hpath
    by_contra hv
    obtain ⟨u, w, hu, hw, hlink⟩ := exists_linked_of_path (S := (· ∈ seen)) hpath h.start hv
    exact hw (h.closed u hu not_mem_nil w hlink)

/-- `is_connected` decides whether the keys connect all relations. -/
theorem isConnected_iff (hwf : model.WellFormed) :
  isConnected model = true ↔ model.leafRows.length ≠ 0 ∧ model.Connected
  := by
  simp only [isConnected, Bool.and_eq_true, bne_iff_ne, beq_iff_eq]
  apply and_congr_right
  intro hn
  have hstart : Searching model [0] [0] := by
    refine ⟨by simp, by simp, ?_, ?_, by simp, by simp⟩
    · intro v hv
      obtain rfl := mem_singleton.mp hv
      omega
    · intro v hv
      obtain rfl := mem_singleton.mp hv
      exact ReflTransGen.refl
  have hend := hstart.reach hwf (by simp; omega : _ ≤ model.leafRows.length)
  generalize CratonBolt.reach model model.leafRows.length [0] [0] = seen at hend
  have hsub : seen ⊆ range model.leafRows.length := by
    intro v hv
    exact mem_range.mpr (hend.lt v hv)
  constructor
  · intro hlen a ha b hb
    -- as many as there are means all
    have hperm := (subperm_of_subset hend.nodup hsub).perm_of_length_le
      (by rw [length_range, hlen])
    have hall : ∀ v < model.leafRows.length, ReflTransGen model.Linked 0 v := by
      intro v hv
      exact hend.mem_iff.mp (hperm.mem_iff.mpr (mem_range.mpr hv))
    exact (path_symm (hall a ha)).trans (hall b hb)
  · intro hconn
    have hperm : seen.Perm (range model.leafRows.length) := by
      rw [perm_ext_iff_of_nodup hend.nodup nodup_range]
      intro v
      rw [hend.mem_iff, mem_range]
      constructor
      · intro hpath
        exact hend.lt v (hend.mem_iff.mpr hpath)
      · intro hv
        exact hconn 0 (by omega) v hv
    rw [hperm.length_eq, length_range]

end Search

end CratonBolt
