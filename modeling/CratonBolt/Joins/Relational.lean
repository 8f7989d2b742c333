import Mathlib.Data.List.GetD
import CratonBolt.Joins.HostRows

/-!
# The hash join and the relational join

A hash join that returns rows returns the join of its sides by equality of keys, and that is the
join by SQL's `=` unless two rows share a key with a NaN in it. Under the contract of the planner,
with key columns of the same types, it always returns.
-/

namespace CratonBolt.Joins

open Outcome List

/-! ### Looking up the keys -/

/-- The positions of named columns; a name that no column has is past the last of them. -/
def keyPositions (b : Batch) (names : List String) : List Nat :=
  names.map (fun name => (b.indexOf name).getD b.columns.length)

variable {b build probe : Batch} {i j : Nat} {names : List String}
variable {indices buildIdx probeIdx : List Nat}

theorem lookupColumn_eq_ok {name : String} :
  lookupColumn b name = .ok i ↔ b.indexOf name = some i
  := by
  unfold lookupColumn
  cases b.indexOf name <;> simp

theorem lookupColumns_eq_ok (h : lookupColumns b names = .ok indices) :
  indices = keyPositions b names ∧ ∀ i ∈ indices, i < b.columns.length
  := by
  have hall := mapM_eq_ok_iff.mp h
  clear h
  induction hall with
  | nil => simp [keyPositions]
  | @cons name i names indices hi _ ih =>
    rw [lookupColumn_eq_ok] at hi
    rw [forall_mem_cons]
    refine ⟨?_, Batch.lt_of_indexOf hi, ih.2⟩
    rw [keyPositions, map_cons, hi, ih.1]
    rfl

theorem lookupColumns_ok (h : ∀ name ∈ names, (b.indexOf name).isSome = true) :
  lookupColumns b names = .ok (keyPositions b names)
  := by
  apply mapM_eq_ok_iff.mpr
  rw [keyPositions, forall₂_map_right_iff, forall₂_same]
  intro name hname
  obtain ⟨i, hi⟩ := Option.isSome_iff_exists.mp (h name hname)
  rw [lookupColumn_eq_ok, hi]
  rfl

theorem checkKeyDtypes_eq_ok {kind : String} (hlen : buildIdx.length = probeIdx.length) :
  checkKeyDtypes build probe kind buildIdx probeIdx = .ok () ↔
    SameTypes build probe buildIdx probeIdx
  := by
  induction buildIdx generalizing probeIdx with
  | nil =>
    cases probeIdx with
    | nil => simp [checkKeyDtypes, SameTypes]
    | cons p probeIdx => cases hlen
  | cons b buildIdx ih =>
    cases probeIdx with
    | nil => cases hlen
    | cons p probeIdx =>
      rw [SameTypes, forall₂_cons, checkKeyDtypes, ← SameTypes]
      split
      · rename_i hdt
        rw [ih (Nat.succ.inj hlen)]
        exact (and_iff_right hdt).symm
      · rename_i hdt
        simp [hdt]

theorem splitKeys_length {Q : Type} {on : List (Expr Q × Expr Q)} {lefts rights : List String}
    (h : splitKeys on = .ok (lefts, rights)) :
  lefts.length = rights.length
  := by
  induction on generalizing lefts rights with
  | nil =>
    injection h with h
    injection h with hl hr
    subst hl hr
    rfl
  | cons pair on ih =>
    obtain ⟨left, -, h⟩ := bind_eq_ok.mp h
    obtain ⟨right, -, h⟩ := bind_eq_ok.mp h
    obtain ⟨⟨ls, rs⟩, hrest, h⟩ := bind_eq_ok.mp h
    injection h with h
    injection h with hl hr
    subst hl hr
    rw [length_cons, length_cons, ih hrest]

/-! ### Pairs that share a NaN -/

/-- Two rows have the same key, and there is a NaN in it. -/
def NanPair (leftIdx rightIdx : List Nat) (ls rs : List Row) : Prop :=
  ∃ l ∈ ls, ∃ r ∈ rs, ∃ k, rowKey leftIdx l = some k ∧ rowKey rightIdx r = some k ∧
    ∃ v ∈ k, v.isNan = true

/-- The rows of the relational join: pairs equal in all key columns, and the preserved rest. -/
def relationalRows (lhs rhs : Batch) (joinType : JoinType) (leftKeys rightKeys : List String) :
    List Row :=
  joinRows lhs.columns.length rhs.columns.length joinType
    (sqlMatch (keyPositions lhs leftKeys) (keyPositions rhs rightKeys)) lhs.rows rhs.rows

theorem hashMatch_iff {leftIdx rightIdx : List Nat} {l r : Row} :
  hashMatch leftIdx rightIdx l r = true ↔
    ∃ k, rowKey leftIdx l = some k ∧ rowKey rightIdx r = some k
  := by
  unfold hashMatch
  cases rowKey leftIdx l with
  | none => simp
  | some k => simp

theorem ne_null_of_rowKey {r : Row} {k : List JoinKeyValue}
    (h : rowKey indices r = some k) (hi : i ∈ indices) :
  (r.getD i .null).isNull = false
  := by
  have hall := mapM_eq_some_iff.mp h
  clear h
  induction hall with
  | nil => cases hi
  | @cons i' v indices vs hv _ ih =>
    obtain rfl | hi := mem_cons.mp hi
    · cases hcell : r.getD i .null <;> rw [hcell] at hv <;> first | rfl | cases hv
    · exact ih hi

/-- On rows of the two sides, `=` in all key columns is a shared key without a NaN. -/
def SqlByKeys (leftIdx rightIdx : List Nat) (ls rs : List Row) : Prop :=
  ∀ l ∈ ls, ∀ r ∈ rs, (sqlMatch leftIdx rightIdx l r = true ↔
    ∃ k, rowKey leftIdx l = some k ∧ rowKey rightIdx r = some k ∧ ∀ v ∈ k, v.isNan = false)

section Exact

variable {lhs rhs : Batch} {leftIdx rightIdx : List Nat} {joinType : JoinType}

/-- A joined row has a value in a key column of each side exactly when both sides are there. -/
theorem countP_joinRows {m : Row → Row → Bool} (hi : i < lhs.columns.length)
    (hm : ∀ l ∈ lhs.rows, ∀ r ∈ rhs.rows, m l r = true →
      (l.getD i .null).isNull = false ∧ (r.getD j .null).isNull = false) :
  (joinRows lhs.columns.length rhs.columns.length joinType m lhs.rows rhs.rows).countP
      (fun row => !(row.getD i .null).isNull && !(row.getD (lhs.columns.length + j) .null).isNull) =
    (ListJoin.matched m lhs.rows rhs.rows).length
  := by
  have hlen : ∀ l ∈ lhs.rows, l.length = lhs.columns.length := by
    intro l hl
    obtain ⟨n, -, rfl⟩ := mem_map.mp hl
    exact lhs.length_row n
  have hpad : ∀ n k, (List.replicate n Literal.null).getD k .null = Literal.null := by
    intro n k
    rw [getD_eq_getElem?_getD, getElem?_getD_replicate_default_eq]
  rw [joinRows, countP_map]
  apply ListJoin.countP_outerJoin
  · intro l hl r hr hlr
    obtain ⟨hl', hr'⟩ := hm l hl r hr hlr
    simp only [Function.comp_apply, joinedRow, Option.getD_some]
    rw [getD_append _ _ _ _ (by rwa [hlen l hl]), getD_append_right _ _ _ _
      (by rw [hlen l hl]; omega), hlen l hl, Nat.add_sub_cancel_left, hl', hr']
    rfl
  · intro l hl
    simp only [Function.comp_apply, joinedRow, Option.getD_some, Option.getD_none]
    rw [getD_append_right _ _ _ (lhs.columns.length + j) (by rw [hlen l hl]; omega),
      hpad]
    exact Bool.and_false _
  · intro r hr
    simp only [Function.comp_apply, joinedRow, Option.getD_some, Option.getD_none]
    rw [getD_append _ _ _ i (by rwa [length_replicate]), hpad]
    exact Bool.false_and _

/--
Two tests, of which one is stricter and the other is true only on rows with values in two key
columns, give the same join exactly when they agree on all rows.
-/
theorem joinRows_perm_iff_agree {m m' : Row → Row → Bool} (hi : i < lhs.columns.length)
    (himp : ∀ l ∈ lhs.rows, ∀ r ∈ rhs.rows, m' l r = true → m l r = true)
    (hm : ∀ l ∈ lhs.rows, ∀ r ∈ rhs.rows, m l r = true →
      (l.getD i .null).isNull = false ∧ (r.getD j .null).isNull = false) :
  (joinRows lhs.columns.length rhs.columns.length joinType m lhs.rows rhs.rows).Perm
      (joinRows lhs.columns.length rhs.columns.length joinType m' lhs.rows rhs.rows) ↔
    ∀ l ∈ lhs.rows, ∀ r ∈ rhs.rows, m l r = m' l r
  := by
  constructor
  · -- Equal bags have as many matched pairs, so the stricter test has them all.
    intro hperm l hl r hr
    have hcount := hperm.countP_eq (fun row => !(row.getD i .null).isNull &&
      !(row.getD (lhs.columns.length + j) .null).isNull)
    rw [countP_joinRows hi hm, countP_joinRows hi
      (fun l hl r hr hlr => hm l hl r hr (himp l hl r hr hlr))] at hcount
    exact (ListJoin.matched_congr_of_length himp hcount.symm l hl r hr).symm
  · intro hagree
    apply Perm.of_eq
    rw [joinRows, joinRows]
    congr 1
    exact ListJoin.outerJoin_congr hagree

/-- The join by keys is the join by `=` exactly when no two rows share a NaN. -/
theorem joinRows_perm_iff (hsql : SqlByKeys leftIdx rightIdx lhs.rows rhs.rows)
    (hi : i ∈ leftIdx) (hleft : ∀ i ∈ leftIdx, i < lhs.columns.length) (hj : j ∈ rightIdx) :
  (joinRows lhs.columns.length rhs.columns.length joinType (hashMatch leftIdx rightIdx) lhs.rows
      rhs.rows).Perm
    (joinRows lhs.columns.length rhs.columns.length joinType (sqlMatch leftIdx rightIdx) lhs.rows
      rhs.rows) ↔ ¬ NanPair leftIdx rightIdx lhs.rows rhs.rows
  := by
  have himp : ∀ l ∈ lhs.rows, ∀ r ∈ rhs.rows, sqlMatch leftIdx rightIdx l r = true →
      hashMatch leftIdx rightIdx l r = true := by
    intro l hl r hr hlr
    obtain ⟨k, hkl, hkr, -⟩ := (hsql l hl r hr).mp hlr
    exact hashMatch_iff.mpr ⟨k, hkl, hkr⟩
  have hkeys : ∀ l ∈ lhs.rows, ∀ r ∈ rhs.rows, hashMatch leftIdx rightIdx l r = true →
      (l.getD i .null).isNull = false ∧ (r.getD j .null).isNull = false := by
    intro l hl r hr hlr
    obtain ⟨k, hkl, hkr⟩ := hashMatch_iff.mp hlr
    exact ⟨ne_null_of_rowKey hkl hi, ne_null_of_rowKey hkr hj⟩
  rw [joinRows_perm_iff_agree (hleft i hi) himp hkeys]
  constructor
  · rintro hagree ⟨l, hl, r, hr, k, hkl, hkr, v, hv, hnan⟩
    have heq := hagree l hl r hr
    rw [hashMatch_iff.mpr ⟨k, hkl, hkr⟩] at heq
    obtain ⟨k', hkl', -, hno⟩ := (hsql l hl r hr).mp heq.symm
    rw [hkl, Option.some.injEq] at hkl'
    subst hkl'
    rw [hno v hv] at hnan
    cases hnan
  · intro hno l hl r hr
    rw [Bool.eq_iff_iff]
    constructor
    · intro hlr
      obtain ⟨k, hkl, hkr⟩ := hashMatch_iff.mp hlr
      apply (hsql l hl r hr).mpr
      refine ⟨k, hkl, hkr, ?_⟩
      intro v hv
      by_contra hnan
      exact hno ⟨l, hl, r, hr, k, hkl, hkr, v, hv, by simpa using hnan⟩
    · exact himp l hl r hr

end Exact

/-! ### Reading the build side -/

/-- When the table is built, `=` on the sides is a shared key without a NaN. -/
theorem sqlByKeys_of_build {map : KeyMap} (hidx : KeysIn (build, probe) buildIdx probeIdx)
    (htypes : SameTypes build probe buildIdx probeIdx)
    (hmap : buildHashMap build buildIdx = .ok map) :
  SqlByKeys buildIdx probeIdx build.rows probe.rows
  := by
  intro l hl r hr
  obtain ⟨b, hb, rfl⟩ := mem_map.mp hl
  obtain ⟨p, -, rfl⟩ := mem_map.mp hr
  obtain ⟨o, ho⟩ := buildRows_read hmap b hb
  obtain ⟨hkey, hnull⟩ := extractKey_spec hidx.build ho
  cases o with
  | none =>
    rw [sqlMatch_of_null htypes.length_eq (hnull rfl), ← hkey]
    simp
  | some key =>
    rw [sqlMatch_iff hidx.build hidx.probe htypes b p hkey.symm, ← hkey]
    simp

theorem SqlByKeys.symm {leftIdx rightIdx : List Nat} {ls rs : List Row}
    (h : SqlByKeys leftIdx rightIdx ls rs) :
  SqlByKeys rightIdx leftIdx rs ls
  := by
  intro r hr l hl
  rw [sqlMatch_comm, h l hl r hr]
  apply exists_congr
  intro k
  exact and_left_comm

end CratonBolt.Joins
