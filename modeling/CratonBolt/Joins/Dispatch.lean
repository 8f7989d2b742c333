import CratonBolt.Joins.NestedLoop
import CratonBolt.Joins.Returns

/-!
# The choice of a join executor

`execute_join` of `exec/join.rs`: a join with a residual filter runs as a hash join followed by a
filter when it is an `INNER` join with keys and as a nested loop otherwise, a join without one by
its type. `admitsJoin` is what the chosen executor asks of the sizes of the inputs and of the
types of the keys: every join that returns is admitted.
-/

namespace CratonBolt.Joins

open Outcome List

variable {Q : Type} {out : Batch}

/-- `execute_join` on the tables of its inputs. -/
def executeJoin (device : Device) (other : Batch → Expr Q → BoltResult Truths) (lhs rhs : Batch)
    (joinType : JoinType) (on : List (Expr Q × Expr Q)) (filter : Option (Expr Q))
    (schema : Schema) : BoltResult (List Row) :=
  match filter with
  | some predicate =>
    if joinType = .inner ∧ !on.isEmpty then do
      let joined ← executeInnerJoin device lhs rhs on schema
      let out ← executeFilter other joined predicate
      .ok out.rows
    else executeNestedLoopJoin device other lhs rhs joinType on predicate schema
  | none =>
    if joinType = .cross then do
      let out ← executeCrossJoin device lhs rhs schema
      .ok out.rows
    else do
      let out ← executeEquiJoin device lhs rhs joinType on schema
      .ok out.rows

/-! ### What the executors ask for -/

/-- The names and types of the columns of a batch. -/
def Batch.described (b : Batch) : List (String × ArrowType) :=
  b.columns.map (fun c => (c.1, c.2.dtype))

/-- The columns that a key pair names have the same type. -/
def keyTypesAgree (lefts rights : List (String × ArrowType)) (pair : Expr Q × Expr Q) : Bool :=
  match columnName "left" pair.1, columnName "right" pair.2 with
  | .ok l, .ok r => (lefts.lookup l).isSome && decide (lefts.lookup l = rights.lookup r)
  | _, _ => false

/-- The hash joins need keys, which have the same types on both sides unless one is empty. -/
def admitsHash (keyed agree : Bool) (lefts rights : Nat) : Bool :=
  keyed && (decide (lefts = 0) || decide (rights = 0) || agree)

/-- The nested loop takes no outer join and needs one side of at most 1024 rows. -/
def admitsNestedLoop (joinType : JoinType) (lefts rights : Nat) : Bool :=
  !preserveProbe joinType && decide (min lefts rights ≤ maxNestedLoopInnerRows)

/--
The executor chosen for a join takes inputs with these numbers of rows. `keyed` says that the join
has keys, `filtered` that it has a residual filter and `agree` that the types of its keys agree.
-/
def admitsJoin (joinType : JoinType) (keyed filtered agree : Bool) (lefts rights : Nat) : Bool :=
  if filtered && !(decide (joinType = .inner) && keyed) then admitsNestedLoop joinType lefts rights
  else if joinType = .cross then decide (lefts * rights ≤ maxCrossRows)
  else admitsHash keyed agree lefts rights

/-! ### Keys -/

theorem lookup_described {b : Batch} {name : String} {i : Nat} (h : b.indexOf name = some i) :
  b.described.lookup name = some (b.column i).dtype
  := by
  rw [Batch.indexOf, Batch.names] at h
  rw [Batch.described, Batch.column]
  generalize b.columns = columns at h
  induction columns generalizing i with
  | nil => simp at h
  | cons c columns ih =>
    rw [map_cons, findIdx?_cons] at h
    rw [map_cons, lookup_cons]
    by_cases hc : c.1 = name
    · rw [if_pos (beq_iff_eq.mpr hc)] at h
      injection h with h
      subst h hc
      simp
    · rw [if_neg (by simpa using hc)] at h
      obtain ⟨j, hj, rfl⟩ := Option.map_eq_some_iff.mp h
      have hne : (name == c.1) = false := beq_eq_false_iff_ne.mpr (Ne.symm hc)
      rw [hne]
      exact ih hj

/-- Keys that pass the lookups and the check of their types agree. -/
theorem keyTypesAgree_of_check {lhs rhs : Batch} {on : List (Expr Q × Expr Q)}
    {lefts rights : List String} {leftIdx rightIdx : List Nat}
    (hkeys : splitKeys on = .ok (lefts, rights)) (hl : lookupColumns lhs lefts = .ok leftIdx)
    (hr : lookupColumns rhs rights = .ok rightIdx) (hsame : SameTypes lhs rhs leftIdx rightIdx) :
  on.all (keyTypesAgree lhs.described rhs.described) = true
  := by
  induction on generalizing lefts rights leftIdx rightIdx with
  | nil => rfl
  | cons pair on ih =>
    obtain ⟨left, hleft, hkeys⟩ := bind_eq_ok.mp hkeys
    obtain ⟨right, hright, hkeys⟩ := bind_eq_ok.mp hkeys
    obtain ⟨⟨ls, rs⟩, hrest, hkeys⟩ := bind_eq_ok.mp hkeys
    injection hkeys with hkeys
    injection hkeys with hls hrs
    subst hls hrs
    obtain ⟨i, is, hi, his, rfl⟩ := forall₂_cons_left_iff.mp (mapM_eq_ok_iff.mp hl)
    obtain ⟨j, js, hj, hjs, rfl⟩ := forall₂_cons_left_iff.mp (mapM_eq_ok_iff.mp hr)
    rw [SameTypes, forall₂_cons] at hsame
    rw [all_cons, Bool.and_eq_true]
    refine ⟨?_, ih hrest (mapM_eq_ok_iff.mpr his) (mapM_eq_ok_iff.mpr hjs)
      hsame.2⟩
    rw [lookupColumn_eq_ok] at hi hj
    simp [keyTypesAgree, hleft, hright, lookup_described hi, lookup_described hj, hsame.1]

section Admitted

variable {device : Device} {lhs rhs : Batch} {joinType : JoinType} {on : List (Expr Q × Expr Q)}
  {schema : Schema} {lefts rights : List String} {buildIsLeft : Bool}

/-- The checks of the keys on the build and the probe side make the keys agree. -/
theorem keyTypesAgree_of_sides {kind : String} {buildIdx probeIdx : List Nat}
    (hkeys : splitKeys on = .ok (lefts, rights))
    (hbuild : lookupColumns (sides buildIsLeft lhs rhs).1 (sides buildIsLeft lefts rights).1 =
      .ok buildIdx)
    (hprobe : lookupColumns (sides buildIsLeft lhs rhs).2 (sides buildIsLeft lefts rights).2 =
      .ok probeIdx)
    (hcheck : checkKeyDtypes (sides buildIsLeft lhs rhs).1 (sides buildIsLeft lhs rhs).2 kind
      buildIdx probeIdx = .ok ()) :
  on.all (keyTypesAgree lhs.described rhs.described) = true
  := by
  have hlen : buildIdx.length = probeIdx.length := by
    rw [(lookupColumns_eq_ok hbuild).1, (lookupColumns_eq_ok hprobe).1, keyPositions, keyPositions,
      length_map, length_map]
    cases buildIsLeft with
    | true => exact splitKeys_length hkeys
    | false => exact (splitKeys_length hkeys).symm
  rw [checkKeyDtypes_eq_ok hlen] at hcheck
  cases buildIsLeft with
  | true => exact keyTypesAgree_of_check hkeys hbuild hprobe hcheck
  | false => exact keyTypesAgree_of_check hkeys hprobe hbuild hcheck.symm

theorem executeInnerJoin_admits (h : executeInnerJoin device lhs rhs on schema = .ok out) :
  admitsHash (!on.isEmpty) (on.all (keyTypesAgree lhs.described rhs.described)) lhs.numRows
    rhs.numRows = true
  := by
  unfold executeInnerJoin at h
  split at h
  · cases h
  rename_i hne
  obtain ⟨⟨lefts, rights⟩, hkeys, h⟩ := bind_eq_ok.mp h
  obtain ⟨⟨⟩, -, h⟩ := bind_eq_ok.mp h
  rw [admitsHash, eq_false_of_ne_true hne]
  split at h
  · rename_i hempty
    obtain hl | hr := hempty
    · simp [hl]
    · simp [hr]
  · obtain ⟨buildIdx, hbuild, h⟩ := bind_eq_ok.mp h
    obtain ⟨probeIdx, hprobe, h⟩ := bind_eq_ok.mp h
    obtain ⟨⟨⟩, hcheck, -⟩ := bind_eq_ok.mp h
    rw [keyTypesAgree_of_sides hkeys hbuild hprobe hcheck]
    simp

theorem outerJoinOn_admits (hkeys : splitKeys on = .ok (lefts, rights))
    (h : outerJoinOn device lhs rhs joinType buildIsLeft lefts rights schema = .ok out) :
  lhs.numRows = 0 ∨ rhs.numRows = 0 ∨
    on.all (keyTypesAgree lhs.described rhs.described) = true
  := by
  have hsides : (sides buildIsLeft lhs rhs).2.numRows = 0 ∨
      (sides buildIsLeft lhs rhs).1.numRows = 0 → lhs.numRows = 0 ∨ rhs.numRows = 0 := by
    cases buildIsLeft with
    | true => exact Or.symm
    | false => exact id
  unfold outerJoinOn at h
  by_cases hprobe : (sides buildIsLeft lhs rhs).2.numRows = 0
  · obtain hz | hz := hsides (.inl hprobe)
    · exact .inl hz
    · exact .inr (.inl hz)
  by_cases hbuild : (sides buildIsLeft lhs rhs).1.numRows = 0
  · obtain hz | hz := hsides (.inr hbuild)
    · exact .inl hz
    · exact .inr (.inl hz)
  rw [if_neg (fun hz => hprobe hz.1), if_neg hprobe, if_neg hbuild] at h
  obtain ⟨buildIdx, hb, h⟩ := bind_eq_ok.mp h
  obtain ⟨probeIdx, hp, h⟩ := bind_eq_ok.mp h
  obtain ⟨⟨⟩, hcheck, -⟩ := bind_eq_ok.mp h
  exact .inr (.inr (keyTypesAgree_of_sides hkeys hb hp hcheck))

theorem executeOuterJoin_admits (h : executeOuterJoin device lhs rhs joinType on schema = .ok out) :
  admitsHash (!on.isEmpty) (on.all (keyTypesAgree lhs.described rhs.described)) lhs.numRows
    rhs.numRows = true
  := by
  unfold executeOuterJoin at h
  split at h
  · cases h
  rename_i hne
  obtain ⟨⟨⟩, -, h⟩ := bind_eq_ok.mp h
  obtain ⟨⟨lefts, rights⟩, hkeys, h⟩ := bind_eq_ok.mp h
  rw [admitsHash, eq_false_of_ne_true hne]
  obtain hz | hz | hagree := outerJoinOn_admits hkeys h
  · simp [hz]
  · simp [hz]
  · simp [hagree]

theorem executeCrossJoin_admits (h : executeCrossJoin device lhs rhs schema = .ok out) :
  lhs.numRows * rhs.numRows ≤ maxCrossRows
  := by
  obtain ⟨⟨⟩, -, h⟩ := bind_eq_ok.mp h
  dsimp only at h
  split at h
  · rename_i hempty
    obtain hl | hr := hempty
    · simp [hl]
    · simp [hr]
  · split at h
    · cases h
    · split at h
      · cases h
      · omega

variable {other : Batch → Expr Q → BoltResult Truths} {rows : List Row}

theorem executeNestedLoopJoin_admits {predicate : Expr Q}
    (h : executeNestedLoopJoin device other lhs rhs joinType on predicate schema = .ok rows) :
  admitsNestedLoop joinType lhs.numRows rhs.numRows = true
  := by
  unfold executeNestedLoopJoin nestedLoopJoinChunked at h
  dsimp only at h
  split at h
  · cases h
  rename_i hjoin
  split at h
  · cases h
  rename_i hsize
  simp only [admitsNestedLoop, Bool.and_eq_true, Bool.not_eq_true', decide_eq_true_eq]
  exact ⟨by simpa using hjoin, by omega⟩

/-- A join that returns is one that the executors admit. -/
theorem executeJoin_admits {filter : Option (Expr Q)}
    (h : executeJoin device other lhs rhs joinType on filter schema = .ok rows) :
  admitsJoin joinType (!on.isEmpty) filter.isSome
    (on.all (keyTypesAgree lhs.described rhs.described)) lhs.numRows rhs.numRows = true
  := by
  cases filter with
  | some predicate =>
    unfold executeJoin at h
    dsimp only at h
    split at h
    · rename_i hkeyed
      obtain ⟨joined, hjoined, -⟩ := bind_eq_ok.mp h
      rw [admitsJoin, hkeyed.1, hkeyed.2]
      simpa [hkeyed.2] using executeInnerJoin_admits hjoined
    · rename_i hkeyed
      have hloop : (decide (joinType = .inner) && !on.isEmpty) = false := by
        simpa using hkeyed
      rw [admitsJoin, hloop]
      exact executeNestedLoopJoin_admits h
  | none =>
    unfold executeJoin at h
    dsimp only at h
    rw [admitsJoin, Option.isSome_none, Bool.false_and, if_neg Bool.false_ne_true]
    split at h
    · rename_i hcross
      obtain ⟨out, hout, -⟩ := bind_eq_ok.mp h
      rw [if_pos hcross]
      exact decide_eq_true (executeCrossJoin_admits hout)
    · rename_i hcross
      obtain ⟨out, hout, -⟩ := bind_eq_ok.mp h
      rw [if_neg hcross]
      unfold executeEquiJoin at hout
      split at hout
      · exact executeInnerJoin_admits hout
      · exact executeOuterJoin_admits hout

end Admitted

end CratonBolt.Joins
