import CratonBolt.Joins.NestedLoopRows
import CratonBolt.Library.Masks

/-!
# `EXCEPT` and `INTERSECT`

The host executor of the set operators. It counts the rows of the right input by their keys, which
are those of `DISTINCT`, then walks over the left input and decides for each row whether it stays.
The result is a part of the left input, in its order, with as many copies of each row as SQL asks
for. The limit on the keys that the host holds is a parameter.
-/

namespace CratonBolt.SetOps

open Joins List
open KeyedList (distinctBy exceptAll intersectAll)

/-! ### The executor -/

/-- `ColumnReader::new` accepts the column. -/
def columnReader (c : Column) : BoltResult Unit :=
  match c.dtype with
  | .plain .int32 | .plain .int64 | .plain .float32 | .plain .float64 | .plain .bool
  | .plain .utf8 => .ok ()
  | other => .error (.type (s!"DISTINCT: unsupported dtype {other.debug} — should have been " ++
      "caught by the planner"))

/--
The loop of `build_key_counts`. The map from keys to counts is the list of the keys, each as often
as it is counted.
-/
def countKeys (maxRows : Nat) : List Row → List Row → BoltResult (List Row)
  | counts, [] => .ok counts
  | counts, key :: keys =>
    if maxRows < (counts ++ [key]).dedup.length then
      .error (.other (s!"set operation exceeded host bound of {maxRows} distinct rows on the " ++
        "right input; LIMIT the input (override via CRATON_SETOP_HOST_MAX_ROWS)"))
    else countKeys maxRows (counts ++ [key]) keys

/-- `build_key_counts`. -/
def buildKeyCounts (b : Batch) (maxRows : Nat) : BoltResult (List Row) :=
  if b.numRows = 0 then .ok []
  else do
    b.columns.forM (fun c => columnReader c.2)
    countKeys maxRows [] (b.rows.map rowKey)

/-- Whether a left row survives; then the right keys that are left, and the keys that are out. -/
def survive {κ : Type} [DecidableEq κ] (op : SetOpKind) (all : Bool) (counts emitted : List κ)
    (key : κ) : Bool × List κ × List κ :=
  match op, all with
  | .except, true =>
    if key ∈ counts then (false, counts.erase key, emitted) else (true, counts, emitted)
  | .intersect, true =>
    if key ∈ counts then (true, counts.erase key, emitted) else (false, counts, emitted)
  | .except, false =>
    if key ∉ counts ∧ key ∉ emitted then (true, counts, key :: emitted)
    else (false, counts, emitted)
  | .intersect, false =>
    if key ∈ counts ∧ key ∉ emitted then (true, counts, key :: emitted)
    else (false, counts, emitted)

/-- The mask of the left rows that survive. -/
def keepMask (op : SetOpKind) (all : Bool) (maxRows : Nat) :
    List Row → List Row → List Row → BoltResult (List Bool)
  | _, _, [] => .ok []
  | counts, emitted, key :: keys =>
    let next := survive op all counts emitted key
    if maxRows < next.2.2.length then
      .error (.other (s!"{op.keyword} exceeded host bound of {maxRows} distinct rows; " ++
        "LIMIT the input (override via CRATON_SETOP_HOST_MAX_ROWS)"))
    else do
      let rest ← keepMask op all maxRows next.2.1 next.2.2 keys
      .ok (next.1 :: rest)

/-- `execute_setop_with_cap`. -/
def executeSetopWithCap (left right : Batch) (op : SetOpKind) (all : Bool) (maxRows : Nat) :
    BoltResult Batch :=
  if left.columns.length ≠ right.columns.length then
    .error (.plan (s!"{op.keyword} inputs have a different number of columns " ++
      s!"({left.columns.length} vs {right.columns.length})"))
  else if left.numRows = 0 then .ok left
  else do
    let counts ← buildKeyCounts right maxRows
    left.columns.forM (fun c => columnReader c.2)
    let keep ← keepMask op all maxRows counts [] (left.rows.map rowKey)
    -- `RecordBatch::try_new` reads the number of rows off its columns.
    if left.columns.isEmpty then
      .error (.other ("arrow: Invalid argument error: must either specify a row count or at " ++
        "least one column"))
    else .ok (left.pick (Masks.select keep (range left.numRows)))

/-! ### The rows that survive -/

variable {op : SetOpKind} {all : Bool} {maxRows : Nat}

instance : LawfulBEq Row := inferInstance

/-- The rows of the operator when some right keys are left and some keys are out already. -/
def setOpFrom (op : SetOpKind) (all : Bool) (counts emitted : List Row) (rows : List Row) :
    List Row :=
  match op, all with
  | .except, true => exceptAll rowKey counts rows
  | .intersect, true => intersectAll rowKey counts rows
  | .except, false =>
    distinctBy rowKey emitted (rows.filter (fun row => decide (rowKey row ∉ counts)))
  | .intersect, false =>
    distinctBy rowKey emitted (rows.filter (fun row => decide (rowKey row ∈ counts)))

theorem setOpRows_eq (op : SetOpKind) (all : Bool) (ls rs : List Row) :
  setOpRows op all ls rs = setOpFrom op all (rs.map rowKey) [] ls
  := by
  cases op <;> cases all <;> rfl

/-- One step of the loop takes one row off the operator's input. -/
theorem setOpFrom_cons (op : SetOpKind) (all : Bool) (counts emitted : List Row) (row : Row)
    (rows : List Row) :
  let next := survive op all counts emitted (rowKey row)
  setOpFrom op all counts emitted (row :: rows) =
      (if next.1 then [row] else []) ++ setOpFrom op all next.2.1 next.2.2 rows ∧
    next.2.2.length = emitted.length + (if next.1 && !all then 1 else 0)
  := by
  cases op <;> cases all <;> by_cases hc : rowKey row ∈ counts <;>
    by_cases he : rowKey row ∈ emitted <;>
    simp [survive, setOpFrom, exceptAll, intersectAll, distinctBy,
      hc, he]

/-- The loop returns the mask of the rows of the operator, if there are not too many of them. -/
theorem keepMask_ok (rows counts emitted : List Row)
    (hcap : emitted.length + (if all then 0 else (setOpFrom op all counts emitted rows).length) ≤
      maxRows) :
  ∃ keep, keepMask op all maxRows counts emitted (rows.map rowKey) = .ok keep ∧
    Masks.select keep rows = setOpFrom op all counts emitted rows
  := by
  induction rows generalizing counts emitted with
  | nil =>
    refine ⟨[], rfl, ?_⟩
    cases op <;> cases all <;> rfl
  | cons row rows ih =>
    obtain ⟨hrows, hemitted⟩ := setOpFrom_cons op all counts emitted row rows
    rw [hrows, length_append] at hcap
    simp only [map_cons, keepMask]
    generalize survive op all counts emitted (rowKey row) = next at *
    obtain ⟨kept, counts', emitted'⟩ := next
    dsimp only at *
    have hcap' : emitted'.length +
        (if all then 0 else (setOpFrom op all counts' emitted' rows).length) ≤ maxRows := by
      cases all <;> cases kept <;> simp_all; omega
    obtain ⟨keep, hkeep, hselect⟩ := ih counts' emitted' hcap'
    refine ⟨kept :: keep, ?_, ?_⟩
    · rw [if_neg (by omega), hkeep]
      rfl
    · rw [hrows]
      cases kept <;> simp [hselect]

theorem countKeys_ok (counts keys : List Row) (hcap : (counts ++ keys).dedup.length ≤ maxRows) :
  countKeys maxRows counts keys = .ok (counts ++ keys)
  := by
  induction keys generalizing counts with
  | nil => rw [countKeys, append_nil]
  | cons key keys ih =>
    have happend : counts ++ key :: keys = counts ++ [key] ++ keys := by simp
    rw [happend] at hcap ⊢
    have hsub : (counts ++ [key]).dedup ⊆ (counts ++ [key] ++ keys).dedup := by
      intro k hk
      rw [mem_dedup] at hk ⊢
      exact mem_append_left _ hk
    have hle := ((nodup_dedup _).subperm hsub).length_le
    rw [countKeys, if_neg (by omega), ih _ hcap]

theorem buildKeyCounts_ok {b : Batch} (hread : ∀ c ∈ b.columns, columnReader c.2 = .ok ())
    (hcap : (b.rows.map rowKey).dedup.length ≤ maxRows) :
  buildKeyCounts b maxRows = .ok (b.rows.map rowKey)
  := by
  unfold buildKeyCounts
  split
  · rename_i hzero
    simp [Batch.rows, hzero]
  · rw [Outcome.forM_eq_ok_iff.mpr hread]
    exact countKeys_ok [] _ hcap

/-! ### Multisets -/

/-- The number of copies of a row that has `lc` copies on the left and `rc` on the right. -/
def copies (op : SetOpKind) (all : Bool) (lc rc : Nat) : Nat :=
  match op, all with
  | .except, true => lc - rc
  | .intersect, true => min lc rc
  | .except, false => if 0 < lc ∧ rc = 0 then 1 else 0
  | .intersect, false => if 0 < lc ∧ 0 < rc then 1 else 0

/-- The number of rows of a key. -/
def ofKey (k : Row) (rows : List Row) : Nat := rows.countP (fun row => rowKey row = k)

theorem ofKey_pos {k : Row} {rows : List Row} :
  0 < ofKey k rows ↔ k ∈ rows.map rowKey
  := by
  simp [ofKey, countP_pos_iff]

theorem ofKey_distinctBy (rows : List Row) (p : Row → Bool) (k : Row) :
  ofKey k (distinctBy rowKey [] (rows.filter (fun row => p (rowKey row)))) =
    if k ∈ rows.map rowKey ∧ p k = true then 1 else 0
  := by
  rw [ofKey, KeyedList.countP_distinctBy]
  congr 1
  rw [eq_iff_iff]
  simp only [mem_map, mem_filter, not_mem_nil, not_false_iff, and_true]
  constructor
  · rintro ⟨row, ⟨hrow, hp⟩, rfl⟩
    exact ⟨⟨row, hrow, rfl⟩, hp⟩
  · rintro ⟨⟨row, hrow, rfl⟩, hp⟩
    exact ⟨row, ⟨hrow, hp⟩, rfl⟩

theorem ofKey_setOpRows (op : SetOpKind) (all : Bool) (ls rs : List Row) (k : Row) :
  ofKey k (setOpRows op all ls rs) = copies op all (ofKey k ls) (ofKey k rs)
  := by
  have hzero : ofKey k rs = 0 ↔ k ∉ rs.map rowKey := by
    rw [← ofKey_pos, Nat.pos_iff_ne_zero, not_not]
  have hcopies := KeyedList.countP_copies rowKey (rs.map rowKey) ls k
  rw [KeyedList.count_map] at hcopies
  cases op <;> cases all
  · rw [setOpRows, ofKey_distinctBy ls (fun k => decide (k ∉ rs.map rowKey))]
    simp only [copies, ofKey_pos, hzero, decide_eq_true_eq]
  · exact hcopies.1
  · rw [setOpRows, ofKey_distinctBy ls (fun k => decide (k ∈ rs.map rowKey))]
    simp only [copies, ofKey_pos, decide_eq_true_eq]
  · exact hcopies.2

/--
On columns of the types that `DISTINCT` reads and within the limit, a set operator returns a part
of the left rows, in order and under the left columns, with the copies of each key that SQL asks
for.
-/
theorem executeSetop_multiset {left right : Batch} (op : SetOpKind) (all : Bool)
    (hcols : left.columns.length = right.columns.length) (hne : left.columns ≠ [])
    (hleft : ∀ c ∈ left.columns, columnReader c.2 = .ok ())
    (hright : ∀ c ∈ right.columns, columnReader c.2 = .ok ())
    (hcap : (right.rows.map rowKey).dedup.length ≤ maxRows)
    (hcap' : all = false → (setOpRows op all left.rows right.rows).length ≤ maxRows) :
  ∃ (out : Batch) (idx : List Nat), executeSetopWithCap left right op all maxRows = .ok out ∧
    out.names = left.names ∧
    out.columns.map (fun c => c.2.dtype) = left.columns.map (fun c => c.2.dtype) ∧
    idx.Sublist (range left.numRows) ∧ out.rows = idx.map left.row ∧
    ∀ k, ofKey k out.rows = copies op all (ofKey k left.rows) (ofKey k right.rows)
  := by
  unfold executeSetopWithCap
  rw [if_neg (not_not_intro hcols)]
  by_cases hzero : left.numRows = 0
  · have hrows : left.rows = [] := by simp [Batch.rows, hzero]
    rw [if_pos hzero]
    refine ⟨left, [], rfl, rfl, rfl, nil_sublist _, hrows, ?_⟩
    intro k
    cases op <;> cases all <;> simp [hrows, copies, ofKey]
  · have hmask : 0 + (if all then 0
        else (setOpFrom op all (right.rows.map rowKey) [] left.rows).length) ≤ maxRows := by
      rw [← setOpRows_eq]
      cases all with
      | true => exact Nat.zero_le _
      | false => simpa using hcap' rfl
    obtain ⟨keep, hkeep, hselect⟩ := keepMask_ok left.rows (right.rows.map rowKey) [] hmask
    have hout : (left.pick (Masks.select keep (range left.numRows))).rows =
        setOpRows op all left.rows right.rows := by
      rw [Batch.rows_pick, Masks.map_select, setOpRows_eq, ← hselect]
      rfl
    refine ⟨left.pick (Masks.select keep (range left.numRows)), _, ?_, ?_, ?_,
      Masks.select_sublist _ _, Batch.rows_pick _ _, ?_⟩
    · rw [if_neg hzero, buildKeyCounts_ok hright hcap]
      simp only [bind, Except.bind, Outcome.forM_eq_ok_iff.mpr hleft, hkeep,
        List.isEmpty_iff, hne, if_false]
    · simp [Batch.names, Batch.pick]
    · simp [Batch.pick]
    · intro k
      rw [hout]
      exact ofKey_setOpRows op all left.rows right.rows k

theorem executeSetop_multiset_exceptAll :
  let left : Batch := ⟨[("a", .flat ⟨.int64, [.int64 1, .int64 2, .int64 1], by decide⟩)], 3,
    by decide⟩
  let right : Batch := ⟨[("b", .flat ⟨.int64, [.int64 1], by decide⟩)], 1, by decide⟩
  ∃ out, executeSetopWithCap left right .except true 10 = .ok out ∧
    ofKey [.int64 1] out.rows = 1 ∧ ofKey [.int64 2] out.rows = 1
  := by
  intro left right
  have hcols : left.columns.length = right.columns.length := rfl
  have hleft : ∀ c ∈ left.columns, columnReader c.2 = .ok () := by
    simp [left, columnReader, Column.dtype]
  have hright : ∀ c ∈ right.columns, columnReader c.2 = .ok () := by
    simp [right, columnReader, Column.dtype]
  obtain ⟨out, -, hout, -, -, -, -, hcount⟩ := executeSetop_multiset .except true hcols
    (cons_ne_nil _ _) hleft hright (by decide : _ ≤ 10) (fun h => by cases h)
  refine ⟨out, hout, ?_, ?_⟩
  · rw [hcount]
    decide
  · rw [hcount]
    decide

/-- The keys of `DISTINCT` have no dates, so that a set operator on dates fails. -/
theorem executeSetop_dates :
  let dates : Batch := ⟨[("d", .flat ⟨.date32, [.date32 0], by decide⟩)], 1, by decide⟩
  ∀ op all maxRows out, executeSetopWithCap dates dates op all maxRows ≠ .ok out
  := by
  intro dates op all maxRows out h
  cases h

end CratonBolt.SetOps
