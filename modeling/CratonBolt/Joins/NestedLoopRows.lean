import CratonBolt.Joins.NestedLoop
import CratonBolt.Joins.Relational

/-!
# The rows of the nested-loop join

The nested-loop join returns the pairs of rows that are equal in all key columns under SQL's `=`
and on which its condition is true, however the larger side is cut into blocks.
-/

namespace CratonBolt.Joins

open Outcome ListJoin List
open Batch (rows)

variable {t : Row → Option Bool}

/-! ### Rows of a batch -/

variable {k : Nat} {out b : Batch}

theorem Batch.row_pick (b : Batch) (idx : List Nat) (hk : k < idx.length) :
  (b.pick idx).row k = b.row idx[k]
  := by
  simp only [Batch.row, Batch.pick, map_map]
  apply map_congr_left
  intro c hc
  simp only [Function.comp_apply]
  rw [Column.cell_take _ _ _ (by rwa [length_map]), getElem_map]
  rfl

theorem Batch.rows_pick (b : Batch) (idx : List Nat) :
  (b.pick idx).rows = idx.map b.row
  := by
  apply ext_getElem
  · rw [Batch.length_rows, length_map]
    rfl
  · intro k hk hk'
    rw [length_map] at hk'
    simp only [rows, getElem_map, getElem_range]
    exact b.row_pick idx hk'

theorem Batch.rows_slice (b : Batch) (start len : Nat) :
  (b.slice start len).rows = (range' start len).map b.row
  := b.rows_pick _

/-! ### Cross joins -/

/-- Every row of one list before every row of the other. -/
def crossRows (ls rs : List Row) : List Row := (ls ×ˢ rs).map (fun p => p.1 ++ p.2)

theorem crossRows_append_left (ls ls' rs : List Row) :
  crossRows (ls ++ ls') rs = crossRows ls rs ++ crossRows ls' rs
  := by
  rw [crossRows, crossRows, crossRows, ← map_append]
  congr 1
  exact flatMap_append

theorem crossRows_append_right (ls rs rs' : List Row) :
  (crossRows ls (rs ++ rs')).Perm (crossRows ls rs ++ crossRows ls rs')
  := by
  rw [crossRows, crossRows, crossRows, ← map_append]
  apply Perm.map
  have h := Multiset.product_add (ls : Multiset Row) (rs : Multiset Row) (rs' : Multiset Row)
  rw [Multiset.coe_add, Multiset.coe_product, Multiset.coe_product, Multiset.coe_product,
    Multiset.coe_add] at h
  exact Multiset.coe_eq_coe.mp h

/-- A batch under the schema of the join, whose columns the evaluator reads as they are. -/
structure UnderSchema (schema : Schema) (b : Batch) : Prop where
  names : b.names = schema.names
  plain : ∀ c ∈ b.columns, ∀ i, hostValue (c.2.cell i) = c.2.cell i

theorem hostValue_of_dtype {v : Value} {t : DataType} (h : v = .null ∨ v.dtype = some t)
    (ht : t.isTemporal = false) :
  hostValue v = v
  := by
  obtain rfl | h := h
  · rfl
  · cases v <;> first | rfl | (cases h; cases ht)

theorem tryNew_underSchema {schema : Schema} {columns : List Column}
    (hplan : planSchemaToArrowSchema schema = .ok ()) (h : tryNew schema columns = .ok out) :
  UnderSchema schema out
  := by
  obtain ⟨hcols, hlen, hfits⟩ := tryNew_eq_ok h
  constructor
  · rw [Batch.names, hcols, map_fst_zip]
    rw [Schema.names, length_map, hlen]
  · intro c hc i
    rw [hcols, Schema.names, zip_map_left] at hc
    obtain ⟨⟨f, d⟩, hfd, rfl⟩ := mem_map.mp hc
    have hf := forM_eq_ok_iff.mp hplan f (of_mem_zip hfd).1
    have hfit := hfits _ hfd
    simp only [fits, Bool.and_eq_true, decide_eq_true_eq] at hfit
    apply hostValue_of_dtype (Column.typed_cell d i)
    rw [hfit.1]
    cases ht : f.dtype.isTemporal with
    | false => exact ht
    | true =>
      rw [ht] at hf
      cases hf

theorem emptyOutput_underSchema {schema : Schema}
    (hplan : planSchemaToArrowSchema schema = .ok ()) (h : emptyOutput schema = .ok out) :
  UnderSchema schema out
  := by
  obtain ⟨columns, -, hnew⟩ := bind_eq_ok.mp h
  exact tryNew_underSchema hplan hnew

/-- The device crosses its sides as the host does. -/
theorem executeCrossJoinOnGpu_eq {kernels : Kernels} (hk : kernels.Contract) {lhs rhs : Batch}
    {schema : Schema} (h : executeCrossJoinOnGpu kernels lhs rhs schema = some out) :
  materialise lhs rhs (crossPairs lhs.numRows rhs.numRows) schema = .ok out
  := by
  unfold executeCrossJoinOnGpu at h
  split at h
  · cases h
  · obtain ⟨pairs, hpairs, h⟩ := Option.bind_eq_some_iff.mp h
    rw [hk.cross hpairs] at h
    exact toOption_eq_some.mp h

theorem crossPairs_rows (lhs rhs : Batch) :
  (crossPairs lhs.numRows rhs.numRows).map (joinedAt lhs rhs) = crossRows lhs.rows rhs.rows
  := by
  have hproduct : lhs.rows ×ˢ rhs.rows = (range lhs.numRows ×ˢ range rhs.numRows).map
      (Prod.map lhs.row rhs.row) := by
    simp only [rows, SProd.sprod, product, flatMap_map, map_flatMap,
      map_map]
    rfl
  rw [crossPairs, crossRows, hproduct, map_map, map_map]
  rfl

/-- A cross join returns every row of the left side before every row of the right side. -/
theorem executeCrossJoin_rows {device : Device} (hk : device.kernels.Contract) {lhs rhs : Batch}
    {schema : Schema} (h : executeCrossJoin device lhs rhs schema = .ok out) :
  out.rows = crossRows lhs.rows rhs.rows ∧ UnderSchema schema out
  := by
  obtain ⟨⟨⟩, hplan, h⟩ := bind_eq_ok.mp h
  have hmat : materialise lhs rhs (crossPairs lhs.numRows rhs.numRows) schema = .ok out →
      out.rows = crossRows lhs.rows rhs.rows ∧ UnderSchema schema out := by
    intro hm
    exact ⟨(materialise_rows hm).trans (crossPairs_rows lhs rhs), tryNew_underSchema hplan hm⟩
  dsimp only at h
  split at h
  · rename_i hempty
    refine ⟨?_, emptyOutput_underSchema hplan h⟩
    rw [emptyOutput_rows h]
    obtain hl | hr := hempty
    · simp [crossRows, rows, hl]
    · simp [crossRows, rows, hr]
  · split at h
    · cases h
    · split at h
      · cases h
      · cases hdevice : (if crossOnDevice (lhs.numRows * rhs.numRows) = true then
            executeCrossJoinOnGpu device.kernels lhs rhs schema else none) with
        | none =>
          rw [hdevice] at h
          exact hmat h
        | some answer =>
          rw [hdevice] at h
          injection h with h
          subst h
          split at hdevice
          · exact hmat (executeCrossJoinOnGpu_eq hk hdevice)
          · cases hdevice

/-! ### Columns by name -/

/-- The position of the last column of a name. -/
def lastIndexOf (name : String) : List String → Option Nat
  | [] => none
  | n :: names =>
    match lastIndexOf name names with
    | some i => some (i + 1)
    | none => if n = name then some 0 else none

/-- Where the evaluator reads the column at a position: at the last column of its name. -/
def readAt (names : List String) (i : Nat) : Nat :=
  (names[i]?.bind (fun name => lastIndexOf name names)).getD i

section Names

variable {name : String} {names : List String}

theorem lastIndexOf_eq_none_iff :
  lastIndexOf name names = none ↔ name ∉ names
  := by
  induction names with
  | nil => simp [lastIndexOf]
  | cons n names ih =>
    rw [lastIndexOf, mem_cons, not_or]
    cases hlast : lastIndexOf name names with
    | none => simp [ih.mp hlast, eq_comm]
    | some i =>
      have hmem : name ∈ names := by
        by_contra hno
        rw [ih.mpr hno] at hlast
        cases hlast
      simp [hmem]

theorem lastIndexOf_append (names' : List String) :
  lastIndexOf name (names ++ names') =
    ((lastIndexOf name names').map (names.length + ·)).or (lastIndexOf name names)
  := by
  induction names with
  | nil => cases hlast : lastIndexOf name names' <;> simp [lastIndexOf, hlast]
  | cons n names ih =>
    rw [cons_append, lastIndexOf, ih]
    cases lastIndexOf name names' with
    | some i =>
      simp only [Option.map_some, Option.some_or, length_cons, Option.some.injEq]
      omega
    | none => rfl

/-- Among distinct names each is read at its own position. -/
theorem lastIndexOf_of_nodup (h : names.Nodup) {k : Nat} (hk : names[k]? = some name) :
  lastIndexOf name names = some k
  := by
  induction names generalizing k with
  | nil => cases hk
  | cons n names ih =>
    rw [nodup_cons] at h
    cases k with
    | zero =>
      obtain rfl : n = name := Option.some.inj hk
      rw [lastIndexOf, lastIndexOf_eq_none_iff.mpr h.1]
      exact if_pos rfl
    | succ k =>
      rw [lastIndexOf, ih h.2 hk]

theorem lastIndexOf_lt {k : Nat} (h : lastIndexOf name names = some k) :
  k < names.length
  := by
  induction names generalizing k with
  | nil => cases h
  | cons n names ih =>
    rw [lastIndexOf] at h
    rw [length_cons]
    split at h
    · rename_i i hi
      have := ih hi
      injection h with h
      omega
    · split at h
      · injection h with h
        omega
      · cases h

theorem readAt_lt {i : Nat} (hi : i < names.length) :
  readAt names i < names.length
  := by
  rw [readAt]
  cases hlast : names[i]?.bind (fun name => lastIndexOf name names) with
  | none => exact hi
  | some k =>
    obtain ⟨name, -, hk⟩ := Option.bind_eq_some_iff.mp hlast
    exact lastIndexOf_lt hk

theorem readAt_of_nodup (h : names.Nodup) (i : Nat) :
  readAt names i = i
  := by
  rw [readAt]
  cases hi : names[i]? with
  | none => rfl
  | some name => rw [Option.bind_some, lastIndexOf_of_nodup h hi, Option.getD_some]

end Names

/-! ### The condition on a row -/

section Condition

variable {Q : Type} {other : Batch → Expr Q → BoltResult Truths} {schema : Schema}

/-- On a batch under the schema, the expression has the truth value `t` on each row. -/
def EvaluatesTo (other : Batch → Expr Q → BoltResult Truths) (schema : Schema) (e : Expr Q)
    (t : Row → Option Bool) : Prop :=
  ∀ b : Batch, UnderSchema schema b → ∀ mask, evalPredicate other b e = .ok mask →
    mask = b.rows.map t

/-- The evaluator finds the last column of a name. -/
theorem hostColumn_eq {name : String} {c : Column} (h : hostColumn b name = .ok c) :
  ∃ k, lastIndexOf name b.names = some k ∧ k < b.columns.length ∧ c = b.column k
  := by
  have hfind : b.columns.reverse.find? (fun c => c.1 == name) = none ∨
      ∃ d k, b.columns.reverse.find? (fun c => c.1 == name) = some d ∧
        lastIndexOf name b.names = some k ∧ b.columns[k]? = some d := by
    rw [Batch.names]
    generalize b.columns = columns
    clear h
    induction columns with
    | nil => exact .inl rfl
    | cons d columns ih =>
      rw [reverse_cons, find?_append, map_cons, lastIndexOf]
      obtain hnone | ⟨d', k, hd, hk, hkd⟩ := ih
      · have hlast : lastIndexOf name (columns.map Prod.fst) = none := by
          rw [lastIndexOf_eq_none_iff]
          intro hmem
          obtain ⟨d', hd', rfl⟩ := mem_map.mp hmem
          have hd'' := find?_eq_none.mp hnone d' (mem_reverse.mpr hd')
          simp at hd''
        rw [hnone, hlast, Option.none_or, find?_singleton]
        by_cases hd : d.1 = name
        · exact .inr ⟨d, 0, by simp [hd], by simp [hd], rfl⟩
        · exact .inl (by simp [hd])
      · exact .inr ⟨d', k + 1, by rw [hd]; rfl, by rw [hk], hkd⟩
  unfold hostColumn at h
  obtain hnone | ⟨d, k, hd, hk, hkd⟩ := hfind
  · rw [hnone] at h
    cases h
  · rw [hd] at h
    injection h with h
    subst h
    refine ⟨k, hk, (List.getElem?_eq_some_iff.mp hkd).1, ?_⟩
    rw [Batch.column, hkd]

/-- An equation between two columns compares the cells of the row where their names are read. -/
theorem evaluatesTo_eq {l r : String} {i j : Nat} (hl : schema.names[i]? = some l)
    (hr : schema.names[j]? = some r) :
  EvaluatesTo other schema (.binary .eq (.column l) (.column r))
    (fun row => (Value.compare .eq (row.getD (readAt schema.names i) .null)
      (row.getD (readAt schema.names j) .null)).truth)
  := by
  intro b hb mask h
  obtain ⟨lc, hlc, h⟩ := bind_eq_ok.mp h
  obtain ⟨rc, hrc, h⟩ := bind_eq_ok.mp h
  obtain ⟨i', hi', hi, rfl⟩ := hostColumn_eq hlc
  obtain ⟨j', hj', hj, rfl⟩ := hostColumn_eq hrc
  rw [hb.names] at hi' hj'
  have hil : readAt schema.names i = i' := by
    rw [readAt, hl, Option.bind_some, hi', Option.getD_some]
  have hjr : readAt schema.names j = j' := by
    rw [readAt, hr, Option.bind_some, hj', Option.getD_some]
  obtain ⟨-, rfl⟩ := guard_eq_ok.mp h
  have hcell : ∀ k < b.columns.length, ∀ n, hostValue ((b.column k).cell n) =
      (b.row n).getD k .null := by
    intro k hk n
    rw [Batch.getD_row hk, Batch.column, getElem?_eq_getElem hk]
    exact hb.plain _ (getElem_mem hk) n
  rw [rows, map_map, hil, hjr]
  apply map_congr_left
  intro n _
  rw [hcell i' hi, hcell j' hj]
  rfl

theorem evaluatesTo_and {l r : Expr Q} {t u : Row → Option Bool}
    (hl : EvaluatesTo other schema l t) (hr : EvaluatesTo other schema r u) :
  EvaluatesTo other schema (.binary .and l r) (fun row => Kleene.and (t row) (u row))
  := by
  intro b hb mask h
  obtain ⟨ls, hls, h⟩ := bind_eq_ok.mp h
  obtain ⟨rs, hrs, h⟩ := bind_eq_ok.mp h
  injection h with h
  rw [← h, hl b hb ls hls, hr b hb rs hrs, zipWith_map]
  exact zipWith_self

/-- The filter keeps the rows on which the condition is true. -/
theorem executeFilter_rows (he : EvaluatesTo other schema e t)
    (hb : UnderSchema schema b) (h : executeFilter other b e = .ok out) :
  out.rows = b.rows.filter (fun row => t row == some true)
  := by
  unfold executeFilter at h
  split at h
  · rename_i hzero
    injection h with h
    subst h
    simp [rows, hzero]
  · obtain ⟨-, -, h⟩ := bind_eq_ok.mp h
    obtain ⟨mask, hmask, h⟩ := bind_eq_ok.mp h
    injection h with h
    subst h
    rw [Batch.rows_pick, rows, filter_map, he b hb mask hmask]
    congr 1
    apply filter_congr
    intro n hn
    rw [mem_range] at hn
    simp [rows, hn]

theorem outputColumn_eq_ok {side : Batch} {offset : Nat} {which : String} {e e' : Expr Q}
    (h : outputColumn side offset schema which e = .ok e') :
  ∃ name i f, columnName which e = .ok name ∧ side.indexOf name = some i ∧
    schema.names[offset + i]? = some f ∧ e' = .column f
  := by
  obtain ⟨name, hname, h⟩ := bind_eq_ok.mp h
  cases hi : side.indexOf name with
  | none =>
    rw [hi] at h
    cases h
  | some i =>
    rw [hi] at h
    cases hf : schema.fields[offset + i]? with
    | none =>
      simp only [hf] at h
      cases h
    | some f =>
      simp only [hf] at h
      injection h with h
      refine ⟨name, i, f.name, hname, hi, ?_, h.symm⟩
      rw [Schema.names, getElem?_map, hf]
      rfl

/-- The key pairs as the evaluator reads them from a joined row: each name at its last column. -/
def readMatch (names : List String) (offset : Nat) (leftIdx rightIdx : List Nat) (row : Row) :
    Bool :=
  (leftIdx.zip rightIdx).all (fun ij => sqlEq (row.getD (readAt names ij.1) .null)
    (row.getD (readAt names (offset + ij.2)) .null))

/-- The folded condition is true where the condition is and the key columns are equal as they are
read. The key columns are there. -/
theorem foldEqui_evaluatesTo {lhs rhs : Batch} {acc e : Expr Q}
    (hkeys : splitKeys on = .ok (lefts, rights))
    (h : foldEquiIntoPredicate lhs rhs schema on acc = .ok e)
    (hacc : EvaluatesTo other schema acc t) :
  ((∀ i ∈ keyPositions lhs lefts, i < lhs.columns.length) ∧
    ∀ j ∈ keyPositions rhs rights, j < rhs.columns.length) ∧
  ∃ u, EvaluatesTo other schema e u ∧ ∀ row : Row, (u row = some true ↔ t row = some true ∧
    readMatch schema.names lhs.columns.length (keyPositions lhs lefts) (keyPositions rhs rights)
      row = true)
  := by
  induction on generalizing acc t lefts rights with
  | nil =>
    injection h with h
    injection hkeys with hkeys
    injection hkeys with hls hrs
    subst h hls hrs
    exact ⟨by simp [keyPositions], t, hacc, fun row => by simp [readMatch, keyPositions]⟩
  | cons pair on ih =>
    obtain ⟨le, re⟩ := pair
    obtain ⟨left, hleft, hkeys⟩ := bind_eq_ok.mp hkeys
    obtain ⟨right, hright, hkeys⟩ := bind_eq_ok.mp hkeys
    obtain ⟨⟨ls, rs⟩, hrest, hkeys⟩ := bind_eq_ok.mp hkeys
    injection hkeys with hkeys
    injection hkeys with hls hrs
    subst hls hrs
    obtain ⟨le', hle, h⟩ := bind_eq_ok.mp h
    obtain ⟨re', hre, h⟩ := bind_eq_ok.mp h
    obtain ⟨name, i, f, hname, hi, hf, rfl⟩ := outputColumn_eq_ok hle
    obtain ⟨name', j, g, hname', hj, hg, rfl⟩ := outputColumn_eq_ok hre
    rw [hleft, Except.ok.injEq] at hname
    rw [hright, Except.ok.injEq] at hname'
    subst hname hname'
    rw [Nat.zero_add] at hf
    obtain ⟨⟨hls, hrs⟩, u, hu, hiff⟩ := ih hrest h
      (evaluatesTo_and (evaluatesTo_eq hf hg) hacc)
    have hpos : ∀ (b : Batch) (name : String) (names : List String) (k : Nat),
        b.indexOf name = some k → keyPositions b (name :: names) = k :: keyPositions b names := by
      intro b name names k hk
      rw [keyPositions, map_cons, hk]
      rfl
    rw [hpos lhs left ls i hi, hpos rhs right rs j hj, forall_mem_cons, forall_mem_cons]
    refine ⟨⟨⟨Batch.lt_of_indexOf hi, hls⟩, Batch.lt_of_indexOf hj, hrs⟩, u, hu, ?_⟩
    intro row
    rw [hiff row, Kleene.and_eq_some_true, readMatch, readMatch, zip_cons_cons, all_cons,
      Bool.and_eq_true, sqlEq, Value.isTrue, beq_iff_eq]
    constructor
    · rintro ⟨⟨heq, ht⟩, hm⟩
      exact ⟨ht, heq, hm⟩
    · rintro ⟨ht, heq, hm⟩
      exact ⟨⟨heq, ht⟩, hm⟩

/-- What is read of a joined row, where the right columns are read at their own positions. -/
theorem readMatch_append {names : List String} {leftIdx rightIdx : List Nat} {f : Nat → Nat}
    {l r : Row} (hleft : ∀ i ∈ leftIdx, readAt names i = f i ∧ f i < l.length)
    (hright : ∀ j ∈ rightIdx, readAt names (l.length + j) = l.length + j) :
  readMatch names l.length leftIdx rightIdx (l ++ r) = sqlMatch (leftIdx.map f) rightIdx l r
  := by
  rw [readMatch, sqlMatch, zip_map_left, all_map, Bool.eq_iff_iff, all_eq_true, all_eq_true]
  apply forall₂_congr
  rintro ⟨i, j⟩ hij
  obtain ⟨hi, hlt⟩ := hleft i (of_mem_zip hij).1
  rw [hi, hright j (of_mem_zip hij).2, getD_append _ _ _ _ hlt,
    getD_append_right _ _ _ _ (Nat.le_add_right _ _), Nat.add_sub_cancel_left]
  rfl

end Condition

/-! ### The loop -/

section Loop

variable {Q : Type} {other : Batch → Expr Q → BoltResult Truths} {schema : Schema}
  {device : Device} {lhs rhs : Batch}
variable {e predicate : Expr Q} {on : List (Expr Q × Expr Q)} {lefts rights : List String}
variable {chunkCells : Nat} {rows : List Row} {joinType : JoinType}

/-- The joined rows that the blocks from a row on are taken from. -/
def crossFrom (lhs rhs : Batch) (chunkLeft : Bool) (start len : Nat) : List Row :=
  if chunkLeft then crossRows ((range' start len).map lhs.row) rhs.rows
  else crossRows lhs.rows ((range' start len).map rhs.row)

theorem crossFrom_append (lhs rhs : Batch) (chunkLeft : Bool) (start m n : Nat) :
  (crossFrom lhs rhs chunkLeft start (m + n)).Perm
    (crossFrom lhs rhs chunkLeft start m ++ crossFrom lhs rhs chunkLeft (start + m) n)
  := by
  have hrange : range' start (m + n) = range' start m ++ range' (start + m) n := by
    rw [← range'_append_1]
  unfold crossFrom
  rw [hrange, map_append, map_append]
  cases chunkLeft with
  | true => exact Perm.of_eq (crossRows_append_left _ _ _)
  | false => exact crossRows_append_right _ _ _

theorem blockSides_rows (lhs rhs : Batch) (chunkLeft : Bool) (start len : Nat) :
  crossRows (blockSides lhs rhs chunkLeft start len).1.rows
      (blockSides lhs rhs chunkLeft start len).2.rows =
    crossFrom lhs rhs chunkLeft start len
  := by
  cases chunkLeft with
  | true => exact congrArg (crossRows · rhs.rows) (lhs.rows_slice start len)
  | false => exact congrArg (crossRows lhs.rows) (rhs.rows_slice start len)

/-- The blocks together give the rows of the cross join on which the condition is true. -/
theorem nestedLoopBlocks_rows (hk : device.kernels.Contract)
    (he : EvaluatesTo other schema e t) {chunkLeft : Bool} {chunkRows outerRows : Nat}
    (hchunk : 0 < chunkRows) {fuel start : Nat} (hfuel : outerRows - start ≤ fuel)
    (h : nestedLoopBlocks device other lhs rhs e schema chunkLeft chunkRows
      outerRows fuel start = .ok rows) :
  rows.Perm ((crossFrom lhs rhs chunkLeft start (outerRows - start)).filter
    (fun row => t row == some true))
  := by
  have hdone : ∀ s, outerRows - s = 0 → crossFrom lhs rhs chunkLeft s (outerRows - s) = [] := by
    intro s hs
    rw [hs]
    cases chunkLeft <;> simp [crossFrom, crossRows]
  induction fuel generalizing start rows with
  | zero =>
    injection h with h
    rw [← h, hdone start (by omega)]
    exact Perm.refl _
  | succ fuel ih =>
    unfold nestedLoopBlocks at h
    split at h
    · -- One block now, the others by induction: every block takes at least one row.
      obtain ⟨cross, hcross, h⟩ := bind_eq_ok.mp h
      obtain ⟨filtered, hfiltered, h⟩ := bind_eq_ok.mp h
      obtain ⟨rest, hrest, h⟩ := bind_eq_ok.mp h
      injection h with h
      obtain ⟨hrows, hunder⟩ := executeCrossJoin_rows hk hcross
      rw [← h, executeFilter_rows he hunder hfiltered, hrows, blockSides_rows]
      have ih := ih (by omega) hrest
      have hsplit : outerRows - start = min chunkRows (outerRows - start) +
          (outerRows - (start + min chunkRows (outerRows - start))) := by omega
      rw [hsplit]
      apply Perm.trans _ ((crossFrom_append _ _ _ _ _ _).filter _).symm
      rw [filter_append, ← hsplit]
      exact ih.append_left _
    · injection h with h
      rw [← h, hdone start (by omega)]
      exact Perm.refl _

/-- The pairs of an inner join are the rows of the cross join that match. -/
theorem joinRows_inner_perm (lhs rhs : Batch) (m : Row → Row → Bool) :
  (joinRows lhs.columns.length rhs.columns.length .inner m lhs.rows rhs.rows).Perm
    ((matched m lhs.rows rhs.rows).map (fun p => p.1 ++ p.2))
  := by
  have hparts := (outerJoin_parts false false m lhs.rows rhs.rows).map
    (joinedRow lhs.columns.length rhs.columns.length)
  have hkept : keptLeft false m lhs.rows rhs.rows ++
      keptRight false m lhs.rows rhs.rows = [] := rfl
  rw [hkept, append_nil, map_map] at hparts
  exact hparts

/-- The pairs that match are the rows of the cross product that do. -/
theorem matched_rows_eq (lhs rhs : Batch) (m : Row → Row → Bool) (f : Row → Bool) :
  ((matched m lhs.rows rhs.rows).map (fun p => p.1 ++ p.2)).filter f =
    (crossRows lhs.rows rhs.rows).filter (fun row =>
      f row && m (row.take lhs.columns.length) (row.drop lhs.columns.length))
  := by
  rw [crossRows, matched, filter_map, filter_map, filter_filter]
  congr 1
  apply filter_congr
  rintro ⟨l, r⟩ hlr
  obtain ⟨hl, -⟩ := mem_product.mp hlr
  obtain ⟨n, -, rfl⟩ := mem_map.mp hl
  rw [Function.comp_apply, Function.comp_apply, ← lhs.length_row n, take_left, drop_left]

/-- The nested-loop join returns the rows of the cross product on which its condition is true and
the key columns are equal as they are read. -/
theorem nestedLoopJoinChunked_cross (hk : device.kernels.Contract)
    (hkeys : splitKeys on = .ok (lefts, rights)) (hpred : EvaluatesTo other schema predicate t)
    (h : nestedLoopJoinChunked device other lhs rhs joinType on predicate schema chunkCells =
      .ok rows) :
  rows.Perm ((crossRows lhs.rows rhs.rows).filter (fun row => t row == some true &&
    readMatch schema.names lhs.columns.length (keyPositions lhs lefts) (keyPositions rhs rights)
      row)) ∧
  (lhs.numRows ≠ 0 → rhs.numRows ≠ 0 →
    (∀ i ∈ keyPositions lhs lefts, i < lhs.columns.length) ∧
      ∀ j ∈ keyPositions rhs rights, j < rhs.columns.length)
  := by
  unfold nestedLoopJoinChunked at h
  dsimp only at h
  split at h
  · cases h
  · split at h
    · cases h
    · obtain ⟨-, hplan, h⟩ := bind_eq_ok.mp h
      split at h
      · rename_i hempty
        obtain ⟨empty, hout, h⟩ := bind_eq_ok.mp h
        injection h with h
        rw [← h, emptyOutput_rows hout]
        obtain hl | hr := hempty
        · exact ⟨by simp [crossRows, Batch.rows, hl], fun hl' => absurd hl hl'⟩
        · exact ⟨by simp [crossRows, Batch.rows, hr], fun _ hr' => absurd hr hr'⟩
      · obtain ⟨composite, hfold, h⟩ := bind_eq_ok.mp h
        obtain ⟨hfound, u, hu, hiff⟩ := foldEqui_evaluatesTo hkeys hfold hpred
        have hrows := nestedLoopBlocks_rows hk hu (by omega) (by omega) h
        have hall : crossFrom lhs rhs (decide (rhs.numRows ≤ lhs.numRows)) 0
            (max lhs.numRows rhs.numRows - 0) = crossRows lhs.rows rhs.rows := by
          rw [crossFrom, Nat.sub_zero, ← range_eq_range']
          split
          · rename_i hle
            rw [Nat.max_eq_left (of_decide_eq_true hle)]
            rfl
          · rename_i hle
            rw [decide_eq_true_eq, Nat.not_le] at hle
            rw [Nat.max_eq_right (Nat.le_of_lt hle)]
            rfl
        rw [hall] at hrows
        refine ⟨hrows.trans (Perm.of_eq ?_), fun _ _ => hfound⟩
        apply filter_congr
        intro row hrow
        rw [Bool.eq_iff_iff, Bool.and_eq_true, beq_iff_eq, beq_iff_eq]
        exact hiff row

/-- The nested-loop join returns the relational join, filtered by its condition. -/
theorem nestedLoopJoinChunked_rows (hk : device.kernels.Contract) (hnodup : schema.names.Nodup)
    (hkeys : splitKeys on = .ok (lefts, rights)) (hpred : EvaluatesTo other schema predicate t)
    (h : nestedLoopJoinChunked device other lhs rhs joinType on predicate schema chunkCells =
      .ok rows) :
  rows.Perm ((relationalRows lhs rhs .inner lefts rights).filter (fun row => t row == some true))
  := by
  obtain ⟨hrows, hfound⟩ := nestedLoopJoinChunked_cross hk hkeys hpred h
  apply hrows.trans
  apply Perm.trans _ ((joinRows_inner_perm lhs rhs _).filter _).symm
  rw [matched_rows_eq]
  apply Perm.of_eq
  apply filter_congr
  intro row hrow
  obtain ⟨⟨l, r⟩, hlr, rfl⟩ := mem_map.mp hrow
  obtain ⟨hl, hr⟩ := mem_product.mp hlr
  obtain ⟨n, hn, rfl⟩ := mem_map.mp hl
  obtain ⟨n', hn', rfl⟩ := mem_map.mp hr
  have hpos : ∀ {b : Batch} {n : Nat}, n ∈ range b.numRows → b.numRows ≠ 0 := by
    intro b n hn hzero
    rw [hzero] at hn
    cases hn
  obtain ⟨hlefts, -⟩ := hfound (hpos hn) (hpos hn')
  have hread : readMatch schema.names (lhs.row n).length (keyPositions lhs lefts)
      (keyPositions rhs rights) (lhs.row n ++ rhs.row n') =
      sqlMatch ((keyPositions lhs lefts).map id) (keyPositions rhs rights) (lhs.row n)
        (rhs.row n') := by
    apply readMatch_append
    · intro i hi
      rw [lhs.length_row]
      exact ⟨readAt_of_nodup hnodup i, hlefts i hi⟩
    · exact fun j _ => readAt_of_nodup hnodup _
  rw [map_id] at hread
  rw [← lhs.length_row n, take_left, drop_left, hread]

end Loop

end CratonBolt.Joins
