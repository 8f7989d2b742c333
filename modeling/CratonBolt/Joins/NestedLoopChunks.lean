import CratonBolt.Joins.NestedLoopRows
import CratonBolt.Joins.Returns
import CratonBolt.Semantics.JoinNames

/-!
# Nested-loop joins in blocks of any size

The size of the blocks decides neither which rows a nested-loop join returns nor, as long as no
block is too large for a cross join, whether it returns. Which rows it returns depends on the names
of the left columns: a key is looked up at its first column and read at its last.
-/

namespace CratonBolt.Joins

open List

variable {Q : Type} {other : Batch → Expr Q → BoltResult Truths} {device : Device}
  {lhs rhs : Batch} {joinType : JoinType} {schema : Schema} {e : Expr Q}

/-! ### One block -/

variable {mayNull : Bool} {fields : List Field} {b : Batch} {chunkRows : Nat}

theorem FieldsFit.pick
    (h : FieldsFit mayNull fields b) {idx : List Nat} (hidx : ∀ i ∈ idx, i < b.numRows) :
  FieldsFit mayNull fields (b.pick idx)
  := by
  have hlen := b.lengths
  unfold FieldsFit at h ⊢
  rw [Batch.pick, forall₂_map_right_iff]
  generalize b.columns = columns at h hlen
  induction h with
  | nil => exact .nil
  | @cons f c fields columns hfc _ ih =>
    rw [forall_mem_cons] at hlen
    rw [← hlen.1] at hidx
    apply Forall₂.cons _ (ih hlen.2)
    rw [Column.dtype_take]
    refine ⟨hfc.1, ?_⟩
    apply hfc.2.imp_right
    rintro ⟨hnulls, hmay⟩
    refine ⟨hasNulls_take hfc.1 hnulls hmay ?_, hmay⟩
    intro i hi
    obtain ⟨k, hk, rfl⟩ := mem_map.mp hi
    exact hidx k hk

theorem FieldsFit.slice {start len : Nat}
    (h : FieldsFit mayNull fields b) (hle : start + len ≤ b.numRows) :
  FieldsFit mayNull fields (b.slice start len)
  := by
  apply h.pick
  intro i hi
  rw [mem_range'_1] at hi
  omega

/-- A cross join that is not too large returns the rows that the host puts together. -/
theorem executeCrossJoin_ok (hk : device.kernels.Contract)
    (hfits : OutputFits lhs rhs joinType schema) (hplan : NoTemporal schema)
    (hl : lhs.numRows ≠ 0) (hr : rhs.numRows ≠ 0)
    (htotal : lhs.numRows * rhs.numRows ≤ maxCrossRows) :
  ∃ out, executeCrossJoin device lhs rhs schema = .ok out ∧
    materialise lhs rhs (crossPairs lhs.numRows rhs.numRows) schema = .ok out
  := by
  obtain ⟨out, hout⟩ : ∃ out,
      materialise lhs rhs (crossPairs lhs.numRows rhs.numRows) schema = .ok out := by
    apply hfits.materialise_ok
    intro pair hpair
    obtain ⟨ij, hij, rfl⟩ := mem_map.mp hpair
    have hmem := mem_product.mp hij
    exact ⟨mem_range.mp hmem.1, mem_range.mp hmem.2⟩
  have hsmall : ¬ 2 ^ 64 ≤ lhs.numRows * rhs.numRows := by
    unfold maxCrossRows at htotal
    omega
  refine ⟨out, ?_, hout⟩
  simp only [executeCrossJoin, planSchemaToArrowSchema_eq_ok.mpr hplan, bind, Except.bind, hl, hr,
    or_self, if_false]
  rw [if_neg hsmall, if_neg (Nat.not_lt.mpr htotal)]
  split
  · rename_i answer hanswer
    split at hanswer
    · rw [← hout, executeCrossJoinOnGpu_eq hk hanswer]
    · cases hanswer
  · exact hout

theorem le_of_executeCrossJoin {out : Batch} (h : executeCrossJoin device lhs rhs schema = .ok out)
    (hl : lhs.numRows ≠ 0) (hr : rhs.numRows ≠ 0) :
  lhs.numRows * rhs.numRows ≤ maxCrossRows
  := by
  obtain ⟨-, -, h⟩ := Outcome.bind_eq_ok.mp h
  simp only [hl, hr, or_self, if_false] at h
  split at h
  · cases h
  · split at h
    · cases h
    · omega

/-- The condition can be evaluated on the cross product of any block of a side with the other. -/
def FiltersBlocks (other : Batch → Expr Q → BoltResult Truths) (lhs rhs : Batch) (schema : Schema)
    (e : Expr Q) : Prop :=
  ∀ chunkLeft start len cross, 0 < len →
    start + len ≤ (if chunkLeft then lhs.numRows else rhs.numRows) →
    let block := blockSides lhs rhs chunkLeft start len
    materialise block.1 block.2 (crossPairs block.1.numRows block.2.numRows) schema = .ok cross →
    ∃ filtered, executeFilter other cross e = .ok filtered

/-! ### All blocks -/

/-- The rows of the smaller side stay within their limit, and those of a block within that of a
cross join. -/
def BlocksFit (lefts rights chunkCells : Nat) : Prop :=
  min lefts rights ≤ maxNestedLoopInnerRows ∧
    min (max (chunkCells / min lefts rights) 1) (max lefts rights) * min lefts rights ≤ maxCrossRows

/-- A block of the larger side has a row for each pair of its rows with those of the other. -/
theorem blockSides_cells (joinType : JoinType) (schema : Schema) (start len : Nat)
    (hrows : min lhs.numRows rhs.numRows ≠ 0) (hlen : 0 < len)
    (hle : start + len ≤ max lhs.numRows rhs.numRows) :
  ∃ bl br, blockSides lhs rhs (decide (rhs.numRows ≤ lhs.numRows)) start len = (bl, br) ∧
    bl.numRows ≠ 0 ∧ br.numRows ≠ 0 ∧
    bl.numRows * br.numRows = len * min lhs.numRows rhs.numRows ∧
    (OutputFits lhs rhs joinType schema → OutputFits bl br joinType schema)
  := by
  have hslice : ∀ b : Batch, (b.slice start len).numRows = len := fun b => length_range'
  by_cases hside : rhs.numRows ≤ lhs.numRows
  · rw [Nat.max_eq_left hside] at hle
    rw [Nat.min_eq_right hside] at hrows ⊢
    refine ⟨lhs.slice start len, rhs, by simp [blockSides, hside], ?_, hrows, ?_, ?_⟩
    · rw [hslice]
      omega
    · rw [hslice]
    · rintro ⟨hcols, leftFields, rightFields, hfields, hleft, hright⟩
      refine ⟨?_, leftFields, rightFields, hfields, hleft.slice hle, hright⟩
      exact fun hnil => hcols (map_eq_nil_iff.mp hnil)
  · rw [Nat.max_eq_right (by omega)] at hle
    rw [Nat.min_eq_left (by omega)] at hrows ⊢
    refine ⟨lhs, rhs.slice start len, by simp [blockSides, hside], hrows, ?_, ?_, ?_⟩
    · rw [hslice]
      omega
    · rw [hslice, Nat.mul_comm]
    · rintro ⟨hcols, leftFields, rightFields, hfields, hleft, hright⟩
      exact ⟨hcols, leftFields, rightFields, hfields, hleft, hright.slice hle⟩

theorem nestedLoopBlocks_ok (hk : device.kernels.Contract)
    (hfits : OutputFits lhs rhs joinType schema) (hplan : NoTemporal schema)
    (hfilter : FiltersBlocks other lhs rhs schema e) (hrows : min lhs.numRows rhs.numRows ≠ 0)
    (hchunk : 0 < chunkRows)
    (hcells : min chunkRows (max lhs.numRows rhs.numRows) * min lhs.numRows rhs.numRows ≤
      maxCrossRows) (fuel start : Nat) :
  ∃ rows, nestedLoopBlocks device other lhs rhs e schema (decide (rhs.numRows ≤ lhs.numRows))
    chunkRows (max lhs.numRows rhs.numRows) fuel start = .ok rows
  := by
  induction fuel generalizing start with
  | zero => exact ⟨[], rfl⟩
  | succ fuel ih =>
    unfold nestedLoopBlocks
    split
    · -- No later block is larger than the first one, which has the most rows.
      have hle : min chunkRows (max lhs.numRows rhs.numRows - start) ≤
          min chunkRows (max lhs.numRows rhs.numRows) := by omega
      obtain ⟨bl, br, hblock, hbl, hbr, htotal, hfit⟩ := blockSides_cells joinType schema start
        (min chunkRows (max lhs.numRows rhs.numRows - start)) hrows (by omega) (by omega)
      obtain ⟨cross, hcross, hmat⟩ := executeCrossJoin_ok hk (hfit hfits) hplan hbl hbr
        (htotal ▸ (Nat.mul_le_mul_right _ hle).trans hcells)
      obtain ⟨filtered, hfiltered⟩ : ∃ filtered, executeFilter other cross e = .ok filtered := by
        apply hfilter (decide (rhs.numRows ≤ lhs.numRows)) start
          (min chunkRows (max lhs.numRows rhs.numRows - start)) cross (by omega)
        · split <;> simp_all <;> omega
        · rw [hblock]
          exact hmat
      obtain ⟨rest, hrest⟩ :=
        ih (start + min chunkRows (max lhs.numRows rhs.numRows - start))
      refine ⟨filtered.rows ++ rest, ?_⟩
      simp only [hblock, hcross, hfiltered, hrest, bind, Except.bind]
    · exact ⟨[], rfl⟩

/-- The loop returns exactly when its first block is not too large. -/
theorem nestedLoopBlocks_ok_iff (hk : device.kernels.Contract)
    (hfits : OutputFits lhs rhs joinType schema) (hplan : NoTemporal schema)
    (hfilter : FiltersBlocks other lhs rhs schema e) (hrows : min lhs.numRows rhs.numRows ≠ 0)
    (fuel : Nat) (hchunk : 0 < chunkRows) :
  (∃ rows, nestedLoopBlocks device other lhs rhs e schema (decide (rhs.numRows ≤ lhs.numRows))
      chunkRows (max lhs.numRows rhs.numRows) (fuel + 1) 0 = .ok rows) ↔
    min chunkRows (max lhs.numRows rhs.numRows) * min lhs.numRows rhs.numRows ≤ maxCrossRows
  := by
  constructor
  · rintro ⟨rows, h⟩
    rw [nestedLoopBlocks, if_pos (by omega)] at h
    obtain ⟨cross, hcross, -⟩ := Outcome.bind_eq_ok.mp h
    obtain ⟨bl, br, hblock, hbl, hbr, htotal, -⟩ := blockSides_cells joinType schema 0
      (min chunkRows (max lhs.numRows rhs.numRows - 0)) hrows (by omega) (by omega)
    rw [hblock] at hcross
    have hle := le_of_executeCrossJoin hcross hbl hbr
    rwa [htotal, Nat.sub_zero] at hle
  · intro hcells
    exact nestedLoopBlocks_ok hk hfits hplan hfilter hrows hchunk hcells _ _

/-! ### The join as a whole -/

/-- What the sizes and types ask for a nested-loop join to return. -/
structure LoopRuns (lhs rhs : Batch) (schema : Schema) (chunkCells : Nat) : Prop where
  types : NoTemporal schema
  blocks : BlocksFit lhs.numRows rhs.numRows chunkCells
  empty : lhs.numRows = 0 ∨ rhs.numRows = 0 → HasEmptyArrays schema

section Whole

variable {on : List (Expr Q × Expr Q)} {predicate : Expr Q} {lefts rights : List String}
  {t : Row → Option Bool}

theorem nestedLoopJoinChunked_ok_iff (hk : device.kernels.Contract)
    (hjoin : preserveProbe joinType = false) (hfits : OutputFits lhs rhs joinType schema)
    (hfold : foldEquiIntoPredicate lhs rhs schema on predicate = .ok e)
    (hfilter : FiltersBlocks other lhs rhs schema e) (chunkCells : Nat) :
  (∃ rows, nestedLoopJoinChunked device other lhs rhs joinType on predicate schema chunkCells =
    .ok rows) ↔ LoopRuns lhs rhs schema chunkCells
  := by
  rw [nestedLoopJoinChunked, hjoin, if_neg Bool.false_ne_true]
  by_cases hcap : min lhs.numRows rhs.numRows ≤ maxNestedLoopInnerRows
  · rw [if_neg (Nat.not_lt.mpr hcap)]
    by_cases hplan : NoTemporal schema
    · simp only [planSchemaToArrowSchema_eq_ok.mpr hplan, bind, Except.bind]
      by_cases hempty : lhs.numRows = 0 ∨ rhs.numRows = 0
      · have hzero : min lhs.numRows rhs.numRows = 0 := by omega
        have hblocks : BlocksFit lhs.numRows rhs.numRows chunkCells := by
          rw [BlocksFit, hzero, Nat.mul_zero]
          exact ⟨Nat.zero_le _, Nat.zero_le _⟩
        rw [if_pos hempty]
        constructor
        · rintro ⟨rows, hrows⟩
          obtain ⟨empty, hout, -⟩ := Outcome.bind_eq_ok.mp hrows
          exact ⟨hplan, hblocks, fun _ => hfits.emptyOutput_ok_iff.mp ⟨empty, hout⟩⟩
        · intro hruns
          obtain ⟨empty, hout⟩ := hfits.emptyOutput_ok_iff.mpr (hruns.empty hempty)
          rw [hout]
          exact ⟨_, rfl⟩
      · obtain ⟨fuel, hfuel⟩ : ∃ fuel, max lhs.numRows rhs.numRows = fuel + 1 :=
          ⟨max lhs.numRows rhs.numRows - 1, by omega⟩
        have hchunk : 0 < max (chunkCells / min lhs.numRows rhs.numRows) 1 := by omega
        have hloop := nestedLoopBlocks_ok_iff hk hfits hplan hfilter (by omega) fuel hchunk
        rw [← hfuel] at hloop
        rw [if_neg hempty, hfold]
        constructor
        · exact fun h => ⟨hplan, ⟨hcap, hloop.mp h⟩, fun hside => absurd hside hempty⟩
        · exact fun hruns => hloop.mpr hruns.blocks.2
    · apply iff_of_false
      · rintro ⟨rows, h⟩
        obtain ⟨⟨⟩, hok, -⟩ := Outcome.bind_eq_ok.mp h
        exact hplan (planSchemaToArrowSchema_eq_ok.mp hok)
      · exact fun hruns => hplan hruns.types
  · rw [if_pos (Nat.lt_of_not_le hcap)]
    apply iff_of_false
    · rintro ⟨rows, h⟩
      cases h
    · exact fun hruns => hcap hruns.blocks.1

/-- A join that gives its right columns fresh names is read, of two columns of one name, at the
last left one. -/
theorem readAt_joinCombinedSchema (left right : Schema) (joinType : JoinType) {i : Nat} :
  (i < left.names.length →
    readAt (joinCombinedSchema left right joinType).names i = readAt left.names i) ∧
  readAt (joinCombinedSchema left right joinType).names (left.names.length + i) =
    left.names.length + i
  := by
  obtain ⟨hnodup, hfresh⟩ :=
    joinRightFields_fresh joinType.rightMayNull right.fields left.names
  rw [joinCombinedSchema_names]
  constructor
  · intro hi
    rw [readAt, readAt, getElem?_append_left hi, getElem?_eq_getElem hi, Option.bind_some,
      Option.bind_some, lastIndexOf_append, lastIndexOf_eq_none_iff.mpr]
    · rfl
    · exact fun hmem => hfresh _ hmem (getElem_mem hi)
  · rw [readAt, getElem?_append_right (Nat.le_add_right _ _), Nat.add_sub_cancel_left]
    cases hname : ((joinRightFields joinType.rightMayNull right.fields left.names).map
        Field.name)[i]? with
    | none => rfl
    | some name =>
      rw [Option.bind_some, lastIndexOf_append, lastIndexOf_of_nodup hnodup hname]
      rfl

theorem filter_perm_iff {α : Type} {p q : α → Bool} {l : List α} :
  (l.filter p).Perm (l.filter q) ↔ ∀ a ∈ l, p a = q a
  := by
  constructor
  · intro hperm a ha
    have hmem := hperm.mem_iff (a := a)
    rw [mem_filter, mem_filter, and_iff_right ha, and_iff_right ha] at hmem
    exact Bool.eq_iff_iff.mpr hmem
  · intro h
    rw [filter_congr h]

/-- On the rows where the condition is true, the last left column of the name of a key is equal to
the right key column just where the key itself is. -/
def LastAgrees (left : Schema) (lhs rhs : Batch) (lefts rights : List String)
    (t : Row → Option Bool) : Prop :=
  ∀ l ∈ lhs.rows, ∀ r ∈ rhs.rows, t (l ++ r) = some true →
    sqlMatch ((keyPositions lhs lefts).map (readAt left.names)) (keyPositions rhs rights) l r =
      sqlMatch (keyPositions lhs lefts) (keyPositions rhs rights) l r

/-- What is read of the joined rows of a join whose right names are fresh. -/
theorem readMatch_joinCombinedSchema {left : Schema} (right : Schema)
    (hleft : left.names.length = lhs.columns.length)
    (hlefts : ∀ i ∈ keyPositions lhs lefts, i < lhs.columns.length) {l : Row} (hl : l ∈ lhs.rows)
    (r : Row) :
  readMatch (joinCombinedSchema left right joinType).names lhs.columns.length
      (keyPositions lhs lefts) (keyPositions rhs rights) (l ++ r) =
    sqlMatch ((keyPositions lhs lefts).map (readAt left.names)) (keyPositions rhs rights) l r
  := by
  obtain ⟨n, -, rfl⟩ := mem_map.mp hl
  have hlen : (lhs.row n).length = left.names.length := (lhs.length_row n).trans hleft.symm
  rw [← lhs.length_row n]
  apply readMatch_append
  · intro i hi
    have hlt : i < left.names.length := by
      rw [hleft]
      exact hlefts i hi
    refine ⟨(readAt_joinCombinedSchema left right joinType).1 hlt, ?_⟩
    rw [hlen]
    exact readAt_lt hlt
  · intro j _
    rw [hlen]
    exact (readAt_joinCombinedSchema left right joinType).2

theorem take_drop_row {l : Row} (hl : l ∈ lhs.rows) (r : Row) :
  (l ++ r).take lhs.columns.length = l ∧ (l ++ r).drop lhs.columns.length = r
  := by
  obtain ⟨n, -, rfl⟩ := mem_map.mp hl
  rw [← lhs.length_row n]
  exact ⟨take_left, drop_left⟩

/-- The rows that a join returns are those of equal keys exactly when the keys are read right. -/
theorem nestedLoopJoinChunked_perm_iff (hk : device.kernels.Contract) {left right : Schema}
    (hleft : left.names.length = lhs.columns.length) (hkeys : splitKeys on = .ok (lefts, rights))
    (hlefts : ∀ i ∈ keyPositions lhs lefts, i < lhs.columns.length)
    (hpred : EvaluatesTo other (joinCombinedSchema left right joinType) predicate t)
    {chunkCells : Nat} {rows : List Row}
    (hrows : nestedLoopJoinChunked device other lhs rhs joinType on predicate
      (joinCombinedSchema left right joinType) chunkCells = .ok rows) :
  rows.Perm (((ListJoin.matched (sqlMatch (keyPositions lhs lefts) (keyPositions rhs rights))
      lhs.rows rhs.rows).map (fun p => p.1 ++ p.2)).filter (fun row => t row == some true)) ↔
    LastAgrees left lhs rhs lefts rights t
  := by
  have hperm := (nestedLoopJoinChunked_cross hk hkeys hpred hrows).1
  rw [matched_rows_eq]
  refine Iff.trans ⟨fun h => hperm.symm.trans h, fun h => hperm.trans h⟩ ?_
  rw [filter_perm_iff]
  constructor
  · intro h l hl r hr ht
    have hrow := h (l ++ r) (mem_map.mpr ⟨(l, r), mem_product.mpr ⟨hl, hr⟩, rfl⟩)
    obtain ⟨htake, hdrop⟩ := take_drop_row hl r
    rwa [ht, readMatch_joinCombinedSchema right hleft hlefts hl r, htake, hdrop,
      beq_self_eq_true, Bool.true_and, Bool.true_and] at hrow
  · intro h row hrow
    obtain ⟨⟨l, r⟩, hlr, rfl⟩ := mem_map.mp hrow
    obtain ⟨hl, hr⟩ := mem_product.mp hlr
    obtain ⟨htake, hdrop⟩ := take_drop_row hl r
    cases ht : (t (l ++ r) == some true) with
    | false => rfl
    | true =>
      rw [readMatch_joinCombinedSchema right hleft hlefts hl r, h l hl r hr (eq_of_beq ht), htake,
        hdrop]

end Whole

/-- The evaluator of the conditions below: a constant `TRUE`. -/
def alwaysTrue (b : Batch) (_ : Expr Unit) : BoltResult Truths :=
  .ok (List.replicate b.numRows (some true))

theorem alwaysTrue_evaluatesTo (schema : Schema) :
  EvaluatesTo alwaysTrue schema (.literal (.bool true)) (fun _ => some true)
  := by
  intro b hb mask h
  injection h with h
  rw [← h, map_const', Batch.length_rows]

/-- A batch of one column `k` of integers. -/
def intBatch (values : List Int64) : Batch where
  columns := [("k", .flat ⟨.int64, values.map .int64, by
    intro v hv
    obtain ⟨n, -, rfl⟩ := mem_map.mp hv
    exact .inr rfl⟩)]
  numRows := values.length
  lengths := by
    intro c hc
    rw [mem_singleton] at hc
    subst hc
    exact length_map _

/-- The schema of such a batch. -/
def intSchema : Schema := ⟨[⟨"k", .int64, true⟩]⟩

/-- The columns of two such batches are compared. -/
theorem intColumns_filter {columns : List Column} {cross : Batch}
    (h : tryNew (joinCombinedSchema intSchema intSchema .inner) columns = .ok cross) :
  ∃ filtered, executeFilter alwaysTrue cross (.binary .and
    (.binary .eq (.column "k") (.column "right.k")) (.literal (.bool true))) = .ok filtered
  := by
  obtain ⟨hcols, hlen, hfits⟩ := tryNew_eq_ok h
  obtain ⟨c, d, rfl⟩ := length_eq_two.mp hlen
  have hdtype : ∀ {f : Field} {c : Column}, f.dtype = .int64 → fits f c = true →
      c.dtype = .plain .int64 := by
    intro f c hf hfit
    rw [fits, hf, Bool.and_eq_true, decide_eq_true_eq] at hfit
    exact hfit.1
  have hc : c.dtype = .plain .int64 := hdtype rfl (hfits _ mem_cons_self)
  have hd : d.dtype = .plain .int64 := hdtype rfl (hfits _ (mem_cons_of_mem _ mem_cons_self))
  have hcolumns : cross.columns = [("k", c), ("right.k", d)] := hcols
  unfold executeFilter
  split
  · exact ⟨_, rfl⟩
  · rw [hcolumns]
    simp [pure, Except.pure, toHostColumn, hc, hd, evalPredicate, evalEq, hostColumn, hcolumns,
      hostType, alwaysTrue, ArrowType.valueType, DataType.isNumeric, bind, Except.bind]

end CratonBolt.Joins
