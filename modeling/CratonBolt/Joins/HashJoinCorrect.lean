import CratonBolt.Joins.DeviceAnswers
import CratonBolt.Joins.NestedLoopRows

/-!
# Correctness of the hash join

Under the contract of the planner, a hash join returns the relational join, `NULL`-padded rows
included, under every behaviour of the device unless it meets one of a few defects: key columns of
different types or of a type that has no keys, a NaN that two rows share, an output type that the
join cannot build, and what the device does to NaNs and to strings.
-/

namespace CratonBolt.Joins

open Outcome List
open Literal (utf8)

section Exact

variable {lhs rhs : Batch} {lefts rights : List String} {joinType : JoinType} {schema : Schema}
  {out : Batch}

theorem not_nanPair_of_empty {leftIdx rightIdx : List Nat}
    (h : lhs.numRows = 0 ∨ rhs.numRows = 0) :
  ¬ NanPair leftIdx rightIdx lhs.rows rhs.rows
  := by
  rintro ⟨l, hl, r, hr, -⟩
  obtain h | h := h
  · simp [Batch.rows, h] at hl
  · simp [Batch.rows, h] at hr

variable {buildIsLeft ofBuild : Bool} {n : Nat}

/-! ### One side without rows -/

theorem relationalRows_eq (lhs rhs : Batch) (joinType : JoinType) (lefts rights : List String) :
  relationalRows lhs rhs joinType lefts rights =
    (ListJoin.outerJoin joinType.rightMayNull joinType.leftMayNull
      (fun l r => sqlMatch (keyPositions lhs lefts) (keyPositions rhs rights) (lhs.row l)
        (rhs.row r)) (range lhs.numRows) (range rhs.numRows)).map (joinedAt lhs rhs)
  := joinRows_eq lhs rhs joinType _

theorem relationalRows_of_left_empty (h : lhs.numRows = 0) :
  relationalRows lhs rhs joinType lefts rights =
    if joinType.leftMayNull then
      (range rhs.numRows).map (fun r => joinedAt lhs rhs (none, some r))
    else []
  := by
  rw [relationalRows_eq, h, range_zero, ListJoin.outerJoin_nil_left]
  cases joinType.leftMayNull with
  | false => rfl
  | true => exact map_map

theorem relationalRows_of_right_empty (h : rhs.numRows = 0) :
  relationalRows lhs rhs joinType lefts rights =
    if joinType.rightMayNull then
      (range lhs.numRows).map (fun l => joinedAt lhs rhs (some l, none))
    else []
  := by
  rw [relationalRows_eq, h, range_zero, ListJoin.outerJoin_nil_right]
  cases joinType.rightMayNull with
  | false => rfl
  | true => exact map_map

/-- An outer join of sides with rows has rows. -/
theorem relationalRows_ne_nil (hjoin : preserveProbe joinType = true) (hl : lhs.numRows ≠ 0)
    (hr : rhs.numRows ≠ 0) :
  relationalRows lhs rhs joinType lefts rights ≠ []
  := by
  have hls : range lhs.numRows ≠ [] := by rwa [Ne, range_eq_nil]
  have hrs : range rhs.numRows ≠ [] := by rwa [Ne, range_eq_nil]
  rw [relationalRows_eq, Ne, map_eq_nil_iff]
  cases joinType with
  | inner | cross => cases hjoin
  | leftOuter | fullOuter => exact ListJoin.outerJoin_keepLeft_ne_nil _ _ hls
  | rightOuter => exact ListJoin.outerJoin_keepRight_ne_nil _ _ hrs

theorem onlySide_rows (h : onlySide lhs rhs buildIsLeft ofBuild n schema = .ok out) :
  out.rows = (range n).map (fun i => joinedAt lhs rhs
    (orient buildIsLeft (if ofBuild then (some i, none) else (none, some i))))
  := by
  unfold onlySide at h
  split at h
  · rw [materialise_rows h, map_map]
    rfl
  · cases h

/-! ### The sides of a planned join -/

/-- The key positions on the build and on the probe side. -/
def keySides (lhs rhs : Batch) (buildIsLeft : Bool) (lefts rights : List String) :
    List Nat × List Nat :=
  sides buildIsLeft (keyPositions lhs lefts) (keyPositions rhs rights)

theorem sides_keySides (buildIsLeft : Bool) :
  sides buildIsLeft (keySides lhs rhs buildIsLeft lefts rights).1
      (keySides lhs rhs buildIsLeft lefts rights).2 =
    (keyPositions lhs lefts, keyPositions rhs rights)
  := by
  cases buildIsLeft <;> rfl

theorem sides_sameTypes (buildIsLeft : Bool) (leftIdx rightIdx : List Nat) :
  SameTypes (sides buildIsLeft lhs rhs).1 (sides buildIsLeft lhs rhs).2
      (sides buildIsLeft leftIdx rightIdx).1 (sides buildIsLeft leftIdx rightIdx).2 ↔
    SameTypes lhs rhs leftIdx rightIdx
  := by
  cases buildIsLeft with
  | true => rfl
  | false => exact ⟨SameTypes.symm, SameTypes.symm⟩

theorem sides_nonempty (buildIsLeft : Bool) (hl : lhs.numRows ≠ 0) (hr : rhs.numRows ≠ 0) :
  (sides buildIsLeft lhs rhs).2.numRows ≠ 0 ∧ (sides buildIsLeft lhs rhs).1.numRows ≠ 0
  := by
  cases buildIsLeft with
  | true => exact ⟨hr, hl⟩
  | false => exact ⟨hl, hr⟩

theorem passesGates_symm {build probe : Batch} {buildIdx probeIdx : List Nat}
    (h : passesGates build probe buildIdx probeIdx = true) :
  passesGates probe build probeIdx buildIdx = true
  := by
  simp only [passesGates, Bool.and_eq_true, decide_eq_true_eq, Bool.not_eq_true',
    List.isEmpty_eq_false_iff] at h ⊢
  obtain ⟨⟨⟨⟨⟨hlen, hne⟩, hbuild⟩, hprobe⟩, hbuildNulls⟩, hprobeNulls⟩ := h
  refine ⟨⟨⟨⟨⟨hlen.symm, ?_⟩, hprobe⟩, hbuild⟩, hprobeNulls⟩, hbuildNulls⟩
  rintro rfl
  exact hne (length_eq_zero_iff.mp hlen)

/-- The gates of the device do not tell the sides apart. -/
theorem passesGates_sides (buildIsLeft : Bool) :
  passesGates (sides buildIsLeft lhs rhs).1 (sides buildIsLeft lhs rhs).2
      (keySides lhs rhs buildIsLeft lefts rights).1
      (keySides lhs rhs buildIsLeft lefts rights).2 = true ↔
    passesGates lhs rhs (keyPositions lhs lefts) (keyPositions rhs rights) = true
  := by
  cases buildIsLeft with
  | true => rfl
  | false => exact ⟨passesGates_symm, passesGates_symm⟩

theorem keySides_length (hlen : lefts.length = rights.length) (buildIsLeft : Bool) :
  (keySides lhs rhs buildIsLeft lefts rights).1.length = lefts.length
  := by
  cases buildIsLeft with
  | true => exact length_map _
  | false => exact (length_map _).trans hlen.symm

/-- The check of the types of the key columns on the build and the probe side. -/
theorem checkKeyDtypes_sides (hlen : lefts.length = rights.length) (kind : String)
    (buildIsLeft : Bool) :
  checkKeyDtypes (sides buildIsLeft lhs rhs).1 (sides buildIsLeft lhs rhs).2 kind
      (keySides lhs rhs buildIsLeft lefts rights).1
      (keySides lhs rhs buildIsLeft lefts rights).2 = .ok () ↔
    SameTypes lhs rhs (keyPositions lhs lefts) (keyPositions rhs rights)
  := by
  have hidx : (keyPositions lhs lefts).length = (keyPositions rhs rights).length := by
    rw [keyPositions, keyPositions, length_map, length_map, hlen]
  rw [← sides_sameTypes buildIsLeft]
  apply checkKeyDtypes_eq_ok
  cases buildIsLeft with
  | true => exact hidx
  | false => exact hidx.symm

section Planned

variable (hplan : Planned lhs rhs joinType lefts rights schema)
include hplan

theorem Planned.lookup (buildIsLeft : Bool) :
  lookupColumns (sides buildIsLeft lhs rhs).1 (sides buildIsLeft lefts rights).1 =
      .ok (keySides lhs rhs buildIsLeft lefts rights).1 ∧
    lookupColumns (sides buildIsLeft lhs rhs).2 (sides buildIsLeft lefts rights).2 =
      .ok (keySides lhs rhs buildIsLeft lefts rights).2
  := by
  have hleft := lookupColumns_ok hplan.leftFound
  have hright := lookupColumns_ok hplan.rightFound
  cases buildIsLeft with
  | true => exact ⟨hleft, hright⟩
  | false => exact ⟨hright, hleft⟩

theorem Planned.keysIn (buildIsLeft : Bool) :
  KeysIn (sides buildIsLeft lhs rhs) (keySides lhs rhs buildIsLeft lefts rights).1
    (keySides lhs rhs buildIsLeft lefts rights).2
  := by
  obtain ⟨hbuild, hprobe⟩ := hplan.lookup buildIsLeft
  exact hplan.output.keysIn (lookupColumns_eq_ok hbuild).2 (lookupColumns_eq_ok hprobe).2

theorem Planned.buildHashMap_ok
    (hread : Reads (sides buildIsLeft lhs rhs).1 (keySides lhs rhs buildIsLeft lefts rights).1) :
  ∃ map, buildHashMap (sides buildIsLeft lhs rhs).1
    (keySides lhs rhs buildIsLeft lefts rights).1 = .ok map
  := buildRows_ok (fun row hrow => hread row (mem_range.mp hrow))
    (sides_numRows hplan.leftRows.le hplan.rightRows.le buildIsLeft).1 []

/-- The rows with a shared key are those of the relational join unless two rows share a NaN. -/
theorem Planned.joinRows_perm_iff (hlen : lefts.length = rights.length)
    (htypes : SameTypes lhs rhs (keyPositions lhs lefts) (keyPositions rhs rights))
    (hread : Reads (sides buildIsLeft lhs rhs).1 (keySides lhs rhs buildIsLeft lefts rights).1) :
  (joinRows lhs.columns.length rhs.columns.length joinType
      (keyMatch buildIsLeft (keySides lhs rhs buildIsLeft lefts rights).1
        (keySides lhs rhs buildIsLeft lefts rights).2) lhs.rows rhs.rows).Perm
      (relationalRows lhs rhs joinType lefts rights) ↔
    ¬ NanPair (keyPositions lhs lefts) (keyPositions rhs rights) lhs.rows rhs.rows
  := by
  obtain ⟨map, hmap⟩ := hplan.buildHashMap_ok hread
  have hsql := sqlByKeys_of_build (hplan.keysIn buildIsLeft)
    ((sides_sameTypes buildIsLeft _ _).mpr htypes) hmap
  obtain ⟨left, hleft⟩ := exists_mem_of_ne_nil lefts hplan.keys
  obtain ⟨right, hright⟩ := exists_mem_of_ne_nil rights (by
    rintro rfl
    exact hplan.keys (length_eq_zero_iff.mp hlen))
  have hside : SqlByKeys (keyPositions lhs lefts) (keyPositions rhs rights) lhs.rows rhs.rows ∧
      keyMatch buildIsLeft (keySides lhs rhs buildIsLeft lefts rights).1
          (keySides lhs rhs buildIsLeft lefts rights).2 =
        hashMatch (keyPositions lhs lefts) (keyPositions rhs rights) := by
    cases buildIsLeft with
    | true => exact ⟨hsql, rfl⟩
    | false => exact ⟨hsql.symm, rfl⟩
  rw [hside.2, relationalRows]
  exact CratonBolt.Joins.joinRows_perm_iff hside.1 (mem_map_of_mem hleft)
    (fun i hi => ((hplan.keysIn true).build i hi).1) (mem_map_of_mem hright)

end Planned

/-! ### What is offered to the device -/

theorem uniqueIntJoin_refusing (build probe : Batch) (buildIdx probeIdx : List Nat) :
  uniqueIntJoin (fun _ _ => none) build probe buildIdx probeIdx = none
  := by
  unfold uniqueIntJoin
  split
  · split
    · split
      · simp [hashJoinIndicesOnGpu]
      · rfl
    · rfl
  · rfl

theorem hashJoinIndicesWithShape_refusing (buildCols probeCols : List Column)
    (nBuild nProbe : Nat) (shape : KeyShape) :
  hashJoinIndicesWithShape .refusing buildCols probeCols nBuild nProbe shape = none
  := by
  simp [hashJoinIndicesWithShape, Kernels.refusing]

theorem utf8Join_refusing (streaming : Bool) (build probe : Batch) (buildIdx probeIdx : List Nat) :
  utf8Join .refusing streaming build probe buildIdx probeIdx = none
  := by
  unfold utf8Join
  split
  · simp [utf8Pairs, hashJoinIndicesOnGpu, Kernels.refusing]
  · rfl

/-- Without kernels every inner join is declined. -/
theorem tryGpuInnerJoin_refusing (streaming : Bool) (lhs rhs : Batch) (buildIsLeft : Bool)
    (buildIdx probeIdx : List Nat) (schema : Schema) :
  tryGpuInnerJoin .refusing streaming lhs rhs buildIsLeft buildIdx probeIdx schema = none
  := by
  have hunique := uniqueIntJoin_refusing (sides buildIsLeft lhs rhs).1 (sides buildIsLeft lhs rhs).2
    buildIdx probeIdx
  have hlater : laterStages .refusing streaming lhs rhs buildIsLeft buildIdx probeIdx schema =
      none := by
    unfold laterStages
    dsimp only
    split
    · rfl
    · simp only [utf8Join_refusing, hashJoinIndicesWithShape_refusing, innerOutput,
        Option.bind_none]
      rw [Kernels.refusing, hunique]
      simp
  simp only [tryGpuInnerJoin, hlater]
  rw [Kernels.refusing, hunique]
  simp [innerOutput]

theorem outerJoinIndices_refusing (buildCols probeCols : List Column) (nBuild nProbe : Nat)
    (shape : KeyShape) (emitProbe emitBuild : Bool) :
  outerJoinIndices .refusing buildCols probeCols nBuild nProbe shape emitProbe emitBuild = none
  := by
  simp [outerJoinIndices, Kernels.refusing]

/-- So is every outer join. -/
theorem tryGpuOuterJoin_refusing (lhs rhs : Batch) (joinType : JoinType) (buildIsLeft : Bool)
    (buildIdx probeIdx : List Nat) (schema : Schema) :
  tryGpuOuterJoin .refusing lhs rhs joinType buildIsLeft buildIdx probeIdx schema = none
  := by
  have hpairs : ∀ shape, outerPairs .refusing (sides buildIsLeft lhs rhs).1
      (sides buildIsLeft lhs rhs).2 buildIdx probeIdx joinType shape = none := by
    intro shape
    unfold outerPairs
    split
    · unfold utf8OuterPairs
      split
      · simp [outerJoinIndices_refusing]
      · rfl
    · exact outerJoinIndices_refusing _ _ _ _ _ _ _
  simp [tryGpuOuterJoin, hpairs]

/-- A join that is offered to the device returns some rows under every behaviour of it exactly when
the host returns them and every answer agrees with the host. -/
theorem offered_iff {run : Kernels → BoltResult Batch} {offer : Kernels → Option Batch}
    {host : BoltResult Batch} {rows : List Row}
    (hrun : ∀ kernels, run kernels = (offer kernels).elim host .ok)
    (hrefusing : offer .refusing = none) :
  (∀ kernels : Kernels, kernels.Contract →
      ∃ out, run kernels = .ok out ∧ out.rows.Perm rows) ↔
    (∃ out, host = .ok out ∧ out.rows.Perm rows) ∧
      ∀ kernels : Kernels, kernels.Contract → ∀ out, offer kernels = some out →
        ∃ h, host = .ok h ∧ out.rows.Perm h.rows
  := by
  constructor
  · intro h
    obtain ⟨out, hout, hrows⟩ := h .refusing refusing_contract
    rw [hrun, hrefusing] at hout
    refine ⟨⟨out, hout, hrows⟩, fun kernels hk answer hanswer => ⟨out, hout, ?_⟩⟩
    obtain ⟨out', hout', hrows'⟩ := h kernels hk
    rw [hrun, hanswer] at hout'
    cases hout'
    exact hrows'.trans hrows.symm
  · rintro ⟨⟨out, hout, hrows⟩, hagrees⟩ kernels hk
    rw [hrun]
    cases hanswer : offer kernels with
    | none => exact ⟨out, hout, hrows⟩
    | some answer =>
      obtain ⟨out', hout', hperm⟩ := hagrees kernels hk answer hanswer
      cases hout.symm.trans hout'
      exact ⟨answer, rfl, hperm.trans hrows⟩

/-! ### Joins of sides with rows -/

section Planned

variable (hlen : lefts.length = rights.length)
include hlen

/-- Every behaviour of the device gives an inner join of planned sides its relational rows exactly
when the key columns have the same types and can be read, no rows share a NaN, the batch without
rows can be built where it is the result, and the device has nothing to go wrong with. -/
theorem Planned.innerJoinOn_iff (hplan : Planned lhs rhs .inner lefts rights schema)
    (streaming : Bool) (buildIsLeft : Bool) :
  (∀ kernels : Kernels, kernels.Contract →
      ∃ out, innerJoinOn ⟨kernels, streaming⟩ lhs rhs buildIsLeft lefts rights schema = .ok out ∧
        out.rows.Perm (relationalRows lhs rhs .inner lefts rights)) ↔
    (SameTypes lhs rhs (keyPositions lhs lefts) (keyPositions rhs rights) ∧
      Reads (sides buildIsLeft lhs rhs).1 (keySides lhs rhs buildIsLeft lefts rights).1) ∧
    ¬ NanPair (keyPositions lhs lefts) (keyPositions rhs rights) lhs.rows rhs.rows ∧
    (relationalRows lhs rhs .inner lefts rights = [] → HasEmptyArrays schema) ∧
    (passesGates lhs rhs (keyPositions lhs lefts) (keyPositions rhs rights) = true →
      InnerSafe streaming lhs rhs buildIsLeft (keySides lhs rhs buildIsLeft lefts rights).1
        (keySides lhs rhs buildIsLeft lefts rights).2)
  := by
  rw [← passesGates_sides buildIsLeft]
  obtain ⟨hbuild, hprobe⟩ := hplan.lookup buildIsLeft
  by_cases htypes : SameTypes lhs rhs (keyPositions lhs lefts) (keyPositions rhs rights)
  · have hrun : ∀ kernels : Kernels,
        innerJoinOn ⟨kernels, streaming⟩ lhs rhs buildIsLeft lefts rights schema =
          (tryGpuInnerJoin kernels streaming lhs rhs buildIsLeft
            (keySides lhs rhs buildIsLeft lefts rights).1
            (keySides lhs rhs buildIsLeft lefts rights).2 schema).elim
          (hostInnerJoin lhs rhs buildIsLeft (keySides lhs rhs buildIsLeft lefts rights).1
            (keySides lhs rhs buildIsLeft lefts rights).2 schema) .ok := by
      intro kernels
      simp only [innerJoinOn, hbuild, hprobe, bind, Except.bind,
        (checkKeyDtypes_sides hlen _ buildIsLeft).mpr htypes]
      cases tryGpuInnerJoin kernels streaming lhs rhs buildIsLeft
        (keySides lhs rhs buildIsLeft lefts rights).1
        (keySides lhs rhs buildIsLeft lefts rights).2 schema <;> rfl
    have hidx := hplan.keysIn buildIsLeft
    have hsame : SameTypes (sides buildIsLeft lhs rhs).1 (sides buildIsLeft lhs rhs).2
        (keySides lhs rhs buildIsLeft lefts rights).1
        (keySides lhs rhs buildIsLeft lefts rights).2 :=
      (sides_sameTypes buildIsLeft _ _).mpr htypes
    have hok := hplan.output.hostInnerJoin_ok_iff hplan.leftRows.le hplan.rightRows.le hidx hsame
    rw [offered_iff hrun (tryGpuInnerJoin_refusing _ _ _ _ _ _ _), and_iff_right htypes]
    constructor
    · rintro ⟨⟨out, hout, hrows⟩, hagrees⟩
      obtain ⟨hread, hempty⟩ := hok.mp ⟨out, hout⟩
      have hperm := (hostInnerJoin_rows hidx hout).symm.trans hrows
      refine ⟨hread, (hplan.joinRows_perm_iff hlen htypes hread).mp hperm, ?_,
        (innerAgrees_iff hidx hsame hplan.leftRows hplan.rightRows hplan.output hempty).mp hagrees⟩
      intro hnil
      rw [hnil] at hperm
      exact hempty hperm.eq_nil
    · rintro ⟨hread, hnan, hempty, hdevice⟩
      have hperm := (hplan.joinRows_perm_iff hlen htypes hread).mpr hnan
      have hempty' : joinRows lhs.columns.length rhs.columns.length .inner
          (keyMatch buildIsLeft (keySides lhs rhs buildIsLeft lefts rights).1
            (keySides lhs rhs buildIsLeft lefts rights).2) lhs.rows rhs.rows = [] →
          HasEmptyArrays schema := by
        intro hnil
        rw [hnil] at hperm
        exact hempty hperm.symm.eq_nil
      obtain ⟨out, hout⟩ := hok.mpr ⟨hread, hempty'⟩
      exact ⟨⟨out, hout, (hostInnerJoin_rows hidx hout).trans hperm⟩,
        (innerAgrees_iff hidx hsame hplan.leftRows hplan.rightRows hplan.output hempty').mpr
          hdevice⟩
  · apply iff_of_false
    · intro h
      obtain ⟨out, hout, -⟩ := h .refusing refusing_contract
      simp only [innerJoinOn, hbuild, hprobe, bind, Except.bind] at hout
      split at hout
      · cases hout
      · rename_i hcheck
        exact htypes ((checkKeyDtypes_sides hlen _ buildIsLeft).mp hcheck)
    · exact fun h => htypes h.1.1

/-- So it gives an outer join of planned sides with rows. -/
theorem Planned.outerJoinOn_iff (hplan : Planned lhs rhs joinType lefts rights schema)
    (hjoin : preserveProbe joinType = true) (hl : lhs.numRows ≠ 0) (hr : rhs.numRows ≠ 0)
    (streaming : Bool) :
  (∀ kernels : Kernels, kernels.Contract →
      ∃ out, outerJoinOn ⟨kernels, streaming⟩ lhs rhs joinType (decide (joinType = .rightOuter))
          lefts rights schema = .ok out ∧
        out.rows.Perm (relationalRows lhs rhs joinType lefts rights)) ↔
    (SameTypes lhs rhs (keyPositions lhs lefts) (keyPositions rhs rights) ∧
      Reads lhs (keyPositions lhs lefts) ∧ Reads rhs (keyPositions rhs rights)) ∧
    ¬ NanPair (keyPositions lhs lefts) (keyPositions rhs rights) lhs.rows rhs.rows ∧
    (passesGates lhs rhs (keyPositions lhs lefts) (keyPositions rhs rights) = true →
      lefts.length = 1 →
      ¬ SplitNan (keyPositions lhs lefts) (keyPositions rhs rights) lhs.rows rhs.rows)
  := by
  obtain ⟨hrows, hbuildRows⟩ := sides_nonempty (decide (joinType = .rightOuter)) hl hr
  obtain ⟨hbuild, hprobe⟩ := hplan.lookup (decide (joinType = .rightOuter))
  have hreads : ∀ buildIsLeft, (Reads (sides buildIsLeft lhs rhs).1
        (keySides lhs rhs buildIsLeft lefts rights).1 ∧
      Reads (sides buildIsLeft lhs rhs).2 (keySides lhs rhs buildIsLeft lefts rights).2) ↔
      Reads lhs (keyPositions lhs lefts) ∧ Reads rhs (keyPositions rhs rights) := by
    intro buildIsLeft
    cases buildIsLeft with
    | true => exact Iff.rfl
    | false => exact And.comm
  have hstep : ∀ kernels : Kernels,
      outerJoinOn ⟨kernels, streaming⟩ lhs rhs joinType (decide (joinType = .rightOuter)) lefts
          rights schema =
        (checkKeyDtypes (sides (decide (joinType = .rightOuter)) lhs rhs).1
            (sides (decide (joinType = .rightOuter)) lhs rhs).2 "OUTER JOIN"
            (keySides lhs rhs (decide (joinType = .rightOuter)) lefts rights).1
            (keySides lhs rhs (decide (joinType = .rightOuter)) lefts rights).2).bind fun _ =>
          (tryGpuOuterJoin kernels lhs rhs joinType (decide (joinType = .rightOuter))
            (keySides lhs rhs (decide (joinType = .rightOuter)) lefts rights).1
            (keySides lhs rhs (decide (joinType = .rightOuter)) lefts rights).2 schema).elim
          (hostOuterJoin lhs rhs joinType (decide (joinType = .rightOuter))
            (keySides lhs rhs (decide (joinType = .rightOuter)) lefts rights).1
            (keySides lhs rhs (decide (joinType = .rightOuter)) lefts rights).2 schema) .ok := by
    intro kernels
    unfold outerJoinOn
    dsimp only
    rw [if_neg (fun hz => hrows hz.1), if_neg hrows, if_neg hbuildRows]
    simp only [hbuild, hprobe, bind, Except.bind]
    cases tryGpuOuterJoin kernels lhs rhs joinType (decide (joinType = .rightOuter))
      (keySides lhs rhs (decide (joinType = .rightOuter)) lefts rights).1
      (keySides lhs rhs (decide (joinType = .rightOuter)) lefts rights).2 schema <;> rfl
  by_cases htypes : SameTypes lhs rhs (keyPositions lhs lefts) (keyPositions rhs rights)
  · simp only [(checkKeyDtypes_sides hlen _ _).mpr htypes, Except.bind] at hstep
    have hidx := hplan.keysIn (decide (joinType = .rightOuter))
    have hsame := (sides_sameTypes (decide (joinType = .rightOuter)) _ _).mpr htypes
    have hok := hplan.output.hostOuterJoin_ok_iff hplan.leftRows.le hplan.rightRows.le hjoin rfl
      hidx hrows
    have hagree := outerAgrees_iff hidx hsame hplan.leftRows hplan.rightRows hplan.output hjoin rfl
    rw [passesGates_sides, sides_keySides, keySides_length hlen] at hagree
    rw [offered_iff hstep (tryGpuOuterJoin_refusing _ _ _ _ _ _ _), and_iff_right htypes,
      ← and_assoc]
    refine and_congr ?_ hagree
    rw [← hreads (decide (joinType = .rightOuter))]
    constructor
    · rintro ⟨out, hout, hperm⟩
      have hread := hok.mp ⟨out, hout⟩
      exact ⟨hread, (hplan.joinRows_perm_iff hlen htypes hread.1).mp
        ((hostOuterJoin_rows hjoin rfl hidx hout).symm.trans hperm)⟩
    · rintro ⟨hread, hnan⟩
      obtain ⟨out, hout⟩ := hok.mpr hread
      exact ⟨out, hout, (hostOuterJoin_rows hjoin rfl hidx hout).trans
        ((hplan.joinRows_perm_iff hlen htypes hread.1).mpr hnan)⟩
  · apply iff_of_false
    · intro h
      obtain ⟨out, hout, -⟩ := h .refusing refusing_contract
      rw [hstep] at hout
      obtain ⟨⟨⟩, hcheck, -⟩ := bind_eq_ok.mp hout
      exact htypes ((checkKeyDtypes_sides hlen _ _).mp hcheck)
    · exact fun h => htypes h.1.1

end Planned

/-! ### The join as a whole -/

variable {Q : Type} {on : List (Expr Q × Expr Q)}

theorem preserveProbe_of_ne (hinner : joinType ≠ .inner) (hcross : joinType ≠ .cross) :
  preserveProbe joinType = true
  := by
  cases joinType with
  | inner => exact absurd rfl hinner
  | cross => exact absurd rfl hcross
  | _ => rfl

theorem on_isEmpty (hkeys : splitKeys on = .ok (lefts, rights)) (hne : lefts ≠ []) :
  on.isEmpty = false
  := by
  cases on with
  | nil =>
    injection hkeys with hkeys
    injection hkeys with hl _
    exact absurd hl.symm hne
  | cons pair on => rfl

/-- A side alone is returned where the other side may be padded. -/
theorem OutputFits.onlySide_ok (h : OutputFits lhs rhs joinType schema)
    (hn : n < 2 ^ 32) (hpairs : ∀ i < n,
      Within lhs.numRows joinType.leftMayNull
        (orient buildIsLeft (if ofBuild then (some i, none) else (none, some i))).1 ∧
      Within rhs.numRows joinType.rightMayNull
        (orient buildIsLeft (if ofBuild then (some i, none) else (none, some i))).2) :
  ∃ out, onlySide lhs rhs buildIsLeft ofBuild n schema = .ok out
  := by
  rw [onlySide, if_pos hn]
  apply h.materialise_ok
  intro pair hpair
  obtain ⟨i, hi, rfl⟩ := mem_map.mp hpair
  exact hpairs i (mem_range.mp hi)

theorem emptyOutput_perm_iff (h : OutputFits lhs rhs joinType schema) :
  (∃ out, emptyOutput schema = .ok out ∧ out.rows.Perm []) ↔ HasEmptyArrays schema
  := by
  rw [← h.emptyOutput_ok_iff]
  exact ⟨fun ⟨out, hout, _⟩ => ⟨out, hout⟩,
    fun ⟨out, hout⟩ => ⟨out, hout, Perm.of_eq (emptyOutput_rows hout)⟩⟩

section Planned

variable (hplan : Planned lhs rhs joinType lefts rights schema)
include hplan

/-- A side alone is the relational join where the other has no rows and may be padded. -/
theorem Planned.onlySide_relational (hn : n < 2 ^ 32) (hne : n ≠ 0)
    (hpairs : ∀ i < n,
      Within lhs.numRows joinType.leftMayNull
        (orient buildIsLeft (if ofBuild then (some i, none) else (none, some i))).1 ∧
      Within rhs.numRows joinType.rightMayNull
        (orient buildIsLeft (if ofBuild then (some i, none) else (none, some i))).2)
    (hrel : relationalRows lhs rhs joinType lefts rights = (range n).map (fun i =>
      joinedAt lhs rhs (orient buildIsLeft (if ofBuild then (some i, none) else (none, some i))))) :
  relationalRows lhs rhs joinType lefts rights ≠ [] ∧
    ∃ out, onlySide lhs rhs buildIsLeft ofBuild n schema = .ok out ∧
      out.rows = relationalRows lhs rhs joinType lefts rights
  := by
  obtain ⟨out, hout⟩ := hplan.output.onlySide_ok hn hpairs
  refine ⟨?_, out, hout, (onlySide_rows hout).trans hrel.symm⟩
  rw [hrel, Ne, map_eq_nil_iff, range_eq_nil]
  exact hne

/-- With a side without rows an outer join puts out no rows, or the preserved rows of the other. -/
theorem Planned.outerJoinOn_empty_cases (hjoin : preserveProbe joinType = true)
    (hempty : lhs.numRows = 0 ∨ rhs.numRows = 0) (device : Device) :
  (relationalRows lhs rhs joinType lefts rights = [] ∧
    outerJoinOn device lhs rhs joinType (decide (joinType = .rightOuter)) lefts rights schema =
      emptyOutput schema) ∨
  (relationalRows lhs rhs joinType lefts rights ≠ [] ∧
    ∃ out, outerJoinOn device lhs rhs joinType (decide (joinType = .rightOuter)) lefts rights
        schema = .ok out ∧ out.rows = relationalRows lhs rhs joinType lefts rights)
  := by
  have hleft := hplan.leftRows
  have hright := hplan.rightRows
  unfold outerJoinOn
  dsimp only
  split
  · rename_i hboth
    have hzero : lhs.numRows = 0 ∧ rhs.numRows = 0 := by
      cases joinType <;> first | exact hboth | exact hboth.symm
    left
    refine ⟨?_, rfl⟩
    rw [relationalRows_of_left_empty hzero.1, hzero.2]
    split <;> rfl
  · rename_i hboth
    split
    · rename_i hprobe
      split
      · rename_i hfull
        cases joinType with
        | fullOuter =>
          have hl : lhs.numRows = 0 := hprobe
          exact .inr (hplan.onlySide_relational hright (fun hr => hboth ⟨hprobe, hr⟩)
            (fun i hi => ⟨rfl, hi⟩) (relationalRows_of_left_empty hl))
        | _ => cases hfull
      · rename_i hfull
        left
        refine ⟨?_, rfl⟩
        cases joinType with
        | inner | cross => cases hjoin
        | leftOuter => exact relationalRows_of_left_empty hprobe
        | rightOuter => exact relationalRows_of_right_empty hprobe
        | fullOuter => exact absurd rfl hfull
    · rename_i hprobe
      split
      · right
        cases joinType with
        | inner | cross => cases hjoin
        | leftOuter | fullOuter =>
          exact hplan.onlySide_relational hleft hprobe (fun i hi => ⟨hi, rfl⟩)
            (relationalRows_of_right_empty (hempty.resolve_left hprobe))
        | rightOuter =>
          exact hplan.onlySide_relational hright hprobe (fun i hi => ⟨rfl, hi⟩)
            (relationalRows_of_left_empty (hempty.resolve_right hprobe))
      · rename_i hbuild
        exfalso
        cases joinType with
        | inner | cross => cases hjoin
        | leftOuter | fullOuter => exact hbuild (hempty.resolve_left hprobe)
        | rightOuter => exact hbuild (hempty.resolve_right hprobe)

theorem Planned.outerJoinOn_empty_iff (hjoin : preserveProbe joinType = true)
    (hempty : lhs.numRows = 0 ∨ rhs.numRows = 0) (device : Device) :
  (∃ out, outerJoinOn device lhs rhs joinType (decide (joinType = .rightOuter)) lefts rights
      schema = .ok out ∧ out.rows.Perm (relationalRows lhs rhs joinType lefts rights)) ↔
    (relationalRows lhs rhs joinType lefts rights = [] → HasEmptyArrays schema)
  := by
  obtain ⟨hnil, hrun⟩ | ⟨hne, out, hrun, hrows⟩ := hplan.outerJoinOn_empty_cases hjoin hempty device
  · rw [hrun, hnil, ← emptyOutput_perm_iff hplan.output]
    exact ⟨fun h _ => h, fun h => h rfl⟩
  · exact iff_of_true ⟨out, hrun, Perm.of_eq hrows⟩ (fun hnil => absurd hnil hne)

end Planned

/-- What the batches of a planned equi-join must be for it to return the relational join under
every behaviour of the device. -/
structure HashJoinExact (streaming : Bool) (lhs rhs : Batch) (joinType : JoinType)
    (lefts rights : List String) (schema : Schema) : Prop where
  -- Dates and timestamps are no output types.
  output : NoTemporal schema
  -- Keys are looked at where both sides have rows: an inner join builds on the smaller side.
  keys : lhs.numRows = 0 ∨ rhs.numRows = 0 ∨
    SameTypes lhs rhs (keyPositions lhs lefts) (keyPositions rhs rights) ∧
      if joinType = .inner then
        if lhs.numRows ≤ rhs.numRows then Reads lhs (keyPositions lhs lefts)
        else Reads rhs (keyPositions rhs rights)
      else Reads lhs (keyPositions lhs lefts) ∧ Reads rhs (keyPositions rhs rights)
  nans : ¬ NanPair (keyPositions lhs lefts) (keyPositions rhs rights) lhs.rows rhs.rows
  empty : relationalRows lhs rhs joinType lefts rights = [] → HasEmptyArrays schema
  device : passesGates lhs rhs (keyPositions lhs lefts) (keyPositions rhs rights) = true →
    if joinType = .inner then
      InnerSafe streaming lhs rhs (decide (lhs.numRows ≤ rhs.numRows))
        (keySides lhs rhs (decide (lhs.numRows ≤ rhs.numRows)) lefts rights).1
        (keySides lhs rhs (decide (lhs.numRows ≤ rhs.numRows)) lefts rights).2
    else lefts.length = 1 →
      ¬ SplitNan (keyPositions lhs lefts) (keyPositions rhs rights) lhs.rows rhs.rows

theorem not_passesGates_of_empty {leftIdx rightIdx : List Nat}
    (h : lhs.numRows = 0 ∨ rhs.numRows = 0) :
  ¬ passesGates lhs rhs leftIdx rightIdx = true
  := by
  intro hgates
  simp only [passesGates, Bool.and_eq_true, decide_eq_true_eq] at hgates
  obtain ⟨⟨⟨⟨-, hl⟩, hr⟩, -⟩, -⟩ := hgates
  unfold gpuJoinMinRows at hl hr
  omega

/-- Where a side has no rows, nothing but the output matters. -/
theorem hashJoinExact_of_empty {streaming : Bool} (htypes : NoTemporal schema)
    (hempty : lhs.numRows = 0 ∨ rhs.numRows = 0) :
  HashJoinExact streaming lhs rhs joinType lefts rights schema ↔
    (relationalRows lhs rhs joinType lefts rights = [] → HasEmptyArrays schema)
  := by
  constructor
  · exact HashJoinExact.empty
  · exact fun h => ⟨htypes, hempty.elim .inl (fun hr => .inr (.inl hr)),
      not_nanPair_of_empty hempty, h, fun hgates => absurd hgates (not_passesGates_of_empty hempty)⟩

theorem Planned.executeInnerJoin_iff (hplan : Planned lhs rhs .inner lefts rights schema)
    (hkeys : splitKeys on = .ok (lefts, rights)) (htypes : NoTemporal schema) (streaming : Bool) :
  (∀ kernels : Kernels, kernels.Contract →
      ∃ out, executeInnerJoin ⟨kernels, streaming⟩ lhs rhs on schema = .ok out ∧
        out.rows.Perm (relationalRows lhs rhs .inner lefts rights)) ↔
    HashJoinExact streaming lhs rhs .inner lefts rights schema
  := by
  simp only [executeInnerJoin, on_isEmpty hkeys hplan.keys, Bool.false_eq_true, if_false, hkeys,
    planSchemaToArrowSchema_eq_ok.mpr htypes, bind, Except.bind]
  by_cases hempty : lhs.numRows = 0 ∨ rhs.numRows = 0
  · have hnil : relationalRows lhs rhs .inner lefts rights = [] := by
      obtain hl | hr := hempty
      · exact relationalRows_of_left_empty hl
      · exact relationalRows_of_right_empty hr
    rw [hashJoinExact_of_empty htypes hempty, hnil, ← emptyOutput_perm_iff hplan.output]
    simp only [if_pos hempty]
    exact ⟨fun h _ => h .refusing refusing_contract, fun h _ _ => h trivial⟩
  · simp only [if_neg hempty]
    rw [hplan.innerJoinOn_iff (splitKeys_length hkeys)]
    have hread : Reads (sides (decide (lhs.numRows ≤ rhs.numRows)) lhs rhs).1
          (keySides lhs rhs (decide (lhs.numRows ≤ rhs.numRows)) lefts rights).1 ↔
        if lhs.numRows ≤ rhs.numRows then Reads lhs (keyPositions lhs lefts)
        else Reads rhs (keyPositions rhs rights) := by
      by_cases hle : lhs.numRows ≤ rhs.numRows
      · rw [if_pos hle, decide_eq_true hle]
        rfl
      · rw [if_neg hle, decide_eq_false hle]
        rfl
    rw [hread]
    rw [not_or] at hempty
    constructor
    · rintro ⟨hkeys, hnan, hnil, hdevice⟩
      exact ⟨htypes, .inr (.inr hkeys), hnan, hnil, hdevice⟩
    · rintro ⟨-, hkeys, hnan, hnil, hdevice⟩
      exact ⟨(hkeys.resolve_left hempty.1).resolve_left hempty.2, hnan, hnil, hdevice⟩

theorem Planned.executeOuterJoin_iff (hplan : Planned lhs rhs joinType lefts rights schema)
    (hkeys : splitKeys on = .ok (lefts, rights)) (htypes : NoTemporal schema)
    (hinner : joinType ≠ .inner) (hcross : joinType ≠ .cross) (streaming : Bool) :
  (∀ kernels : Kernels, kernels.Contract →
      ∃ out, executeOuterJoin ⟨kernels, streaming⟩ lhs rhs joinType on schema = .ok out ∧
        out.rows.Perm (relationalRows lhs rhs joinType lefts rights)) ↔
    HashJoinExact streaming lhs rhs joinType lefts rights schema
  := by
  have hjoin := preserveProbe_of_ne hinner hcross
  simp only [executeOuterJoin, on_isEmpty hkeys hplan.keys, Bool.false_eq_true, if_false, hkeys,
    planSchemaToArrowSchema_eq_ok.mpr htypes, bind, Except.bind]
  by_cases hempty : lhs.numRows = 0 ∨ rhs.numRows = 0
  · rw [hashJoinExact_of_empty htypes hempty]
    simp only [hplan.outerJoinOn_empty_iff hjoin hempty]
    exact ⟨fun h => h .refusing refusing_contract, fun h _ _ => h⟩
  · rw [not_or] at hempty
    rw [hplan.outerJoinOn_iff (splitKeys_length hkeys) hjoin hempty.1 hempty.2]
    constructor
    · rintro ⟨hkeys, hnan, hdevice⟩
      refine ⟨htypes, .inr (.inr ?_), hnan, ?_, ?_⟩
      · rwa [if_neg hinner]
      · exact fun hnil => absurd hnil (relationalRows_ne_nil hjoin hempty.1 hempty.2)
      · rwa [if_neg hinner]
    · rintro ⟨-, hkeys, hnan, -, hdevice⟩
      rw [if_neg hinner] at hkeys hdevice
      exact ⟨(hkeys.resolve_left hempty.1).resolve_left hempty.2, hnan, hdevice⟩

/-- A join into a date or a timestamp does not return. -/
theorem noTemporal_of_executeEquiJoin {device : Device}
    (h : executeEquiJoin device lhs rhs joinType on schema = .ok out) :
  NoTemporal schema
  := by
  rw [← planSchemaToArrowSchema_eq_ok]
  unfold executeEquiJoin at h
  split at h
  · unfold executeInnerJoin at h
    split at h
    · cases h
    · obtain ⟨⟨lefts, rights⟩, -, h⟩ := bind_eq_ok.mp h
      obtain ⟨⟨⟩, hok, -⟩ := bind_eq_ok.mp h
      exact hok
  · unfold executeOuterJoin at h
    split at h
    · cases h
    · obtain ⟨⟨⟩, hok, -⟩ := bind_eq_ok.mp h
      exact hok

end Exact

/-! ### Hash joins against the relational definition -/

/-- A batch of one column `k`. -/
def keyColumn (dtype : DataType) (cells : List Value)
    (typed : ∀ v ∈ cells, v = .null ∨ v.dtype = some dtype) : Batch where
  columns := [("k", .flat ⟨dtype, cells, typed⟩)]
  numRows := cells.length
  lengths := by
    intro c hc
    rw [mem_singleton] at hc
    subst hc
    rfl

/-- The schema of two such batches, side by side. -/
def keyColumns (left right : DataType) : Schema where
  fields := [⟨"k", left, true⟩, ⟨"r.k", right, true⟩]

theorem keyColumn_planned {left right : DataType} {ls rs : List Value}
    (hls : ∀ v ∈ ls, v = .null ∨ v.dtype = some left)
    (hrs : ∀ v ∈ rs, v = .null ∨ v.dtype = some right) (hlen : ls.length < 2 ^ 32)
    (hlen' : rs.length < 2 ^ 32) (joinType : JoinType) :
  Planned (keyColumn left ls hls) (keyColumn right rs hrs) joinType ["k"] ["k"]
    (keyColumns left right)
  := by
  constructor
  · exact cons_ne_nil _ _
  · intro name hname
    rw [mem_singleton] at hname
    subst hname
    rfl
  · intro name hname
    rw [mem_singleton] at hname
    subst hname
    rfl
  · constructor
    · exact cons_ne_nil _ _
    · exact ⟨[⟨"k", left, true⟩], [⟨"r.k", right, true⟩], rfl,
        .cons ⟨rfl, .inl rfl⟩ .nil, .cons ⟨rfl, .inl rfl⟩ .nil⟩
  · exact hlen
  · exact hlen'

theorem keyColumn_gates {dtype : DataType} {ls rs : List Value}
    (hls : ∀ v ∈ ls, v = .null ∨ v.dtype = some dtype)
    (hrs : ∀ v ∈ rs, v = .null ∨ v.dtype = some dtype) (hl : gpuJoinMinRows ≤ ls.length)
    (hr : gpuJoinMinRows ≤ rs.length) (hlnull : ∀ v ∈ ls, v.isNull = false)
    (hrnull : ∀ v ∈ rs, v.isNull = false) :
  passesGates (keyColumn dtype ls hls) (keyColumn dtype rs hrs) [0] [0] = true
  := by
  have hnulls : ∀ {vs : List Value} (hvs : ∀ v ∈ vs, v = .null ∨ v.dtype = some dtype),
      (∀ v ∈ vs, v.isNull = false) → ((keyColumn dtype vs hvs).column 0).hasNulls = false := by
    intro vs hvs hnull
    apply any_eq_false.mpr
    intro v hv
    rw [hnull v hv]
    exact Bool.false_ne_true
  simp only [passesGates, keyColumn, hl, hr, decide_true, all_cons, all_nil, Bool.and_true,
    isEmpty_cons, Bool.not_false, length_cons, Bool.true_and, Bool.and_eq_true,
    Bool.not_eq_true']
  exact ⟨hnulls hls hlnull, hnulls hrs hrnull⟩

/-- The equality of the columns `k` of both sides. -/
def keyEquality : List (Expr Unit × Expr Unit) := [(.column "k", .column "k")]

variable (strings : List String)

theorem typed_strings :
  ∀ v ∈ strings.map utf8, v = .null ∨ v.dtype = some .utf8
  := by
  intro v hv
  obtain ⟨s, -, rfl⟩ := mem_map.mp hv
  exact .inr rfl

/-- A batch of one column of strings. -/
def textBatch : Batch :=
  keyColumn .utf8 (strings.map .utf8) (typed_strings strings)

theorem textBatch_cell {strings : List String} {row : Nat} (h : row < strings.length) :
  ((textBatch strings).column 0).cell row = .utf8 strings[row]
  := by
  change (strings.map utf8).getD row .null = _
  rw [getD_eq_getElem _ _ (by rwa [length_map]), getElem_map]

theorem textBatch_length :
  ((textBatch strings).column 0).length = strings.length
  := length_map _

theorem textBatch_isText :
  IsText ((textBatch strings).column 0)
  := by
  intro row hrow
  rw [textBatch_length] at hrow
  exact ⟨_, textBatch_cell hrow⟩

theorem textBatch_asStrings :
  asStrings ((textBatch strings).column 0) = some (strings.map some)
  := by
  have hd : ((textBatch strings).column 0).dtype = .plain .utf8 := rfl
  rw [asStrings, if_pos hd]
  change some ((strings.map utf8).map stringOf) = _
  rw [map_map]
  rfl

theorem textBatch_planned {ls rs : List String} (hl : ls.length < 2 ^ 32) (hr : rs.length < 2 ^ 32)
    (joinType : JoinType) :
  Planned (textBatch ls) (textBatch rs) joinType ["k"] ["k"] (keyColumns .utf8 .utf8)
  := keyColumn_planned _ _ (by rwa [length_map]) (by rwa [length_map]) joinType

/-- Strings that the dictionary has room for can be numbered. -/
theorem textBatch_interned {ls rs : List String} (hroom : ls.length + rs.length ≤ maxInterned) :
  ∃ interned, internForInner false ((textBatch ls).column 0) ((textBatch rs).column 0) =
    some interned
  := by
  obtain ⟨dict, codes, hb, hlen⟩ := Interning.enterAll_isSome maxInterned [] (ls.map some)
    (by rw [length_map, length_nil]; omega)
  rw [length_map, length_nil] at hlen
  obtain ⟨dict', codes', hp, -⟩ := Interning.enterAll_isSome maxInterned dict (rs.map some)
    (by rw [length_map]; omega)
  refine ⟨(codes.map codeOf, codes'.map codeOf), ?_⟩
  rw [internForInner, if_neg Bool.false_ne_true, internUtf8Columns, textBatch_asStrings,
    textBatch_asStrings]
  simp only [Option.bind_eq_bind, Option.bind_some, internKeys, hb, hp]

theorem textBatch_gates {ls rs : List String} (hl : gpuJoinMinRows ≤ ls.length)
    (hr : gpuJoinMinRows ≤ rs.length) :
  passesGates (textBatch ls) (textBatch rs) [0] [0] = true
  := by
  have hnull : ∀ (strings : List String) (v : Value), v ∈ strings.map utf8 →
      v.isNull = false := by
    intro strings v hv
    obtain ⟨s, -, rfl⟩ := mem_map.mp hv
    rfl
  exact (keyColumn_gates (typed_strings ls) (typed_strings rs) (by rwa [length_map])
    (by rwa [length_map]) (hnull ls) (hnull rs))

/-- Of the strings of the build side, one at most is that of a row of the probe side. -/
theorem sole_of_texts {ls rs : List String}
    (h : ∀ (i j k : Nat) (t : String), ls[i]? = some t → ls[j]? = some t → rs[k]? = some t →
      j = i) :
  SoleBuildRow false ((textBatch ls).column 0) ((textBatch rs).column 0)
  := by
  intro row hrow row' hrow' prow hprow heq hnum
  rw [textBatch_length] at hrow hrow' hprow
  rw [textBatch_cell hrow, textBatch_cell hprow, utf8.injEq] at heq
  rw [sameNumber, if_neg Bool.false_ne_true, decide_eq_true_eq, textBatch_cell hrow',
    textBatch_cell hprow] at hnum
  injection hnum with hnum
  exact h row row' prow rs[prow] (by rw [getElem?_eq_getElem hrow, heq])
    (by rw [getElem?_eq_getElem hrow', hnum]) (getElem?_eq_getElem hprow)

/-- One row `b` and 1023 rows `a`, against rows `b`. -/
theorem oneText_sole :
  SoleBuildRow false ((textBatch ("b" :: replicate 1023 "a")).column 0)
    ((textBatch (replicate 1024 "b")).column 0)
  := by
  apply sole_of_texts
  intro i j k t hi hj hk
  -- Row `0` alone holds the string of the probe side.
  have honly : ∀ r : Nat, ("b" :: replicate 1023 "a")[r]? = some "b" → r = 0 := by
    intro r hcell
    cases r with
    | zero => rfl
    | succ r =>
      rw [getElem?_cons_succ, getElem?_replicate] at hcell
      split at hcell
      · rw [Option.some.injEq] at hcell
        exact absurd hcell (by decide)
      · cases hcell
  have ht : t = "b" := eq_of_mem_replicate (mem_of_getElem? hk)
  subst ht
  rw [honly i hi, honly j hj]

/-- Equal strings are not sole. -/
theorem not_sole_of_replicate {n : Nat} (hn : 2 ≤ n) (s : String) :
  ¬ SoleBuildRow false ((textBatch (replicate n s)).column 0)
    ((textBatch (replicate n s)).column 0)
  := by
  intro hsole
  have hlen : (replicate n s).length = n := length_replicate
  have hcell : ∀ r < n, ((textBatch (replicate n s)).column 0).cell r = .utf8 s := by
    intro r hr
    rw [textBatch_cell (by rwa [hlen]), getElem_replicate]
  have hlt : ∀ r < n, r < ((textBatch (replicate n s)).column 0).length := by
    intro r hr
    rwa [textBatch_length, hlen]
  have h01 := hsole 0 (hlt 0 (by omega)) 1 (hlt 1 (by omega)) 0 (hlt 0 (by omega)) rfl
    (sameNumber_of_eq false ((hcell 1 (by omega)).trans (hcell 0 (by omega)).symm))
  cases h01

/-- Strings are joined exactly where the device finds one build row for each. -/
theorem textBatch_exact {ls rs : List String} (hle : ls.length ≤ rs.length)
    (hsole : SoleBuildRow false ((textBatch ls).column 0) ((textBatch rs).column 0)) :
  HashJoinExact false (textBatch ls) (textBatch rs) .inner ["k"] ["k"] (keyColumns .utf8 .utf8)
  := by
  have hside : decide ((textBatch ls).numRows ≤ (textBatch rs).numRows) = true := by
    apply decide_eq_true
    change (ls.map utf8).length ≤ (rs.map utf8).length
    rwa [length_map, length_map]
  have htext := textBatch_isText
  constructor
  · unfold NoTemporal
    decide
  · refine .inr (.inr ⟨.cons rfl .nil, ?_⟩)
    rw [if_pos rfl, if_pos (of_decide_eq_true hside)]
    apply reads_of_keyTypes
    intro i hi
    obtain rfl : i = 0 := mem_singleton.mp hi
    rfl
  · rintro ⟨l, hl, r, -, k, hk, -, v, hv, hnan⟩
    obtain ⟨s, hs⟩ := rowKey_of_text Nat.zero_lt_one (htext ls) hl
    obtain rfl : k = [.utf8 s] := Option.some.inj (hk.symm.trans hs)
    obtain rfl := mem_singleton.mp hv
    cases hnan
  · intro _
    unfold HasEmptyArrays
    decide
  · intro _
    rw [if_pos rfl, hside]
    constructor
    · exact fun _ => not_splitNan_of_text Nat.zero_lt_one Nat.zero_lt_one (htext ls) (htext rs)
    · rintro b p hb hp - -
      obtain rfl : 0 = b := singleton_inj.mp hb
      obtain rfl : 0 = p := singleton_inj.mp hp
      exact hsole

/-- Columns of one string are not joined exactly: each row may be paired with one alone. -/
theorem textBatch_not_relational {n : Nat} (hmin : gpuJoinMinRows ≤ n)
    (hroom : n + n ≤ maxInterned) (s : String) :
  ¬ ∀ kernels : Kernels, kernels.Contract → ∃ out,
    executeEquiJoin ⟨kernels, false⟩ (textBatch (replicate n s)) (textBatch (replicate n s)) .inner
        keyEquality (keyColumns .utf8 .utf8) = .ok out ∧
      out.rows.Perm (relationalRows (textBatch (replicate n s)) (textBatch (replicate n s)) .inner
        ["k"] ["k"])
  := by
  intro h
  have hlen : (replicate n s).length = n := length_replicate
  have hmax : maxInterned < 2 ^ 32 := by decide
  have hkeys : splitKeys keyEquality = .ok (["k"], ["k"]) := rfl
  have hplan : Planned (textBatch (replicate n s)) (textBatch (replicate n s)) .inner ["k"] ["k"]
      (keyColumns .utf8 .utf8) :=
    textBatch_planned (by rw [hlen]; omega) (by rw [hlen]; omega) .inner
  have hexact := (hplan.executeInnerJoin_iff hkeys (by unfold NoTemporal; decide) false).mp h
  have hsafe := hexact.device (textBatch_gates (by rwa [hlen]) (by rwa [hlen]))
  rw [if_pos rfl, decide_eq_true (le_refl _)] at hsafe
  obtain ⟨interned, hinterned⟩ : ∃ interned, internForInner false
      ((textBatch (replicate n s)).column 0) ((textBatch (replicate n s)).column 0) =
      some interned := textBatch_interned (by rwa [hlen])
  unfold gpuJoinMinRows at hmin
  exact not_sole_of_replicate (by omega) s (hsafe.strings 0 0 rfl rfl rfl
    (Option.isSome_iff_exists.mpr ⟨interned, hinterned⟩))

/-- The NaN of the bits `7FF8000000000000`. -/
def quietNan : Value := .float64 ⟨0x7FF8000000000000⟩

end CratonBolt.Joins
