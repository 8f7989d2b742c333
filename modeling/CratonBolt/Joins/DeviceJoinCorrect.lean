import CratonBolt.Joins.HashJoinCorrect

/-!
# Device joins against host joins

What the device answers, where it does not decline, against the host hash join on the same
batches. The rows are the same up to three defects: the device takes NaNs of different bits for one
key, an inner join by strings keeps one build row for each probe row, and the host fails where an
inner join has no rows and an output type has no empty array.
-/

namespace CratonBolt.Joins

open List
open Literal (float64)

/--
Where the device does not decline a join, its rows are those of the host join under every
behaviour the contracts of the kernels allow exactly when no two rows have keys that differ in the
bits of their NaNs alone and, for an inner join, by strings no build row but the partner of a probe
row has its number, and some rows have the same key or every output type has an empty array. An
outer join has no such further conditions.
-/
theorem deviceJoin_host_iff {lhs rhs : Batch} {buildIsLeft : Bool} {buildIdx probeIdx : List Nat}
    (schema : Schema)
    (hbuild : ∀ i ∈ buildIdx, i < (sides buildIsLeft lhs rhs).1.columns.length)
    (hprobe : ∀ i ∈ probeIdx, i < (sides buildIsLeft lhs rhs).2.columns.length) :
  (∀ streaming, OutputFits lhs rhs .inner schema →
    (∃ kernels : Kernels, kernels.Contract ∧
      tryGpuInnerJoin kernels streaming lhs rhs buildIsLeft buildIdx probeIdx schema ≠ none) →
    (InnerAgrees streaming lhs rhs buildIsLeft buildIdx probeIdx schema ↔
      ¬ SplitNan (sides buildIsLeft buildIdx probeIdx).1 (sides buildIsLeft buildIdx probeIdx).2
          lhs.rows rhs.rows ∧
        SoleBuildRows streaming (sides buildIsLeft lhs rhs).1 (sides buildIsLeft lhs rhs).2
          buildIdx probeIdx ∧
        ((∀ l ∈ lhs.rows, ∀ r ∈ rhs.rows, keyMatch buildIsLeft buildIdx probeIdx l r = false) →
          HasEmptyArrays schema))) ∧
  (∀ joinType, preserveProbe joinType = true → buildIsLeft = decide (joinType = .rightOuter) →
    OutputFits lhs rhs joinType schema →
    (∃ kernels : Kernels, kernels.Contract ∧
      tryGpuOuterJoin kernels lhs rhs joinType buildIsLeft buildIdx probeIdx schema ≠ none) →
    (OuterAgrees lhs rhs joinType buildIsLeft buildIdx probeIdx schema ↔
      ¬ SplitNan (sides buildIsLeft buildIdx probeIdx).1 (sides buildIsLeft buildIdx probeIdx).2
          lhs.rows rhs.rows))
  := by
  constructor
  · rintro streaming hfits ⟨kernels, hk, hanswer⟩
    have hidx := hfits.keysIn hbuild hprobe
    obtain ⟨out, hout⟩ := Option.ne_none_iff_exists'.mp hanswer
    constructor
    · intro hagrees
      obtain ⟨hnan, hsole⟩ := of_innerAgrees hfits hidx hk hout hagrees
      obtain ⟨host, hhost, -⟩ := hagrees kernels hk out hout
      exact ⟨hnan, hsole, fun hno => hfits.hasEmptyArrays_of_hostInnerJoin hidx hhost
        (joinRows_inner_eq_nil_iff.mpr hno)⟩
    · rintro ⟨hnan, hsole, hempty⟩ kernels' hk' out' hout'
      exact innerAnswer_perm hk' hfits hidx hout' hnan hsole
        (fun hnil => hempty (joinRows_inner_eq_nil_iff.mp hnil))
  · rintro joinType hjoin hside hfits ⟨kernels, hk, hanswer⟩
    have hidx := hfits.keysIn hbuild hprobe
    obtain ⟨out, hout⟩ := Option.ne_none_iff_exists'.mp hanswer
    constructor
    · intro hagrees
      exact (outerAnswer_iff hk hfits hjoin hside hidx hout).mp (hagrees kernels hk out hout)
    · intro hnan kernels' hk' out' hout'
      exact (outerAnswer_iff hk' hfits hjoin hside hidx hout').mpr hnan

/-! ### Joins the device does not decline -/

theorem keyColumn_lt {dtype : DataType} {vs : List Value}
    (hvs : ∀ v ∈ vs, v = .null ∨ v.dtype = some dtype) :
  ∀ i ∈ [0], i < (keyColumn dtype vs hvs).columns.length
  := by
  intro i hi
  rw [mem_singleton] at hi
  subst hi
  exact Nat.zero_lt_one

/-- Columns of strings that can be numbered are joined on the device. -/
theorem textBatch_answers {ls rs : List String} (hl : gpuJoinMinRows ≤ ls.length)
    (hr : gpuJoinMinRows ≤ rs.length) (hroom : ls.length + rs.length ≤ maxInterned) :
  OutputFits (textBatch ls) (textBatch rs) .inner (keyColumns .utf8 .utf8) ∧
    KeysIn (sides true (textBatch ls) (textBatch rs)) [0] [0] ∧
    ∃ out, tryGpuInnerJoin (preferring (0, 0)) false (textBatch ls) (textBatch rs) true [0] [0]
      (keyColumns .utf8 .utf8) = some out
  := by
  have hmax : maxInterned < 2 ^ 32 := by decide
  have hplan : Planned (textBatch ls) (textBatch rs) .inner ["k"] ["k"] (keyColumns .utf8 .utf8) :=
    textBatch_planned (by omega) (by omega) .inner
  obtain ⟨interned, hinterned⟩ := textBatch_interned hroom
  exact ⟨hplan.output, hplan.keysIn true, text_answers hplan.output (hplan.keysIn true)
    (textBatch_gates hl hr) (.cons rfl .nil) hplan.leftRows hplan.rightRows rfl hinterned⟩

variable (floats : List F64)

theorem typed_floats :
  ∀ v ∈ floats.map float64, v = .null ∨ v.dtype = some .float64
  := by
  intro v hv
  obtain ⟨x, -, rfl⟩ := mem_map.mp hv
  exact .inr rfl

/-- A batch of one column of floats. -/
def floatBatch : Batch :=
  keyColumn .float64 (floats.map .float64) (typed_floats floats)

/-- Columns of floats are joined on the device. -/
theorem floatBatch_answers {ls rs : List F64} (hl : gpuJoinMinRows ≤ ls.length)
    (hr : gpuJoinMinRows ≤ rs.length) (hl' : ls.length < 2 ^ 32) (hr' : rs.length < 2 ^ 32) :
  OutputFits (floatBatch ls) (floatBatch rs) .inner (keyColumns .float64 .float64) ∧
    KeysIn (sides true (floatBatch ls) (floatBatch rs)) [0] [0] ∧
    ∃ out, tryGpuInnerJoin (preferring (0, 0)) false (floatBatch ls) (floatBatch rs) true [0] [0]
      (keyColumns .float64 .float64) = some out
  := by
  have hnull : ∀ (floats : List F64) (v : Value), v ∈ floats.map float64 →
      v.isNull = false := by
    intro floats v hv
    obtain ⟨x, -, rfl⟩ := mem_map.mp hv
    rfl
  have hplan : Planned (floatBatch ls) (floatBatch rs) .inner ["k"] ["k"]
      (keyColumns .float64 .float64) :=
    keyColumn_planned _ _ (by rwa [length_map]) (by rwa [length_map]) .inner
  have hgates : passesGates (floatBatch ls) (floatBatch rs) [0] [0] = true :=
    keyColumn_gates (typed_floats ls) (typed_floats rs) (by rwa [length_map])
      (by rwa [length_map]) (hnull ls) (hnull rs)
  exact ⟨hplan.output, hplan.keysIn true, floatJoin_inner_answers (hplan.keysIn true) hgates
    (.cons rfl .nil) hplan.leftRows hplan.rightRows rfl rfl hplan.output⟩

/-- An answered join of strings does not agree with the host unless its build rows are sole. -/
theorem textBatch_sole {ls rs : List String} (hl : gpuJoinMinRows ≤ ls.length)
    (hr : gpuJoinMinRows ≤ rs.length) (hroom : ls.length + rs.length ≤ maxInterned)
    (hagrees : InnerAgrees false (textBatch ls) (textBatch rs) true [0] [0]
      (keyColumns .utf8 .utf8)) :
  SoleBuildRow false ((textBatch ls).column 0) ((textBatch rs).column 0)
  := by
  obtain ⟨hfits, hidx, out, hout⟩ := textBatch_answers hl hr hroom
  exact (of_innerAgrees hfits hidx (preferring_contract (0, 0)) hout hagrees).2 0 0 rfl rfl rfl

/-- One row `b` and 1023 rows `a`, joined with 1024 rows `b`: each row has one partner. -/
theorem deviceJoin_host_sole :
  InnerAgrees false (textBatch ("b" :: replicate 1023 "a"))
    (textBatch (replicate 1024 "b")) true [0] [0] (keyColumns .utf8 .utf8)
  := by
  have hmin : gpuJoinMinRows = 1024 := rfl
  have hmax : maxInterned = 2147483647 := rfl
  have hlen : ("b" :: replicate 1023 "a").length = 1024 := by
    rw [length_cons, length_replicate]
  have hlen' : (replicate 1024 "b").length = 1024 := length_replicate
  obtain ⟨hfits, -, out, hout⟩ := textBatch_answers (le_of_eq (hmin.trans hlen.symm))
    (le_of_eq (hmin.trans hlen'.symm)) (by omega)
  have hoffer : ∃ kernels : Kernels, kernels.Contract ∧
      tryGpuInnerJoin kernels false (textBatch ("b" :: replicate 1023 "a"))
        (textBatch (replicate 1024 "b")) true [0] [0] (keyColumns .utf8 .utf8) ≠ none :=
    ⟨preferring (0, 0), preferring_contract (0, 0), by rw [hout]; exact Option.some_ne_none out⟩
  apply ((deviceJoin_host_iff (keyColumns .utf8 .utf8) (keyColumn_lt (typed_strings _))
    (keyColumn_lt (typed_strings _))).1 false hfits hoffer).mpr
  refine ⟨?_, ?_, fun _ => by unfold HasEmptyArrays; decide⟩
  · exact not_splitNan_of_text Nat.zero_lt_one Nat.zero_lt_one (textBatch_isText _)
      (textBatch_isText _)
  · rintro b p hb hp -
    obtain rfl : 0 = b := singleton_inj.mp hb
    obtain rfl : 0 = p := singleton_inj.mp hp
    exact oneText_sole

/-- Two NaNs of different bits. -/
def nanPair : F64 × F64 := (⟨0x7FF8000000000000⟩, ⟨0x7FF8000000000001⟩)

/--
Two columns of 1024 rows `a` are not joined as on the host: a row is paired with one row of 1024.
Nor are a NaN and 1023 rows `0.0` with another NaN and 1023 rows of another number: the NaNs are
paired.
-/
theorem deviceJoin_not_host :
  ¬ InnerAgrees false (textBatch (replicate 1024 "a")) (textBatch (replicate 1024 "a"))
      true [0] [0] (keyColumns .utf8 .utf8) ∧
  ¬ InnerAgrees false (floatBatch (nanPair.1 :: replicate 1023 ⟨0⟩))
      (floatBatch (nanPair.2 :: replicate 1023 ⟨1⟩)) true [0] [0]
      (keyColumns .float64 .float64)
  := by
  have hmin : gpuJoinMinRows = 1024 := rfl
  have hmax : maxInterned = 2147483647 := rfl
  constructor
  · intro hagrees
    have hlen : (replicate 1024 "a").length = 1024 := length_replicate
    exact not_sole_of_replicate (by omega) "a" (textBatch_sole (le_of_eq (hmin.trans hlen.symm))
      (le_of_eq (hmin.trans hlen.symm)) (by omega) hagrees)
  · intro hagrees
    have hlen : ∀ x y : F64, (x :: replicate 1023 y).length = 1024 := by
      intro x y
      rw [length_cons, length_replicate]
    obtain ⟨hfits, hidx, out, hout⟩ := floatBatch_answers
      (le_of_eq (hmin.trans (hlen nanPair.1 ⟨0⟩).symm))
      (le_of_eq (hmin.trans (hlen nanPair.2 ⟨1⟩).symm)) (by rw [hlen]; omega) (by rw [hlen]; omega)
    apply (of_innerAgrees hfits hidx (preferring_contract (0, 0)) hout hagrees).1
    have hmem : ∀ x y : F64, (floatBatch (x :: replicate 1023 y)).row 0 ∈
        (floatBatch (x :: replicate 1023 y)).rows := by
      intro x y
      apply mem_map_of_mem
      rw [mem_range]
      exact Nat.zero_lt_succ _
    exact ⟨_, hmem _ _, _, hmem _ _, [.f64 nanPair.1.bits], [.f64 nanPair.2.bits], rfl, rfl,
      by decide, by decide⟩

end CratonBolt.Joins
