import CratonBolt.Storage.Conjuncts

/-!
# Where a zone map errs

A row of a chunk may satisfy a predicate that the chunk refutes in three ways only: a NaN passes
`<>` on the host although the bounds do not take it in, an `Int32` and a `Float32` are equal after
rounding although they are not equal, and a `NULL` of a dictionary is not counted.
-/

namespace CratonBolt.Storage

open List
open Value (isNan)

variable {op : PruneOp} {v : Literal} {nanDiffers : Bool}

/-! ### Comparisons -/

theorem compareWith_unordered {op : BinaryOp} (h : Value.compareWith op false false false = true) :
  op = .notEq
  := by
  cases op <;> simp [Value.compareWith] at h ⊢

theorem compareFloat_nan {op : BinaryOp} {a b : Int} (h : Value.compareFloat op true a b = true) :
  op = .notEq
  := by
  apply compareWith_unordered
  simpa [Value.compareFloat] using h

theorem isTrue_bool {b : Bool} :
  Value.isTrue (.bool b) = b
  := by
  cases b <;> rfl

/-- How a float is compared in a plan with a numeric value. -/
theorem compare_of_float {op : BinaryOp} {x v : Value} {fx fv : F64} (hx : float x = some fx)
    (hv : float v = some fv) (hi : int x = none) :
  ∃ other a b, Value.compare op x v = .bool (Value.compareFloat op (isNan x || other) a b)
  := by
  by_cases hcommon : Value.commonType x v = some .float64
  · refine ⟨Value.nan64 fv.bits, Value.floatOrder 64 fx.bits.toNat,
      Value.floatOrder 64 fv.bits.toNat, ?_⟩
    unfold Value.compare
    rw [hcommon]
    simp only [convert_float64 hx, convert_float64 hv, Value.compareSame, nan_float hx,
      Value.ofTruth]
  · -- two 32-bit floats, or one with a 32-bit integer
    cases x <;> cases v <;> simp [float, int] at hx hv hi <;>
      first
      | exact absurd rfl hcommon
      | exact ⟨_, _, _, rfl⟩

variable {x : Value} {t : DataType} {vs : List Value} {col : List Entry} {e : Entry}

/-- Where a value passes, the plan's comparison holds, and no NaN passes `<>` in a kernel. -/
theorem Passes.compare (h : Passes nanDiffers op x v) :
  (Value.compare op.toBinaryOp x v).isTrue = true ∧
    (op = .notEq → isNan x = true → nanDiffers = true)
  := by
  have ht := h.isTrue
  unfold Value.compareOn at ht
  split at ht
  · cases ht
  · next hnot =>
    refine ⟨ht, ?_⟩
    rintro rfl hx
    simpa [PruneOp.toBinaryOp, hx] using hnot

/-- A NaN passes no comparison but `<>`. -/
theorem notEq_of_isNan (hx : isNan x = true) (h : Passes nanDiffers op x v) :
  op = .notEq
  := by
  obtain ⟨hc, -⟩ := id h
  have ht := h.compare.1
  have hop : op.toBinaryOp = .notEq := by
    obtain ⟨m, n, hm, -⟩ | ⟨fx, fv, hfx, hfv, -⟩ | ⟨-, hf, -⟩ := comparableValues_cases hc
    · obtain ⟨k, rfl, -⟩ | ⟨k, rfl, -⟩ := int_isSome_cases hm <;> simp [isNan] at hx
    · have hi : int x = none := by
        cases x <;> simp [isNan, int] at hx ⊢
      obtain ⟨other, a, b, hcmp⟩ := @compare_of_float op.toBinaryOp _ _ _ _ hfx hfv hi
      rw [hcmp, hx, Bool.true_or, isTrue_bool] at ht
      exact compareFloat_nan ht
    · cases x <;> simp [isNan, float] at hx hf
  cases op <;> simp [PruneOp.toBinaryOp] at hop ⊢

/-! ### Values within the bounds -/

/-- A value that stands on the excluded side of a constant does not pass. -/
theorem OneSided.holdsFor (h : OneSided v vs op) (hx : x ∈ vs) :
  ∃ o, compareLiterals x v = some o ∧ Storage.holdsFor op.toBinaryOp o = false
  := by
  have stand : ∀ {orders : List Ordering}, AllStand orders v vs →
      (∀ o ∈ orders, Storage.holdsFor op.toBinaryOp o = false) →
      ∃ o, compareLiterals x v = some o ∧ Storage.holdsFor op.toBinaryOp o = false := by
    intro orders hall ho
    obtain ⟨o, hmem, hxo⟩ := hall x hx
    exact ⟨o, hxo, ho o hmem⟩
  cases op with
  | eq => exact h.elim (fun h => stand h (by decide)) (fun h => stand h (by decide))
  | _ => exact stand h (by decide)

/-- No value that the bounds take in passes a comparison they exclude, rounding apart. -/
theorem not_excluded (hcol : Column t vs) (hx : x ∈ vs) (hp : Passes nanDiffers op x v)
    (hr : roundsTo32 x v = false) :
  ¬Excluded op v vs
  := by
  have hc : ∀ z ∈ vs, comparableValues z v = true := by
    intro z hz
    rw [comparableValues_congr (hcol.dtype_eq hz hx)]
    exact hp.comparable
  rw [Excluded, if_pos hc]
  rintro ⟨-, hside⟩
  obtain ⟨o, hxo, hfalse⟩ := hside.holdsFor hx
  have htrue := hp.compare.1
  rw [compare_of_compareLiterals op.toBinaryOp hp.comparable hr hxo, isTrue_bool, hfalse] at htrue
  cases htrue

/-! ### Rows -/

/-- The cell satisfies a predicate in a way that the statistics of its column do not see. -/
def PrunePredicate.Unseen (nanDiffers : Bool) (e : Entry) : PrunePredicate → Prop
  | compare _ op v =>
    (nanDiffers = true ∧ op = .notEq ∧ isNan e.value = true) ∨ roundsTo32 e.value v = true
  | inList _ vs => ∃ v ∈ vs, roundsTo32 e.value v = true
  | isNull _ => e.value.isNull = true ∧ e.nullBit = false
  | isNotNull _ => False

theorem mem_boundValues (he : e ∈ col)
    (hord : isOrdinary e.value = true) (hne : boundValues col ≠ []) :
  e.value ∈ boundValues col
  := by
  unfold boundValues at hne ⊢
  split at hne
  · next hs =>
    rw [if_pos hs, ordinaryValues, mem_filter]
    exact ⟨mem_map_of_mem he, hord⟩
  · exact absurd rfl hne

theorem Excluded.ne_nil (h : Excluded op v vs) :
  vs ≠ []
  := by
  unfold Excluded at h
  split at h
  · exact h.1
  · obtain ⟨lo, hi, hlo, -, -⟩ := h
    exact ne_nil_of_mem hlo.mem

theorem isNull_of_comparableValues (h : comparableValues x v = true) :
  x.isNull = false
  := by
  cases x <;> first | rfl | simp [comparableValues, Literal.dtype] at h

/-- A comparison that a cell passes and its column refutes. -/
theorem unseen_of_passes (hcol : Column t (boundValues col)) (he : e ∈ col)
    (hp : Passes nanDiffers op e.value v) (hr : AllNull col ∨ Excluded op v (boundValues col)) :
  (nanDiffers = true ∧ op = .notEq ∧ isNan e.value = true) ∨ roundsTo32 e.value v = true
  := by
  have hnull := isNull_of_comparableValues hp.comparable
  obtain hall | hex := hr
  · have hv := e.null_of_nullBit (hall.2 e he)
    rw [hv] at hnull
    cases hnull
  · by_contra hnot
    rw [not_or, Bool.not_eq_true] at hnot
    have hnan : isNan e.value = false := by
      by_contra hnan
      rw [Bool.not_eq_false] at hnan
      have hop := notEq_of_isNan hnan hp
      exact hnot.1 ⟨hp.compare.2 hop hnan, hop, hnan⟩
    have hord : isOrdinary e.value = true := by simp [isOrdinary, hnull, hnan]
    exact not_excluded hcol (mem_boundValues he hord hex.ne_nil) hp hnot.2 hex

/-- A row satisfies a predicate that its chunk refutes only where the statistics do not see it. -/
theorem Chunk.unseen_of_satisfied {chunk : Chunk} {schema : Schema} (h : chunk.Fits schema)
    {row : StoredRow} (hrow : row ∈ chunk.rows) {p : PrunePredicate}
    (hp : p.Satisfied nanDiffers (cellAt p.column row).value) (hr : chunk.Refuted p) :
  p.Unseen nanDiffers (cellAt p.column row)
  := by
  have hmem : cellAt p.column row ∈ chunk.column p.column := mem_map_of_mem hrow
  obtain ⟨f, hf⟩ : ∃ f, schema.fields[p.column]? = some f := by
    have hlt := hr.1
    rw [h.width] at hlt
    exact ⟨_, getElem?_eq_getElem hlt⟩
  have hcol := (h.typed _ f hf).boundValues
  obtain ⟨-, -, hr⟩ := hr
  cases p with
  | isNull c => exact ⟨hp, hr _ hmem⟩
  | isNotNull c =>
    have hv := (cellAt c row).null_of_nullBit (hr _ hmem)
    simp only [PrunePredicate.Satisfied, PrunePredicate.column] at hp
    rw [hv] at hp
    cases hp
  | compare c op v => exact unseen_of_passes hcol hmem hp hr
  | inList c vs =>
    obtain ⟨v, hv, hpass⟩ := hp
    obtain ⟨-, hop, -⟩ | hround := unseen_of_passes hcol hmem hpass (hr v hv)
    · cases hop
    · exact ⟨v, hv, hround⟩

end CratonBolt.Storage
