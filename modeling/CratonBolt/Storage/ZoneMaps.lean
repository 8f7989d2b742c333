import CratonBolt.Storage.LiteralOrder
import CratonBolt.Storage.Scan

/-!
# What a zone map says about its chunk

The accumulator counts the `NULL` bits of a column and finds a least and a greatest of its ordinary
values, unless a cell cannot be read. So a predicate that a zone map refutes is refuted by the data
itself: `Refuted` says so without the statistics.
-/

namespace CratonBolt.Storage

open Value List
open ColumnAccumulator (bound finish new update)

variable {col : List Entry} {vs : List Value} {a b : Value}

/-! ### Bounds -/

/-- A value below all others of a list. -/
structure LeastOf (m : Value) (vs : List Value) : Prop where
  mem : m ∈ vs
  le : ∀ x ∈ vs, compareLiterals m x ≠ some .gt

/-- A value above all others of a list. -/
structure GreatestOf (m : Value) (vs : List Value) : Prop where
  mem : m ∈ vs
  le : ∀ x ∈ vs, compareLiterals x m ≠ some .gt

/-- The values are ordinary and all of one type. -/
def Column (t : DataType) (vs : List Value) : Prop :=
  ∀ v ∈ vs, v.dtype = some t ∧ isOrdinary v = true

section Bounds

variable {t : DataType} {vs : List Value}

section

variable (h : Column t vs)
include h

theorem Column.dtype_eq (ha : a ∈ vs) (hb : b ∈ vs) :
  a.dtype = b.dtype
  := by
  rw [(h a ha).1, (h b hb).1]

theorem Column.not_null {a : Value} (ha : a ∈ vs) :
  a.isNull = false
  := by
  have := (h a ha).2
  simp only [isOrdinary, Bool.and_eq_true, Bool.not_eq_true'] at this
  exact this.1

theorem Column.not_nan {a : Value} (ha : a ∈ vs) :
  isNan a = false
  := by
  have := (h a ha).2
  simp only [isOrdinary, Bool.and_eq_true, Bool.not_eq_true'] at this
  exact this.2

theorem Column.ordered (ha : a ∈ vs) (hb : b ∈ vs) :
  ∃ o, compareLiterals a b = some o
  := by
  apply compareLiterals_isSome _ (h.not_nan ha) (h.not_nan hb)
  apply comparableValues_self (h.dtype_eq ha hb) (h.not_null ha)

theorem Column.not_gt_self {a : Value} (ha : a ∈ vs) :
  compareLiterals a a ≠ some .gt
  := by
  intro hgt
  have hlt := (compareLiterals_gt_iff rfl (h.not_null ha)).mp hgt
  rw [hgt] at hlt
  cases hlt

/-- What is not above a value is below everything that the value is below. -/
theorem Column.trans {a b c : Value} (ha : a ∈ vs) (hb : b ∈ vs) (hc : c ∈ vs)
    (hab : compareLiterals a b ≠ some .gt) (hbc : compareLiterals b c ≠ some .gt) :
  compareLiterals a c ≠ some .gt
  := by
  obtain ⟨o, ho⟩ := h.ordered ha hc
  obtain ⟨o', ho'⟩ := h.ordered hb hc
  have hgrows := grows_compareLiterals (h.dtype_eq ha hb)
    (comparableValues_self (h.dtype_eq ha hc) (h.not_null ha)) hab ho ho'
  intro hgt
  rw [ho, Option.some.injEq] at hgt
  rw [ho', hgrows.gt hgt] at hbc
  exact hbc rfl

end

/-- Of two values, each on one side of its list, the one beside the other is beside all. -/
theorem beside_append {R : Value → Value → Prop} {c : Prop} [Decidable c] {ws : List Value}
    (htrans : ∀ x ∈ vs ++ ws, ∀ y ∈ vs ++ ws, ∀ z ∈ vs ++ ws, R x y → R y z → R x z)
    (ha : a ∈ vs) (hb : b ∈ ws) (hvs : ∀ x ∈ vs, R a x) (hws : ∀ x ∈ ws, R b x)
    (hc : c → R b a) (hn : ¬ c → R a b) :
  (if c then b else a) ∈ vs ++ ws ∧ ∀ x ∈ vs ++ ws, R (if c then b else a) x
  := by
  have ha' := mem_append_left ws ha
  have hb' := mem_append_right vs hb
  split
  · next h =>
    refine ⟨hb', forall_mem_append.mpr ⟨fun x hx => ?_, hws⟩⟩
    exact htrans b hb' a ha' x (mem_append_left ws hx) (hc h) (hvs x hx)
  · next h =>
    refine ⟨ha', forall_mem_append.mpr ⟨hvs, fun x hx => ?_⟩⟩
    exact htrans a ha' b hb' x (mem_append_right vs hx) (hn h) (hws x hx)

/-- A value alone is extremal, and of two extremal values the one that compares as wanted is. -/
structure Extremal (t : DataType) (want : Ordering) (extremal : Value → List Value → Prop) :
    Prop where
  single : ∀ {v}, Column t [v] → extremal v [v]
  append : ∀ {a b vs ws}, Column t (vs ++ ws) → extremal a vs → extremal b ws →
    extremal (if compareLiterals b a = some want then b else a) (vs ++ ws)

theorem extremal_leastOf :
  Extremal t .lt LeastOf
  := by
  constructor
  · intro v h
    exact ⟨mem_singleton_self v,
      forall_mem_singleton.mpr (h.not_gt_self (mem_singleton_self v))⟩
  · intro a b vs ws h ha hb
    have ha' := mem_append_left ws ha.mem
    have hb' := mem_append_right vs hb.mem
    obtain ⟨hmem, hle⟩ := beside_append (R := fun x y => compareLiterals x y ≠ some .gt)
      (c := compareLiterals b a = some .lt) (fun x hx y hy z hz => h.trans hx hy hz) ha.mem hb.mem
      ha.le hb.le (fun hlt => by simp [hlt])
      (fun hlt => by rwa [Ne, compareLiterals_gt_iff (h.dtype_eq ha' hb') (h.not_null ha')])
    exact ⟨hmem, hle⟩

theorem extremal_greatestOf :
  Extremal t .gt GreatestOf
  := by
  constructor
  · intro v h
    exact ⟨mem_singleton_self v,
      forall_mem_singleton.mpr (h.not_gt_self (mem_singleton_self v))⟩
  · intro a b vs ws h ha hb
    have ha' := mem_append_left ws ha.mem
    have hb' := mem_append_right vs hb.mem
    obtain ⟨hmem, hle⟩ := beside_append (R := fun x y => compareLiterals y x ≠ some .gt)
      (c := compareLiterals b a = some .gt) (fun x hx y hy z hz hxy hyz => h.trans hz hy hx hyz hxy)
      ha.mem hb.mem ha.le hb.le
      (fun hgt => by simp [(compareLiterals_gt_iff (h.dtype_eq hb' ha') (h.not_null hb')).mp hgt])
      (fun hgt => hgt)
    exact ⟨hmem, hle⟩

end Bounds

/-- What a bound of a list is: none for the empty list, and an extremal element otherwise. -/
def BoundOf (extremal : Value → List Value → Prop) (bound : Option Literal) (vs : List Value) :
    Prop :=
  match bound with
  | none => vs = []
  | some m => extremal m vs

/-- Taking in values one after the other ends at an extremal one. -/
theorem Extremal.boundOf {t : DataType} {extremal : Value → List Value → Prop} {want : Ordering}
    (he : Extremal t want extremal) (h : Column t vs) :
  BoundOf extremal (vs.foldl (bound want) none) vs
  := by
  induction vs using reverseRecOn with
  | nil => rfl
  | append_singleton vs v ih =>
    have hvs : Column t vs := fun x hx => h x (mem_append_left _ hx)
    have hv : Column t [v] := fun x hx => h x (mem_append_right _ hx)
    rw [foldl_append, foldl_cons, foldl_nil]
    have ih := ih hvs
    unfold BoundOf at ih
    cases hb : vs.foldl (bound want) none with
    | none =>
      rw [hb] at ih
      subst ih
      exact he.single hv
    | some m =>
      rw [hb] at ih
      rw [bound, ← apply_ite]
      exact he.append h ih (he.single hv)

/-- A list of values of one type that is not empty has an extremal element. -/
theorem Extremal.exists {t : DataType} {extremal : Value → List Value → Prop} {want : Ordering}
    (he : Extremal t want extremal) (h : Column t vs) (hne : vs ≠ []) :
  ∃ m, extremal m vs
  := by
  have hb := he.boundOf h
  unfold BoundOf at hb
  split at hb
  · exact absurd hb hne
  · exact ⟨_, hb⟩

/-! ### The accumulator -/

/-- The accumulator can read the cell. -/
def Entry.supported (e : Entry) : Bool := e.nullBit || !e.value.isNull

/-- The values of a column that its bounds take in. -/
def ordinaryValues (col : List Entry) : List Value := (col.map Entry.value).filter isOrdinary

namespace ColumnAccumulator

variable (acc : ColumnAccumulator)

/-- The bounds after some more ordinary values. -/
def takeIn (vs : List Value) : ColumnAccumulator :=
  { acc with min := vs.foldl (bound .lt) acc.min, max := vs.foldl (bound .gt) acc.max }

variable (es : List Entry)

/-- The loop over cells that can all be read takes in the ordinary ones. -/
theorem scan_eq (h : ∀ e ∈ es, e.supported = true) :
  acc.scan es = acc.takeIn (ordinaryValues es)
  := by
  induction es generalizing acc with
  | nil => rfl
  | cons e es ih =>
    have he := h e (by simp)
    have ih := fun acc => ih acc (fun e he => h e (mem_cons_of_mem _ he))
    have hord : ordinaryValues (e :: es) =
        if isOrdinary e.value then e.value :: ordinaryValues es else ordinaryValues es := by
      simp [ordinaryValues, filter_cons]
    unfold scan
    rw [hord, Entry.arrayValue]
    cases hn : e.value.isNull with
    | true =>
      have hbit : e.nullBit = true := by simpa [Entry.supported, hn] using he
      simp [hbit, ih, isOrdinary, hn]
    | false =>
      cases hnan : isNan e.value with
      | true => simp [ih, isOrdinary, hn, hnan]
      | false =>
        simp only [Bool.false_eq_true, if_false, hnan, ih, isOrdinary, hn, Bool.not_false,
          Bool.and_self, if_true]
        rfl

theorem scan_nulls :
  (acc.scan es).nulls = acc.nulls
  := by
  fun_induction scan acc es <;> simp_all

/-- A column that was not readable stays so. -/
theorem scan_unsupported (h : acc.supported = false ∨ ∃ e ∈ es, e.supported = false) :
  (acc.scan es).supported = false
  := by
  induction es generalizing acc with
  | nil => simpa [scan] using h
  | cons e es ih =>
    unfold scan
    rw [Entry.arrayValue]
    cases hn : e.value.isNull with
    | true =>
      cases hbit : e.nullBit with
      | true =>
        simp only [if_true]
        apply ih
        simpa [Entry.supported, hbit] using h
      | false => simp
    | false =>
      have hrest : acc.supported = false ∨ ∃ e ∈ es, e.supported = false := by
        simpa [Entry.supported, hn] using h
      cases hnan : isNan e.value with
      | true =>
        simp only [Bool.false_eq_true, if_false, hnan, if_true]
        apply ih _ hrest
      | false =>
        simp only [Bool.false_eq_true, if_false, hnan]
        apply ih
        exact hrest

variable (cols : List (List Entry))

/-- The accumulator after all batches of a column that can be read. -/
theorem foldl_update_eq (h : ∀ col ∈ cols, ∀ e ∈ col, e.supported = true) :
  cols.foldl update acc =
    { acc.takeIn (ordinaryValues cols.flatten) with
      nulls := acc.nulls + cols.flatten.countP Entry.nullBit }
  := by
  induction cols generalizing acc with
  | nil => rfl
  | cons col cols ih =>
    rw [foldl_cons, ih _ (fun c hc => h c (mem_cons_of_mem _ hc)), update,
      scan_eq _ _ (h col (by simp))]
    simp only [flatten_cons, countP_append, ordinaryValues, map_append,
      filter_append, takeIn, foldl_append, Nat.add_assoc]

theorem foldl_update_nulls :
  (cols.foldl update acc).nulls = acc.nulls + cols.flatten.countP Entry.nullBit
  := by
  induction cols generalizing acc with
  | nil => rfl
  | cons col cols ih =>
    rw [foldl_cons, ih, update, scan_nulls, flatten_cons, countP_append,
      Nat.add_assoc]

theorem foldl_update_unsupported
    (h : acc.supported = false ∨ ∃ col ∈ cols, ∃ e ∈ col, e.supported = false) :
  (cols.foldl update acc).supported = false
  := by
  induction cols generalizing acc with
  | nil => simpa using h
  | cons col cols ih =>
    rw [foldl_cons]
    apply ih
    obtain h | ⟨c, hc, e, he, hs⟩ := h
    · exact .inl (scan_unsupported _ _ (.inl h))
    · obtain rfl | hc := mem_cons.mp hc
      · exact .inl (scan_unsupported _ _ (.inr ⟨e, he, hs⟩))
      · exact .inr ⟨c, hc, e, he, hs⟩

end ColumnAccumulator

/-! ### Statistics of a column -/

/-- The values that the bounds of a column are taken from: none when a cell cannot be read. -/
def boundValues (col : List Entry) : List Value :=
  if col.all Entry.supported then ordinaryValues col else []

/-- What the statistics of a column say about it. -/
structure ZoneOf (s : ColumnStatistics) (col : List Entry) : Prop where
  nullCount : s.nullCount = some (col.countP Entry.nullBit)
  min : BoundOf LeastOf s.min (boundValues col)
  max : BoundOf GreatestOf s.max (boundValues col)

/-- Every cell of a column is `NULL` or of the column's type. -/
def TypedColumn (t : DataType) (col : List Entry) : Prop :=
  ∀ e ∈ col, e.value.isNull = true ∨ e.value.dtype = some t

theorem TypedColumn.ordinaryValues {t : DataType} (h : TypedColumn t col) :
  Column t (ordinaryValues col)
  := by
  intro v hv
  simp only [Storage.ordinaryValues, mem_filter, mem_map] at hv
  obtain ⟨⟨e, he, rfl⟩, hord⟩ := hv
  refine ⟨?_, hord⟩
  obtain hn | ht := h e he
  · simp [isOrdinary, hn] at hord
  · exact ht

theorem TypedColumn.boundValues {t : DataType} (h : TypedColumn t col) :
  Column t (boundValues col)
  := by
  unfold Storage.boundValues
  split
  · exact h.ordinaryValues
  · intro v hv
    cases hv

/-- The accumulator computes the statistics of the concatenation of the batches. -/
theorem zoneOf_finish {t : DataType} {cols : List (List Entry)} (h : TypedColumn t cols.flatten) :
  ZoneOf (cols.foldl update new).finish cols.flatten
  := by
  have hcol := h.boundValues
  by_cases hs : cols.flatten.all Entry.supported = true
  · have hall : ∀ col ∈ cols, ∀ e ∈ col, e.supported = true := by
      intro col hc e he
      apply all_eq_true.mp hs
      exact mem_flatten.mpr ⟨col, hc, he⟩
    rw [boundValues, if_pos hs] at hcol
    rw [ColumnAccumulator.foldl_update_eq _ _ hall]
    constructor
    · simp [finish, ColumnAccumulator.takeIn, new]
    · rw [boundValues, if_pos hs]
      exact extremal_leastOf.boundOf hcol
    · rw [boundValues, if_pos hs]
      exact extremal_greatestOf.boundOf hcol
  · have hsup := ColumnAccumulator.foldl_update_unsupported new cols (by
      simp only [all_eq_true, mem_flatten, not_forall] at hs
      obtain ⟨e, ⟨col, hc, he⟩, hs⟩ := hs
      exact .inr ⟨col, hc, e, he, by simpa using hs⟩)
    have hnulls := ColumnAccumulator.foldl_update_nulls new cols
    rw [finish, hsup, if_neg (by decide), hnulls]
    constructor
    · rw [new, Nat.zero_add]
    · rw [boundValues, if_neg hs]
      rfl
    · rw [boundValues, if_neg hs]
      rfl

/-! ### Refutation by the data -/

/-- Every cell of a column that has cells is `NULL` by its bit. -/
def AllNull (col : List Entry) : Prop := col ≠ [] ∧ ∀ e ∈ col, e.nullBit = true

/-- A least and a greatest value of the column are on the wrong side of the constant. -/
def Beyond (op : PruneOp) (v : Literal) (vs : List Value) : Prop :=
  ∃ lo hi, LeastOf lo vs ∧ GreatestOf hi vs ∧
    boundsExclude op (compareLiterals lo v) (compareLiterals hi v) = true

/-- Every value of the column stands to the constant in one of the given ways. -/
def AllStand (orders : List Ordering) (v : Literal) (vs : List Value) : Prop :=
  ∀ x ∈ vs, ∃ o ∈ orders, compareLiterals x v = some o

/-- No value between two values of the column passes the comparison with the constant. -/
def OneSided (v : Literal) (vs : List Value) : PruneOp → Prop
  | .eq => AllStand [.gt] v vs ∨ AllStand [.lt] v vs
  | .notEq => AllStand [.eq] v vs
  | .lt => AllStand [.gt, .eq] v vs
  | .ltEq => AllStand [.gt] v vs
  | .gt => AllStand [.lt, .eq] v vs
  | .gtEq => AllStand [.lt] v vs

/--
The values of the column exclude the comparison with the constant. Where a plan compares the column
with the constant, all its values stand to it in the same way; a constant of another type, which a
name of the filter can only meet by denoting another column, is compared with the extremal values.
-/
def Excluded (op : PruneOp) (v : Literal) (vs : List Value) : Prop :=
  if ∀ x ∈ vs, comparableValues x v = true then vs ≠ [] ∧ OneSided v vs op else Beyond op v vs

theorem LeastOf.compare_eq {t : DataType} (h : Column t vs) (ha : LeastOf a vs)
    (hb : LeastOf b vs) (v : Literal) :
  compareLiterals a v = compareLiterals b v
  := by
  apply compareLiterals_congr (h.dtype_eq ha.mem hb.mem) (h.not_null ha.mem)
  obtain ⟨o, ho⟩ := h.ordered ha.mem hb.mem
  have hgt := ha.le b hb.mem
  have hlt := hb.le a ha.mem
  rw [Ne, compareLiterals_gt_iff (h.dtype_eq hb.mem ha.mem) (h.not_null hb.mem)] at hlt
  cases o <;> simp_all

theorem GreatestOf.compare_eq {t : DataType} (h : Column t vs) (ha : GreatestOf a vs)
    (hb : GreatestOf b vs) (v : Literal) :
  compareLiterals a v = compareLiterals b v
  := by
  apply compareLiterals_congr (h.dtype_eq ha.mem hb.mem) (h.not_null ha.mem)
  obtain ⟨o, ho⟩ := h.ordered ha.mem hb.mem
  have hgt := hb.le a ha.mem
  have hlt := ha.le b hb.mem
  rw [Ne, compareLiterals_gt_iff (h.dtype_eq hb.mem ha.mem) (h.not_null hb.mem)] at hlt
  cases o <;> simp_all

theorem boundsExclude_none (op : PruneOp) :
  boundsExclude op none none = false
  := by
  cases op <;> rfl

variable {s : ColumnStatistics} {schema : Schema}

theorem boundsExclude_iff {t : DataType} (hz : ZoneOf s col)
    (ht : Column t (boundValues col)) (op : PruneOp) (v : Literal) :
  boundsExclude op (s.min.bind (compareLiterals · v)) (s.max.bind (compareLiterals · v)) = true ↔
    Beyond op v (boundValues col)
  := by
  have hmin := hz.min
  have hmax := hz.max
  unfold BoundOf at hmin hmax
  cases hlo : s.min with
  | none =>
    rw [hlo] at hmin
    have hhi : s.max = none := by
      cases hhi : s.max with
      | none => rfl
      | some m =>
        rw [hhi] at hmax
        have := hmax.mem
        rw [hmin] at this
        cases this
    rw [hhi, Option.bind_none, boundsExclude_none]
    refine ⟨by simp, ?_⟩
    rintro ⟨lo, hi, hl, -, -⟩
    have := hl.mem
    rw [hmin] at this
    cases this
  | some lo =>
    rw [hlo] at hmin
    cases hhi : s.max with
    | none =>
      rw [hhi] at hmax
      have := hmin.mem
      rw [hmax] at this
      cases this
    | some hi =>
      rw [hhi] at hmax
      rw [Option.bind_some, Option.bind_some]
      constructor
      · intro h
        exact ⟨lo, hi, hmin, hmax, h⟩
      · rintro ⟨lo', hi', hl, hh, h⟩
        rwa [LeastOf.compare_eq ht hmin hl, GreatestOf.compare_eq ht hmax hh]

/-- A constant beyond the bounds is ordered with them. -/
theorem exists_of_boundsExclude {op : PruneOp} {lo hi : Option Ordering}
    (h : boundsExclude op lo hi = true) :
  (∃ o, lo = some o) ∨ ∃ o, hi = some o
  := by
  cases op <;> simp [boundsExclude] at h
  case eq => exact h.imp (fun h => ⟨_, h⟩) (fun h => ⟨_, h⟩)
  case notEq => exact .inl ⟨_, h.1⟩
  case lt => exact .inl (h.elim (fun h => ⟨_, h⟩) (fun h => ⟨_, h⟩))
  case ltEq => exact .inl ⟨_, h⟩
  case gt => exact .inr (h.elim (fun h => ⟨_, h⟩) (fun h => ⟨_, h⟩))
  case gtEq => exact .inr ⟨_, h⟩

/-- Between bounds that exclude a comparison, every value stands on one side of the constant. -/
theorem oneSided_of_boundsExclude {op : PruneOp} {v : Literal} {lo hi : Ordering}
    (h : boundsExclude op (some lo) (some hi) = true)
    (hx : ∀ x ∈ vs, ∃ o, compareLiterals x v = some o ∧ Grows lo o ∧ Grows o hi) :
  OneSided v vs op
  := by
  have stand : ∀ {orders : List Ordering}, (∀ o, Grows lo o → Grows o hi → o ∈ orders) →
      AllStand orders v vs := by
    intro orders ho x hmem
    obtain ⟨o, hxo, hlo, hhi⟩ := hx x hmem
    exact ⟨o, ho o hlo hhi, hxo⟩
  cases op with
  | eq =>
    simp only [boundsExclude, beq_iff_eq, Bool.or_eq_true, Option.some.injEq] at h
    obtain rfl | rfl := h
    · exact .inl (stand fun o hlo _ => mem_singleton.mpr (hlo.gt rfl))
    · exact .inr (stand fun o _ hhi => mem_singleton.mpr (hhi.lt rfl))
  | _ =>
    apply stand
    rintro o ⟨hlg, hll⟩ ⟨hhg, hhl⟩
    cases lo <;> cases o <;> cases hi <;>
      first
      | decide
      | exact absurd h (by decide)
      | exact absurd (hlg rfl) (by decide)
      | exact absurd (hll rfl) (by decide)
      | exact absurd (hhg rfl) (by decide)
      | exact absurd (hhl rfl) (by decide)

/-- Bounds that exclude a comparison are those of a column on one side of the constant. -/
theorem boundsExclude_of_oneSided {op : PruneOp} {v : Literal} {lo hi : Value} (hlo : lo ∈ vs)
    (hhi : hi ∈ vs) (h : OneSided v vs op) :
  boundsExclude op (compareLiterals lo v) (compareLiterals hi v) = true
  := by
  have stand : ∀ {orders : List Ordering}, AllStand orders v vs →
      (∃ o ∈ orders, compareLiterals lo v = some o) ∧ ∃ o ∈ orders, compareLiterals hi v = some o :=
    fun h => ⟨h lo hlo, h hi hhi⟩
  cases op with
  | eq =>
    obtain h | h := h
    · obtain ⟨⟨o, ho, hlo⟩, -⟩ := stand h
      simp [boundsExclude, hlo, mem_singleton.mp ho]
    · obtain ⟨-, o, ho, hhi⟩ := stand h
      simp [boundsExclude, hhi, mem_singleton.mp ho]
  | _ =>
    obtain ⟨⟨o, ho, hlo⟩, o', ho', hhi⟩ := stand h
    rw [hlo, hhi]
    cases o <;> cases o' <;> simp_all [boundsExclude]

/-- The bounds of a column exclude a comparison exactly when its values do. -/
theorem beyond_iff_excluded {t : DataType} (hcol : Column t vs) (op : PruneOp) (v : Literal) :
  Beyond op v vs ↔ Excluded op v vs
  := by
  unfold Excluded
  split
  · next hc =>
    constructor
    · rintro ⟨lo, hi, hlo, hhi, hex⟩
      refine ⟨ne_nil_of_mem hlo.mem, ?_⟩
      have hv : isNan v = false := by
        obtain ⟨o, ho⟩ | ⟨o, ho⟩ := exists_of_boundsExclude hex
        · exact (not_isNan_of_compareLiterals (hc lo hlo.mem) ho).2
        · exact (not_isNan_of_compareLiterals (hc hi hhi.mem) ho).2
      have ordered : ∀ {z : Value}, z ∈ vs → ∃ o, compareLiterals z v = some o :=
        fun hz => compareLiterals_isSome (hc _ hz) (hcol.not_nan hz) hv
      obtain ⟨ol, hol⟩ := ordered hlo.mem
      obtain ⟨oh, hoh⟩ := ordered hhi.mem
      rw [hol, hoh] at hex
      apply oneSided_of_boundsExclude hex
      intro x hx
      obtain ⟨ox, hox⟩ := ordered hx
      exact ⟨ox, hox,
        grows_compareLiterals (hcol.dtype_eq hlo.mem hx) (hc lo hlo.mem) (hlo.le x hx) hol hox,
        grows_compareLiterals (hcol.dtype_eq hx hhi.mem) (hc x hx) (hhi.le x hx) hox hoh⟩
    · rintro ⟨hne, hside⟩
      obtain ⟨lo, hlo⟩ := extremal_leastOf.exists hcol hne
      obtain ⟨hi, hhi⟩ := extremal_greatestOf.exists hcol hne
      exact ⟨lo, hi, hlo, hhi, boundsExclude_of_oneSided hlo.mem hhi.mem hside⟩
  · rfl

theorem rangeMayMatch_eq_false {t : DataType} (hz : ZoneOf s col)
    (ht : Column t (boundValues col)) (op : PruneOp) (v : Literal) :
  rangeMayMatch s op v col.length = false ↔ AllNull col ∨ Excluded op v (boundValues col)
  := by
  have hnull : (s.nullCount = some col.length ∧ 0 < col.length) ↔ AllNull col := by
    rw [hz.nullCount, Option.some.injEq, countP_eq_length, length_pos_iff, and_comm]
    rfl
  rw [rangeMayMatch, ← beyond_iff_excluded ht, ← boundsExclude_iff hz ht]
  by_cases h : AllNull col
  · rw [if_pos (hnull.mpr h)]
    simp [h]
  · rw [if_neg (fun h' => h (hnull.mp h'))]
    simp [h]

namespace Chunk

variable (chunk : Chunk)

/-- A column of the chunk. -/
def column (i : Nat) : List Entry := columnOf chunk.rows i

/-- The cells of the chunk have the types of a schema. -/
structure Fits (chunk : Chunk) (schema : Schema) : Prop where
  width : chunk.width = schema.fields.length
  typed : ∀ i f, schema.fields[i]? = some f → TypedColumn f.dtype (chunk.column i)

theorem column_eq_flatten (i : Nat) :
  chunk.column i = (chunk.batches.map (fun batch => columnOf batch i)).flatten
  := by
  simp [column, columnOf, rows, map_flatten]

@[simp]
theorem column_length (i : Nat) :
  (chunk.column i).length = chunk.rows.length
  := by
  simp [column, columnOf]

theorem zoneOf {chunk : Chunk} {i : Nat} {f : Field} (h : chunk.Fits schema)
    (hf : schema.fields[i]? = some f) :
  ZoneOf (chunk.columnStatistics i) (chunk.column i)
  := by
  have ht := h.typed i f hf
  rw [column_eq_flatten] at ht ⊢
  have hfold : chunk.columnStatistics i = ((chunk.batches.map (fun batch => columnOf batch i)).foldl
      update new).finish := by
    rw [columnStatistics, foldl_map]
  rw [hfold]
  apply zoneOf_finish ht

/--
The cells of the chunk refute a predicate: in the column it is about there is no `NULL`, nothing
but `NULL`s, or no value that passes.
-/
def Refuted (p : PrunePredicate) : Prop :=
  p.column < chunk.width ∧ chunk.batches ≠ [] ∧
    match p with
    | .isNull c => ∀ e ∈ chunk.column c, e.nullBit = false
    | .isNotNull c => ∀ e ∈ chunk.column c, e.nullBit = true
    | .compare c op v => AllNull (chunk.column c) ∨ Excluded op v (boundValues (chunk.column c))
    | .inList c vs =>
      ∀ v ∈ vs, AllNull (chunk.column c) ∨ Excluded .eq v (boundValues (chunk.column c))

theorem statistics_getElem? (i : Nat) :
  chunk.statistics[i]? =
    if i < chunk.width ∧ chunk.batches ≠ [] then some (chunk.columnStatistics i) else none
  := by
  unfold statistics
  cases hb : chunk.batches with
  | nil => simp
  | cons batch batches =>
    by_cases hi : i < chunk.width
    · simp [hi]
    · simp [hi]

/-- A predicate is refuted by the zone map of a chunk exactly when its cells refute it. -/
theorem mayMatch_eq_false_iff {chunk : Chunk} (h : chunk.Fits schema) (p : PrunePredicate) :
  p.mayMatch chunk.statistics chunk.rows.length = false ↔ chunk.Refuted p
  := by
  by_cases hp : p.column < chunk.width ∧ chunk.batches ≠ []
  · obtain ⟨f, hf⟩ : ∃ f, schema.fields[p.column]? = some f := by
      rw [h.width] at hp
      exact ⟨_, getElem?_eq_getElem hp.1⟩
    have hz := zoneOf h hf
    have ht := (h.typed _ f hf).boundValues
    have hstat : chunk.statistics[p.column]? = some (chunk.columnStatistics p.column) := by
      rw [statistics_getElem?, if_pos hp]
    have hrefuted : ∀ {P : Prop}, (p.column < chunk.width ∧ chunk.batches ≠ [] ∧ P) ↔ P := by
      intro P
      tauto
    unfold Refuted
    rw [hrefuted]
    cases p with
    | isNull c =>
      rw [PrunePredicate.column] at hstat hz
      simp only [PrunePredicate.mayMatch, hstat, Option.bind_some, hz.nullCount, unknownOr,
        decide_eq_false_iff_not, Nat.pos_iff_ne_zero, not_not, countP_eq_zero,
        Bool.not_eq_true]
    | isNotNull c =>
      rw [PrunePredicate.column] at hstat hz
      simp only [PrunePredicate.mayMatch, hstat, Option.bind_some, hz.nullCount, unknownOr,
        decide_eq_false_iff_not]
      rw [← countP_eq_length, column_length]
      have := countP_le_length (p := Entry.nullBit) (l := chunk.column c)
      rw [column_length] at this
      omega
    | compare c op v =>
      rw [PrunePredicate.column] at hstat hz ht
      simp only [PrunePredicate.mayMatch, hstat]
      rw [← column_length chunk c, rangeMayMatch_eq_false hz ht]
    | inList c vs =>
      rw [PrunePredicate.column] at hstat hz ht
      simp only [PrunePredicate.mayMatch, hstat, any_eq_false, Bool.not_eq_true]
      rw [← column_length chunk c]
      simp only [rangeMayMatch_eq_false hz ht]
  · have hstat : chunk.statistics[p.column]? = none := by
      rw [statistics_getElem?, if_neg hp]
    have hnot : ¬chunk.Refuted p := fun hr => hp ⟨hr.1, hr.2.1⟩
    simp only [hnot, iff_false, Bool.not_eq_false]
    cases p <;> simp_all [PrunePredicate.mayMatch, PrunePredicate.column, unknownOr]

end Chunk

end CratonBolt.Storage
