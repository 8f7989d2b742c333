import CratonBolt.Storage.ZoneMaps

/-!
# Statistics of a table and of its parts

`from_batches` computes the statistics of a whole table and `merge` folds the statistics of its
parts together. Merging keeps the bound that wins, and a bound that one side does not know is
unknown afterwards. What is counted are `NULL` bits, so the counts are those of the values that
read as `NULL` exactly where every such value has its bit.
-/

namespace CratonBolt.Storage

open Value List
open Entry (nullBit plain supported)

variable {col : List Entry} {s : ColumnStatistics}
variable {extremal : Value → List Value → Prop} {bound : Option Literal} {a b : Option Literal}

/-! ### The statistics of a table -/

/-- Statistics of a table or of a part of it. The sizes play no part in pruning. -/
structure TableStatistics where
  rowCount : Nat
  columns : List ColumnStatistics
deriving DecidableEq, Repr

/-- The bound that is `want` of the other; unknown if one is, or if they do not compare. -/
def mergeBound (want : Ordering) : Option Literal → Option Literal → Option Literal
  | some a, some b =>
    match compareLiterals b a with
    | some o => if o = want then some b else some a
    | none => none
  | _, _ => none

def ColumnStatistics.merge (a b : ColumnStatistics) : ColumnStatistics where
  nullCount := a.nullCount.bind (fun x => b.nullCount.map (fun y => x + y))
  min := mergeBound .lt a.min b.min
  max := mergeBound .gt a.max b.max

namespace TableStatistics

/-- `from_batches` -/
def fromBatches (chunk : Chunk) : TableStatistics := ⟨chunk.rows.length, chunk.statistics⟩

/-- No rows and no columns. -/
def default : TableStatistics := ⟨0, []⟩

/-- The columns are merged pairwise; those that the other side lacks are kept. -/
def mergeColumns : List ColumnStatistics → List ColumnStatistics → List ColumnStatistics
  | a :: as, b :: bs => a.merge b :: mergeColumns as bs
  | as, _ => as

def merge (self other : TableStatistics) : TableStatistics :=
  if self.columns.isEmpty && self.rowCount == 0 then other
  else ⟨self.rowCount + other.rowCount, mergeColumns self.columns other.columns⟩

/-- The statistics of some parts, merged one after the other. -/
def mergeAll (parts : List Chunk) : TableStatistics :=
  (parts.map fromBatches).foldl merge default

end TableStatistics

/-! ### What statistics are to say -/

/-- One value is below or equal to the other, as a query compares them. -/
def AtMost (a b : Value) : Prop := compare .ltEq a b = .bool true

/-- The number of rows that read as `NULL`. -/
def nullsOf (col : List Entry) : Nat := col.countP (fun e => e.value.isNull)

/-- The bounds enclose the column as far as they are known, and the count is that of its `NULL`s. -/
structure SoundFor (s : ColumnStatistics) (col : List Entry) : Prop where
  nullCount : s.nullCount = some (nullsOf col)
  min_le : ∀ m, s.min = some m → ∀ v ∈ ordinaryValues col, AtMost m v
  le_max : ∀ m, s.max = some m → ∀ v ∈ ordinaryValues col, AtMost v m

/-- The bounds are moreover known and are values of the column, if it has an ordinary one. -/
structure ExactFor (s : ColumnStatistics) (col : List Entry) : Prop extends SoundFor s col where
  min_attained : ordinaryValues col ≠ [] → ∃ m ∈ ordinaryValues col, s.min = some m
  max_attained : ordinaryValues col ≠ [] → ∃ m ∈ ordinaryValues col, s.max = some m

/-- Non-empty chunks that hold the rows of a table. -/
structure PartitionOf (table : Chunk) (parts : List Chunk) : Prop where
  rows : (parts.flatMap Chunk.rows).Perm table.rows
  width : ∀ part ∈ parts, part.width = table.width
  nonempty : ∀ part ∈ parts, part.rows ≠ []

/--
The statistics of a table are exact, and those merged from the parts of any partition are sound
for the whole table.
-/
structure StatisticsSound (table : Chunk) : Prop where
  exact : table.batches ≠ [] → ∀ i < table.width, ∃ s,
    (TableStatistics.fromBatches table).columns[i]? = some s ∧ ExactFor s (table.column i)
  mergedCount : ∀ parts, PartitionOf table parts →
    (TableStatistics.mergeAll parts).rowCount = table.rows.length
  merged : ∀ parts, PartitionOf table parts → parts ≠ [] → ∀ i < table.width, ∃ s,
    (TableStatistics.mergeAll parts).columns[i]? = some s ∧ SoundFor s (table.column i)

/-! ### Merging bounds -/

variable {want : Ordering} {chunk table : Chunk} {rows rows' : List StoredRow} {parts : List Chunk}

section Bounds

variable {t : DataType} {vs ws : List Value}

/-- A bound, if known, is an extremal element. -/
def Known (extremal : Value → List Value → Prop) (bound : Option Literal) (vs : List Value) :
    Prop :=
  ∀ m, bound = some m → extremal m vs

theorem BoundOf.known (h : BoundOf extremal bound vs) :
  Known extremal bound vs
  := by
  rintro m rfl
  exact h

/-- The merged bound is one of the two, and the other is not beyond it. -/
theorem mergeBound_eq_some {m : Literal} (h : mergeBound want a b = some m) :
  ∃ x y, a = some x ∧ b = some y ∧ m = if compareLiterals y x = some want then y else x
  := by
  cases a with
  | none => cases h
  | some x =>
    cases b with
    | none => cases h
    | some y =>
      simp only [mergeBound] at h
      cases ho : compareLiterals y x with
      | none => simp [ho] at h
      | some o =>
        refine ⟨x, y, rfl, rfl, ?_⟩
        simp only [ho, ← apply_ite some, Option.some.injEq] at h
        simp [ho, ← h]

theorem Extremal.known_mergeBound (he : Extremal t want extremal)
    (h : Column t (vs ++ ws)) (ha : Known extremal a vs) (hb : Known extremal b ws) :
  Known extremal (mergeBound want a b) (vs ++ ws)
  := by
  intro m hm
  obtain ⟨x, y, rfl, rfl, rfl⟩ := mergeBound_eq_some hm
  exact he.append h (ha x rfl) (hb y rfl)

theorem Column.atMost (h : Column t vs) {a b : Value} (ha : a ∈ vs) (hb : b ∈ vs)
    (hle : compareLiterals a b ≠ some .gt) :
  AtMost a b
  := by
  obtain ⟨o, ho⟩ := h.ordered ha hb
  have hround : roundsTo32 a b = false := by
    have ht := h.dtype_eq ha hb
    cases a <;> cases b <;> first | rfl | cases ht
  rw [AtMost, compare_of_compareLiterals .ltEq
    (comparableValues_self (h.dtype_eq ha hb) (h.not_null ha)) hround ho]
  cases o with
  | lt => rfl
  | eq => rfl
  | gt => exact absurd ho hle

end Bounds

/-! ### Counting -/

/-- A `NULL` is counted by its bit or cannot be read. -/
theorem nullsOf_eq (col : List Entry) :
  nullsOf col = col.countP nullBit + col.countP (fun e => !e.supported)
  := by
  induction col with
  | nil => rfl
  | cons e col ih =>
    simp only [nullsOf, countP_cons] at ih ⊢
    have hbit := e.null_of_nullBit
    rw [ih]
    cases hb : e.nullBit with
    | true =>
      have hn : e.value.isNull = true := by rw [hbit hb]; rfl
      simp [supported, hb, hn]
      omega
    | false =>
      cases hn : e.value.isNull with
      | true => simp [supported, hb, hn]; omega
      | false => simp [supported, hb, hn]

/-- The bits count the `NULL`s exactly where every cell can be read. -/
theorem countP_nullBit_eq_iff (col : List Entry) :
  col.countP nullBit = nullsOf col ↔ ∀ e ∈ col, e.supported = true
  := by
  have hzero : col.countP (fun e => !e.supported) = 0 ↔ _ := countP_eq_zero
  rw [nullsOf_eq]
  constructor
  · intro h
    simpa using hzero.mp (by omega)
  · intro h
    have := hzero.mpr (by simpa using h)
    omega

/-! ### Summaries of rows -/

/-- What the statistics of a column keep through merging. -/
structure Summary (s : ColumnStatistics) (col : List Entry) : Prop where
  nullCount : s.nullCount = some (col.countP nullBit)
  min : Known LeastOf s.min (ordinaryValues col)
  max : Known GreatestOf s.max (ordinaryValues col)

/-- An extremal element of the values that were read bounds the ordinary ones. -/
theorem known_ordinaryValues (hmem : ∀ m, ¬extremal m [])
    (h : BoundOf extremal bound (boundValues col)) :
  Known extremal bound (ordinaryValues col)
  := by
  intro m hm
  have hm' := h.known m hm
  unfold boundValues at hm'
  split at hm'
  · exact hm'
  · exact absurd hm' (hmem m)

theorem ZoneOf.summary (h : ZoneOf s col) :
  Summary s col where
  nullCount := h.nullCount
  min := known_ordinaryValues (fun _ hm => not_mem_nil hm.mem) h.min
  max := known_ordinaryValues (fun _ hm => not_mem_nil hm.mem) h.max

theorem ordinaryValues_append (col col' : List Entry) :
  ordinaryValues (col ++ col') = ordinaryValues col ++ ordinaryValues col'
  := by
  simp [ordinaryValues]

theorem Summary.merge {t : DataType} {a b : ColumnStatistics} {col col' : List Entry}
    (ht : TypedColumn t (col ++ col')) (ha : Summary a col) (hb : Summary b col') :
  Summary (a.merge b) (col ++ col')
  := by
  have hcol := ht.ordinaryValues
  rw [ordinaryValues_append] at hcol
  constructor
  · simp [ColumnStatistics.merge, ha.nullCount, hb.nullCount]
  · rw [ordinaryValues_append]
    exact extremal_leastOf.known_mergeBound hcol ha.min hb.min
  · rw [ordinaryValues_append]
    exact extremal_greatestOf.known_mergeBound hcol ha.max hb.max

/-- Bounds that are known enclose the ordinary values. -/
theorem Summary.soundFor {t : DataType} (h : Summary s col) (ht : TypedColumn t col)
    (hs : ∀ e ∈ col, e.supported = true) :
  SoundFor s col
  := by
  have hcol := ht.ordinaryValues
  constructor
  · rw [h.nullCount, (countP_nullBit_eq_iff col).mpr hs]
  · intro m hm v hv
    have hm := h.min m hm
    exact hcol.atMost hm.mem hv (hm.le v hv)
  · intro m hm v hv
    have hm := h.max m hm
    exact hcol.atMost hv hm.mem (hm.le v hv)

theorem BoundOf.attained {vs : List Value} (hmem : ∀ m vs, extremal m vs → m ∈ vs)
    (h : BoundOf extremal bound vs) (hne : vs ≠ []) :
  ∃ m ∈ vs, bound = some m
  := by
  cases bound with
  | none => exact absurd h hne
  | some m => exact ⟨m, hmem m vs h, rfl⟩

/-- The statistics computed from a column that can be read are exact. -/
theorem ZoneOf.exactFor {t : DataType} (h : ZoneOf s col) (ht : TypedColumn t col)
    (hs : ∀ e ∈ col, e.supported = true) :
  ExactFor s col
  := by
  have hvs : boundValues col = ordinaryValues col := if_pos (all_eq_true.mpr hs)
  refine ⟨h.summary.soundFor ht hs, ?_, ?_⟩
  · rw [← hvs]
    exact h.min.attained (fun _ _ => LeastOf.mem)
  · rw [← hvs]
    exact h.max.attained (fun _ _ => GreatestOf.mem)

/-! ### Merging parts -/

/-- The cells of some rows have the types of a schema. -/
def TypedRows (schema : Schema) (rows : List StoredRow) : Prop :=
  ∀ i f, schema.fields[i]? = some f → TypedColumn f.dtype (Chunk.columnOf rows i)

theorem Chunk.Fits.typedRows {schema : Schema} (h : chunk.Fits schema) :
  TypedRows schema chunk.rows
  := h.typed

theorem TypedRows.mono {schema : Schema} (h : TypedRows schema rows) (hsub : rows' ⊆ rows) :
  TypedRows schema rows'
  := by
  intro i f hf e he
  obtain ⟨row, hrow, rfl⟩ := mem_map.mp he
  exact h i f hf _ (mem_map_of_mem (hsub hrow))

namespace TableStatistics

variable {schema : Schema}

/-- Statistics that summarise some rows. -/
structure Summarises (schema : Schema) (s : TableStatistics) (rows : List StoredRow) : Prop where
  rowCount : s.rowCount = rows.length
  columns : ∀ i < schema.fields.length, ∃ c,
    s.columns[i]? = some c ∧ Summary c (Chunk.columnOf rows i)

theorem mergeColumns_getElem? {as bs : List ColumnStatistics} {i : Nat} {a b : ColumnStatistics}
    (ha : as[i]? = some a) (hb : bs[i]? = some b) :
  (mergeColumns as bs)[i]? = some (a.merge b)
  := by
  induction as generalizing bs i with
  | nil => cases ha
  | cons a' as ih =>
    cases bs with
    | nil => cases hb
    | cons b' bs =>
      cases i with
      | zero =>
        obtain rfl := Option.some.inj ha
        obtain rfl := Option.some.inj hb
        rfl
      | succ i => exact ih ha hb

theorem summarises_fromBatches (hfits : chunk.Fits schema) (hne : chunk.batches ≠ []) :
  Summarises schema (fromBatches chunk) chunk.rows
  := by
  refine ⟨rfl, ?_⟩
  intro i hi
  have hf := getElem?_eq_getElem hi
  refine ⟨chunk.columnStatistics i, ?_, (Chunk.zoneOf hfits hf).summary⟩
  rw [TableStatistics.fromBatches, Chunk.statistics_getElem?, if_pos ⟨hfits.width ▸ hi, hne⟩]

theorem Summarises.merge {a b : TableStatistics} (ha : Summarises schema a rows)
    (hb : Summarises schema b rows') (hne : rows ≠ []) (ht : TypedRows schema (rows ++ rows')) :
  Summarises schema (a.merge b) (rows ++ rows')
  := by
  have hcount : ¬(a.columns.isEmpty && a.rowCount == 0) = true := by
    have := length_pos_iff.mpr hne
    rw [Bool.and_eq_true, beq_iff_eq, ha.rowCount]
    omega
  rw [TableStatistics.merge, if_neg hcount]
  constructor
  · rw [ha.rowCount, hb.rowCount, length_append]
  · intro i hi
    obtain ⟨c, hc, hca⟩ := ha.columns i hi
    obtain ⟨d, hd, hdb⟩ := hb.columns i hi
    have htyped := ht i _ (getElem?_eq_getElem hi)
    rw [Chunk.columnOf, map_append] at htyped
    refine ⟨c.merge d, mergeColumns_getElem? hc hd, ?_⟩
    rw [Chunk.columnOf, map_append]
    exact hca.merge htyped hdb

/-- A run of merges summarises the rows of all parts. -/
theorem Summarises.foldl {s : TableStatistics} (parts : List Chunk) (hs : Summarises schema s rows)
    (hne : rows ≠ []) (hparts : ∀ part ∈ parts, part.Fits schema ∧ part.rows ≠ [])
    (ht : TypedRows schema (rows ++ parts.flatMap Chunk.rows)) :
  Summarises schema ((parts.map fromBatches).foldl TableStatistics.merge s)
    (rows ++ parts.flatMap Chunk.rows)
  := by
  induction parts generalizing s rows with
  | nil => simpa using hs
  | cons part parts ih =>
    obtain ⟨hfits, hrows⟩ := hparts part (by simp)
    have hbatches : part.batches ≠ [] := by
      intro h
      exact hrows (by rw [Chunk.rows, h]; rfl)
    rw [flatMap_cons, ← append_assoc] at ht ⊢
    have hmerge := hs.merge (summarises_fromBatches hfits hbatches) hne
      (ht.mono (subset_append_left _ _))
    apply ih hmerge (by simp [hne])
      (fun p hp => hparts p (mem_cons_of_mem _ hp)) ht

theorem summarises_mergeAll (hne : parts ≠ [])
    (hparts : ∀ part ∈ parts, part.Fits schema ∧ part.rows ≠ [])
    (ht : TypedRows schema (parts.flatMap Chunk.rows)) :
  Summarises schema (TableStatistics.mergeAll parts) (parts.flatMap Chunk.rows)
  := by
  cases parts with
  | nil => exact absurd rfl hne
  | cons part parts =>
    obtain ⟨hfits, hrows⟩ := hparts part (by simp)
    have hbatches : part.batches ≠ [] := by
      intro h
      exact hrows (by rw [Chunk.rows, h]; rfl)
    exact (summarises_fromBatches hfits hbatches).foldl parts hrows
      (fun p hp => hparts p (mem_cons_of_mem _ hp)) ht

end TableStatistics

/-! ### Soundness -/

theorem PartitionOf.fits {schema : Schema}
    (h : PartitionOf table parts) (hfits : table.Fits schema) :
  ∀ part ∈ parts, part.Fits schema ∧ part.rows ≠ []
  := by
  intro part hp
  refine ⟨⟨(h.width part hp).trans hfits.width, ?_⟩, h.nonempty part hp⟩
  apply hfits.typedRows.mono
  intro row hrow
  exact h.rows.mem_iff.mp (mem_flatMap.mpr ⟨part, hp, hrow⟩)

theorem SoundFor.of_perm {col col' : List Entry} (h : SoundFor s col) (hp : col.Perm col') :
  SoundFor s col'
  := by
  have hvs : (ordinaryValues col).Perm (ordinaryValues col') := (hp.map _).filter _
  constructor
  · rw [h.nullCount, nullsOf, hp.countP_eq, nullsOf]
  · intro m hm v hv
    exact h.min_le m hm v (hvs.mem_iff.mpr hv)
  · intro m hm v hv
    exact h.le_max m hm v (hvs.mem_iff.mpr hv)

/-- Every cell of a chunk stands in one of its columns. -/
theorem Chunk.mem_row_iff {e : Entry} :
  (∃ row ∈ chunk.rows, e ∈ row) ↔ ∃ i < chunk.width, e ∈ chunk.column i
  := by
  have hlen : ∀ row ∈ chunk.rows, row.length = chunk.width := by
    intro row hrow
    obtain ⟨batch, hb, hrow⟩ := mem_flatten.mp hrow
    exact chunk.row_length batch hb row hrow
  constructor
  · rintro ⟨row, hrow, he⟩
    obtain ⟨i, hi, rfl⟩ := getElem_of_mem he
    refine ⟨i, hlen row hrow ▸ hi, mem_map.mpr ⟨row, hrow, ?_⟩⟩
    simp [cellAt, hi]
  · rintro ⟨i, hi, he⟩
    obtain ⟨row, hrow, rfl⟩ := mem_map.mp he
    refine ⟨row, hrow, ?_⟩
    rw [← hlen row hrow] at hi
    simp [cellAt, hi]

/-- Every cell of the table that reads as `NULL` has its `NULL` bit set. -/
def NullsHaveBits (table : Chunk) : Prop :=
  ∀ row ∈ table.rows, ∀ e ∈ row, e.value.isNull = true → e.nullBit = true

theorem nullsHaveBits_iff :
  NullsHaveBits table ↔ ∀ i < table.width, ∀ e ∈ table.column i, e.supported = true
  := by
  have hsup : ∀ e : Entry, e.supported = true ↔ (e.value.isNull = true → e.nullBit = true) := by
    intro e
    cases h : e.nullBit <;> cases h' : e.value.isNull <;> simp [supported, h, h']
  constructor
  · intro h i hi e he
    obtain ⟨row, hrow, he⟩ := Chunk.mem_row_iff.mpr ⟨i, hi, he⟩
    exact (hsup e).mpr (h row hrow e he)
  · intro h row hrow e he
    obtain ⟨i, hi, he⟩ := Chunk.mem_row_iff.mp ⟨row, hrow, he⟩
    exact (hsup e).mp (h i hi e he)

/-- Statistics are sound and can be merged exactly when `NULL`s are those that have their bit. -/
theorem statistics_sound_iff (schema : Schema) (table : Chunk) (hfits : table.Fits schema) :
  StatisticsSound table ↔ NullsHaveBits table
  := by
  rw [nullsHaveBits_iff]
  constructor
  · intro h i hi e he
    have hbatches : table.batches ≠ [] := by
      intro hb
      simp [Chunk.column, Chunk.columnOf, Chunk.rows, hb] at he
    obtain ⟨s, hs, hexact⟩ := h.exact hbatches i hi
    rw [hfits.width] at hi
    obtain ⟨c, hc, hsum⟩ := (TableStatistics.summarises_fromBatches hfits hbatches).columns i hi
    obtain rfl := Option.some.inj (hs.symm.trans hc)
    have hcount := Option.some.inj (hsum.nullCount.symm.trans hexact.nullCount)
    exact (countP_nullBit_eq_iff _).mp hcount e he
  · intro h
    have hmerged : ∀ parts, PartitionOf table parts → parts ≠ [] →
        TableStatistics.Summarises schema (TableStatistics.mergeAll parts)
          (parts.flatMap Chunk.rows) := by
      intro parts hp hne
      apply TableStatistics.summarises_mergeAll hne (hp.fits hfits)
      exact hfits.typedRows.mono hp.rows.subset
    constructor
    · intro hbatches i hi
      have hf := getElem?_eq_getElem (hfits.width ▸ hi)
      refine ⟨table.columnStatistics i, ?_,
        (Chunk.zoneOf hfits hf).exactFor (hfits.typed i _ hf) (h i hi)⟩
      rw [TableStatistics.fromBatches, Chunk.statistics_getElem?, if_pos ⟨hi, hbatches⟩]
    · intro parts hp
      cases parts with
      | nil =>
        rw [← hp.rows.length_eq]
        rfl
      | cons part parts =>
        rw [(hmerged _ hp (by simp)).rowCount, hp.rows.length_eq]
    · intro parts hp hne i hi
      have hf := getElem?_eq_getElem (hfits.width ▸ hi)
      obtain ⟨c, hc, hsum⟩ := (hmerged parts hp hne).columns i (hfits.width ▸ hi)
      have hperm : (Chunk.columnOf (parts.flatMap Chunk.rows) i).Perm (table.column i) :=
        hp.rows.map _
      have htyped := hfits.typedRows.mono hp.rows.subset i _ hf
      refine ⟨c, hc, (hsum.soundFor htyped ?_).of_perm hperm⟩
      intro e he
      exact h i hi e (hperm.mem_iff.mp he)

/-- A table of one column. -/
def oneColumn (col : List Entry) : Chunk where
  width := 1
  batches := [col.map (fun e => [e])]
  row_length := by
    intro batch hb row hr
    rw [mem_singleton.mp hb, mem_map] at hr
    obtain ⟨e, -, rfl⟩ := hr
    rfl

theorem oneColumn_fits {t : DataType} (h : TypedColumn t col) :
  (oneColumn col).Fits ⟨[⟨"c", t, true⟩]⟩
  := by
  refine ⟨rfl, ?_⟩
  intro i f hf e he
  obtain ⟨rfl, rfl⟩ : i = 0 ∧ f = ⟨"c", t, true⟩ := by
    cases i with
    | zero => exact ⟨rfl, (Option.some.inj hf).symm⟩
    | succ i => cases hf
  simp only [Chunk.column, Chunk.columnOf, Chunk.rows, oneColumn, flatten_cons,
    flatten_nil, append_nil, map_map, mem_map] at he
  obtain ⟨e, he', rfl⟩ := he
  exact h e he'

/-- A column of strings without a dictionary. -/
theorem statistics_sound_strings :
  StatisticsSound (oneColumn [plain (.utf8 "a"), plain .null])
  := by
  refine (statistics_sound_iff ⟨[⟨"c", .utf8, true⟩]⟩ _ (oneColumn_fits ?_)).mpr ?_
  · intro e he
    simp only [mem_cons, not_mem_nil, or_false] at he
    obtain rfl | rfl := he
    · exact .inr rfl
    · exact .inl rfl
  · intro row hrow e he hn
    simp only [oneColumn, Chunk.rows, map_cons, map_nil, flatten_cons,
      flatten_nil, append_nil, mem_cons, not_mem_nil, or_false] at hrow
    obtain rfl | rfl := hrow
    · obtain rfl := mem_singleton.mp he
      cases hn
    · obtain rfl := mem_singleton.mp he
      rfl

/-- An entry of a dictionary column that points at a `NULL` of the dictionary. -/
def nullOfDictionary : Entry := ⟨false, .null, fun h => by cases h⟩

/-- The count of a column whose only row reads as `NULL` is zero. -/
theorem statistics_not_sound :
  ¬StatisticsSound (oneColumn [nullOfDictionary])
  := by
  intro h
  obtain ⟨s, hs, hexact⟩ := h.exact (by simp [oneColumn]) 0 (by decide)
  obtain rfl := Option.some.inj hs
  have hcount := hexact.nullCount
  revert hcount
  decide

end CratonBolt.Storage
