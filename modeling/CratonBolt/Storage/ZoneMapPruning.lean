import CratonBolt.Storage.Refutation
import CratonBolt.Storage.ScanSites

/-!
# Zone-map pruning

A chunk that a query skips holds no row the query needs, unless the statistics overlook a row that
passes the filters above a scan of the table, and every scan of the table has a conjunct that the
cells of the chunk refute. Filters are evaluated on the host or in a fused kernel, as the lowering
of the plan decides for each scan; every result is for any decision.
-/

namespace CratonBolt.Storage

open Outcome List

variable {Q : Type} {B : Builtins} {S : Subqueries Q} {chunk : Chunk} {columns : List Nat}

/-! ### Rows as a filter sees them -/

section Reading

variable {schema s : Schema}

theorem projectedFields_getElem? {cols : List String} {fields : List Field}
    (hf : projectedFields schema cols = .ok fields)
    (hc : projectedColumns schema cols = some columns) {k i : Nat} (hk : columns[k]? = some i) :
  fields[k]? = schema.fields[i]?
  := by
  induction cols generalizing fields columns k with
  | nil =>
    cases hc
    cases hk
  | cons c cols ih =>
    simp only [projectedFields, bind_eq_ok] at hf
    obtain ⟨f, hf, fields', hfields, h⟩ := hf
    cases h
    simp only [projectedColumns, Option.bind_eq_bind, Option.bind_eq_some_iff] at hc
    obtain ⟨j, hj, columns', hcolumns, h⟩ := hc
    cases h
    cases k with
    | zero =>
      obtain rfl := Option.some.inj hk
      obtain ⟨j', hj', hf⟩ := Schema.field_eq_ok.mp hf
      obtain rfl := Option.some.inj (hj.symm.trans hj')
      exact hf.symm
    | succ k => exact ih hfields hcolumns hk

variable {projection : Option (List String)} {columns : List Nat}

/-- The fields of a scan are those of the table columns it delivers. -/
theorem scanSchema_fields (hs : scanSchema schema projection = .ok s)
    (hc : scanColumns schema projection = some columns) {k i : Nat} (hk : columns[k]? = some i) :
  s.fields[k]? = schema.fields[i]?
  := by
  cases projection with
  | none =>
    simp only [scanSchema, Except.ok.injEq, scanColumns, Option.some.injEq] at hs hc
    subst hs hc
    obtain ⟨hlt, hki⟩ := List.getElem?_eq_some_iff.mp hk
    rw [getElem_range] at hki
    rw [hki]
  | some cols =>
    simp only [scanSchema, map_eq_ok] at hs
    obtain ⟨fields, hf, rfl⟩ := hs
    exact projectedFields_getElem? hf hc hk

end Reading

namespace Site

variable {site : Site Q} {row : StoredRow}

/-- The filters are true on a row that passes. -/
theorem trueOn_of_passes (h : site.passes B S row = true) :
  ∃ s columns, scanSchema site.schema site.projection = .ok s ∧
    scanColumns site.schema site.projection = some columns ∧
    ∀ f ∈ site.filters, TrueOn B S s (scanned columns row) f
  := by
  unfold passes at h
  split at h
  · next s columns hs hc =>
    refine ⟨s, columns, hs, hc, ?_⟩
    intro f hf
    have hf := all_eq_true.mp h f hf
    rw [Bool.and_eq_true, Expr.isPredicate, decide_eq_true_eq, Expr.checked_eq_some] at hf
    exact ⟨⟨0, hf.1.2⟩, hf.2⟩
  · cases h

/-- A name that denotes a table column is read as the cell of that column. -/
theorem readsAs {s : Schema} {n : String} {i : Nat} (hfits : chunk.Fits site.schema)
    (hrow : row ∈ chunk.rows) (hs : scanSchema site.schema site.projection = .ok s)
    (hc : scanColumns site.schema site.projection = some columns) (hn : site.denotes n = some i) :
  ReadsAs s (scanned columns row) (Chunk.cellAt i row).value n
  := by
  simp only [denotes, hs, hc, Option.bind_eq_some_iff] at hn
  obtain ⟨k, hk, hki⟩ := hn
  have hfield := scanSchema_fields hs hc hki
  constructor
  · simp [Schema.cell, hk, scanned, hki]
  · intro t ht
    rw [Schema.dtypeOf, hk, Option.bind_some, hfield, Option.map_eq_some_iff] at ht
    obtain ⟨f, hf, rfl⟩ := ht
    exact hfits.typed i f hf _ (mem_map_of_mem hrow)

/--
A conjunct compares or tests a column in a way that the statistics do not see for the row: one of
its names denotes another column above the scan, or the row's cell may satisfy it unseen.
-/
def Overlooks (site : Site Q) (nanDiffers : Bool) (row : StoredRow) : Prop :=
  ∃ e ∈ site.conjuncts, ∃ p, toPrune site.schema site.table e = some p ∧
    ((∃ n ∈ e.collectColumns, site.denotes n ≠ some p.column) ∨
      p.Unseen nanDiffers (Chunk.cellAt p.column row))

theorem mem_predicates {p : PrunePredicate} :
  p ∈ site.predicates ↔ ∃ e ∈ site.conjuncts, toPrune site.schema site.table e = some p
  := mem_filterMap

/-- The conjuncts are true on a row that passes. -/
theorem trueOn_conjunct {s : Schema} {e : Expr Q}
    (h : ∀ f ∈ site.filters, TrueOn B S s (scanned columns row) f) (he : e ∈ site.conjuncts) :
  TrueOn B S s (scanned columns row) e
  := by
  unfold conjuncts at he
  split at he
  · cases he
  · next f fs hfs =>
    apply TrueOn.of_mem_splitAnd _ e he
    apply h f
    rw [hfs]
    exact mem_cons_self ..

/-- Where a row passes and its chunk refutes a predicate of the scan, the row is overlooked. -/
theorem overlooks_of_passes (hfits : chunk.Fits site.schema) (hrow : row ∈ chunk.rows)
    (hpass : site.passes B S row = true) {p : PrunePredicate} (hp : p ∈ site.predicates)
    (hr : chunk.Refuted p) :
  site.Overlooks B.nanDiffers row
  := by
  obtain ⟨e, he, hprune⟩ := mem_predicates.mp hp
  obtain ⟨s, columns, hs, hc, htrue⟩ := trueOn_of_passes hpass
  refine ⟨e, he, p, hprune, ?_⟩
  by_cases hnames : ∃ n ∈ e.collectColumns, site.denotes n ≠ some p.column
  · exact .inl hnames
  · refine .inr (chunk.unseen_of_satisfied hfits hrow ?_ hr)
    apply (trueOn_conjunct htrue he).satisfied hprune
    intro n hn
    apply readsAs hfits hrow hs hc
    by_contra hne
    exact hnames ⟨n, hn, hne⟩

end Site

/-! ### Soundness -/

/--
A row of a chunk that the request of a plan skips cannot contribute to the plan's result: at every
scan of the table it makes one of the filters above the scan not true.
-/
def PruningSound (B : Builtins) (S : Subqueries Q) (route : Site Q → Route) (tables : List String)
    (plan : LogicalPlan Q) (t : String) (chunk : Chunk) : Prop :=
  ∀ req, scanRequests tables plan t = some req →
    req.chunkMayMatch chunk.statistics chunk.rows.length = false →
    ∀ site ∈ sites [] plan, site.table = t → ∀ row ∈ chunk.rows,
      site.passes ((route site).builtins B) S row = false

/-- The chunk refutes no predicate of the scan. -/
def Site.Admits (site : Site Q) (chunk : Chunk) : Prop :=
  ∀ p ∈ site.predicates, ¬chunk.Refuted p

theorem Site.not_admits {site : Site Q} :
  ¬site.Admits chunk ↔ ∃ p ∈ site.predicates, chunk.Refuted p
  := by
  simp [Admits]

/-- A chunk is skipped exactly when no scan of the table admits it. -/
theorem skipped_iff {tables : List String} {plan : LogicalPlan Q} {t : String} (ht : t ∈ tables)
    (hfits : ∀ site ∈ sites [] plan, site.table = t → chunk.Fits site.schema) {req : ScanRequest}
    (hreq : scanRequests tables plan t = some req) :
  req.chunkMayMatch chunk.statistics chunk.rows.length = false ↔
    ∀ site ∈ sites [] plan, site.table = t → ¬site.Admits chunk
  := by
  rw [scanRequests_chunkMayMatch ht hreq]
  apply forall_congr'
  intro site
  apply forall_congr'
  intro hsite
  apply forall_congr'
  intro hst
  rw [Site.not_admits]
  simp only [Chunk.mayMatch_eq_false_iff (hfits site hsite hst)]

/--
Zone-map pruning is sound exactly when every overlooked row that passes is in a chunk whose cells
refute no conjunct of some scan of the table.
-/
theorem pruning_sound_iff (B : Builtins) (S : Subqueries Q) (route : Site Q → Route)
    (tables : List String) (plan : LogicalPlan Q) (t : String) (chunk : Chunk) (ht : t ∈ tables)
    (hfits : ∀ site ∈ sites [] plan, site.table = t → chunk.Fits site.schema) :
  PruningSound B S route tables plan t chunk ↔
    ∀ site ∈ sites [] plan, site.table = t → ∀ row ∈ chunk.rows,
      site.passes ((route site).builtins B) S row = true →
      site.Overlooks (route site = .host) row →
      ∃ other ∈ sites [] plan, other.table = t ∧ other.Admits chunk
  := by
  constructor
  · intro hsound site hsite hst row hrow hpass _
    by_contra hnone
    obtain ⟨req, hreq⟩ := exists_scanRequests ht hsite hst
    have hskip := (skipped_iff ht hfits hreq).mpr
      (fun other ho hot hadm => hnone ⟨other, ho, hot, hadm⟩)
    rw [hsound req hreq hskip site hsite hst row hrow] at hpass
    cases hpass
  · intro hcond req hreq hskip site hsite hst row hrow
    rw [skipped_iff ht hfits hreq] at hskip
    by_contra hpass
    rw [Bool.not_eq_false] at hpass
    obtain ⟨p, hp, hr⟩ := Site.not_admits.mp (hskip site hsite hst)
    have hover := Site.overlooks_of_passes (hfits site hsite hst) hrow hpass hp hr
    obtain ⟨other, ho, hot, hadm⟩ := hcond site hsite hst row hrow hpass hover
    exact hskip other ho hot hadm

/-- The columns of a table of texts and floats. -/
def textFloat : Schema := ⟨[⟨"s", .utf8, true⟩, ⟨"f", .float64, true⟩]⟩

/-- The texts of the rows that a filter keeps. -/
def textsWhere (predicate : Expr Empty) : LogicalPlan Empty :=
  .project (.filter (.scan "t" none textFloat) predicate) [.column "s"]

/-- The filter is below a projection of a text, so it is evaluated on the host. -/
def textsRoute (site : Site Empty) : Route :=
  Route.ofProjection site.schema [(.column "s" : Expr Empty)]

/-- The rows `('a', 5.0)` and `('b', NaN)`. -/
def fiveAndNan : Chunk where
  width := 2
  batches := [[[Entry.plain (.utf8 "a"), Entry.plain (.float64 ⟨0x4014000000000000⟩)],
    [Entry.plain (.utf8 "b"), Entry.plain (.float64 ⟨0x7ff8000000000000⟩)]]]
  row_length := by simp

theorem fiveAndNan_fits :
  fiveAndNan.Fits textFloat
  := by
  refine ⟨rfl, ?_⟩
  intro i f hf
  unfold TypedColumn
  rcases i with _ | _ | i
  · obtain rfl := Option.some.inj hf
    decide
  · obtain rfl := Option.some.inj hf
    decide
  · cases hf

/-- Neither float is above `7.0`, and the chunk is skipped. -/
theorem pruning_sound_above :
  PruningSound noBuiltins noSubqueries textsRoute ["t"]
    (textsWhere (.binary .gt (.column "f") (.literal (.float64 ⟨0x401c000000000000⟩)))) "t"
    fiveAndNan
  := by
  refine (pruning_sound_iff _ _ _ _ _ _ _ (by decide) ?_).mpr ?_
  · intro site hsite _
    obtain rfl := mem_singleton.mp hsite
    exact fiveAndNan_fits
  · have hnone : ∀ site ∈ sites [] (textsWhere (.binary .gt (.column "f")
        (.literal (.float64 ⟨0x401c000000000000⟩)))), ∀ row ∈ fiveAndNan.rows,
        site.passes ((textsRoute site).builtins noBuiltins) noSubqueries row = false := by
      decide +kernel
    intro site hsite _ row hrow hpass
    rw [hnone site hsite row hrow] at hpass
    cases hpass

/-- NaN differs from `5.0` on the host, but the chunk whose bounds are both `5.0` is skipped. -/
theorem pruning_not_sound :
  ¬PruningSound noBuiltins noSubqueries textsRoute ["t"]
    (textsWhere (.binary .notEq (.column "f") (.literal (.float64 ⟨0x4014000000000000⟩)))) "t"
    fiveAndNan
  := by
  intro h
  have hpass := h _ rfl (by decide +kernel) _ (mem_singleton.mpr rfl) rfl
    [Entry.plain (.utf8 "b"), Entry.plain (.float64 ⟨0x7ff8000000000000⟩)]
    (by simp [fiveAndNan, Chunk.rows])
  revert hpass
  decide +kernel

end CratonBolt.Storage
