import CratonBolt.OutOfCore.ChunkedRun
import CratonBolt.OutOfCore.ExternalSort
import CratonBolt.Semantics.NodeSchemas
import CratonBolt.Storage.ZoneMapPruning

/-!
# Runs over a pruned table

The rows of a stored table come to a run as the batches of the chunks that its scan request asks
for. Where no chunk is skipped that has a row for the chain, the run returns the rows of the whole
table. The engine takes the request from the optimized chain; where that is the chain itself and
pruning is sound for it, no such chunk is skipped.
-/

namespace CratonBolt.OutOfCore

open List Storage

variable {Q : Type} {B : Builtins} {S : Subqueries Q} {base : Schema} {table : String}
variable {plan : LogicalPlan Q} {f : RawRow → Option Row} {chunks : List Chunk}

/-! ### The batches of a table -/

/-- The cells of a stored row. -/
def rawRow (row : StoredRow) : RawRow := fun i => (Chunk.cellAt i row).value

/-- The rows of a stored table. -/
def storedRows (chunks : List Chunk) : List RawRow :=
  chunks.flatMap (fun chunk => chunk.rows.map rawRow)

/-- `table_batches` of a stored table: the batches of the chunks that `plan_scan` selects. -/
def tableBatches (req : ScanRequest) (chunks : List Chunk) : List (List RawRow) :=
  (chunks.filter (fun chunk => req.chunkMayMatch chunk.statistics chunk.rows.length)).flatMap
    (fun chunk => chunk.batches.map (fun batch => batch.map rawRow))

theorem tableBatches_flatten (req : ScanRequest) (chunks : List Chunk) :
  (tableBatches req chunks).flatten = storedRows
    (chunks.filter (fun chunk => req.chunkMayMatch chunk.statistics chunk.rows.length))
  := by
  rw [tableBatches, storedRows, flatMap_def, flatMap_def, flatten_flatten, map_map]
  congr 2
  funext chunk
  rw [Function.comp_apply, Chunk.rows, map_flatten]

/-- Every chunk that the request skips has no row that the chain keeps. -/
def SkipsNothing (f : RawRow → Option Row) (req : ScanRequest) (chunks : List Chunk) : Prop :=
  ∀ chunk ∈ chunks, req.chunkMayMatch chunk.statistics chunk.rows.length = false →
    ∀ row ∈ chunk.rows, f (rawRow row) = none

theorem SkipsNothing.filterMap {req : ScanRequest} (h : SkipsNothing f req chunks) :
  (tableBatches req chunks).flatten.filterMap f = (storedRows chunks).filterMap f
  := by
  rw [tableBatches_flatten]
  induction chunks with
  | nil => rfl
  | cons chunk chunks ih =>
    have ih := ih (fun c hc => h c (mem_cons_of_mem _ hc))
    cases hk : req.chunkMayMatch chunk.statistics chunk.rows.length with
    | true =>
      rw [filter_cons, if_pos hk]
      simp only [storedRows, flatMap_cons, filterMap_append] at ih ⊢
      rw [ih]
    | false =>
      have hnone : (chunk.rows.map rawRow).filterMap f = [] := by
        rw [filterMap_eq_nil_iff]
        intro raw hraw
        obtain ⟨row, hrow, rfl⟩ := mem_map.mp hraw
        exact h chunk mem_cons_self hk row hrow
      rw [filter_cons, if_neg (by simp [hk]), ih]
      simp only [storedRows, flatMap_cons, filterMap_append, hnone, nil_append]

/-! ### Rows that a scan's filters drop -/

/-- The columns of a scan have a schema. -/
theorem scanSchema_of_scanColumns {schema : Schema} {projection : Option (List String)}
    {columns : List Nat} (h : scanColumns schema projection = some columns) :
  ∃ s, scanSchema schema projection = .ok s
  := by
  cases projection with
  | none => exact ⟨schema, rfl⟩
  | some cols =>
    rw [scanColumns] at h
    suffices hfields : ∃ fields, projectedFields schema cols = .ok fields by
      obtain ⟨fields, hf⟩ := hfields
      exact ⟨⟨fields⟩, by simp [scanSchema, hf]⟩
    induction cols generalizing columns with
    | nil => exact ⟨[], rfl⟩
    | cons c cols ih =>
      simp only [projectedColumns, Option.bind_eq_bind, Option.bind_eq_some_iff] at h
      obtain ⟨i, hi, columns', hc, -⟩ := h
      obtain ⟨fields, hf⟩ := ih hc
      have hlt : i < schema.fields.length := by
        have := resolve_lt hi
        rwa [Schema.names, length_map] at this
      have hfield : schema.field c = .ok schema.fields[i] :=
        Schema.field_eq_ok.mpr ⟨i, hi, getElem?_eq_getElem hlt⟩
      exact ⟨schema.fields[i] :: fields, by simp [projectedFields, hfield, hf]⟩

/-- Filters above a chain that are not all true of the row it returns. -/
def Fails (B : Builtins) (S : Subqueries Q) (above : List (Expr Q)) (plan : LogicalPlan Q)
    (r : Row) : Prop :=
  ∃ s, plan.outputSchema S.schema = some s ∧
    above.all (fun e => e.isPredicate S s && e.holds B S s r) = false

/-- A row that does not pass at the scan of a chain is dropped by the chain or above it. -/
theorem fails_of_not_passes (h : ReadsTable table base plan) (above : List (Expr Q))
    (hf : rowStep B S plan = some f) {site : Site Q} (hsite : site ∈ sites above plan)
    {row : StoredRow} (hpass : site.passes B S row = false) :
  f (rawRow row) = none ∨ ∃ r, f (rawRow row) = some r ∧ Fails B S above plan r
  := by
  induction plan generalizing above f with
  | scan t projection schema =>
    obtain rfl := mem_singleton.mp hsite
    obtain ⟨columns, hc, rfl⟩ := Option.map_eq_some_iff.mp hf
    obtain ⟨s, hs⟩ := scanSchema_of_scanColumns hc
    refine .inr ⟨columns.map (rawRow row), rfl, s, ?_, ?_⟩
    · rw [LogicalPlan.outputSchema, hs]
      rfl
    · simp only [Site.passes, hs, hc] at hpass
      exact hpass
  | filter input predicate ih =>
    simp only [rowStep, Option.bind_eq_bind, Option.bind_eq_some_iff] at hf
    obtain ⟨g, hg, s, hs, hf⟩ := hf
    obtain ⟨hchecked, hf⟩ := Option.ite_none_right_eq_some.mp hf
    obtain rfl := Option.some.inj hf
    obtain hnone | ⟨r, hr, s', hs', hfail⟩ := ih h (predicate :: above) hg hsite
    · exact .inl (by simp [hnone])
    · obtain rfl := Option.some.inj (hs.symm.trans hs')
      cases hholds : predicate.holds B S s r with
      | false => exact .inl (by simp [hr, hholds])
      | true =>
        refine .inr ⟨r, by simp [hr, hholds], s, ?_, ?_⟩
        · exact outputSchema_filter.mpr ⟨hs, (Expr.checked_eq_some.mp hchecked).2⟩
        · simpa [Expr.isPredicate, hchecked, hholds] using hfail
  | project input exprs ih =>
    simp only [rowStep, Option.bind_eq_bind, Option.bind_eq_some_iff] at hf
    obtain ⟨g, hg, s, hs, hf⟩ := hf
    obtain ⟨hchecked, hf⟩ := Option.ite_none_right_eq_some.mp hf
    obtain rfl := Option.some.inj hf
    -- the filters above a projection are not above the scan
    obtain hnone | ⟨r, hr, s', hs', hfail⟩ := ih h [] hg hsite
    · exact .inl (by simp [hnone])
    · cases hfail
  | _ => exact h.elim

/-- A chain scans its table. -/
theorem ReadsTable.exists_site (h : ReadsTable table base plan) (above : List (Expr Q)) :
  ∃ site ∈ sites above plan, site.table = table
  := by
  induction plan generalizing above with
  | scan t projection schema => exact ⟨_, mem_singleton.mpr rfl, h.1⟩
  | filter input predicate ih => exact ih h (predicate :: above)
  | project input exprs ih => exact ih h []
  | _ => exact h.elim

/-- Where pruning is sound for a chain, its own request skips no chunk that it needs. -/
theorem skipsNothing_of_pruningSound {route : Route} (h : ReadsTable table base plan)
    (hf : rowStep (route.builtins B) S plan = some f) {req : ScanRequest}
    (hreq : scanRequests [table] plan table = some req)
    (hsound : ∀ chunk ∈ chunks, PruningSound B S (fun _ => route) [table] plan table chunk) :
  SkipsNothing f req chunks
  := by
  intro chunk hchunk hskip row hrow
  obtain ⟨site, hsite, hst⟩ := h.exists_site []
  have hpass := hsound chunk hchunk req hreq hskip site hsite hst row hrow
  obtain hnone | ⟨r, -, s, -, hfail⟩ := fails_of_not_passes h [] hf hsite hpass
  · exact hnone
  · cases hfail

/-! ### Runs -/

/-- A run over the batches that are read returns the rows that its plan has for the whole table. -/
theorem chunkedRun_pruned (db : Database) (e : String) {scan : ChunkedScan Q} {req : ScanRequest}
    {rows : List Row} {rounds : Nat} (hbase : ReadsTable scan.table base scan.input)
    (hskips : ∀ f, rowStep B S scan.input = some f → SkipsNothing f req chunks)
    (hrows : scan.plan.eval B S (install db scan.table (storedRows chunks)) = some rows)
    (hrounds : (tableBatches req chunks).length + 1 < rounds) :
  ∃ outs run, ChunkedRun.drain B S db base e scan rounds
      (chunkedRun scan (tableBatches req chunks)) = some (outs, run) ∧
    outs.flatten = rows ∧ run.finished = true
  := by
  rw [scan.eval_plan _ (tableBatches req chunks), hbase.eval_install, Option.map_map] at hrows
  obtain ⟨f, hf, rfl⟩ := Option.map_eq_some_iff.mp hrows
  obtain ⟨read, outs, run, hdrain, -, hfinished, hpage⟩ :=
    ChunkedRun.drain_page db e hbase hf hrounds
  rw [(hskips f hf).filterMap] at hpage
  exact ⟨outs, run, hdrain, hpage, hfinished⟩

/-- A sort over the batches that are read is exact for the rows of the whole table. -/
theorem externalSort_pruned {sp : SortPlan S} {db : Database} {e : String}
    {sorter : Sorter (sp.exprsLe B)} {req : ScanRequest} {rows : List Row}
    (hbase : ReadsTable sp.table base sp.input)
    (hskips : ∀ f, rowStep B S sp.input = some f → SkipsNothing f req chunks)
    (hlimit : ∀ o, sp.limit ≠ some (0, o))
    (hrows : sp.input.eval B S (install db sp.table (storedRows chunks)) = some rows) :
  sp.SortsExactly B db base e sorter (tableBatches req chunks) rows
  := by
  rw [hbase.eval_install] at hrows
  obtain ⟨f, hf, rfl⟩ := Option.map_eq_some_iff.mp hrows
  rw [← (hskips f hf).filterMap]
  exact SortPlan.sortsExactly_of_ne_zero hbase hf hlimit

end CratonBolt.OutOfCore
