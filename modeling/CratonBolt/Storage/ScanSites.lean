import CratonBolt.Semantics.Filters
import CratonBolt.Storage.ZoneMaps

/-!
# The scans of a plan

A scan of a plan with the filters that stand directly above it, and the request of a table as the
union of the requests of its scans: a chunk is read when one of the scans may need it.
-/

namespace CratonBolt.Storage

open List

variable {Q : Type} {t : String} {plan : LogicalPlan Q}

/-! ### Where filters are evaluated -/

/-- `execute_filter` on the host, or the kernel that a scan chain is fused into. -/
inductive Route where
  | host
  | kernel
deriving DecidableEq, Repr

/-- The functions of a plan as they are on a route. -/
def Route.builtins (route : Route) (B : Builtins) : Builtins :=
  { B with nanDiffers := decide (route = .host) }

/-- The projection reads a `Utf8` column, for which the fused kernel has no registers. -/
def projectionNeedsHostColumns (schema : Schema) (projected : List (Expr Q)) : Bool :=
  projected.any (fun e => e.collectColumns.any (fun c =>
    (schema.field c).toOption.any (fun f => f.dtype == .utf8)))

/-- The route of `build_kernel` for a projected scan chain whose predicate the kernel compiles. -/
def Route.ofProjection (schema : Schema) (projected : List (Expr Q)) : Route :=
  if projectionNeedsHostColumns schema projected then .host else .kernel

/-! ### Scans and the filters above them -/

/-- A scan, with the filters directly above it, the nearest one first. -/
structure Site (Q : Type) where
  table : String
  projection : Option (List String)
  schema : Schema
  filters : List (Expr Q)

mutual

/-- The scans of a plan below some filters. -/
@[grind =]
def sites (above : List (Expr Q)) : LogicalPlan Q → List (Site Q)
  | .scan table projection schema => [⟨table, projection, schema, above⟩]
  | .filter input predicate => sites (predicate :: above) input
  | .project input _ => sites [] input
  | .aggregate input _ _ => sites [] input
  | .distinct input => sites [] input
  | .limit input _ _ => sites [] input
  | .sort input _ => sites [] input
  | .window input _ _ _ => sites [] input
  | .union inputs => sitesAll inputs
  | .setOp left right _ _ => sites [] left ++ sites [] right
  | .join left right _ _ _ => sites [] left ++ sites [] right

def sitesAll : List (LogicalPlan Q) → List (Site Q)
  | [] => []
  | input :: inputs => sites [] input ++ sitesAll inputs

end

namespace Site

/-- The row of the table as the scan delivers it. -/
def scanned (columns : List Nat) (row : StoredRow) : Row :=
  columns.map (fun i => (Chunk.cellAt i row).value)

/-- The row of the table passes every filter directly above the scan. -/
def passes (B : Builtins) (S : Subqueries Q) (site : Site Q) (row : StoredRow) : Bool :=
  match scanSchema site.schema site.projection, scanColumns site.schema site.projection with
  | .ok s, some columns =>
    site.filters.all (fun f => f.isPredicate S s && f.holds B S s (scanned columns row))
  | _, _ => false

variable (site : Site Q)

/-- The table column that a name denotes above the scan. -/
def denotes (name : String) : Option Nat :=
  match scanSchema site.schema site.projection, scanColumns site.schema site.projection with
  | .ok s, some columns => (s.position? name).bind (fun k => columns[k]?)
  | _, _ => none

/-- The request of the scan. -/
def request : ScanRequest :=
  scanRequest site.schema site.table site.projection site.filters.head?

/-- The conjuncts of the filter directly above the scan. -/
def conjuncts : List (Expr Q) :=
  match site.filters with
  | [] => []
  | f :: _ => splitAnd f

/-- The predicates on single columns among the conjuncts. -/
def predicates : List PrunePredicate :=
  site.conjuncts.filterMap (toPrune site.schema site.table)

theorem request_filters :
  site.request.filters = if site.predicates.isEmpty then [] else [site.predicates]
  := by
  obtain ⟨table, projection, schema, filters⟩ := site
  cases filters <;> rfl

/-- The chunk is skipped for the scan when one of its predicates is refuted. -/
theorem request_chunkMayMatch (stats : List ColumnStatistics) (rows : Nat) :
  site.request.chunkMayMatch stats rows =
    site.predicates.all (fun p => p.mayMatch stats rows)
  := by
  rw [ScanRequest.chunkMayMatch, request_filters]
  cases site.predicates with
  | nil => rfl
  | cons p ps => simp

end Site

/-! ### Requests of a plan -/

/-- A chunk is read for a union when it is read for one of its parts. -/
theorem ScanRequest.union_chunkMayMatch (r other : ScanRequest) (stats : List ColumnStatistics)
    (rows : Nat) :
  (r.union other).chunkMayMatch stats rows =
    (r.chunkMayMatch stats rows || other.chunkMayMatch stats rows)
  := by
  simp only [chunkMayMatch, union]
  cases r.filters with
  | nil => simp
  | cons p ps =>
    cases other.filters with
    | nil => simp
    | cons q qs => simp [Bool.or_assoc]

section Walk

variable {tables : List String}

/-- The step of `walk` at a scan. -/
def addSite (tables : List String) (out : Requests) (site : Site Q) : Requests :=
  if site.table ∈ tables then out.add site.table site.request else out

theorem walk_of_not_isScan (h : isScan plan = false) (f g : Option (Expr Q)) (out : Requests) :
  walk tables plan f out = walk tables plan g out
  := by
  cases plan with
  | scan table projection schema => simp [isScan] at h
  | _ => simp only [walk]

/-- `walk` visits the scans in order. -/
theorem walk_eq_foldl (plan : LogicalPlan Q) (above : List (Expr Q)) (out : Requests) :
  walk tables plan above.head? out = (sites above plan).foldl (addSite tables) out
  := by
  induction plan generalizing above out with
  | scan table projection schema =>
    simp only [walk, sites, foldl_cons, foldl_nil, addSite]
    rfl
  | filter input predicate ih =>
    rw [walk, sites, ← ih]
    split
    · rfl
    · next hs =>
      rw [walk_of_not_isScan (by simpa using hs)]
  | project _ _ ih | aggregate _ _ _ ih | distinct _ ih | limit _ _ _ ih | sort _ _ ih
  | window _ _ _ _ ih => rw [walk, sites, ← ih]; rfl
  | union inputs ih =>
    rw [walk, sites]
    induction inputs generalizing out with
    | nil => rfl
    | cons input inputs ihs =>
      rw [walkAll, sitesAll, foldl_append, ← ih input (by simp),
        ← ihs (fun p hp => ih p (mem_cons_of_mem _ hp))]
      rfl
  | setOp _ _ _ _ ihl ihr | join _ _ _ _ _ ihl ihr =>
    rw [walk, sites, foldl_append, ← ihl, ← ihr]
    rfl

/-- What is known of a table after some scans. -/
theorem foldl_addSite (ht : t ∈ tables) (ss : List (Site Q)) (out : Requests)
    (stats : List ColumnStatistics) (rows : Nat) :
  ((ss.foldl (addSite tables) out t).map (fun r => r.chunkMayMatch stats rows)).getD false =
    (((out t).map (fun r => r.chunkMayMatch stats rows)).getD false ||
      ss.any (fun site => decide (site.table = t) && site.request.chunkMayMatch stats rows))
  := by
  induction ss generalizing out with
  | nil => simp
  | cons site ss ih =>
    rw [foldl_cons, ih, any_cons, ← Bool.or_assoc]
    congr 1
    unfold addSite
    by_cases hs : site.table = t
    · subst hs
      rw [if_pos ht, Requests.add, if_pos rfl]
      cases out site.table with
      | none => simp
      | some r => simp [ScanRequest.union_chunkMayMatch]
    · have hs' : ¬t = site.table := fun h => hs h.symm
      split
      · rw [Requests.add, if_neg hs']
        simp [hs]
      · simp [hs]

theorem addSite_isSome {out : Requests} (h : (out t).isSome = true) (site : Site Q) :
  (addSite tables out site t).isSome = true
  := by
  unfold addSite Requests.add
  split
  · dsimp only
    split
    · rfl
    · exact h
  · exact h

theorem foldl_addSite_isSome (ht : t ∈ tables) (ss : List (Site Q)) (out : Requests)
    (h : (out t).isSome = true ∨ ∃ site ∈ ss, site.table = t) :
  (ss.foldl (addSite tables) out t).isSome = true
  := by
  induction ss generalizing out with
  | nil => simpa using h
  | cons site ss ih =>
    rw [foldl_cons]
    apply ih
    obtain h | ⟨other, hmem, hother⟩ := h
    · exact .inl (addSite_isSome h site)
    · obtain rfl | hmem := mem_cons.mp hmem
      · left
        subst hother
        rw [addSite, if_pos ht, Requests.add, if_pos rfl]
        rfl
      · exact .inr ⟨other, hmem, hother⟩

/-- A table that the plan scans has a request. -/
theorem exists_scanRequests (ht : t ∈ tables) {site : Site Q} (hsite : site ∈ sites [] plan)
    (hst : site.table = t) :
  ∃ req, scanRequests tables plan t = some req
  := by
  have h := foldl_addSite_isSome ht (sites [] plan) (fun _ => none) (.inr ⟨site, hsite, hst⟩)
  rw [← walk_eq_foldl, Option.isSome_iff_exists] at h
  obtain ⟨r, hr⟩ := h
  exact ⟨r.withPredicateColumns, congrArg (Option.map _) hr⟩

/-- A chunk is skipped exactly when every scan of the table has a predicate that is refuted. -/
theorem scanRequests_chunkMayMatch (ht : t ∈ tables) {req : ScanRequest}
    (hreq : scanRequests tables plan t = some req) (stats : List ColumnStatistics) (rows : Nat) :
  req.chunkMayMatch stats rows = false ↔
    ∀ site ∈ sites [] plan, site.table = t →
      ∃ p ∈ site.predicates, p.mayMatch stats rows = false
  := by
  rw [scanRequests, Option.map_eq_some_iff] at hreq
  obtain ⟨r, hr, rfl⟩ := hreq
  have hfold := foldl_addSite ht (sites [] plan) (fun _ => none) stats rows
  rw [← walk_eq_foldl] at hfold
  have hwalk : walk tables plan ([] : List (Expr Q)).head? (fun _ => none) t = some r := hr
  rw [hwalk] at hfold
  have hmay : r.withPredicateColumns.chunkMayMatch stats rows =
      (sites [] plan).any (fun site => decide (site.table = t) &&
        site.request.chunkMayMatch stats rows) := by
    simpa [ScanRequest.chunkMayMatch, ScanRequest.withPredicateColumns] using hfold
  rw [hmay]
  simp [Site.request_chunkMayMatch]

end Walk

end CratonBolt.Storage
