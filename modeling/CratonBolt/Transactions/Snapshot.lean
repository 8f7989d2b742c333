import CratonBolt.Library.ThreeWayMerge
import CratonBolt.Plan.Types

/-!
# Snapshots of tables and views

The table-and-view state that statements see (`exec/engine_txn.rs`), and the merge of a
transaction's changes into what was committed since it began. The rows of an in-memory table are a
value of the type `R`. A storage table is known by its object: a registered table by its pointer,
a table of the catalog by the catalog entry from which it was opened.
-/

namespace CratonBolt

open Std ThreeWayMerge

/-- Maps by table or view name: `HashMap` and `BTreeMap` of the source. -/
abbrev TableMap (α : Type) := ExtTreeMap String α

/-! ### The catalog (`storage/catalog.rs`) -/

/-- How a table's data is held. -/
inductive TableKind where
  | managed
  | external (location : String)
deriving DecidableEq

/-- The catalog entry of a table. -/
structure TableMeta where
  id : Nat
  kind : TableKind
  columns : List Field
  files : List String
  tableVersion : Nat
  analyzed : Option String
  clusterBy : List String
deriving DecidableEq

/-- The catalog entry of a materialized view. -/
structure ViewMeta where
  sql : String
  dependencies : List String
  baseVersions : TableMap Nat
  refreshedAtMs : Option Nat
deriving DecidableEq

/-- A complete catalog snapshot. -/
structure Manifest where
  version : Nat
  nextTableId : Nat
  tables : TableMap TableMeta
  views : TableMap ViewMeta
deriving DecidableEq

/-- The manifest that readers see and, inside a transaction, the one at its beginning. -/
structure CatalogState where
  manifest : Manifest
  txnBase : Option Manifest
deriving DecidableEq

/-! ### Snapshots -/

/-- The object of a storage table. -/
inductive StorageTable where
  | registered (pointer : Nat)
  | opened (entry : TableMeta)
deriving DecidableEq

/-- The definition of a materialized view. -/
structure ViewDef where
  sql : String
  dependencies : List String
  baseVersions : TableMap Nat
  refreshedAt : Option Nat
deriving DecidableEq

/-- The state that statements see: the committed one, or an open transaction's. -/
structure Snapshot (R : Type) where
  tables : TableMap R
  /-- Registered storage tables that are not catalog tables. -/
  storage : TableMap StorageTable
  tableVersions : TableMap Nat
  views : TableMap ViewDef
  catalog : Option CatalogState

/-- An open transaction. -/
structure Transaction (R : Type) where
  session : Option Nat
  aborted : Bool
  /-- The state at `BEGIN`. -/
  base : Snapshot R
  /-- Savepoints, oldest first. -/
  savepoints : List (String × Snapshot R)

/-- What identifies the content of a view. -/
def viewKey (v : ViewDef) : String × Option Nat × TableMap Nat :=
  (v.sql, v.refreshedAt, v.baseVersions)

def conflict (what name : String) : BoltError :=
  .plan (s!"could not serialize the transaction: {what} '{name}' was changed by a concurrent " ++
    "transaction")

namespace Snapshot

variable {R : Type}

/-- The data version of an in-memory table, if there is one. -/
def version (s : Snapshot R) (n : String) : Option (Option Nat) :=
  if s.tables.contains n then some s.tableVersions[n]? else none

def storageObject (s : Snapshot R) (n : String) : Option StorageTable := s.storage[n]?

def viewIdentity (s : Snapshot R) (n : String) : Option (String × Option Nat × TableMap Nat) :=
  s.views[n]?.map viewKey

section

variable (work next : Snapshot R)

/-- Take over the rows and the version of an in-memory table, or drop it. -/
def takeTable (n : String) : Snapshot R :=
  match work.tables[n]? with
  | some rows =>
    { next with
      tables := next.tables.insert n rows
      tableVersions :=
        match work.tableVersions[n]? with
        | some v => next.tableVersions.insert n v
        | none => next.tableVersions }
  | none =>
    { next with tables := next.tables.erase n, tableVersions := next.tableVersions.erase n }

/-- Take over the version of a table that is not in memory. -/
def takeVersion (base work next : Snapshot R) (n : String) : Snapshot R :=
  if base.tableVersions[n]? ≠ work.tableVersions[n]? && !work.tables.contains n then
    { next with tableVersions := takeFrom work.tableVersions next.tableVersions n }
  else next

def takeStorage (n : String) : Snapshot R :=
  { next with storage := takeFrom work.storage next.storage n }

def takeView (n : String) : Snapshot R :=
  { next with views := takeFrom work.views next.views n }

end

/-- Merge the changes that a transaction made from `base` to `work` into `committed`. -/
def merge (base work committed : Snapshot R) : BoltResult (Snapshot R) := do
  let next ← (ThreeWayMerge.merge base.version work.version committed.version (takeTable work)
    (sortedKeys compare (base.tables.keys ++ work.tables.keys)) committed).mapError
      (conflict "table")
  let next := work.tableVersions.keys.foldl (takeVersion base work) next
  let next ← (ThreeWayMerge.merge base.storageObject work.storageObject committed.storageObject
    (takeStorage work) (sortedKeys compare (base.storage.keys ++ work.storage.keys)) next).mapError
      (conflict "table")
  (ThreeWayMerge.merge base.viewIdentity work.viewIdentity committed.viewIdentity (takeView work)
    (sortedKeys compare (base.views.keys ++ work.views.keys)) next).mapError
      (conflict "materialized view")

end Snapshot

namespace Manifest

def takeTable (work next : Manifest) (n : String) : Manifest :=
  { next with tables := takeFrom work.tables next.tables n }

def takeView (work next : Manifest) (n : String) : Manifest :=
  { next with views := takeFrom work.views next.views n }

/-- The manifest that `commit_concurrent` publishes. -/
def merge (base work committed : Manifest) : BoltResult Manifest := do
  let next ← (ThreeWayMerge.merge (fun n => base.tables[n]?) (fun n => work.tables[n]?)
    (fun n => committed.tables[n]?) (takeTable work)
    (sortedKeys compare (base.tables.keys ++ work.tables.keys)) committed).mapError
      (conflict "table")
  let next ← (ThreeWayMerge.merge (fun n => base.views[n]?) (fun n => work.views[n]?)
    (fun n => committed.views[n]?) (takeView work)
    (sortedKeys compare (base.views.keys ++ work.views.keys)) next).mapError
      (conflict "materialized view")
  .ok { next with nextTableId := max next.nextTableId work.nextTableId }

end Manifest

end CratonBolt
