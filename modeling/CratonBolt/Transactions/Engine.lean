import CratonBolt.Transactions.Snapshot

/-!
# The engine and its transactions

One engine serves all sessions. Its registered state is the one statements work on; switching to
another session captures that state and installs the other one (`exec/engine_txn.rs`). `install`
registers again only the in-memory tables whose version differs from the registered one, and the
catalog tables whose entry differs.

The device and the disk may refuse an operation; `Faults` says which. A failed operation leaves
the state as it is at that point.
-/

namespace CratonBolt

open Std ThreeWayMerge

/-! ### The catalog -/

/-- What the device and the disk refuse. -/
structure Faults where
  /-- Registering an in-memory table. -/
  register : String → Option BoltError
  /-- Coalescing the batches of a table after one was appended. -/
  coalesce : String → Option BoltError
  /-- Opening the files of a catalog table. -/
  openTable : String → Option BoltError
  /-- Publishing a manifest. -/
  publish : Option BoltError

def Faults.none : Faults where
  register _ := Option.none
  coalesce _ := Option.none
  openTable _ := Option.none
  publish := Option.none

/-- An attached catalog. `published` is the manifest on disk. -/
structure Catalog where
  manifest : Manifest
  txnBase : Option Manifest
  readOnly : Bool
  published : Manifest

namespace Catalog

variable (c : Catalog)

def state : CatalogState := ⟨c.manifest, c.txnBase⟩

def setState (s : CatalogState) : Catalog :=
  { c with manifest := s.manifest, txnBase := s.txnBase }

def inTransaction : Bool := c.txnBase.isSome

def writable : BoltResult Unit :=
  if c.readOnly then .error (.plan s!"catalog snapshot {c.manifest.version} is read-only")
  else .ok ()

/-- Start a transaction: later changes stay unpublished. -/
def begin : BoltResult Catalog := do
  c.writable
  if c.inTransaction then .error (.plan "a transaction is already open")
  .ok { c with txnBase := some c.manifest }

/-- Make `next` the manifest; outside a transaction this publishes it. -/
def commit (faults : Faults) (c : Catalog) (next : Manifest) : BoltResult Catalog :=
  match c.txnBase with
  | some base => .ok { c with manifest := { next with version := base.version + 1 } }
  | none =>
    let next := { next with version := c.manifest.version + 1 }
    match faults.publish with
    | some err => .error err
    | none => .ok { c with manifest := next, published := next }

/-- Publish the open transaction over `committed`. Either way the transaction is over. -/
def commitConcurrent (faults : Faults) (c : Catalog) (committed : Manifest) :
    BoltResult Unit × Catalog :=
  match c.txnBase with
  | none => (.error (.plan "no transaction is open"), c)
  | some base =>
    let outside := { c with manifest := committed, txnBase := none }
    match Manifest.merge base c.manifest committed with
    | .error err => (.error err, outside)
    | .ok next =>
      if next = committed then (.ok (), outside)
      else
        match outside.commit faults next with
        | .error err => (.error err, outside)
        | .ok c' => (.ok (), c')

end Catalog

/-! ### Registered tables -/

/-- The tables and views on which statements work. -/
structure Registered (R : Type) where
  tables : TableMap R
  storageTables : TableMap StorageTable
  tableVersions : TableMap Nat
  views : TableMap ViewDef
  catalog : Option Catalog
  /-- The number of changes; the counter of the source is its remainder by `2 ^ 64`. -/
  dataEpoch : Nat

/-- Operations that may fail, and then leave the state that they reached. -/
abbrev RegisteredM (R : Type) := EStateM BoltError (Registered R)

namespace Registered

variable {R : Type}

def hasTable (r : Registered R) (n : String) : Bool :=
  r.tables.contains n || r.storageTables.contains n

/-- The tables of the catalog, if one is attached. -/
def catalogTables (r : Registered R) : TableMap TableMeta :=
  match r.catalog with
  | some c => c.manifest.tables
  | none => ∅

def bumpDataEpoch : RegisteredM R Unit :=
  modify (fun r => { r with dataEpoch := r.dataEpoch + 1 })

/-- Record that the data of a table changed. -/
def touchTable (n : String) : RegisteredM R Unit := do
  bumpDataEpoch
  modify (fun r => { r with tableVersions := r.tableVersions.insert n (r.dataEpoch % 2 ^ 64) })

/-- Fail with the error, if there is one. -/
def raise : Option BoltError → RegisteredM R Unit
  | some err => throw err
  | none => pure ()

variable (faults : Faults) (n : String)

def registerTable (rows : R) : RegisteredM R Unit := do
  bumpDataEpoch
  if (← get).hasTable n then
    throw (.plan (s!"table '{n}' is already registered — use register_batch to append " ++
      "additional batches to an existing table"))
  touchTable n
  raise (faults.register n)
  modify (fun r => { r with tables := r.tables.insert n rows })

/-- Replace the rows of a table. Statements do this only to in-memory tables (`writable_schema`). -/
def replaceTable (rows : R) : RegisteredM R Unit := do
  if !(← get).tables.contains n then throw (.plan s!"table '{n}' does not exist")
  bumpDataEpoch
  touchTable n
  raise (faults.register n)
  modify (fun r => { r with tables := r.tables.insert n rows })

/-- Append to a table, or create it. A batch that was appended stays when coalescing fails. -/
def registerBatch [Append R] (faults : Faults) (n : String) (batch : R) : RegisteredM R Unit := do
  bumpDataEpoch
  touchTable n
  match (← get).tables[n]? with
  | some existing =>
    raise (faults.register n)
    modify (fun r => { r with tables := r.tables.insert n (existing ++ batch) })
    raise (faults.coalesce n)
  | none => registerTable faults n batch

/-- Unregister a table of any kind. -/
def deregisterTable : RegisteredM R Unit := do
  if !(← get).hasTable n then throw (.plan s!"table '{n}' is not registered")
  bumpDataEpoch
  modify (fun r =>
    { r with tables := r.tables.erase n, storageTables := r.storageTables.erase n })

def ensureNameFree : RegisteredM R Unit := do
  if (← get).hasTable n then throw (.plan s!"table '{n}' is already registered")

def registerStorageTable (table : StorageTable) : RegisteredM R Unit := do
  ensureNameFree n
  touchTable n
  modify (fun r => { r with storageTables := r.storageTables.insert n table })

/-- Register a catalog table from the current files of the catalog. -/
def registerCatalogTable : RegisteredM R Unit := do
  match (← get).catalog with
  | none => throw (.plan "no catalog attached")
  | some cat =>
    match cat.manifest.tables[n]? with
    | none => throw (.plan s!"catalog has no table '{n}'")
    | some entry =>
      raise (faults.openTable n)
      if (← get).hasTable n then deregisterTable n
      registerStorageTable n (.opened entry)

/-- Replace the manifest of the catalog by a changed one. -/
def changeManifest (change : Manifest → BoltResult Manifest) :
    RegisteredM R Unit := do
  match (← get).catalog with
  | none => throw (.plan "no catalog attached")
  | some cat =>
    match (do cat.writable; cat.commit faults (← change cat.manifest)) with
    | .error err => throw err
    | .ok cat' => modify (fun r => { r with catalog := some cat' })

/-! ### Changes that statements make -/

/-- `create_table` of a durable table. -/
def createCatalogTable (entry : TableMeta) :
    RegisteredM R Unit := do
  ensureNameFree n
  changeManifest faults (fun m =>
    if m.tables.contains n || m.views.contains n then
      .error (.plan s!"catalog already has a table named '{n}'")
    else .ok { m with nextTableId := m.nextTableId + 1, tables := m.tables.insert n entry })
  registerCatalogTable faults n

/-- Appending to a catalog table, rewriting, truncating or compacting it: its entry changes. -/
def changeCatalogTable (entry : TableMeta) :
    RegisteredM R Unit := do
  changeManifest faults (fun m =>
    if m.tables.contains n then .ok { m with tables := m.tables.insert n entry }
    else .error (.plan s!"catalog has no table '{n}'"))
  registerCatalogTable faults n

/-- Remove a table, from the catalog too if it is there. -/
def dropTable : RegisteredM R Unit := do
  if (← get).catalogTables.contains n then
    changeManifest faults (fun m => .ok { m with tables := m.tables.erase n })
  deregisterTable n

/-- Define a view, in the catalog too if the view is durable. -/
def putView (v : ViewDef) (persisted : Option ViewMeta) :
    RegisteredM R Unit := do
  if let some entry := persisted then
    changeManifest faults (fun m => .ok { m with views := m.views.insert n entry })
  modify (fun r => { r with views := r.views.insert n v })

/-- Forget a view, in the catalog too if it is there. Its rows are dropped as a table. -/
def removeView : RegisteredM R Unit := do
  if !(← get).views.contains n then
    throw (.plan s!"materialized view '{n}' does not exist")
  modify (fun r => { r with views := r.views.erase n })
  match (← get).catalog with
  | none => pure ()
  | some cat =>
    if cat.manifest.views.contains n then
      changeManifest faults (fun m => .ok { m with views := m.views.erase n })

end Registered

/-- The changes of which statements consist. -/
inductive Change (R : Type) where
  | registerTable (name : String) (rows : R)
  | replaceTable (name : String) (rows : R)
  | registerBatch (name : String) (batch : R)
  | registerStorageTable (name : String) (pointer : Nat)
  | createCatalogTable (name : String) (entry : TableMeta)
  | changeCatalogTable (name : String) (entry : TableMeta)
  | dropTable (name : String)
  | putView (name : String) (view : ViewDef) (persisted : Option ViewMeta)
  | removeView (name : String)
  | touchTable (name : String)
  | bumpDataEpoch

/-- The changes that a statement makes until it is done or fails for a reason of its own. -/
structure Statement (R : Type) where
  changes : List (Change R)
  failure : Option BoltError

namespace Registered

variable {R : Type} [Append R]

def runChange (faults : Faults) : Change R → RegisteredM R Unit
  | .registerTable n rows => registerTable faults n rows
  | .replaceTable n rows => replaceTable faults n rows
  | .registerBatch n batch => registerBatch faults n batch
  | .registerStorageTable n pointer => registerStorageTable n (.registered pointer)
  | .createCatalogTable n entry => createCatalogTable faults n entry
  | .changeCatalogTable n entry => changeCatalogTable faults n entry
  | .dropTable n => dropTable faults n
  | .putView n v persisted => putView faults n v persisted
  | .removeView n => removeView faults n
  | .touchTable n => touchTable n
  | .bumpDataEpoch => bumpDataEpoch

def runStatement (faults : Faults) (st : Statement R) : RegisteredM R Unit := do
  st.changes.forM (runChange faults)
  raise st.failure

end Registered

/-! ### Capturing and installing -/

namespace Registered

variable {R : Type}

/-- The current table-and-view state. -/
def capture (r : Registered R) : Snapshot R where
  tables := r.tables
  storage := r.storageTables.filter (fun n _ => !r.catalogTables.contains n)
  tableVersions := r.tableVersions
  views := r.views
  catalog := r.catalog.map Catalog.state

variable (faults : Faults) (s : Snapshot R)

/-- Open a catalog table that changed, drop one that is gone. -/
def installCatalogTable (before : TableMap TableMeta)
    (n : String) : RegisteredM R Unit := do
  let r ← get
  match r.catalogTables[n]? with
  | some entry =>
    if before[n]? ≠ some entry || !r.hasTable n then registerCatalogTable faults n
  | none => if r.hasTable n && !s.tables.contains n then deregisterTable n

/-- The catalog tables. Returns their names. -/
def installCatalog : RegisteredM R (List String) := do
  let r ← get
  match r.catalog, s.catalog with
  | some cat, some state =>
    let before := cat.manifest.tables
    set { r with catalog := some (cat.setState state) }
    let after := state.manifest.tables
    (sortedKeys compare (before.keys ++ after.keys)).forM (installCatalogTable faults s before)
    pure after.keys
  | _, _ => pure []

/-- Unregister an in-memory table that the snapshot lacks. -/
def removeTable (n : String) : RegisteredM R Unit :=
  if s.tables.contains n then pure () else deregisterTable n

/-- Register an in-memory table of the snapshot, unless its version is registered. -/
def installTable (n : String) : RegisteredM R Unit := do
  let r ← get
  match s.tables[n]? with
  | none => pure ()
  | some rows =>
    if r.tables.contains n && r.tableVersions[n]? = s.tableVersions[n]? then pure ()
    else
      if r.hasTable n then deregisterTable n
      registerTable faults n rows

/-- Unregister a storage table that is not the one of the snapshot. -/
def removeStorage (n : String) : RegisteredM R Unit := do
  if s.storage[n]? = (← get).storageTables[n]? then pure () else deregisterTable n

def installStorage (n : String) : RegisteredM R Unit := do
  match s.storage[n]? with
  | none => pure ()
  | some table => if (← get).hasTable n then pure () else registerStorageTable n table

/-- Make `s` the state statements see. -/
def install : RegisteredM R Unit := do
  let restored ← installCatalog faults s
  (← get).tables.keys.forM (removeTable s)
  s.tables.keys.forM (installTable faults s)
  ((← get).storageTables.keys.filter (fun n => !restored.contains n)).forM (removeStorage s)
  s.storage.keys.forM (installStorage s)
  modify (fun r => { r with views := s.views, tableVersions := s.tableVersions })
  bumpDataEpoch

end Registered

/-! ### Sessions and transactions -/

/-- The engine, with the transactions of all sessions. -/
structure Engine (R : Type) where
  registered : Registered R
  /-- The transaction whose state is installed. -/
  txn : Option (Transaction R)
  /-- The other open transactions, each with its latest state. -/
  parked : Option Nat → Option (Transaction R × Snapshot R)
  /-- The committed state while a transaction's state is installed. -/
  committed : Option (Snapshot R)
  currentSession : Option Nat

abbrev EngineM (R : Type) := EStateM BoltError (Engine R)

namespace Engine

variable {R : Type}

/-- Work on the registered tables. -/
def onRegistered {α : Type} (m : RegisteredM R α) : EngineM R α := fun e =>
  match m e.registered with
  | .ok a r => .ok a { e with registered := r }
  | .error err r => .error err { e with registered := r }

def capture (e : Engine R) : Snapshot R := e.registered.capture

/-- The session of the installed transaction. -/
def transactionHolder (e : Engine R) : Option (Option Nat) := e.txn.map Transaction.session

def hasTransaction (e : Engine R) (session : Option Nat) : Bool :=
  e.transactionHolder = some session || (e.parked session).isSome

/-- Park the installed transaction with its state, or keep the committed state aside. -/
def park (e : Engine R) : Engine R :=
  match e.txn with
  | some t =>
    { e with txn := none, parked := Function.update e.parked t.session (some (t, e.capture)) }
  | none => { e with committed := some e.capture }

variable (faults : Faults)

/-- Install the committed state that was kept aside. -/
def installCommitted : EngineM R Unit := do
  match (← get).committed with
  | none => throw (.other "committed state saved")
  | some c =>
    modify (fun e => { e with committed := none })
    onRegistered (Registered.install faults c)

/-- Install the state of a session: its transaction's, or the committed one. -/
def activateSession (session : Option Nat) : EngineM R Unit := do
  let e ← get
  let target := if e.hasTransaction session then some session else none
  if e.transactionHolder = target then pure ()
  else
    set e.park
    match target with
    | none => installCommitted faults
    | some s =>
      match e.park.parked s with
      | none => throw (.other "parked transaction")
      | some (t, work) =>
        modify (fun e => { e with parked := Function.update e.parked s none })
        onRegistered (Registered.install faults work)
        modify (fun e => { e with txn := some t })

/-- Install the committed state. -/
def activateCommitted : EngineM R Unit := do
  let e ← get
  match e.txn with
  | none => pure ()
  | some _ =>
    set e.park
    installCommitted faults

/-- `BEGIN`. -/
def beginTransaction : EngineM R Unit := do
  let e ← get
  if e.txn.isSome then throw (.plan "a transaction is already open")
  let committed := e.capture
  match e.registered.catalog with
  | none => pure ()
  | some cat =>
    if cat.readOnly then pure ()
    else
      match cat.begin with
      | .error err => throw err
      | .ok cat' =>
        modify (fun e => { e with registered := { e.registered with catalog := some cat' } })
  modify (fun e =>
    { e with
      committed := some committed
      txn := some ⟨e.currentSession, false, e.capture, []⟩ })

/-- `ROLLBACK`. -/
def rollbackTransaction : EngineM R Unit := do
  if (← get).txn.isNone then throw (.plan "no transaction is open")
  modify (fun e => { e with txn := none })
  installCommitted faults

/-- The merged state becomes the committed one. -/
def finishCommit (merged : Snapshot R) : EngineM R Unit := do
  modify (fun e => { e with txn := none, committed := none })
  onRegistered (Registered.install faults merged)

/-- Publish the transaction's part of the catalog, then install the merged state. -/
def publish (work committed merged : Snapshot R) : EngineM R Unit := do
  match (← get).registered.catalog with
  | none => finishCommit faults merged
  | some cat =>
    if !cat.inTransaction then finishCommit faults { merged with catalog := some cat.state }
    else
      let published := (committed.catalog.map CatalogState.manifest).getD cat.manifest
      let (result, cat') := cat.commitConcurrent faults published
      let shown := match work.catalog with
        | some state => cat'.setState state
        | none => cat'
      modify (fun e => { e with registered := { e.registered with catalog := some shown } })
      match result with
      | .error err =>
        rollbackTransaction faults
        throw err
      | .ok _ => finishCommit faults { merged with catalog := some cat'.state }

/-- `COMMIT`. -/
def commitTransaction : EngineM R Unit := do
  let e ← get
  match e.txn with
  | none => throw (.plan "no transaction is open")
  | some txn =>
    if txn.aborted then
      rollbackTransaction faults
      throw (.plan "the transaction was aborted by an earlier error and has been rolled back")
    else
      match e.committed with
      | none => throw (.other "committed state saved")
      | some committed =>
        match Snapshot.merge txn.base e.capture committed with
        | .error err =>
          rollbackTransaction faults
          throw err
        | .ok merged => publish faults e.capture committed merged

def ensureTransactionUsable : EngineM R Unit := do
  match (← get).txn with
  | some t =>
    if t.aborted then throw (.plan "the current transaction is aborted; ROLLBACK to end it")
    else pure ()
  | none => pure ()

/-- `SAVEPOINT`. -/
def savepoint (name : String) : EngineM R Unit := do
  ensureTransactionUsable
  let e ← get
  match e.txn with
  | none => throw (.plan "SAVEPOINT needs an open transaction")
  | some t =>
    set { e with txn := some { t with savepoints := t.savepoints ++ [(name, e.capture)] } }

/-- The savepoints up to the newest one of the given name, with its state. -/
def findSavepoint (name : String) : List (String × Snapshot R) →
    Option (List (String × Snapshot R) × Snapshot R)
  | [] => none
  | (n, s) :: rest =>
    match findSavepoint name rest with
    | some (kept, found) => some ((n, s) :: kept, found)
    | none => if eqIgnoreAsciiCase n name then some ([(n, s)], s) else none

/-- The savepoint of the given name in the installed transaction. -/
def savepointIndex (e : Engine R) (name : String) :
    BoltResult (Transaction R × List (String × Snapshot R) × Snapshot R) :=
  match e.txn with
  | none => .error (.plan "no transaction is open")
  | some t =>
    match findSavepoint name t.savepoints with
    | none => .error (.plan s!"savepoint '{name}' does not exist")
    | some (kept, s) => .ok (t, kept, s)

/-- `ROLLBACK TO SAVEPOINT`. -/
def rollbackToSavepoint (name : String) : EngineM R Unit := do
  match (← get).savepointIndex name with
  | .error err => throw err
  | .ok (t, kept, s) =>
    modify (fun e => { e with txn := some { t with savepoints := kept, aborted := false } })
    onRegistered (Registered.install faults s)

/-- `RELEASE SAVEPOINT`. -/
def releaseSavepoint (name : String) : EngineM R Unit := do
  ensureTransactionUsable
  match (← get).savepointIndex name with
  | .error err => throw err
  | .ok (t, kept, _) =>
    modify (fun e => { e with txn := some { t with savepoints := kept.dropLast } })

/-- Record that a statement failed inside the open transaction. -/
def abortTransactionOnError (e : Engine R) : Engine R :=
  { e with txn := e.txn.map (fun t => { t with aborted := true }) }

/-- Any other statement; if it fails, the open transaction is aborted. -/
def executeStatement [Append R] (faults : Faults) (st : Statement R) : EngineM R Unit := do
  ensureTransactionUsable
  fun e =>
    match onRegistered (Registered.runStatement faults st) e with
    | .ok _ e' => .ok () e'
    | .error err e' => .error err e'.abortTransactionOnError

end Engine

/-! ### Jobs (`exec/session.rs`) -/

/-- What a session asks for. -/
inductive Action (R : Type) where
  | statement (st : Statement R)
  | beginTransaction
  | commitTransaction
  | rollbackTransaction
  | savepoint (name : String)
  | rollbackToSavepoint (name : String)
  | releaseSavepoint (name : String)

/-- An action of a session, or the refresh of views over the committed state by the runtime. -/
inductive Job (R : Type) where
  | run (session : Option Nat) (action : Action R) (activation faults : Faults)
  | refresh (st : Statement R) (activation faults : Faults)

namespace Engine

variable {R : Type} [Append R]

def runAction (faults : Faults) : Action R → EngineM R Unit
  | .statement st => executeStatement faults st
  | .beginTransaction => beginTransaction
  | .commitTransaction => commitTransaction faults
  | .rollbackTransaction => rollbackTransaction faults
  | .savepoint name => savepoint name
  | .rollbackToSavepoint name => rollbackToSavepoint faults name
  | .releaseSavepoint name => releaseSavepoint name

/-- The engine after an operation, whether it failed or not. -/
def after {α : Type} (m : EngineM R α) (e : Engine R) : Engine R :=
  match m e with
  | .ok _ e' => e'
  | .error _ e' => e'

/-- Activate the session, then run its action; a failed activation fails the job. -/
def runJob (e : Engine R) : Job R → Engine R
  | .run session action activation faults =>
    match activateSession activation session e with
    | .error _ e' => e'
    | .ok _ e' =>
      { after (runAction faults action) { e' with currentSession := session } with
        currentSession := none }
  | .refresh st activation faults =>
    match activateCommitted activation e with
    | .error _ e' => e'
    | .ok _ e' => after (executeStatement faults st) e'

def runJobs (e : Engine R) (jobs : List (Job R)) : Engine R := jobs.foldl runJob e

end Engine

end CratonBolt
