import CratonBolt.Plan.PlanSchema
import CratonBolt.Storage.Statistics
import Mathlib.Data.Finset.Card

/-!
# Scan requests and zone-map pruning

What a query needs of a stored table, as `storage/scan.rs` derives it from the plan: the columns its
scans read, and predicates on single columns taken from the filters that sit directly on its scans.
A chunk is skipped when its zone map refutes one predicate of every such filter.
-/

namespace CratonBolt.Storage

/-! ### Predicates -/

/-- Comparison in a `PrunePredicate`. -/
inductive PruneOp where
  | eq | notEq | lt | ltEq | gt | gtEq
deriving DecidableEq, Repr

/-- The comparison with its sides exchanged. -/
def PruneOp.flip : PruneOp → PruneOp
  | lt => gt
  | ltEq => gtEq
  | gt => lt
  | gtEq => ltEq
  | other => other

/-- One predicate on a single column that a zone map can refute. -/
inductive PrunePredicate where
  | compare (column : Nat) (op : PruneOp) (value : Literal)
  | inList (column : Nat) (values : List Literal)
  | isNull (column : Nat)
  | isNotNull (column : Nat)
deriving DecidableEq, Repr

def PrunePredicate.column : PrunePredicate → Nat
  | compare column _ _ | inList column _ | isNull column | isNotNull column => column

/--
No value between two bounds passes a comparison, from the order of the bounds with the constant;
none is a bound that is unknown or not ordered with the constant.
-/
def boundsExclude (op : PruneOp) (lo hi : Option Ordering) : Bool :=
  match op with
  | .eq => lo == some .gt || hi == some .lt
  | .notEq => lo == some .eq && hi == some .eq
  | .lt => lo == some .gt || lo == some .eq
  | .ltEq => lo == some .gt
  | .gt => hi == some .lt || hi == some .eq
  | .gtEq => hi == some .lt

def rangeMayMatch (s : ColumnStatistics) (op : PruneOp) (v : Literal) (rows : Nat) : Bool :=
  if s.nullCount = some rows ∧ 0 < rows then false
  else !boundsExclude op (s.min.bind (compareLiterals · v)) (s.max.bind (compareLiterals · v))

/-- Unknown, or of the given kind. -/
def unknownOr (p : Nat → Bool) : Option Nat → Bool
  | none => true
  | some n => p n

/-- False only when the statistics of a chunk of `rows` rows refute the predicate. -/
def PrunePredicate.mayMatch (stats : List ColumnStatistics) (rows : Nat) : PrunePredicate → Bool
  | isNull column =>
    unknownOr (fun n => decide (0 < n)) (stats[column]?.bind ColumnStatistics.nullCount)
  | isNotNull column =>
    unknownOr (fun n => decide (n < rows)) (stats[column]?.bind ColumnStatistics.nullCount)
  | compare column op value =>
    match stats[column]? with
    | some s => rangeMayMatch s op value rows
    | none => true
  | inList column values =>
    match stats[column]? with
    | some s => values.any (fun v => rangeMayMatch s .eq v rows)
    | none => true

/-! ### Requests -/

/-- What a query needs from one table. -/
structure ScanRequest where
  /-- The columns to read; none reads every column. -/
  columns : Option (Finset Nat)
  /-- A disjunction of conjunctions; without any, every row is read. -/
  filters : List (List PrunePredicate)
deriving DecidableEq

namespace ScanRequest

/-- A chunk with these statistics must be read. -/
def chunkMayMatch (r : ScanRequest) (stats : List ColumnStatistics) (rows : Nat) : Bool :=
  r.filters.isEmpty || r.filters.any (fun conj => conj.all (fun p => p.mayMatch stats rows))

/-- The request that covers two requests. -/
def union (r other : ScanRequest) : ScanRequest where
  columns :=
    match r.columns, other.columns with
    | some a, some b => some (a ∪ b)
    | _, _ => none
  filters :=
    if r.filters.isEmpty || other.filters.isEmpty then [] else r.filters ++ other.filters

/-- Every column that a predicate references. -/
def predicateColumns (r : ScanRequest) : List Nat := r.filters.flatten.map PrunePredicate.column

end ScanRequest

/-! ### From filters to predicates -/

/-- A name cut at its last dot. -/
def rsplitOnce (name : String) : Option (String × String) :=
  let reversed := name.toList.reverse
  match reversed.dropWhile (· ≠ '.') with
  | [] => none
  | _ :: front =>
    some (String.ofList front.reverse, String.ofList (reversed.takeWhile (· ≠ '.')).reverse)

/-- The table column a name denotes: its exact name, or its name qualified by the table. -/
def resolveColumn (schema : Schema) (table name : String) : Option Nat :=
  match schema.position? name with
  | some i => some i
  | none =>
    match rsplitOnce name with
    | none => none
    | some (q, c) =>
      if q = table ∨ ("." ++ table).toList.isSuffixOf q.toList then schema.position? c else none

section Extraction

variable {Q : Type} (schema : Schema) (table : String)

/--
The condition of the frontend's three-valued wrapper `CASE WHEN c THEN true WHEN NOT c THEN false
ELSE NULL END`. Its second condition is not looked at.
-/
def threeValuedCondition : Expr Q → Option (Expr Q)
  | .case [(c, .literal (.bool true)), (_, .literal (.bool false))] none => some c
  | .case [(c, .literal (.bool true)), (_, .literal (.bool false))] (some (.literal .null)) =>
    some c
  | _ => none

/-- The conjuncts of a predicate, also those of the condition of a three-valued wrapper. -/
def splitAnd : Expr Q → List (Expr Q)
  | .binary .and left right => splitAnd left ++ splitAnd right
  | .case [(c, .literal (.bool true)), (_, .literal (.bool false))] none => splitAnd c
  | .case [(c, .literal (.bool true)), (_, .literal (.bool false))] (some (.literal .null)) =>
    splitAnd c
  | e => [e]

/-- The column an expression is. -/
def columnOf : Expr Q → Option Nat
  | .column c => resolveColumn schema table c
  | _ => none

/-- The constant an expression is, if it is not `NULL`. -/
def literalOf : Expr Q → Option Literal
  | .literal .null => none
  | .literal l => some l
  | _ => none

def pruneOp : BinaryOp → Option PruneOp
  | .eq => some .eq
  | .notEq => some .notEq
  | .lt => some .lt
  | .ltEq => some .ltEq
  | .gt => some .gt
  | .gtEq => some .gtEq
  | _ => none

/-- A comparison of a column with a constant, in either order. -/
def comparisonToPrune (op : PruneOp) (left right : Expr Q) : Option PrunePredicate :=
  match columnOf schema table left, literalOf right with
  | some column, some value => some (.compare column op value)
  | _, _ =>
    match literalOf left, columnOf schema table right with
    | some value, some column => some (.compare column op.flip value)
    | _, _ => none

/-- `to_prune` on an expression that is no `OR`. -/
def toPruneArm : Expr Q → Option PrunePredicate
  | .binary op left right =>
    (pruneOp op).bind (fun op => comparisonToPrune schema table op left right)
  | .unary .isNull operand => (columnOf schema table operand).map .isNull
  | .unary .isNotNull operand => (columnOf schema table operand).map .isNotNull
  | _ => none

/-- The arms of a disjunction. -/
def collectArms : Expr Q → List (Expr Q)
  | .binary .or left right => collectArms left ++ collectArms right
  | e => [e]

/-- The loop over the arms, which must all be equalities on one column. -/
def equalityArms : List (Expr Q) → Option Nat → List Literal → Option PrunePredicate
  | [], column, values => column.map (fun c => .inList c values)
  | arm :: arms, column, values =>
    match toPruneArm schema table arm with
    | some (.compare c .eq value) =>
      if column.any (· ≠ c) then none else equalityArms arms (some c) (values ++ [value])
    | some (.inList c vs) =>
      if column.any (· ≠ c) then none else equalityArms arms (some c) (values ++ vs)
    | _ => none

/-- `c = a OR c = b OR ...`, all on one column, as an `IN` list. -/
def orOfEqualities (e : Expr Q) : Option PrunePredicate :=
  equalityArms schema table (collectArms e) none []

def toPrune : Expr Q → Option PrunePredicate
  | .binary .or left right => orOfEqualities schema table (.binary .or left right)
  | e => toPruneArm schema table e

def prunableConjuncts (pred : Expr Q) : List PrunePredicate :=
  (splitAnd pred).filterMap (toPrune schema table)

/-- The columns a scan reads; none when a name of its projection is not understood. -/
def scanRequestColumns : Option (List String) → Option (Finset Nat)
  | none => none
  | some cols =>
    let columns := (cols.filterMap (resolveColumn schema table)).toFinset
    if columns.card = cols.length then some columns else none

/-- The request of one scan, with the filter directly above it. -/
def scanRequest (projection : Option (List String)) (filterAbove : Option (Expr Q)) :
    ScanRequest where
  columns := scanRequestColumns schema table projection
  filters :=
    match filterAbove with
    | some pred =>
      let conj := prunableConjuncts schema table pred
      if conj.isEmpty then [] else [conj]
    | none => []

end Extraction

/-! ### The requests of a plan -/

/-- The requests found so far, by table. -/
abbrev Requests := String → Option ScanRequest

/-- Add a request to what is known of a table. -/
def Requests.add (out : Requests) (table : String) (req : ScanRequest) : Requests :=
  fun t => if t = table then some (((out t).map (fun r => r.union req)).getD req) else out t

section Walk

variable {Q : Type} (tables : List String)

/-- The plan is a scan. -/
def isScan : LogicalPlan Q → Bool
  | .scan _ _ _ => true
  | _ => false

mutual

/-- Collect the requests of the scans of a plan. -/
@[grind =]
def walk (plan : LogicalPlan Q) (filterAbove : Option (Expr Q)) (out : Requests) : Requests :=
  match plan with
  | .scan table projection schema =>
    if table ∈ tables then out.add table (scanRequest schema table projection filterAbove) else out
  | .filter input predicate =>
    if isScan input then walk input (some predicate) out else walk input none out
  | .project input _ => walk input none out
  | .aggregate input _ _ => walk input none out
  | .distinct input => walk input none out
  | .limit input _ _ => walk input none out
  | .sort input _ => walk input none out
  | .window input _ _ _ => walk input none out
  | .union inputs => walkAll inputs out
  | .setOp left right _ _ => walk right none (walk left none out)
  | .join left right _ _ _ => walk right none (walk left none out)

def walkAll : List (LogicalPlan Q) → Requests → Requests
  | [], out => out
  | input :: inputs, out => walkAll inputs (walk input none out)

end

/-- The columns of the predicates are read as well. -/
def ScanRequest.withPredicateColumns (req : ScanRequest) : ScanRequest where
  columns := req.columns.map (fun cols => cols ∪ req.predicateColumns.toFinset)
  filters := req.filters

/-- The scan requests of a plan, for the tables that are asked about. -/
def scanRequests (plan : LogicalPlan Q) (table : String) : Option ScanRequest :=
  (walk tables plan none (fun _ => none) table).map ScanRequest.withPredicateColumns

end Walk

end CratonBolt.Storage
