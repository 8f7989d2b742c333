import CratonBolt.Library.Ranks
import CratonBolt.Library.StateErrors
import CratonBolt.Strings.Like
import Mathlib.Data.List.Lex

/-!
# String predicates over dictionaries

`plan/string_literal_rewrite.rs`, with the dictionaries of `cuda/dictionary.rs` and the registry of
`exec/dict_registry.rs`: a predicate over a dictionary-encoded column becomes a test on the column
of its indices. An ordering of two such columns becomes a comparison of ranks; the table of ranks of
each column is kept in the registry under a name made from the column's.
-/

namespace CratonBolt.DictRewrite

open Ranks

variable {Q : Type}

/-! ### Dictionaries -/

/-- The bytes of a string, by which strings are ordered. -/
def textBytes (s : String) : List Nat := (Utf8.bytes s.toList).map UInt8.toNat

/-- An ordering operator as a test. -/
def ordered {α : Type} [LinearOrder α] : BinaryOp → α → α → Bool
  | .lt, x, y => decide (x < y)
  | .ltEq, x, y => decide (x ≤ y)
  | .gt, x, y => decide (y < x)
  | .gtEq, x, y => decide (y ≤ x)
  | _, _, _ => false

/-- The distinct strings of a column. The string at position `p` has index `p + 1`; 0 is NULL. -/
structure Dictionary where
  dictionary : List String
  isI32 : Bool
  distinct : dictionary.Nodup

/-- An index as a constant of the width of the dictionary's indices. -/
def Dictionary.literalIndex (d : Dictionary) (idx : Nat) : Literal :=
  if d.isI32 then .int32 (Int32.ofNat idx) else .int64 (Int64.ofNat idx)

def Dictionary.indexOf (d : Dictionary) (s : String) : Option Literal :=
  (d.dictionary.idxOf? s).map (fun p => d.literalIndex (p + 1))

def Dictionary.indexDtype (d : Dictionary) : DataType := if d.isI32 then .int32 else .int64

/-- The indices of the strings that pass a test. -/
def Dictionary.indicesWhere (d : Dictionary) (test : String → Bool) : List Literal :=
  ((d.dictionary.zipIdx 1).filter (fun entry => test entry.1)).map
    (fun entry => d.literalIndex entry.2)

def Dictionary.indicesSatisfying (d : Dictionary) (op : BinaryOp) (probe : String) :
    List Literal :=
  d.indicesWhere (fun s => ordered op (textBytes s) (textBytes probe))

/-- The rank of NULL. -/
def nullRankSentinel : Int := -1

/-- The rank of every index of a dictionary in a sorted list of strings. -/
def rankForIndexIn (dictionary strings : List String) : List Int :=
  nullRankSentinel :: dictionary.map (fun s => (place textBytes strings s : Int))

/-- The ranks of two dictionaries among the strings of both. -/
def unifiedRankMapsOf (a b : List String) : List Int × List Int :=
  let strings := sortedDistinct textBytes (a ++ b)
  (rankForIndexIn a strings, rankForIndexIn b strings)

/-! ### The parts of a plan -/

mutual

/-- The subexpressions of an expression, operands before operators. Subqueries are not entered. -/
@[simp]
def parts : Expr Q → List (Expr Q)
  | .column name => [.column name]
  | .literal lit => [.literal lit]
  | .binary op left right => parts left ++ parts right ++ [.binary op left right]
  | .unary op operand => parts operand ++ [.unary op operand]
  | .case branches elseBranch =>
    partsOfBranches branches ++ partsOfElse elseBranch ++ [.case branches elseBranch]
  | .like expr pattern escape negated caseInsensitive =>
    parts expr ++ [.like expr pattern escape negated caseInsensitive]
  | .cast expr target safe => parts expr ++ [.cast expr target safe]
  | .castFormat expr target pattern toText => parts expr ++ [.castFormat expr target pattern toText]
  | .scalarFn kind args => partsOfArgs args ++ [.scalarFn kind args]
  | .extract field expr => parts expr ++ [.extract field expr]
  | .dateTrunc unit expr => parts expr ++ [.dateTrunc unit expr]
  | .aliased expr name => parts expr ++ [.aliased expr name]
  | .scalarSubquery plan => [.scalarSubquery plan]
  | .inSubquery expr subquery negated => parts expr ++ [.inSubquery expr subquery negated]

@[simp]
def partsOfBranches : List (Expr Q × Expr Q) → List (Expr Q)
  | [] => []
  | (w, t) :: branches => parts w ++ parts t ++ partsOfBranches branches

@[simp]
def partsOfElse : Option (Expr Q) → List (Expr Q)
  | none => []
  | some e => parts e

@[simp]
def partsOfArgs : List (Expr Q) → List (Expr Q)
  | [] => []
  | a :: args => parts a ++ partsOfArgs args

end

mutual

/-- The nodes of a plan, inputs first. -/
@[simp]
def nodes : LogicalPlan Q → List (LogicalPlan Q)
  | .scan table projection schema => [.scan table projection schema]
  | .filter input predicate => nodes input ++ [.filter input predicate]
  | .project input exprs => nodes input ++ [.project input exprs]
  | .aggregate input groupBy aggregates => nodes input ++ [.aggregate input groupBy aggregates]
  | .distinct input => nodes input ++ [.distinct input]
  | .limit input limit offset => nodes input ++ [.limit input limit offset]
  | .sort input sortExprs => nodes input ++ [.sort input sortExprs]
  | .window input windowExprs partitionBy orderBy =>
    nodes input ++ [.window input windowExprs partitionBy orderBy]
  | .union inputs => nodesOfInputs inputs ++ [.union inputs]
  | .setOp left right op all => nodes left ++ nodes right ++ [.setOp left right op all]
  | .join left right joinType on filter =>
    nodes left ++ nodes right ++ [.join left right joinType on filter]

@[simp]
def nodesOfInputs : List (LogicalPlan Q) → List (LogicalPlan Q)
  | [] => []
  | input :: inputs => nodes input ++ nodesOfInputs inputs

end

/-- The expressions of a node that are rewritten: those of filters and projections. -/
def rewrittenExprs : LogicalPlan Q → List (Expr Q)
  | .filter _ predicate => [predicate]
  | .project _ exprs => exprs
  | _ => []

def collectScanTables (plan : LogicalPlan Q) : List String :=
  (nodes plan).filterMap fun
    | .scan table _ _ => some table
    | _ => none

/-- The expression without the aliases around it. -/
def stripAlias : Expr Q → Expr Q
  | .aliased inner _ => stripAlias inner
  | e => e

/-- The expression has a string function, a formatted cast or a concatenation in it. -/
def isHostBoundStringExpr (e : Expr Q) : Bool :=
  (parts e).any fun
    | .scalarFn _ _ => true
    | .castFormat _ _ _ _ => true
    | .binary .concat _ _ => true
    | _ => false

def collectColumnRefs (e : Expr Q) : List String :=
  (parts e).filterMap fun
    | .column name => some name
    | _ => none

/-- The columns that an output of a projection shows as they are or computes strings from. -/
def projectedColumns (e : Expr Q) : List String :=
  match stripAlias e with
  | .column name => [name]
  | body => if isHostBoundStringExpr body then collectColumnRefs body else []

def collectProjectedBareColumns (plan : LogicalPlan Q) : List String :=
  (nodes plan).flatMap fun
    | .project _ exprs => exprs.flatMap projectedColumns
    | _ => []

/-! ### The resolver -/

def indexColumnName (original : String) : String := "__idx_" ++ original

def rankColumnName (original : String) : String := "__rank_" ++ original

/-- The tables of ranks for one comparison, with the names of the columns they are for. -/
structure ColVsColRankPlan where
  rankA : List Int
  rankB : List Int
  rankColA : String
  rankColB : String
deriving DecidableEq, Repr

/-- The dictionaries of the columns, by name, and what is known about the columns. -/
structure Rewriter where
  dicts : List (String × Dictionary)
  complete : List String
  predicateProtected : List String
  rankNeeded : List String

/-- Rewriting fails on a plan that is nested too deeply, and records rank plans on its way. -/
abbrev Rewrite := EStateM BoltError (List ColVsColRankPlan)

def recordRankPlan (plan : ColVsColRankPlan) : Rewrite PUnit :=
  modify (fun plans => plans ++ [plan])

namespace Rewriter

variable (r : Rewriter)

def knows (column : String) : Bool := (r.dicts.lookup column).isSome

def predicateRewriteAllowed (column : String) : Bool := !r.predicateProtected.contains column

def isComplete (column : String) : Bool := r.complete.contains column

def needsRankColumn (column : String) : Bool := r.rankNeeded.contains column

def resolve (column literal : String) : Option Literal := do
  let d ← r.dicts.lookup column
  d.indexOf literal

def indexDtype (column : String) : DataType :=
  ((r.dicts.lookup column).map Dictionary.indexDtype).getD .int32

/-- A pattern that does not compile is left to the host; the text of its error is dropped. -/
def likeMatchIndices (column pattern : String) (escape : Option Char) : Option (List Literal) := do
  let d ← r.dicts.lookup column
  match Like.compile Char.toString pattern escape with
  | .ok matcher => some (d.indicesWhere (fun s => matcher.matches (fun c => [c]) s = some true))
  | .error _ => none

def orderingMatchIndices (column : String) (op : BinaryOp) (literal : String) :
    Option (List Literal) := do
  let d ← r.dicts.lookup column
  some (d.indicesSatisfying op literal)

def colVsColRankMaps (colA colB : String) : Option ColVsColRankPlan := do
  let a ← r.dicts.lookup colA
  let b ← r.dicts.lookup colB
  let (rankA, rankB) := unifiedRankMapsOf a.dictionary b.dictionary
  some ⟨rankA, rankB, rankColumnName colA, rankColumnName colB⟩

end Rewriter

/-! ### Expressions -/

def isEqOrNeq : BinaryOp → Bool
  | .eq | .notEq => true
  | _ => false

def isOrdering : BinaryOp → Bool
  | .lt | .ltEq | .gt | .gtEq => true
  | _ => false

/-- The operator that says the same with its operands exchanged. -/
def reflectOrdering : BinaryOp → BinaryOp
  | .lt => .gt
  | .gt => .lt
  | .ltEq => .gtEq
  | .gtEq => .ltEq
  | op => op

/-- A column and a string constant, and whether the constant stands on the left. -/
def extractColAndStringLit (left right : Expr Q) : Option (String × String × Bool) :=
  match stripAlias left, stripAlias right with
  | .column c, .literal (.utf8 s) => some (c, s, false)
  | .literal (.utf8 s), .column c => some (c, s, true)
  | _, _ => none

def extractTwoColumns (left right : Expr Q) : Option (String × String) :=
  match stripAlias left, stripAlias right with
  | .column a, .column b => some (a, b)
  | _, _ => none

/-- The column has one of the indices. -/
def buildIndexMembership (column : String) : List Literal → Expr Q
  | [] => .literal (.bool false)
  | first :: rest =>
    rest.foldl (fun acc idx => .binary .or acc (.binary .eq (.column column) (.literal idx)))
      (.binary .eq (.column column) (.literal first))

/-- Two ranks compare, and none of them is that of NULL. -/
def buildRankComparison (op : BinaryOp) (plan : ColVsColRankPlan) : Expr Q :=
  let nonNull (column : String) : Expr Q :=
    .binary .gtEq (.column column) (.literal (.int64 0))
  .binary .and (.binary .and (nonNull plan.rankColA) (nonNull plan.rankColB))
    (.binary op (.column plan.rankColA) (.column plan.rankColB))

/-- An ordering of two columns. -/
structure Comparison where
  op : BinaryOp
  colA : String
  colB : String
deriving DecidableEq, Repr

namespace Rewriter

variable (r : Rewriter)

/-- A comparison may use the ranks of the column. -/
def rankable (column : String) : Bool := r.knows column && r.predicateRewriteAllowed column

/-- The gate that `plan_col_vs_col_rank` shares with the pass that collects rank columns. -/
def rankEligible (op : BinaryOp) (left right : Expr Q) : Option Comparison :=
  if isOrdering op then
    (extractTwoColumns left right).bind fun (a, b) =>
      if r.rankable a && r.rankable b then some ⟨op, a, b⟩ else none
  else none

def planColVsColRank (op : BinaryOp) (left right : Expr Q) :
    Option (BinaryOp × ColVsColRankPlan) := do
  let c ← r.rankEligible op left right
  let plan ← r.colVsColRankMaps c.colA c.colB
  some (op, plan)

def rankComparison : Expr Q → Option Comparison
  | .binary op left right => r.rankEligible op left right
  | _ => none

/-- The comparisons of an expression that use ranks, in the order in which they are rewritten. -/
def exprComparisons (e : Expr Q) : List Comparison := (parts e).filterMap r.rankComparison

/-- The comparisons of a plan that use ranks, in the order in which they are rewritten. -/
def rankComparisons (plan : LogicalPlan Q) : List Comparison :=
  ((nodes plan).flatMap rewrittenExprs).flatMap r.exprComparisons

/--
The columns whose ranks a plan compares. The depth limit of the source is left out: the rewriting
of a plan that exceeds it fails.
-/
def collectRankNeededColumns (plan : LogicalPlan Q) : List String :=
  (r.rankComparisons plan).flatMap (fun c => [c.colA, c.colB])

/-- A comparison of a column with a string constant, on indices. -/
def foldLiteral (op : BinaryOp) (left right : Expr Q) : Option (Expr Q) := do
  let (column, lit, swapped) ← extractColAndStringLit left right
  if !r.knows column then none
  else if isEqOrNeq op && r.predicateRewriteAllowed column then
    match r.resolve column lit with
    | some idx => some (.binary op (.column (indexColumnName column)) (.literal idx))
    | none => if r.isComplete column then some (.literal (.bool (op == .notEq))) else none
  else if isOrdering op && r.predicateRewriteAllowed column then do
    let indices ←
      r.orderingMatchIndices column (if swapped then reflectOrdering op else op) lit
    some (buildIndexMembership (indexColumnName column) indices)
  else none

/-- `LIKE` on indices; not with a negation, an escape character or without regard to case. -/
def foldLike (expr : Expr Q) (pattern : String) (escape : Option Char)
    (negated caseInsensitive : Bool) : Option (Expr Q) :=
  if !negated && escape.isNone && !caseInsensitive then
    match stripAlias expr with
    | .column column =>
      if r.knows column && r.predicateRewriteAllowed column then
        (r.likeMatchIndices column pattern escape).map
          (buildIndexMembership (indexColumnName column))
      else none
    | _ => none
  else none

/-- A binary operator whose operands have been rewritten. -/
def rewriteBinary (op : BinaryOp) (left right : Expr Q) : Rewrite (Expr Q) :=
  match r.foldLiteral op left right with
  | some e => pure e
  | none =>
    match r.planColVsColRank op left right with
    | some (rankOp, plan) => do
      recordRankPlan plan
      pure (buildRankComparison rankOp plan)
    | none => pure (.binary op left right)

def exprTooDeep : BoltError :=
  .plan s!"expression nesting exceeds depth limit ({maxRecursionDepth})"

mutual

/-- `rewrite_expr_with`: operands first. -/
@[simp]
def rewriteExpr (depth : Nat) (e : Expr Q) : Rewrite (Expr Q) :=
  if depth > maxRecursionDepth then throw exprTooDeep
  else match e with
    | .column name => pure (.column name)
    | .literal lit => pure (.literal lit)
    | .aliased inner name => do
      let inner ← rewriteExpr (depth + 1) inner
      pure (.aliased inner name)
    | .cast inner target safe => do
      let inner ← rewriteExpr (depth + 1) inner
      pure (.cast inner target safe)
    | .castFormat inner target pattern toText => do
      let inner ← rewriteExpr (depth + 1) inner
      pure (.castFormat inner target pattern toText)
    | .unary op operand => do
      let operand ← rewriteExpr (depth + 1) operand
      pure (.unary op operand)
    | .binary op left right => do
      let left ← rewriteExpr (depth + 1) left
      let right ← rewriteExpr (depth + 1) right
      r.rewriteBinary op left right
    | .case branches elseBranch => do
      let branches ← rewriteBranches (depth + 1) branches
      let elseBranch ← rewriteElse (depth + 1) elseBranch
      pure (.case branches elseBranch)
    | .like expr pattern escape negated caseInsensitive => do
      let expr ← rewriteExpr (depth + 1) expr
      pure ((r.foldLike expr pattern escape negated caseInsensitive).getD
        (.like expr pattern escape negated caseInsensitive))
    | .scalarFn kind args => do
      let args ← rewriteArgs (depth + 1) args
      pure (.scalarFn kind args)
    | .extract field inner => do
      let inner ← rewriteExpr (depth + 1) inner
      pure (.extract field inner)
    | .dateTrunc unit inner => do
      let inner ← rewriteExpr (depth + 1) inner
      pure (.dateTrunc unit inner)
    | .scalarSubquery plan => pure (.scalarSubquery plan)
    | .inSubquery probe subquery negated => do
      let probe ← rewriteExpr (depth + 1) probe
      pure (.inSubquery probe subquery negated)

@[simp]
def rewriteBranches (depth : Nat) : List (Expr Q × Expr Q) → Rewrite (List (Expr Q × Expr Q))
  | [] => pure []
  | (w, t) :: branches => do
    let w ← rewriteExpr depth w
    let t ← rewriteExpr depth t
    let branches ← rewriteBranches depth branches
    pure ((w, t) :: branches)

@[simp]
def rewriteElse (depth : Nat) : Option (Expr Q) → Rewrite (Option (Expr Q))
  | none => pure none
  | some e => do
    let e ← rewriteExpr depth e
    pure (some e)

@[simp]
def rewriteArgs (depth : Nat) : List (Expr Q) → Rewrite (List (Expr Q))
  | [] => pure []
  | a :: args => do
    let a ← rewriteExpr depth a
    let args ← rewriteArgs depth args
    pure (a :: args)

end

/-! ### Plans -/

/-- A field is added unless there is one of its name. -/
def addField (existing : List Field) (added : List Field) (name : String) (dtype : DataType) :
    List Field :=
  if existing.any (fun f => f.name == name) || added.any (fun f => f.name == name) then added
  else added ++ [⟨name, dtype, false⟩]

/-- The columns of indices and of ranks that a scan gets for a string column. -/
def addColumns (existing : List Field) (added : List Field) (column : String) : List Field :=
  let added := addField existing added (indexColumnName column) (r.indexDtype column)
  if r.needsRankColumn column then addField existing added (rankColumnName column) .int64 else added

def extendSchema (schema : Schema) : Schema :=
  let present := schema.fields.filter (fun f => f.dtype == .utf8 && r.knows f.name)
  ⟨schema.fields ++ (present.map Field.name).foldl (r.addColumns schema.fields) []⟩

def planTooDeep : BoltError :=
  .plan s!"plan nesting exceeds depth limit ({maxRecursionDepth})"

mutual

/-- `rewrite_plan_with`: inputs first; only filters and projections are rewritten. -/
@[simp]
def rewritePlanWith (depth : Nat) (plan : LogicalPlan Q) : Rewrite (LogicalPlan Q) :=
  if depth > maxRecursionDepth then throw planTooDeep
  else match plan with
    | .scan table projection schema => pure (.scan table projection (r.extendSchema schema))
    | .filter input predicate => do
      let input ← rewritePlanWith (depth + 1) input
      let predicate ← r.rewriteExpr 0 predicate
      pure (.filter input predicate)
    | .project input exprs => do
      let input ← rewritePlanWith (depth + 1) input
      let exprs ← r.rewriteArgs 0 exprs
      pure (.project input exprs)
    | .aggregate input groupBy aggregates => do
      let input ← rewritePlanWith (depth + 1) input
      pure (.aggregate input groupBy aggregates)
    | .distinct input => do
      let input ← rewritePlanWith (depth + 1) input
      pure (.distinct input)
    | .limit input limit offset => do
      let input ← rewritePlanWith (depth + 1) input
      pure (.limit input limit offset)
    | .sort input sortExprs => do
      let input ← rewritePlanWith (depth + 1) input
      pure (.sort input sortExprs)
    | .window input windowExprs partitionBy orderBy => do
      let input ← rewritePlanWith (depth + 1) input
      pure (.window input windowExprs partitionBy orderBy)
    | .union inputs => do
      let inputs ← rewriteInputs (depth + 1) inputs
      pure (.union inputs)
    | .join left right joinType on filter => do
      let left ← rewritePlanWith (depth + 1) left
      let right ← rewritePlanWith (depth + 1) right
      pure (.join left right joinType on filter)
    | .setOp left right op all => do
      let left ← rewritePlanWith (depth + 1) left
      let right ← rewritePlanWith (depth + 1) right
      pure (.setOp left right op all)

@[simp]
def rewriteInputs (depth : Nat) : List (LogicalPlan Q) → Rewrite (List (LogicalPlan Q))
  | [] => pure []
  | input :: inputs => do
    let input ← rewritePlanWith depth input
    let inputs ← rewriteInputs depth inputs
    pure (input :: inputs)

end

/-- The columns that need ranks are collected first. -/
def rewrite (plan : LogicalPlan Q) : Rewrite (LogicalPlan Q) :=
  { r with rankNeeded := r.collectRankNeededColumns plan }.rewritePlanWith 0 plan

end Rewriter

/-! ### The registry -/

/-- The dictionaries of the tables, and the tables of ranks of the last rewritten plan. -/
structure DictRegistry where
  byTable : List (String × List (String × Dictionary))
  rankTables : List (String × List Int)
  -- the columns of a table are the keys of a map
  distinct : ∀ entry ∈ byTable, (entry.2.map Prod.fst).Nodup

/-- The dictionaries chosen so far, by column name. -/
structure Choice where
  seenTables : List String
  chosen : List (String × Dictionary)
  poisoned : List String

/-- Two tables that disagree on the dictionary of a name leave it without one. -/
def Choice.addColumn (s : Choice) (column : String × Dictionary) : Choice :=
  if s.poisoned.contains column.1 then s
  else match s.chosen.lookup column.1 with
    | none => { s with chosen := column :: s.chosen }
    | some prev =>
      if prev.dictionary != column.2.dictionary then
        { s with
          chosen := s.chosen.filter (fun entry => entry.1 != column.1)
          poisoned := column.1 :: s.poisoned }
      else s

namespace DictRegistry

variable (reg : DictRegistry)

def addTable (s : Choice) (table : String) : Choice :=
  if s.seenTables.contains table then s
  else
    let s := { s with seenTables := table :: s.seenTables }
    match reg.byTable.lookup table with
    | some columns => columns.foldl Choice.addColumn s
    | none => s

/-- The dictionary of each column name that the scanned tables agree on. -/
def chosen (plan : LogicalPlan Q) : List (String × Dictionary) :=
  ((collectScanTables plan).foldl reg.addTable ⟨[], [], []⟩).chosen

/-- The rewriter for a plan. All dictionaries of the registry are complete. -/
def rewriter (plan : LogicalPlan Q) : Rewriter where
  dicts := reg.chosen plan
  complete := (reg.chosen plan).map Prod.fst
  predicateProtected := collectProjectedBareColumns plan
  rankNeeded := []

/-- Later tables of ranks take the place of earlier ones with the same name. -/
def collectRankTables (plans : List ColVsColRankPlan) : List (String × List Int) :=
  plans.foldl
    (fun tables rp => (rp.rankColB, rp.rankB) :: (rp.rankColA, rp.rankA) :: tables) []

/-- A plan is rewritten; if that recorded tables of ranks, they replace those of the registry. -/
def rewritePlan (plan : LogicalPlan Q) : BoltResult (LogicalPlan Q × DictRegistry) :=
  match (reg.rewriter plan).rewrite plan [] with
  | .ok rewritten plans =>
    let tables := collectRankTables plans
    .ok (rewritten, if tables.isEmpty then reg else { reg with rankTables := tables })
  | .error e _ => .error e

def rankTable (rankCol : String) : Option (List Int) := reg.rankTables.lookup rankCol

end DictRegistry

end CratonBolt.DictRewrite
