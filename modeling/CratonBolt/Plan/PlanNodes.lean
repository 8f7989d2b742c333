import CratonBolt.Plan.PlanSchema

/-!
# The nodes of a plan

A plan and everything below it, as a list.
-/

namespace CratonBolt

variable {Q : Type}

mutual

/-- The nodes of a plan, each before the nodes below it. -/
@[grind =]
def LogicalPlan.nodes : LogicalPlan Q → List (LogicalPlan Q)
  | .scan table projection schema => [.scan table projection schema]
  | .filter input predicate => .filter input predicate :: input.nodes
  | .project input exprs => .project input exprs :: input.nodes
  | .aggregate input groupBy aggregates => .aggregate input groupBy aggregates :: input.nodes
  | .distinct input => .distinct input :: input.nodes
  | .limit input lim offset => .limit input lim offset :: input.nodes
  | .sort input sortExprs => .sort input sortExprs :: input.nodes
  | .window input windowExprs partitionBy orderBy =>
    .window input windowExprs partitionBy orderBy :: input.nodes
  | .union inputs => .union inputs :: allNodes inputs
  | .setOp left right op all => .setOp left right op all :: (left.nodes ++ right.nodes)
  | .join left right joinType on filter =>
    .join left right joinType on filter :: (left.nodes ++ right.nodes)

def allNodes : List (LogicalPlan Q) → List (LogicalPlan Q)
  | [] => []
  | input :: inputs => input.nodes ++ allNodes inputs

end

/-- The inputs of a node. -/
@[simp]
def LogicalPlan.children : LogicalPlan Q → List (LogicalPlan Q)
  | .scan _ _ _ => []
  | .filter input _ | .project input _ | .aggregate input _ _ | .distinct input
  | .limit input _ _ | .sort input _ | .window input _ _ _ => [input]
  | .union inputs => inputs
  | .setOp left right _ _ | .join left right _ _ _ => [left, right]

variable {q p : LogicalPlan Q} {P : LogicalPlan Q → Prop}

theorem mem_allNodes {inputs : List (LogicalPlan Q)} :
  q ∈ allNodes inputs ↔ ∃ p ∈ inputs, q ∈ p.nodes
  := by
  induction inputs with
  | nil => simp [allNodes]
  | cons p inputs ih => simp [allNodes, ih]

theorem mem_nodes :
  q ∈ p.nodes ↔ q = p ∨ ∃ c ∈ p.children, q ∈ c.nodes
  := by
  cases p <;> simp [LogicalPlan.nodes, mem_allNodes]

/-- What holds of every node holds of the plan itself and of every node of its inputs. -/
theorem forall_nodes :
  (∀ q ∈ p.nodes, P q) ↔ P p ∧ ∀ c ∈ p.children, ∀ q ∈ c.nodes, P q
  := by
  simp only [mem_nodes (p := p), or_imp, forall_and, forall_eq, forall_exists_index, and_imp]
  tauto

theorem forall_nodes_child {p c : LogicalPlan Q} (h : ∀ q ∈ p.nodes, P q) (hc : c ∈ p.children) :
  ∀ q ∈ c.nodes, P q
  := (forall_nodes.mp h).2 c hc

end CratonBolt
