import Mathlib.Data.List.Sort
import Mathlib.Data.List.Dedup
import Mathlib.Data.Nat.Bitwise

/-!
# The cost-based choice of a join order

The enumeration of `plan/optimizer/cost.rs`. Relations are leaf indices, equality keys are edges
between them, and the cheapest join tree is found by dynamic programming over the sets of leaves,
or greedily when there are many leaves.

The source computes costs with 64-bit floats. Here they are elements of any type with the
operations the source uses (`CostArith`), so that what is proved holds for floats in particular.
Sets of leaves are lists, and the counts of parallel edges are repetitions in a list of edges.
-/

namespace CratonBolt

open List (range)

/-- The largest number of relations that is enumerated exactly. -/
def maxDpRelations : Nat := 10

/-- The arithmetic of costs. -/
structure CostArith (F : Type) where
  ofRows : Nat → F
  zero : F
  one : F
  add : F → F → F
  mul : F → F → F
  div : F → F → F
  max : F → F → F
  lt : F → F → Bool
  ne : F → F → Bool

/-- A fraction, not necessarily reduced. -/
structure Fraction where
  num : Nat
  den : Nat
deriving DecidableEq, Repr

/-- Exact costs, with which the floats of the source agree as long as they do not round. -/
def exactCosts : CostArith Fraction where
  ofRows n := ⟨n, 1⟩
  zero := ⟨0, 1⟩
  one := ⟨1, 1⟩
  add a b := ⟨a.num * b.den + b.num * a.den, a.den * b.den⟩
  mul a b := ⟨a.num * b.num, a.den * b.den⟩
  div a b := ⟨a.num * b.den, a.den * b.num⟩
  max a b := if a.num * b.den < b.num * a.den then b else a
  lt a b := decide (a.num * b.den < b.num * a.den)
  ne a b := a.num * b.den != b.num * a.den

/-- Row counts of the leaves, and the equality keys between them with the lower leaf first. -/
structure CardModel where
  leafRows : List Nat
  edges : List (Nat × Nat)
deriving Repr

/-- An edge with its lower end first. -/
def normalizeEdge (edge : Nat × Nat) : Nat × Nat :=
  if edge.1 < edge.2 then edge else (edge.2, edge.1)

/-- The model of a chain; edges from a leaf to itself or to no leaf at all are ignored. -/
def CardModel.new (leafRows : List Nat) (keyEdges : List (Nat × Nat)) : CardModel :=
  let n := leafRows.length
  ⟨leafRows, (keyEdges.filter (fun e => e.1 != e.2 && decide (e.1 < n) && decide (e.2 < n))).map
    normalizeEdge⟩

/-- The number of keys between two sets of leaves, which is a `u32` in the source. -/
def CardModel.crossingKeys (model : CardModel) (left right : List Nat) : Nat :=
  model.edges.countP (fun e =>
    (left.contains e.1 && right.contains e.2) || (right.contains e.1 && left.contains e.2))

/-- A join tree over leaf indices. -/
inductive JoinShape where
  | leaf (i : Nat)
  | join (left right : JoinShape)
deriving DecidableEq, Repr

/-- The leaves of a tree from left to right. -/
def JoinShape.leafList : JoinShape → List Nat
  | leaf i => [i]
  | join left right => left.leafList ++ right.leafList

/-- The least leaf of a tree. -/
def minLeaf : JoinShape → Nat
  | .leaf i => i
  | .join left right => min (minLeaf left) (minLeaf right)

variable {F : Type} (A : CostArith F) (model : CardModel)

/-- Estimated number of rows of a leaf. -/
def leafCard (i : Nat) : F := A.ofRows (model.leafRows.getD i 0)

/-- Repeated division by the same denominator. -/
def divideBy (denom : F) : Nat → F → F
  | 0, result => result
  | n + 1, result => divideBy denom n (A.div result denom)

/-- Estimated number of rows of a join over `crossing` keys. -/
def joinCard (leftCard rightCard : F) (crossing : Nat) : F :=
  let product := A.mul leftCard rightCard
  if crossing = 0 then A.max product A.one
  else A.max (divideBy A (A.max (A.max leftCard rightCard) A.one) crossing product) A.one

/-- A join with the smaller input on the left; among equals, the one with the least leaf. -/
def orient (aShape : JoinShape) (aCard : F) (bShape : JoinShape) (bCard : F) : JoinShape :=
  let aFirst :=
    if A.ne aCard bCard then A.lt aCard bCard else decide (minLeaf aShape ≤ minLeaf bShape)
  if aFirst then .join aShape bShape else .join bShape aShape

/-- A join tree with its cumulative cost and its estimated number of rows. -/
structure CostedPlan (F : Type) where
  shape : JoinShape
  cost : F
  card : F

/-! ### Connectivity -/

/-- The leaves that share a key with a leaf. -/
def neighbours (u : Nat) : List Nat :=
  model.edges.filterMap (fun e =>
    if e.1 = u then some e.2 else if e.2 = u then some e.1 else none)

/-- Mark the leaves not yet seen and put them on the stack. -/
def visit (state : List Nat × List Nat) (v : Nat) : List Nat × List Nat :=
  if state.1.contains v then state else (v :: state.1, v :: state.2)

/-- The leaves reached from those on the stack. Every leaf is on it at most once. -/
def reach (model : CardModel) : Nat → List Nat → List Nat → List Nat
  | 0, seen, _ => seen
  | _, seen, [] => seen
  | fuel + 1, seen, u :: stack =>
    let (seen, stack) := (neighbours model u).foldl visit (seen, stack)
    reach model fuel seen stack

/-- The keys connect all leaves. -/
def isConnected : Bool :=
  let n := model.leafRows.length
  n != 0 && (reach model n [0] [0]).length == n

/-! ### Dynamic programming -/

/-- The number of bits of `mask` that are set, among its first `n`. -/
def countOnes (n mask : Nat) : Nat := (range n).countP (fun i => mask.testBit i)

/-- The set of leaves that a mask stands for. -/
def maskToSet (n mask : Nat) : List Nat := (range n).filter (fun i => mask.testBit i)

/-- The submasks of `mask` below `sub`, in descending order. -/
def submasksBelow (mask : Nat) : Nat → Nat → List Nat
  | 0, _ => []
  | fuel + 1, sub =>
    let next := (sub - 1) &&& mask
    if next = 0 then [] else next :: submasksBelow mask fuel next

/-- The proper submasks that contain the lowest bit of the mask. -/
def splits (n mask : Nat) : List Nat :=
  match (maskToSet n mask).head? with
  | some low => (submasksBelow mask mask mask).filter (fun sub => sub.testBit low)
  | none => []

/-- The cheapest tree found so far for each mask. -/
abbrev DpTable (F : Type) := List (Option (CostedPlan F))

/-- The entry of a mask. -/
def DpTable.at (best : DpTable F) (mask : Nat) : Option (CostedPlan F) := (best[mask]?).join

/-- Try to improve the entry of a mask by one of its splits. -/
def trySplit (n mask : Nat) (best : DpTable F) (sub : Nat) : DpTable F :=
  let comp := mask ^^^ sub
  match DpTable.at best sub, DpTable.at best comp with
  | some l, some r =>
    let crossing := model.crossingKeys (maskToSet n sub) (maskToSet n comp)
    if crossing = 0 then best
    else
      let card := joinCard A l.card r.card crossing
      let cost := A.add (A.add l.cost r.cost) card
      let improved := match DpTable.at best mask with
        | none => true
        | some cur => A.lt cost cur.cost
      if improved then best.set mask (some ⟨orient A l.shape l.card r.shape r.card, cost, card⟩)
      else best
  | _, _ => best

/-- The table that holds the single leaves. -/
def singletons (n : Nat) : DpTable F :=
  (range (2 ^ n)).map (fun mask =>
    ((range n).find? (fun i => mask = 2 ^ i)).map
      (fun i => ⟨.leaf i, A.zero, leafCard A model i⟩))

/-- The masks of at least two leaves, those of fewer leaves first. -/
def masksBySize (n : Nat) : List Nat :=
  ((range (2 ^ n)).filter (fun mask => decide (2 ≤ countOnes n mask))).insertionSort
    (fun a b => countOnes n a ≤ countOnes n b)

/-- The cheapest tree over all leaves, by dynamic programming. -/
def optimizeDp : Option (CostedPlan F) :=
  let n := model.leafRows.length
  let table := (masksBySize n).foldl
    (fun best mask => (splits n mask).foldl (trySplit A model n mask) best)
    (singletons A model n)
  DpTable.at table (2 ^ n - 1)

/-! ### The greedy choice -/

/-- A partial tree with its leaves. -/
structure Part (F : Type) where
  leaves : List Nat
  plan : CostedPlan F

/-- The pairs of positions `a < b` below `n`. -/
def positionPairs (n : Nat) : List (Nat × Nat) :=
  (range n).flatMap (fun a => (List.range' (a + 1) (n - (a + 1))).map (fun b => (a, b)))

/-- The cost and size of merging two parts that share a key. -/
def mergeCost (pa pb : Part F) : Option (F × F) :=
  let crossing := model.crossingKeys pa.leaves pb.leaves
  if crossing = 0 then none
  else
    let card := joinCard A pa.plan.card pb.plan.card crossing
    some (card, A.add (A.add pa.plan.cost pb.plan.cost) card)

/-- Keep the cheaper of the best merge so far and the merge of one more pair. -/
def betterMerge (parts : List (Part F))
    (best : Option (Nat × Nat × F × F)) (pair : Nat × Nat) : Option (Nat × Nat × F × F) :=
  match parts[pair.1]?, parts[pair.2]? with
  | some pa, some pb =>
    match mergeCost A model pa pb with
    | none => best
    | some (card, cost) =>
      match best with
      | none => some (pair.1, pair.2, card, cost)
      | some (a, b, card', cost') =>
        if A.lt cost cost' then some (pair.1, pair.2, card, cost) else some (a, b, card', cost')
  | _, _ => best

/-- Merge the two parts whose join is cheapest. -/
def mergeCheapest (parts : List (Part F)) : Option (List (Part F)) := do
  let (a, b, card, cost) ← (positionPairs parts.length).foldl (betterMerge A model parts) none
  let pa ← parts[a]?
  let pb ← parts[b]?
  some ((parts.eraseIdx b).eraseIdx a ++
    [⟨pa.leaves ++ pb.leaves,
      ⟨orient A pa.plan.shape pa.plan.card pb.plan.shape pb.plan.card, cost, card⟩⟩])

/-- Merge parts until one is left. Every merge leaves one part less. -/
def mergeAll (model : CardModel) : Nat → List (Part F) → Option (CostedPlan F)
  | _, [part] => some part.plan
  | 0, _ => none
  | fuel + 1, parts => do
    let parts ← mergeCheapest A model parts
    mergeAll model fuel parts

/-- A cheap tree over all leaves, by repeated merging. -/
def optimizeGreedy : Option (CostedPlan F) :=
  let n := model.leafRows.length
  mergeAll A model n
    ((range n).map (fun i => ⟨[i], ⟨.leaf i, A.zero, leafCard A model i⟩⟩))

/-- A cheap join tree over the leaves of a connected model. -/
def optimize : Option (CostedPlan F) :=
  let n := model.leafRows.length
  if n < 2 then none
  else if !isConnected model then none
  else if n ≤ maxDpRelations then optimizeDp A model
  else optimizeGreedy A model

end CratonBolt
