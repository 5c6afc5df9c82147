import BorrowFlow.Data.IdMap
import BorrowFlow.Lifetime
import BorrowFlow.Message.Fault

/-!
# The lifetimes of nested scopes

Each scope has a graph of lifetimes. Node zero of the graph is the lifetime of the scope itself, and
an edge from `a` to `b` records that `a` outlives `b`. Lifetimes carved out of a scope hang below
its root, so they end before the scope does. Every lifetime of an enclosing scope outlives every
lifetime of the scopes nested in it.
-/

namespace BorrowFlow

structure LifetimeGraph where
  /-- The graph of the enclosing scope. -/
  parent : Option Nat
  /-- How many lifetimes there are, the scope's own included. -/
  size : Nat := 1
  edges : List (Nat × Nat) := []
  deriving DecidableEq

namespace LifetimeGraph

def successors (graph : LifetimeGraph) (node : Nat) : List Nat :=
  (graph.edges.filter fun edge => edge.1 = node).map Prod.snd

/-- Depth-first search from the nodes on the stack, with the nodes seen so far. -/
def search (graph : LifetimeGraph) : Nat → List Nat → List Nat → List Nat
  | 0, _, seen => seen
  | _ + 1, [], seen => seen
  | fuel + 1, node :: stack, seen =>
    if node ∈ seen then graph.search fuel stack seen
    else graph.search fuel (graph.successors node ++ stack) (node :: seen)

/-- Everything that can be reached from a node, the node included. A node puts its successors on the
stack only when it is first seen, so there are no more steps than edges and the start. -/
def reachable (graph : LifetimeGraph) (start : Nat) : List Nat :=
  graph.search (graph.edges.length + 2) [start] []

def reaches (graph : LifetimeGraph) (start target : Nat) : Bool :=
  target ∈ graph.reachable start

/-- A new node below the root. -/
def carve (graph : LifetimeGraph) : LifetimeGraph :=
  { graph with size := graph.size + 1, edges := graph.edges ++ [(0, graph.size)] }

/-- Adds an edge, unless it is there or would close a cycle. -/
def addEdge (graph : LifetimeGraph) (longer shorter : Nat) : LifetimeGraph :=
  if longer = shorter ∨ graph.reaches shorter longer ∨ (longer, shorter) ∈ graph.edges then graph
  else { graph with edges := graph.edges ++ [(longer, shorter)] }

end LifetimeGraph

structure LifetimeForest where
  graphs : Array LifetimeGraph := #[]
  byScope : IdMap Nat := ∅

namespace LifetimeForest

def hasGraph (forest : LifetimeForest) (scope : ScopeId) : Bool :=
  forest.byScope.contains scope

def graphOf (forest : LifetimeForest) (scope : ScopeId) : Except Fault Nat :=
  match forest.byScope.get? scope with
  | some graph => .ok graph
  | none => .error (.noLifetimeGraph scope)

/-- Makes the graph of a scope. The graph of the enclosing scope has to be there. -/
def establish (forest : LifetimeForest) (scope : ScopeId) (parent : Option ScopeId) :
    Except Fault (Nat × LifetimeForest) := do
  if forest.hasGraph scope then
    throw (.lifetimeGraphTwice scope)
  let parentGraph ← parent.mapM forest.graphOf
  let graph := forest.graphs.size
  return (graph,
    { graphs := forest.graphs.push { parent := parentGraph }
      byScope := forest.byScope.insert scope graph })

def scopeLifetime (forest : LifetimeForest) (scope : ScopeId) : Except Fault Lifetime := do
  let graph ← forest.graphOf scope
  return .bounded { graph, node := 0 }

/-- A fresh lifetime that ends before the scope does. -/
def carve (forest : LifetimeForest) (scope : ScopeId) :
    Except Fault (Lifetime × LifetimeForest) := do
  let graph ← forest.graphOf scope
  let node := ((forest.graphs[graph]?).map LifetimeGraph.size).getD 0
  return (.bounded { graph, node },
    { forest with graphs := forest.graphs.modify graph LifetimeGraph.carve })

def parentOf (forest : LifetimeForest) (graph : Nat) : Option Nat :=
  (forest.graphs[graph]?).bind LifetimeGraph.parent

/-- Walks up from a graph, at most the given number of steps, to see whether it meets another. -/
def isAncestorWithin (forest : LifetimeForest) (ancestor : Nat) : Nat → Nat → Bool
  | 0, _ => false
  | steps + 1, graph =>
    match forest.parentOf graph with
    | some parent => parent = ancestor || forest.isAncestorWithin ancestor steps parent
    | none => false

/-- Whether one graph is that of a scope that strictly encloses the scope of the other. A parent is
older than its children, so there are no more steps upwards than graphs. -/
def isStrictAncestor (forest : LifetimeForest) (ancestor descendant : Nat) : Bool :=
  forest.isAncestorWithin ancestor forest.graphs.size descendant

def reaches (forest : LifetimeForest) (graph start target : Nat) : Bool :=
  match forest.graphs[graph]? with
  | some lifetimes => lifetimes.reaches start target
  | none => false

/-- Whether a lifetime is still alive when the scope ends. -/
def outlasts (forest : LifetimeForest) (lifetime : Lifetime) (scope : ScopeId) :
    Except Fault Bool :=
  match lifetime with
  | .unbounded | .static => .ok true
  | .empty => .ok false
  | .bounded place => do
    let graph ← forest.graphOf scope
    return forest.isStrictAncestor place.graph graph ||
      (place.graph = graph && place.node ≠ 0 && forest.reaches graph place.node 0)

/-- Whether the first lifetime is alive for all of the second. -/
def outlives (forest : LifetimeForest) (longer shorter : Lifetime) : Bool :=
  if longer = shorter then true
  else
    match longer, shorter with
    | .unbounded, _ | .static, _ | _, .empty => true
    | .empty, _ | .bounded _, .unbounded | .bounded _, .static => false
    | .bounded first, .bounded second =>
      if first.graph = second.graph then forest.reaches first.graph first.node second.node
      else forest.isStrictAncestor first.graph second.graph

/-- Records that the first lifetime outlives the second. Only two lifetimes of one scope need an
edge, because enclosing scopes outlive nested ones anyway. -/
def addOutlives (forest : LifetimeForest) (longer shorter : Lifetime) : LifetimeForest :=
  match longer, shorter with
  | .bounded first, .bounded second =>
    if first.graph = second.graph then
      { forest with graphs := forest.graphs.modify first.graph (·.addEdge first.node second.node) }
    else forest
  | _, _ => forest

end LifetimeForest

end BorrowFlow
