import BorrowFlow.Graph.Basic

/-!
# The order in which nodes are visited

Every node comes after everything that feeds it. Each scope is sorted on its own, with structures in
the place of their border nodes. A structure is followed by the border nodes that lead into it, then
by everything in its bodies, and then by the border nodes that lead out of it.
-/

namespace BorrowFlow

/-- What has to come before what, among the nodes of one scope. -/
structure Dependencies where
  nodes : List NodeId
  edges : List (NodeId × NodeId)
  deriving DecidableEq

namespace Dependencies

def successors (dependencies : Dependencies) (node : NodeId) : List NodeId :=
  (dependencies.edges.filter fun edge => edge.1 = node).map Prod.snd

def predecessors (dependencies : Dependencies) (node : NodeId) : List NodeId :=
  (dependencies.edges.filter fun edge => edge.2 = node).map Prod.fst

def addNode (dependencies : Dependencies) (node : NodeId) : Dependencies :=
  if node ∈ dependencies.nodes then dependencies
  else { dependencies with nodes := dependencies.nodes ++ [node] }

/-- Adds an edge, unless it is there, and its ends: a splice can lead a wire to a node of another
scope. -/
def addEdge (dependencies : Dependencies) (source target : NodeId) : Dependencies :=
  if (source, target) ∈ dependencies.edges then dependencies
  else
    let dependencies := (dependencies.addNode source).addNode target
    { dependencies with edges := dependencies.edges ++ [(source, target)] }

/-- A depth-first search under way: the nodes it has entered, and those it has left, the last one
first. -/
structure Search where
  entered : List NodeId := []
  left : List NodeId := []
  deriving DecidableEq

/-- Visits a node and everything after it, to the given depth. The successors are taken from the
last to the first. -/
def visit (dependencies : Dependencies) : Nat → Search → NodeId → Search
  | 0, search, _ => search
  | depth + 1, search, node =>
    if node ∈ search.entered then search
    else
      let inside := (dependencies.successors node).reverse.foldl (dependencies.visit depth)
        { search with entered := node :: search.entered }
      { inside with left := node :: inside.left }

/-- The nodes in the order a depth-first search leaves them, the last one first. No path visits a
node twice, so the search is never deeper than there are nodes. -/
def searchOrder (dependencies : Dependencies) : List NodeId :=
  (dependencies.nodes.foldl (dependencies.visit (dependencies.nodes.length + 1)) {}).left

/-- Looks for a node with a predecessor that does not come before it, and answers the last such
predecessor. -/
def violation? (dependencies : Dependencies) : List NodeId → List NodeId → Option NodeId
  | _, [] => none
  | before, node :: rest =>
    let before := node :: before
    match ((dependencies.predecessors node).filter fun other => other ∉ before).getLast? with
    | some other => some other
    | none => dependencies.violation? before rest

/-- The nodes, each after all of its predecessors; or a node on a cycle. -/
def sort (dependencies : Dependencies) : Except NodeId (List NodeId) :=
  match dependencies.violation? [] dependencies.searchOrder with
  | some node => .error node
  | none => .ok dependencies.searchOrder

end Dependencies

namespace Graph

/-- The node that stands for the owner of a port when a scope is sorted. The ports of a border node
that face a body have no part in the sorting of that body. -/
def representative? (graph : Graph) (scope : ScopeId) (port : PortId) : Option NodeId := do
  let port ← graph.ports[port]?
  let node ← graph.nodes[port.node]?
  match node.kind with
  | .border owner _ => if node.scope = scope then some owner else none
  | _ => some port.node

def wiresIn (graph : Graph) (scope : ScopeId) : List Wire :=
  graph.wires.toList.filter fun wire => wire.scope = scope && !wire.sinks.isEmpty

/-- What the wires of a scope connect, as pairs of a representative of the source and one of a
sink. -/
def connectionsIn (graph : Graph) (scope : ScopeId) : List (NodeId × NodeId) :=
  (graph.wiresIn scope).flatMap fun wire =>
    match graph.representative? scope wire.source with
    | none => []
    | some source =>
      (wire.sinks.filterMap (graph.representative? scope)).map fun target => (source, target)

/-- What has to come before what in a scope. A node that feeds itself is a cycle. -/
def dependenciesIn (graph : Graph) (scope : ScopeId) : Except Fault Dependencies := do
  let nodes := (← graph.getScope scope).nodes
  (graph.connectionsIn scope).foldlM
    (fun dependencies (source, target) =>
      if source = target then throw (.dataflowCycle scope source)
      else return dependencies.addEdge source target)
    { nodes, edges := [] }

def sortScope (graph : Graph) (scope : ScopeId) : Except Fault (List NodeId) := do
  match (← graph.dependenciesIn scope).sort with
  | .ok nodes => return nodes
  | .error node => throw (.dataflowCycle scope node)

def bordersOn (graph : Graph) (side : Direction) (node : Node) : List NodeId :=
  node.borders.filter fun border =>
    ((graph.nodes[border]?).bind fun data => data.kind.borderKind?).any (·.side = side)

/-- Everything in a scope, in order, to the given depth of nesting. -/
def visitScope (graph : Graph) : Nat → ScopeId → Except Fault (List NodeId)
  | 0, _ => .ok []
  | depth + 1, scope => do
    let sorted ← graph.sortScope scope
    let parts ← sorted.mapM fun id => do
      let node ← graph.getNode id
      let inner ← node.bodies.mapM (graph.visitScope depth)
      return id :: graph.bordersOn .input node ++ inner.flatten ++ graph.bordersOn .output node
    return parts.flatten

/-- Every node, after everything that feeds it. A body is a later scope than the one around it, so
scopes are not nested deeper than there are scopes. -/
def visitOrder (graph : Graph) : Except Fault (List NodeId) :=
  graph.visitScope graph.scopes.size rootScope

end Graph

end BorrowFlow
