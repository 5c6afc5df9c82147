import BorrowFlow.Graph.Basic

/-!
# Building and rewiring graphs

Every edit either fails or answers, and leaves a graph in both cases: a splice that fails while it
reconnects has already taken the old connection apart.
-/

namespace BorrowFlow

/-- An edit of a graph. A failed edit keeps what it changed before it failed. -/
abbrev Edit := EStateM Fault Graph

namespace Graph

/-! ## Adding nodes -/

/-- A port at the end of the port array, without a wire. -/
def addPort (graph : Graph) (node : NodeId) (direction : Direction) (index : Nat)
    (scope : ScopeId) : Graph :=
  let port := graph.ports.size
  { graph with
    ports := graph.ports.push { node, direction, index, scope }
    nodes := graph.nodes.modify node fun data =>
      match direction with
      | .input => { data with inputs := data.inputs ++ [port] }
      | .output => { data with outputs := data.outputs ++ [port] } }

/-- Ports for a node, one facing each of the scopes. -/
def addPorts (graph : Graph) (node : NodeId) (direction : Direction) (scopes : List ScopeId) :
    Graph :=
  scopes.zipIdx.foldl (fun graph (scope, index) => graph.addPort node direction index scope) graph

def placeNode (graph : Graph) (scope : ScopeId) (node : NodeId) : Graph :=
  { graph with
    scopes := graph.scopes.modify scope fun data => { data with nodes := data.nodes ++ [node] } }

/-- The graph with one more node, which has no ports yet. -/
def pushNode (graph : Graph) (node : Node) : Graph :=
  { graph with nodes := graph.nodes.push node }

/-- Adds a plain node with the ports that its kind asks for. Inference marks the nodes that it
inserts. -/
def addNode (scope : ScopeId) (kind : NodeKind) (inserted : Bool) : Edit NodeId := do
  let graph ← get
  let _ ← graph.getScope scope
  match kind.arity? with
  | none => throw (.notPlain kind.name)
  | some (inputs, outputs) =>
    let node := graph.nodes.size
    let graph := graph.pushNode { scope, kind, inserted }
    let graph := graph.addPorts node .input (List.replicate inputs scope)
    let graph := graph.addPorts node .output (List.replicate outputs scope)
    set (graph.placeNode scope node)
    return node

/-- Adds a structure together with the scopes of its bodies. -/
def addStructure (scope : ScopeId) (kind : StructureKind) : Edit NodeId := do
  let graph ← get
  let _ ← graph.getScope scope
  let node := graph.nodes.size
  let bodies := List.range' graph.scopes.size kind.bodyCount
  let body : Scope :=
    { parent := some scope, owner := some node, conditional := kind.isConditional }
  let graph := graph.pushNode { scope, kind := .compound kind, bodies }
  let graph := { graph with scopes := graph.scopes ++ Array.replicate kind.bodyCount body }
  set (graph.placeNode scope node)
  return node

def admitsBorder (graph : Graph) (owner : NodeId) (structureKind : StructureKind) :
    BorderKind → Except Fault Bool
  | .inputTunnel | .outputTunnel | .borrowTunnel _ => .ok true
  | .terminateLifetimeTunnel borrowTunnel => do
    match (← graph.getNode borrowTunnel).kind with
    | .border partner (.borrowTunnel _) => return partner = owner
    | _ => return false
  | .unwrapOptionTunnel => .ok (structureKind = .frame)
  | .loopCondition | .iterateTunnel => .ok (structureKind = .loop)
  | .optionSelector => .ok (structureKind = .optionMatch)

/-- The ports of a border node: one faces the scope of the structure, the others face bodies. -/
def addBorderPorts (graph : Graph) (node : NodeId) (kind : BorderKind) (outer : ScopeId)
    (bodies : List ScopeId) : Graph :=
  match kind.side with
  | .input =>
    let fed := if kind.feedsEveryBody then bodies else bodies.take 1
    (graph.addPorts node .input [outer]).addPorts node .output fed
  | .output => (graph.addPorts node .input bodies).addPorts node .output [outer]

def makeConditional (graph : Graph) (scopes : List ScopeId) : Graph :=
  scopes.foldl
    (fun graph scope =>
      { graph with
        scopes := graph.scopes.modify scope fun data => { data with conditional := true } })
    graph

/-- Attaches a border node to a structure. A frame that unwraps an option may not run. -/
def addBorder (owner : NodeId) (kind : BorderKind) : Edit NodeId := do
  let graph ← get
  let ownerNode ← graph.getNode owner
  match ownerNode.kind with
  | .compound structureKind =>
    unless ← graph.admitsBorder owner structureKind kind do
      throw (.borderRefused kind.name structureKind.name)
    let node := graph.nodes.size
    let graph := graph.pushNode { scope := ownerNode.scope, kind := .border owner kind }
    let graph := graph.addBorderPorts node kind ownerNode.scope ownerNode.bodies
    let graph :=
      if kind = .unwrapOptionTunnel then graph.makeConditional ownerNode.bodies else graph
    set { graph with
      nodes := graph.nodes.modify owner fun data =>
        { data with borders := data.borders ++ [node] } }
    return node
  | _ => throw (.borderOutsideStructure kind.name owner)

/-! ## Wiring -/

def setWire (graph : Graph) (port : PortId) (wire : Option WireId) : Graph :=
  { graph with ports := graph.ports.modify port fun data => { data with wire } }

def modifyWire (graph : Graph) (wire : WireId) (change : Wire → Wire) : Graph :=
  { graph with wires := graph.wires.modify wire change }

/-- Connects an output to an input. The wire of the output is extended if it has one. -/
def connect (source sink : PortId) : Edit WireId := do
  let graph ← get
  let sourcePort ← graph.getPort source
  let sinkPort ← graph.getPort sink
  if sourcePort.direction ≠ .output ∨ sinkPort.direction ≠ .input then
    throw (.wireDirection source sink)
  if sourcePort.scope ≠ sinkPort.scope then
    throw (.wireAcrossScopes source sink sourcePort.scope sinkPort.scope sinkPort.node)
  if let some occupied := sinkPort.wire then
    throw (.sinkOccupied sink occupied sinkPort.node)
  match sourcePort.wire with
  | some wire =>
    let graph := graph.modifyWire wire fun data => { data with sinks := data.sinks ++ [sink] }
    set (graph.setWire sink (some wire))
    return wire
  | none =>
    let wire := graph.wires.size
    let graph := { graph with
      wires := graph.wires.push { scope := sourcePort.scope, source, sinks := [sink] } }
    set ((graph.setWire source (some wire)).setWire sink (some wire))
    return wire

/-- Detaches an input from its wire, and answers the port that used to feed it. -/
def disconnect (sink : PortId) : Edit (Option PortId) := do
  let graph ← get
  match (← graph.getPort sink).wire with
  | none => return none
  | some wire =>
    let data ← graph.getWire wire
    let sinks := data.sinks.filter (· ≠ sink)
    let graph := graph.modifyWire wire fun data => { data with sinks }
    let graph := if sinks.isEmpty then graph.setWire data.source none else graph
    set (graph.setWire sink none)
    return some data.source

/-- Routes the value that feeds an input through another node. The node's input takes the place of
the sink on its wire, and the node's output feeds the sink. -/
def splice (sink throughInput throughOutput : PortId) : Edit Unit := do
  let graph ← get
  match (← graph.getPort sink).wire with
  | none => throw (.spliceUnconnected sink)
  | some wire =>
    if (← graph.getPort throughInput).wire.isSome then
      throw (.spliceInputOccupied throughInput)
    let graph := graph.modifyWire wire fun data =>
      { data with
        sinks := data.sinks.map fun port => if port = sink then throughInput else port }
    set ((graph.setWire throughInput (some wire)).setWire sink none)
    let _ ← connect throughOutput sink

/-- Routes everything that an output feeds through another node. The node's output takes over the
wire of the source, and the source feeds only the node's input. -/
def spliceAfter (source throughInput throughOutput : PortId) : Edit Unit := do
  let graph ← get
  let throughPort ← graph.getPort throughOutput
  if throughPort.wire.isSome then
    throw (.spliceOutputOccupied throughOutput)
  let sourcePort ← graph.getPort source
  if throughPort.scope ≠ sourcePort.scope then
    throw (.spliceAcrossScopes throughOutput source)
  if let some wire := sourcePort.wire then
    let graph := graph.modifyWire wire fun data => { data with source := throughOutput }
    set ((graph.setWire throughOutput (some wire)).setWire source none)
  let _ ← connect source throughInput

end Graph

end BorrowFlow
