import BorrowFlow.Message.Fault
import BorrowFlow.Signature.Basic

/-!
# Dataflow graphs

A program is a graph of nodes whose ports are connected by wires. Nodes live in nested scopes: a
structure (a frame, a loop or a match on an option) owns the scopes of its bodies, and its border
nodes carry values between the outside and the bodies. Everything is kept in flat arrays and named
by its position; nothing is ever removed.
-/

namespace BorrowFlow

inductive StructureKind where
  | frame
  | loop
  /-- A match on an option, with one body for a value and one for none. -/
  | optionMatch
  deriving DecidableEq

namespace StructureKind

def name : StructureKind → String
  | frame => "Frame"
  | loop => "Loop"
  | optionMatch => "OptionMatch"

def ofName? (name : String) : Option StructureKind :=
  [frame, loop, optionMatch].find? fun kind => kind.name = name

def bodyCount : StructureKind → Nat
  | frame | loop => 1
  | optionMatch => 2

/-- Whether exactly one of the bodies runs, so that a value leaving them is always there. -/
def mergesBranches : StructureKind → Bool
  | optionMatch => true
  | _ => false

/-- Whether the bodies may not run at all, whatever border nodes the structure has. -/
def isConditional : StructureKind → Bool
  | frame => false
  | _ => true

end StructureKind

inductive BorderKind where
  | inputTunnel
  | outputTunnel
  | borrowTunnel (mutable : Bool)
  /-- Ends the borrow that the named borrow tunnel began. -/
  | terminateLifetimeTunnel (borrowTunnel : NodeId)
  | unwrapOptionTunnel
  | loopCondition
  | iterateTunnel
  /-- Feeds the value of the matched option into the first body. -/
  | optionSelector
  deriving DecidableEq

namespace BorderKind

def name : BorderKind → String
  | inputTunnel => "InputTunnel"
  | outputTunnel => "OutputTunnel"
  | borrowTunnel _ => "BorrowTunnel"
  | terminateLifetimeTunnel _ => "TerminateLifetimeTunnel"
  | unwrapOptionTunnel => "UnwrapOptionTunnel"
  | loopCondition => "LoopCondition"
  | iterateTunnel => "IterateTunnel"
  | optionSelector => "OptionSelector"

/-- Whether the node carries values into the structure or out of it. -/
def side : BorderKind → Direction
  | outputTunnel | terminateLifetimeTunnel _ => .output
  | _ => .input

/-- Whether the node feeds every body, and not only the first one. -/
def feedsEveryBody : BorderKind → Bool
  | inputTunnel | borrowTunnel _ => true
  | _ => false

end BorderKind

inductive NodeKind where
  /-- Produces an owned value, bound mutably or not. -/
  | constant (type : DataType) (mutable : Bool)
  | functional (signature : Signature)
  | explicitBorrow (mutable : Bool) (count : Nat)
  /-- Takes the last references of a lifetime and hands back the values that were borrowed. -/
  | terminateLifetime (inputs outputs : Nat)
  | drop
  | compound (kind : StructureKind)
  | border (owner : NodeId) (kind : BorderKind)
  deriving DecidableEq

namespace NodeKind

def name : NodeKind → String
  | constant .. => "Constant"
  | functional signature => signature.name
  | explicitBorrow .. => "ExplicitBorrow"
  | terminateLifetime .. => "TerminateLifetime"
  | drop => "Drop"
  | compound kind => kind.name
  | border _ kind => kind.name

def isStructure : NodeKind → Bool
  | compound _ => true
  | _ => false

def borderKind? : NodeKind → Option BorderKind
  | border _ kind => some kind
  | _ => none

/-- How many inputs and outputs a plain node has. Structures and border nodes are not plain. -/
def arity? : NodeKind → Option (Nat × Nat)
  | constant .. => some (0, 1)
  | functional signature => some (signature.inputCount, signature.outputCount)
  | explicitBorrow _ count => some (count, count)
  | terminateLifetime inputs outputs => some (inputs, outputs)
  | drop => some (1, 0)
  | compound _ | border .. => none

end NodeKind

structure Scope where
  parent : Option ScopeId := none
  /-- The structure whose body this is; the root scope has none. -/
  owner : Option NodeId := none
  /-- Whether the scope may not run at all. -/
  conditional : Bool := false
  /-- The nodes placed directly in the scope. Border nodes are not among them. -/
  nodes : List NodeId := []
  deriving DecidableEq

structure Node where
  scope : ScopeId
  kind : NodeKind
  inputs : List PortId := []
  outputs : List PortId := []
  inserted : Bool := false
  /-- The scopes of the bodies, for a structure. -/
  bodies : List ScopeId := []
  borders : List NodeId := []
  deriving DecidableEq

structure Port where
  node : NodeId
  direction : Direction
  /-- The position among the ports of its node that have the same direction. -/
  index : Nat
  /-- The scope that the port faces. -/
  scope : ScopeId
  wire : Option WireId := none
  deriving DecidableEq

structure Wire where
  scope : ScopeId
  source : PortId
  /-- The inputs that the wire feeds, in the order they were connected. -/
  sinks : List PortId
  deriving DecidableEq

structure Graph where
  scopes : Array Scope
  nodes : Array Node
  ports : Array Port
  wires : Array Wire
  deriving DecidableEq

namespace Graph

def rootScope : ScopeId := 0

/-- The graph with nothing but its root scope. -/
def empty : Graph where
  scopes := #[{}]
  nodes := #[]
  ports := #[]
  wires := #[]

instance : Inhabited Graph := ⟨empty⟩

/-! ## Queries -/

def getScope (graph : Graph) (scope : ScopeId) : Except Fault Scope :=
  match graph.scopes[scope]? with
  | some found => .ok found
  | none => .error (.unknownScope scope)

def getNode (graph : Graph) (node : NodeId) : Except Fault Node :=
  match graph.nodes[node]? with
  | some found => .ok found
  | none => .error (.unknownNode node)

def getPort (graph : Graph) (port : PortId) : Except Fault Port :=
  match graph.ports[port]? with
  | some found => .ok found
  | none => .error (.unknownPort port)

def getWire (graph : Graph) (wire : WireId) : Except Fault Wire :=
  match graph.wires[wire]? with
  | some found => .ok found
  | none => .error (.unknownWire wire)

def inputPort (graph : Graph) (node : NodeId) (index : Nat) : Except Fault PortId := do
  match (← graph.getNode node).inputs[index]? with
  | some port => return port
  | none => throw (.noInput node index)

def outputPort (graph : Graph) (node : NodeId) (index : Nat) : Except Fault PortId := do
  match (← graph.getNode node).outputs[index]? with
  | some port => return port
  | none => throw (.noOutput node index)

/-- A node that is known to be a structure. -/
def getStructure (graph : Graph) (node : NodeId) : Except Fault Node :=
  match graph.nodes[node]? with
  | some found => if found.kind.isStructure then .ok found else .error (.notStructure node)
  | none => .error (.notStructure node)

def bodiesOf (graph : Graph) (node : NodeId) : Except Fault (List ScopeId) :=
  Node.bodies <$> graph.getStructure node

def bordersOf (graph : Graph) (node : NodeId) : Except Fault (List NodeId) :=
  Node.borders <$> graph.getStructure node

/-- The output that feeds an input, if it is wired. -/
def sourceOf (graph : Graph) (sink : PortId) : Except Fault (Option PortId) := do
  let port ← graph.getPort sink
  match port.direction, port.wire with
  | .input, some wire => return some (← graph.getWire wire).source
  | _, _ => return none

/-- The inputs that an output feeds, in wiring order. -/
def sinksOf (graph : Graph) (source : PortId) : Except Fault (List PortId) := do
  let port ← graph.getPort source
  match port.direction, port.wire with
  | .output, some wire => return (← graph.getWire wire).sinks
  | _, _ => return []

def isConnected (graph : Graph) (port : PortId) : Except Fault Bool := do
  return (← graph.getPort port).wire.isSome

end Graph

end BorrowFlow
