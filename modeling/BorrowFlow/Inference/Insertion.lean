import BorrowFlow.Config.Basic
import BorrowFlow.Graph.Edit
import BorrowFlow.Inference.Context

/-!
# Making borrows explicit

The third pass puts a borrow node in front of the wired inputs of every group that decided to
borrow. If the node hands its references back, the borrow ends right after those outputs: a node
that terminates the lifetime takes over their wires, so everything downstream keeps the values that
were supplied. Values that are handed back and that nothing uses are dropped.
-/

namespace BorrowFlow

/-- The graph that borrows are inserted into, and what inference knows about it. -/
structure Workspace where
  graph : Graph
  context : Context

abbrev Insertion := EStateM Fault Workspace

namespace Insertion

def edit {α : Type} (change : Edit α) : Insertion α := fun workspace =>
  match change workspace.graph with
  | .ok value graph => .ok value { workspace with graph }
  | .error fault graph => .error fault { workspace with graph }

def infer {α : Type} (pass : Pass α) : Insertion α := fun workspace =>
  match pass workspace.context with
  | .ok value context => .ok value { workspace with context }
  | .error fault context => .error fault { workspace with context }

/-- A question about the graph that may have no answer. -/
def askGraph {α : Type} (query : Graph → Except Fault α) : Insertion α := do
  query (← get).graph

/-- Gives a new port a facade that shows the given flow on both sides. -/
def faceSimply (port : PortId) (flow : FlowId) : Insertion Unit :=
  infer (Pass.insertFacade port (.simple flow))

def count (change : Stats → Stats) : Insertion Unit := infer (Pass.count change)

/-! ## Borrows -/

/-- Routes what feeds a member through one pair of ports of the borrow node. -/
def borrowMember (borrow : NodeId) (index : Nat) (member : GroupMember) : Insertion Unit := do
  let input ← askGraph (·.inputPort borrow index)
  let output ← askGraph (·.outputPort borrow index)
  edit (Graph.splice member.port input output)
  let facade ← infer (Pass.ask (·.facades.get member.port))
  faceSimply input facade.wireSide
  faceSimply output facade.nodeSide

/-- Puts one borrow node in front of all wired members. -/
def insertBorrow (scope : ScopeId) (mutable : Bool) (wired : List GroupMember) :
    Insertion Unit := do
  let borrow ← edit (Graph.addNode scope (.explicitBorrow mutable wired.length) true)
  wired.zipIdx.forM fun (member, index) => borrowMember borrow index member
  count fun stats => { stats with borrowsInserted := stats.borrowsInserted + 1 }

/-! ## Terminations -/

def dropValue (scope : ScopeId) (output : PortId) (flow : FlowId) : Insertion Unit := do
  let drop ← edit (Graph.addNode scope .drop true)
  let input ← askGraph (·.inputPort drop 0)
  let _ ← edit (Graph.connect output input)
  faceSimply input flow
  count fun stats => { stats with dropsInserted := stats.dropsInserted + 1 }

/-- Ends the borrow of one reference that is handed back: from here on the wires carry the value
that was borrowed. -/
def terminateReference (config : Config) (scope : ScopeId) (terminate : NodeId) (index : Nat)
    (reference : PortId) : Insertion Unit := do
  let handedBack ← infer (Pass.ask (·.facades.wireSide reference))
  let (carried, facades) ← infer (Pass.ask (·.facades.collapse reference))
  infer (modify fun context => { context with facades })
  let wiredOnward ← askGraph (·.isConnected reference)
  let input ← askGraph (·.inputPort terminate index)
  let output ← askGraph (·.outputPort terminate index)
  edit (Graph.spliceAfter reference input output)
  faceSimply input carried
  faceSimply output handedBack
  if !wiredOnward && config.inference.insertImplicitDrops then
    dropValue scope output handedBack

/-- Puts one node that ends the borrow behind all outputs that hand a reference back. -/
def insertTermination (config : Config) (scope : ScopeId) (paired : List PortId) :
    Insertion Unit := do
  let terminate ←
    edit (Graph.addNode scope (.terminateLifetime paired.length paired.length) true)
  paired.zipIdx.forM fun (reference, index) =>
    terminateReference config scope terminate index reference
  count fun stats => { stats with terminationsInserted := stats.terminationsInserted + 1 }

/-! ## The pass -/

/-- The outputs that hand back what the wired members took. A borrow ends inside the node, if no
member is handed back, or right after it, if every member is; anything in between cannot be ended.
-/
def pairedOutputs (node : NodeId) (wired : List GroupMember) : Except Fault (List PortId) :=
  let paired := wired.filterMap GroupMember.pairedOutput
  if !paired.isEmpty && paired.length < wired.length then
    .error (.unevenPairing paired.length wired.length node)
  else .ok paired

def insertGroup (config : Config) (group : BorrowGroup) (mutable : Bool) : Insertion Unit := do
  let wired ← askGraph group.wiredMembers
  if !wired.isEmpty then
    let paired ← pairedOutputs group.node wired
    insertBorrow group.scope mutable wired
    if !paired.isEmpty then
      insertTermination config group.scope paired

def insertBorrows (config : Config) : Insertion Unit := do
  let groups := (← get).context.groups.groups.toList
  groups.forM fun group =>
    match group.decision with
    | some (.borrow mutable _) => insertGroup config group mutable
    | _ => pure ()

end Insertion

end BorrowFlow
