import BorrowFlow.Config.File
import BorrowFlow.Inference.Phase
import BorrowFlow.Message.Error

/-!
# Causes of errors

Every way in which an operation of the library can fail, one constructor for each cause. How a fault
is worded, and where in the graph it is placed, is decided here and nowhere else.
-/

namespace BorrowFlow

inductive Fault where
  | unknownScope (scope : ScopeId)
  | unknownNode (node : NodeId)
  | unknownPort (port : PortId)
  | unknownWire (wire : WireId)
  | noInput (node : NodeId) (index : Nat)
  | noOutput (node : NodeId) (index : Nat)
  | notStructure (node : NodeId)
  /-- A structure or border node was added as if it were a plain one. -/
  | notPlain (kind : String)
  | borderOutsideStructure (kind : String) (node : NodeId)
  | borderRefused (border owner : String)
  | wireDirection (source sink : PortId)
  | wireAcrossScopes (source sink : PortId) (sourceScope sinkScope : ScopeId) (sinkNode : NodeId)
  | sinkOccupied (sink : PortId) (wire : WireId) (sinkNode : NodeId)
  | spliceUnconnected (sink : PortId)
  | spliceInputOccupied (port : PortId)
  | spliceOutputOccupied (port : PortId)
  | spliceAcrossScopes (output source : PortId)
  | dataflowCycle (scope : ScopeId) (node : NodeId)
  | lifetimeGraphTwice (scope : ScopeId)
  | noLifetimeGraph (scope : ScopeId)
  | noTypeTerm (flow : Nat)
  | typeTermTwice (id : Nat)
  | facadeTwice (port : PortId)
  | noFacade (port : PortId)
  | unknownGroup (group : Nat)
  | notReferenceInput (port : PortId)
  | decidedTwice (group : Nat)
  | terminationPlaced (node : NodeId)
  | terminateBeforeBorrow (node borrowTunnel : NodeId)
  | undeclaredGeneric (index : Nat)
  | badPairing (signature parameter : String) (index : Nat)
  /-- Some, but not all, inputs that share a borrow hand their reference back. -/
  | unevenPairing (paired wired : Nat) (node : NodeId)
  | outOfPhase (step : Step) (phase : Phase)
  | malformedConfig
  | unreadableConfig (path : String) (cause : ReadFailure)
  deriving DecidableEq

namespace Fault

def kind : Fault → ErrorKind
  | unevenPairing .. => .lifetimeTermination
  | malformedConfig => .config
  | unreadableConfig .. => .file
  | _ => .compiler

def message : Fault → String
  | unknownScope scope => "Unknown scope " ++ scopeName scope
  | unknownNode node => "Unknown node " ++ nodeName node
  | unknownPort port => "Unknown port " ++ portName port
  | unknownWire wire => "Unknown wire " ++ wireName wire
  | noInput node index => s!"{nodeName node} has no input {index}"
  | noOutput node index => s!"{nodeName node} has no output {index}"
  | notStructure node => nodeName node ++ " is not a structure"
  | notPlain kind => s!"'{kind}' nodes must be added through add_structure or add_border_node"
  | borderOutsideStructure kind node =>
      s!"Border node '{kind}' attached to '{nodeName node}', which is not a structure"
  | borderRefused border owner =>
      s!"Border node '{border}' cannot be attached to a '{owner}' structure"
  | wireDirection source sink =>
      s!"Wires must run from an output port to an input port ({portName source} -> {portName sink})"
  | wireAcrossScopes source sink sourceScope sinkScope _ =>
      s!"Cannot wire {portName source} to {portName sink}: the ports face different scopes " ++
        s!"({scopeName sourceScope} and {scopeName sinkScope})"
  | sinkOccupied sink wire _ =>
      s!"Input {portName sink} is already connected by {wireName wire}"
  | spliceUnconnected sink => "Cannot splice into unconnected input " ++ portName sink
  | spliceInputOccupied port => s!"Splice input {portName port} is already connected"
  | spliceOutputOccupied port => s!"Splice output {portName port} is already connected"
  | spliceAcrossScopes output source =>
      s!"Cannot splice {portName output} after {portName source}: the ports face different scopes"
  | dataflowCycle scope node => s!"Dataflow cycle through {nodeName node} in {scopeName scope}"
  | lifetimeGraphTwice scope => s!"Lifetime graph for {scopeName scope} was established twice"
  | noLifetimeGraph scope => "No lifetime graph has been established for " ++ scopeName scope
  | noTypeTerm flow => s!"Variable v{flow} was used before its type term was set"
  | typeTermTwice id => s!"Type term of variable v{id} was set a second time"
  | facadeTwice port => portName port ++ " was given a second facade"
  | noFacade port =>
      portName port ++ " has no facade. Facade construction must run before unification"
  | unknownGroup group => s!"Unknown borrow group {group}"
  | notReferenceInput port => portName port ++ " is not a reference input"
  | decidedTwice group => s!"Borrow group {group} was decided twice"
  | terminationPlaced _ =>
      "Lifetime termination nodes are only inserted by inference and cannot be placed"
  | terminateBeforeBorrow _ borrowTunnel =>
      "Terminate tunnel reached before its borrow tunnel " ++ nodeName borrowTunnel
  | undeclaredGeneric index => s!"Signature uses undeclared generic {index}"
  | badPairing signature parameter index =>
      s!"'{signature}' pairs output '{parameter}' with parameter {index}, " ++
        "which is not a reference input"
  | unevenPairing paired wired node =>
      s!"Only {paired} of the {wired} inputs borrowed by {nodeName node} " ++
        "hand their reference back, so the borrow cannot be ended"
  | outOfPhase step phase =>
      s!"{step.name} cannot run in phase {phase.name}, it needs {step.requires.name}"
  | malformedConfig => "Could not parse inference config"
  | unreadableConfig path cause => path ++ ": Could not read config: " ++ cause.message

def location : Fault → Location
  | unknownScope scope | lifetimeGraphTwice scope | noLifetimeGraph scope => .ofScope scope
  | unknownNode node | terminationPlaced node | terminateBeforeBorrow node _
  | unevenPairing _ _ node => .ofNode node
  | unknownPort port | facadeTwice port | noFacade port => .ofPort port
  | wireAcrossScopes _ sink _ _ sinkNode | sinkOccupied sink _ sinkNode =>
      .ofNodePort sinkNode sink
  | dataflowCycle scope node => { scope := some scope, node := some node }
  | _ => .unknown

def notes : Fault → ErrorNotes
  | unevenPairing .. =>
      { compilationStage := some "Borrow Insertion"
        lifetimeHint := some "Every input sharing a lifetime needs a paired output" }
  | outOfPhase .. => { compilationStage := some "Inference Pass Sequencing" }
  | malformedConfig =>
      { compilationStage := some "Configuration"
        primarySuggestion := some "Only [features] and [inference] tables are recognised" }
  | _ => {}

def report (fault : Fault) : ErrorReport where
  kind := fault.kind
  message := fault.message
  location := fault.location
  notes := fault.notes

end Fault

/-- A query that may fail can be asked in the middle of a computation that has a state. -/
instance {σ : Type} : MonadLift (Except Fault) (EStateM Fault σ) where
  monadLift
    | .ok value => pure value
    | .error fault => throw fault

end BorrowFlow
