import BorrowFlow.Config.Basic
import BorrowFlow.Graph.VisitOrder
import BorrowFlow.Inference.Context

/-!
# Giving every port a facade

The first pass visits every node once, and gives each of its ports a facade and the type that the
node declares for it. References among the inputs form borrow groups, outputs that hand back a
reference become termination outputs, and values that leave a structure become tunnels. All other
facades are simple.
-/

namespace BorrowFlow

/-- The terms and groups that were created for one use of a signature, by their parameters. -/
structure Instantiation where
  generics : List TermId
  lifetimes : IdMap TermId := ∅
  mutabilities : IdMap TermId := ∅
  groups : IdMap GroupId := ∅

/-- The parameters of a signature, each with its port. -/
def assignPorts : List Parameter → List PortId → List PortId → List (Parameter × PortId)
  | [], _, _ => []
  | parameter :: rest, inputs, outputs =>
    match parameter.direction, inputs, outputs with
    | .input, port :: inputs, outputs => (parameter, port) :: assignPorts rest inputs outputs
    | .output, inputs, port :: outputs => (parameter, port) :: assignPorts rest inputs outputs
    | _, _, _ => []

/-- References that are declared mutable have to be borrowed mutably, and those declared immutable
need not be. -/
def DeclaredMutability.policy : DeclaredMutability → Policy
  | immutable => .allowImmutable
  | mutable => .requireMutable
  | polymorphic => .polymorphic

namespace Pass

/-! ## Facades -/

def face (port : PortId) (facade : Facade) : Pass Unit := do
  insertFacade port facade
  count fun stats => { stats with facadesCreated := stats.facadesCreated + 1 }

def faceSimply (port : PortId) (flow : FlowId) : Pass Unit := face port (.simple flow)

/-- Makes a port a member of a borrow group. The node sees a reference of the declared type, and the
wires see whatever is supplied. -/
def faceReference (port : PortId) (term : TermId) (group : GroupId) : Pass Unit := do
  let nodeSide ← newFlow false term
  let supplied ← newUnbound
  let wireSide ← newFlow false supplied
  face port (.referenceInput nodeSide wireSide group)
  changeGroups (·.addMember group port)

def checkFeatures (config : Config) (port : PortId) (heads : List TypeConstructor) : Pass Unit :=
  heads.forM fun head =>
    if config.isEnabled head then pure () else diagnose port (.featureDisabled head)

/-! ## Signatures -/

/-- The term of a lifetime parameter, which is created when it is first met. -/
def lifetimeParameter (used : Instantiation) (parameter : Nat) :
    Pass (TermId × Instantiation) :=
  match used.lifetimes.get? parameter with
  | some term => return (term, used)
  | none => do
    let term ← newTerm (·.newLifetime none)
    return (term, { used with lifetimes := used.lifetimes.insert parameter term })

/-- The mutability of a reference. Polymorphic references with one lifetime parameter share
theirs. -/
def mutabilityParameter (used : Instantiation) (parameter : Nat) :
    DeclaredMutability → Pass (Mutability × Instantiation)
  | .immutable => return (.fixed false, used)
  | .mutable => return (.fixed true, used)
  | .polymorphic =>
    match used.mutabilities.get? parameter with
    | some term => return (.shared term, used)
    | none => do
      let term ← newTerm (·.newMutability)
      return (.shared term, { used with mutabilities := used.mutabilities.insert parameter term })

def instantiate (used : Instantiation) : DeclaredType → Pass (TermId × Instantiation)
  | .generic index =>
    match used.generics[index]? with
    | some term => return (term, used)
    | none => throw (.undeclaredGeneric index)
  | .concrete type => do
    let term ← newTerm (·.newType type)
    return (term, used)
  | .constructed head argument => do
    let (argumentTerm, used) ← instantiate used argument
    let term ← newTerm (·.newConstructed head argumentTerm)
    return (term, used)
  | .reference mutability lifetime referent => do
    let (underlying, used) ← instantiate used referent
    let (lifetimeTerm, used) ← lifetimeParameter used lifetime
    let (mutabilityTerm, used) ← mutabilityParameter used lifetime mutability
    let term ← newTerm (·.newReference mutabilityTerm underlying lifetimeTerm)
    return (term, used)

/-- The borrow group of a lifetime parameter. The first reference input that has the parameter
decides the policy of the group. -/
def groupParameter (node : NodeId) (scope : ScopeId) (used : Instantiation) (parameter : Nat)
    (mutability : DeclaredMutability) : Pass (GroupId × Instantiation) :=
  match used.groups.get? parameter with
  | some group => return (group, used)
  | none => do
    let (lifetimeTerm, used) ← lifetimeParameter used parameter
    let group ← newGroup node scope mutability.policy lifetimeTerm
    return (group, { used with groups := used.groups.insert parameter group })

/-- Faces the port of one parameter, and answers the term of its type. Outputs that hand something
back have to wait until every input has its facade. Results are fresh values, free to be borrowed
mutably. -/
def faceParameter (config : Config) (node : NodeId) (scope : ScopeId) (used : Instantiation)
    (parameter : Parameter) (port : PortId) : Pass (TermId × Instantiation) := do
  let (term, used) ← instantiate used parameter.type
  checkFeatures config port parameter.type.constructors
  match parameter.direction, parameter.type.referenceLifetime?, parameter.pairsWith with
  | .input, some (lifetime, mutability), _ =>
    let (group, used) ← groupParameter node scope used lifetime mutability
    faceReference port term group
    return (term, used)
  | .output, _, some _ => return (term, used)
  | direction, _, _ =>
    let flow ← newFlow (direction = .output) term
    faceSimply port flow
    return (term, used)

/-- Faces the ports of parameters one after the other, and answers the terms of their types. -/
def faceParameters (config : Config) (node : NodeId) (scope : ScopeId) :
    Instantiation → List (Parameter × PortId) → Pass (List TermId)
  | _, [] => return []
  | used, (parameter, port) :: rest => do
    let (term, used) ← faceParameter config node scope used parameter port
    let terms ← faceParameters config node scope used rest
    return term :: terms

/-- Faces an output that hands back what a reference input took. What the wires see of it is settled
when the group of the input is decided. -/
def faceHandedBack (port : PortId) (term : TermId) (input : PortId) : Pass Unit := do
  let nodeSide ← newFlow true term
  let handedBack ← newUnbound
  let wireSide ← newFlow true handedBack
  face port (.terminationOutput nodeSide wireSide input)
  changeGroups (·.pairOutput input port)

/-- Faces the port of a parameter that hands something back, if it is one. -/
def facePairing (signature : Signature) (ports : List PortId) (parameter : Parameter)
    (port : PortId) (term : TermId) : Pass Unit :=
  match parameter.pairsWith with
  | none => pure ()
  | some index => do
    let facades := (← get).facades
    match ports[index]? with
    | some input =>
      if facades.isReferenceInput input then faceHandedBack port term input
      else throw (.badPairing signature.name parameter.name index)
    | none => throw (.badPairing signature.name parameter.name index)

def faceFunctional (config : Config) (id : NodeId) (node : Node) (signature : Signature) :
    Pass Unit := do
  let generics ← signature.generics.mapM fun generic => newTerm (·.newUnbound generic.constraints)
  let assigned := assignPorts signature.parameters node.inputs node.outputs
  let ports := assigned.map Prod.snd
  let terms ← faceParameters config id node.scope { generics } assigned
  (assigned.zip terms).forM fun ((parameter, port), term) =>
    facePairing signature ports parameter port term

/-! ## Other plain nodes -/

def faceConstant (config : Config) (node : Node) (type : DataType) (mutable : Bool) :
    Pass Unit := do
  let term ← newTerm (·.newType type)
  let flow ← newFlow mutable term
  node.outputs.forM fun output => do
    faceSimply output flow
    checkFeatures config output type.constructors

/-- One pair of ports of a borrow: the input takes any value, the output is a reference to it. -/
def faceBorrowed (mutable : Bool) (lifetime : Lifetime) (lifetimeTerm : TermId)
    (input output : PortId) : Pass Unit := do
  let underlying ← newUnbound
  let borrowed ← newFlow false underlying
  faceSimply input borrowed
  let reference ← newTerm (·.newReference (.fixed mutable) underlying lifetimeTerm)
  let flow ← newFlow false reference
  faceSimply output flow
  modifyFlows (·.interrupt lifetime borrowed)

/-- A borrow that the user placed opens its lifetime at once. -/
def faceExplicitBorrow (node : Node) (mutable : Bool) : Pass Unit := do
  let (lifetime, lifetimeTerm) ← openLifetime node.scope
  (node.inputs.zip node.outputs).forM fun (input, output) =>
    faceBorrowed mutable lifetime lifetimeTerm input output

def faceDrop (node : Node) : Pass Unit := do
  let term ← newUnbound
  let flow ← newFlow false term
  node.inputs.forM fun input => faceSimply input flow

/-! ## Border nodes -/

/-- The same value is seen on both sides of the border. -/
def faceInputTunnel (node : Node) : Pass Unit := do
  let term ← newUnbound
  let flow ← newFlow false term
  (node.inputs ++ node.outputs).forM fun port => faceSimply port flow

/-- Whether the bodies of a structure may not run, and there is nothing in their place then. -/
def deliversOption (graph : Graph) (owner : Node) : Bool :=
  match owner.kind with
  | .compound kind =>
    !kind.mergesBranches &&
      owner.bodies.any fun body => ((graph.scopes[body]?).map Scope.conditional).getD false
  | _ => false

/-- Every body delivers a value of the same type. Outside, that is an option if no body may run. -/
def faceOutputTunnel (config : Config) (graph : Graph) (node : Node) (owner : NodeId) :
    Pass Unit := do
  let ownerNode ← graph.getNode owner
  let value ← newUnbound
  let inner ← node.inputs.mapM fun input => do
    let flow ← newFlow false value
    faceSimply input flow
    return flow
  node.outputs.forM fun output => do
    let delivered ←
      if deliversOption graph ownerNode then do
        let option ← newTerm (·.newConstructed .option value)
        checkFeatures config output [.option]
        pure option
      else pure value
    let wireSide ← newFlow false delivered
    face output (.tunnel (inner.headD wireSide) wireSide)

/-- The reference lives as long as the structure, so it outlasts the bodies. -/
def faceBorrowTunnel (node : Node) (mutable : Bool) : Pass Unit := do
  let underlying ← newUnbound
  let borrowed ← newFlow false underlying
  node.inputs.forM fun input => faceSimply input borrowed
  let (lifetime, lifetimeTerm) ← openLifetime node.scope
  let reference ← newTerm (·.newReference (.fixed mutable) underlying lifetimeTerm)
  let flow ← newFlow false reference
  node.outputs.forM fun output => faceSimply output flow
  modifyFlows (·.interrupt lifetime borrowed)

/-- Hands back the flow that went into the borrow tunnel. -/
def faceTerminateTunnel (graph : Graph) (id : NodeId) (node : Node) (borrowTunnel : NodeId) :
    Pass Unit := do
  let borrowPort ← graph.inputPort borrowTunnel 0
  match (← get).facades.get? borrowPort with
  | none => throw (.terminateBeforeBorrow id borrowTunnel)
  | some borrowed =>
    node.inputs.forM fun input => do
      let term ← newUnbound
      let flow ← newFlow false term
      faceSimply input flow
    node.outputs.forM fun output => faceSimply output borrowed.wireSide

/-- Takes an option and feeds its value into the body. -/
def faceUnwrapping (config : Config) (node : Node) : Pass Unit := do
  let value ← newUnbound
  let option ← newTerm (·.newConstructed .option value)
  let outer ← newFlow false option
  node.inputs.forM fun input => do
    faceSimply input outer
    checkFeatures config input [.option]
  let unwrapped ← newFlow false value
  node.outputs.forM fun output => faceSimply output unwrapped

/-- The body may change the condition, through a reference that outlasts every iteration. -/
def faceLoopCondition (node : Node) : Pass Unit := do
  let condition ← newTerm (·.newType .bool)
  let outer ← newFlow true condition
  node.inputs.forM fun input => faceSimply input outer
  let (_, lifetimeTerm) ← openLifetime node.scope
  let reference ← newTerm (·.newReference (.fixed true) condition lifetimeTerm)
  let inner ← newFlow false reference
  node.outputs.forM fun output => faceSimply output inner

/-- Borrows an iterator mutably and feeds its items into the body. -/
def faceIterateTunnel (config : Config) (id : NodeId) (node : Node) : Pass Unit := do
  let item ← newUnbound
  let iterator ← newTerm (·.newConstructed .iterator item)
  let lifetimeTerm ← newTerm (·.newLifetime none)
  let reference ← newTerm (·.newReference (.fixed true) iterator lifetimeTerm)
  let group ← newGroup id node.scope .requireMutable lifetimeTerm
  node.inputs.forM fun input => do
    faceReference input reference group
    checkFeatures config input [.iterator]
  let element ← newFlow false item
  node.outputs.forM fun output => faceSimply output element

def faceBorder (config : Config) (graph : Graph) (id : NodeId) (node : Node) (owner : NodeId) :
    BorderKind → Pass Unit
  | .inputTunnel => faceInputTunnel node
  | .outputTunnel => faceOutputTunnel config graph node owner
  | .borrowTunnel mutable => faceBorrowTunnel node mutable
  | .terminateLifetimeTunnel borrowTunnel => faceTerminateTunnel graph id node borrowTunnel
  | .unwrapOptionTunnel | .optionSelector => faceUnwrapping config node
  | .loopCondition => faceLoopCondition node
  | .iterateTunnel => faceIterateTunnel config id node

/-! ## The pass -/

/-- Faces all ports of a node. Nodes that end lifetimes are only ever inserted by inference. -/
def faceNode (config : Config) (graph : Graph) (id : NodeId) (node : Node) : Pass Unit :=
  match node.kind with
  | .constant type mutable => faceConstant config node type mutable
  | .functional signature => faceFunctional config id node signature
  | .explicitBorrow mutable _ => faceExplicitBorrow node mutable
  | .terminateLifetime .. => throw (.terminationPlaced id)
  | .drop => faceDrop node
  | .compound _ => pure ()
  | .border owner kind => faceBorder config graph id node owner kind

def establishScope (graph : Graph) (scope : ScopeId) : Pass Unit := do
  let data ← graph.getScope scope
  let (_, lifetimes) ← ask (·.lifetimes.establish scope data.parent)
  modify fun context => { context with lifetimes }

def visitNode (config : Config) (graph : Graph) (id : NodeId) : Pass Unit := do
  let node ← graph.getNode id
  faceNode config graph id node
  count fun stats => { stats with nodesVisited := stats.nodesVisited + 1 }

/-- The first pass. Scopes get their lifetime graphs in the order they were created, so the
enclosing scope has one before the scopes in it. -/
def facePorts (config : Config) (graph : Graph) : Pass Unit := do
  (List.range graph.scopes.size).forM (establishScope graph)
  let order ← graph.visitOrder
  modify fun context => { context with order }
  order.forM (visitNode config graph)

end Pass

end BorrowFlow
