import BorrowFlow.Inference.Context

/-!
# Unifying the two ends of every wire

The second pass visits every wire once, after everything that feeds it, and unifies what the wire
supplies with what each of its sinks expects. A borrow group is decided as soon as its last wired
input has received its value.
-/

namespace BorrowFlow

/-- A wired member of a group that is being decided, with what it was supplied with. -/
structure SuppliedMember where
  port : PortId
  flow : FlowId
  term : TermId
  supply : Supply
  deriving DecidableEq

/-- Whether a reference that is derived for a member is mutable. -/
def SuppliedMember.derivedMutable (member : SuppliedMember) (isReference : Bool) : Decision → Bool
  | .borrow mutable _ => mutable
  | .reuse _ =>
    match member.supply with
    | .reference mutable _ => isReference && mutable
    | .owned _ => false

namespace Pass

/-! ## Outputs that hand something back -/

/-- Settles what the wires see of one paired output: the value that was supplied to the member, if
it was borrowed, and else the reference itself. -/
def settleOutput (graph : Graph) (borrowed : Bool) (member : GroupMember) (output : PortId) :
    Pass Unit := do
  let facade ← ask (·.facades.get output)
  let connected ← graph.isConnected member.port
  let handedBack ←
    if borrowed && connected then ask (·.facades.wireSide member.port) else pure facade.nodeSide
  let expected ← termOf facade.wireSide
  let supplied ← termOf handedBack
  unifyAt output expected supplied
  modifyFlows (·.merge facade.wireSide handedBack)

/-- Settles what the wires see of the outputs that are paired with the members of a group. -/
def settleOutputs (graph : Graph) (group : GroupId) (borrowed : Bool) : Pass Unit := do
  let data ← ask (·.groups.get group)
  data.members.forM fun member =>
    match member.pairedOutput with
    | some output => settleOutput graph borrowed member output
    | none => pure ()

/-! ## Deciding groups -/

def supplyOf (member : GroupMember) : Pass SuppliedMember := do
  let flow ← ask (·.facades.wireSide member.port)
  let term ← termOf flow
  let context ← get
  let supply :=
    match context.terms.mutability? term with
    | some mutable => .reference mutable (context.terms.lifetimeOf term)
    | none => .owned (context.flows.get flow).mutable
  return { port := member.port, flow, term, supply }

def resolveLifetime (term : TermId) (lifetime : Lifetime) : Pass Unit :=
  modify fun context => { context with terms := context.terms.resolveLifetime term lifetime }

/-- A borrow of a reference ends before that reference does. A borrowed value is not to be used
while the borrow lasts. -/
def beginBorrow (lifetime : Lifetime) (member : SuppliedMember) : Pass Unit :=
  match member.supply with
  | .reference _ outer =>
    modify fun context => { context with lifetimes := context.lifetimes.addOutlives outer lifetime }
  | .owned _ => modifyFlows (·.interrupt lifetime member.flow)

/-- Decides for a group, and gives its lifetime term the lifetime that was chosen. -/
def makeDecision (group : BorrowGroup) (supplied : List SuppliedMember) : Pass Decision :=
  match group.policy.choose (supplied.map SuppliedMember.supply) with
  | .reuse lifetime => do
    resolveLifetime group.lifetimeTerm lifetime
    return .reuse lifetime
  | .borrow mutable => do
    let lifetime ← carveLifetime group.scope
    resolveLifetime group.lifetimeTerm lifetime
    supplied.forM (beginBorrow lifetime)
    return .borrow mutable lifetime

/-- Gives the node side of a member the reference that is derived from what was supplied. -/
def deriveReference (lifetimeTerm : TermId) (decision : Decision) (member : SuppliedMember) :
    Pass Unit := do
  let (isReference, underlying) :=
    match (← get).terms.referenceParts? member.term with
    | some (_, underlying, _) => (true, underlying)
    | none => (false, member.term)
  let mutable := member.derivedMutable isReference decision
  let derived ← newTerm (·.newReference (.fixed mutable) underlying lifetimeTerm)
  let nodeSide ← ask (·.facades.nodeSide member.port)
  let expected ← termOf nodeSide
  unifyAt member.port expected derived

def decideGroup (graph : Graph) (group : GroupId) : Pass Unit := do
  let data ← ask (·.groups.get group)
  let wired ← data.wiredMembers graph
  let supplied ← wired.mapM supplyOf
  let decision ← makeDecision data supplied
  supplied.forM (deriveReference data.lifetimeTerm decision)
  changeGroups (·.decide group decision)
  count fun stats => { stats with groupsDecided := stats.groupsDecided + 1 }
  settleOutputs graph group decision.isBorrow

/-! ## Wires -/

/-- Records that a group has received one more value, and decides it if that was the last one. -/
def arriveAt (graph : Graph) (group : GroupId) : Pass Unit := do
  let (ready, groups) ← ask (·.groups.arrive group)
  modify fun context => { context with groups }
  if ready then
    decideGroup graph group

/-- How the flow of a sink gets to know about the source: as the same value, or as a duplicate. -/
def joinSink (source sink : FlowId) (shared : Bool) (mutable : Bool) : Pass Unit :=
  if shared then modifyFlows (·.merge sink source)
  else modifyFlows (·.setMutable sink mutable)

/-- Unifies one sink of a wire with what the wire supplies, and lets its group know. -/
def unifySink (graph : Graph) (source : FlowId) (mutable shared : Bool) (supplied : TermId)
    (sink : PortId) : Pass TermId := do
  let flow ← ask (·.facades.wireSide sink)
  let expected ← termOf flow
  unifyAt sink expected supplied
  joinSink source flow shared mutable
  let facade ← ask (·.facades.get sink)
  if let some group := facade.group? then
    arriveAt graph group
  return expected

def requireCopy (source : PortId) (term : TermId) : Pass Unit := do
  let copyable ← newTerm (·.newUnbound [.copy])
  unifyAt source copyable term

/-- Unifies a wire. The first sink gets the value itself and every other one a duplicate, unless all
sinks borrow the value. Later sinks are compared with the first one. -/
def unifyWire (graph : Graph) (source : PortId) (sinks : List PortId) : Pass Unit := do
  let flow ← ask (·.facades.wireSide source)
  let term ← termOf flow
  let context ← get
  let mutable := (context.flows.get flow).mutable
  let borrowed := sinks.all context.facades.isReferenceInput
  if sinks.length > 1 && !borrowed then
    requireCopy source term
  match sinks with
  | [] => pure ()
  | first :: rest =>
    let firstTerm ← unifySink graph flow mutable true term first
    rest.forM fun sink => discard (unifySink graph flow mutable borrowed firstTerm sink)

/-- Unifies the wire that leaves an output, if there is one. -/
def unifyOutput (graph : Graph) (output : PortId) : Pass Unit := do
  let sinks ← graph.sinksOf output
  if !sinks.isEmpty then
    unifyWire graph output sinks
    count fun stats => { stats with wiresUnified := stats.wiresUnified + 1 }

/-! ## The pass -/

/-- The groups that nothing ever arrives at. -/
def unwiredGroups (groups : BorrowGroups) : List GroupId :=
  (List.range groups.size).filter fun group =>
    ((groups.groups[group]?).map BorrowGroup.wired).getD 1 = 0

def countWired (graph : Graph) : Pass Unit := fun context =>
  match BorrowGroups.countWired graph context.groups with
  | .ok () groups => .ok () { context with groups }
  | .error fault groups => .error fault { context with groups }

/-- The second pass. Groups that nothing arrives at stay undecided, and their references flow on as
they are. -/
def unifyWires (graph : Graph) : Pass Unit := do
  countWired graph
  let context ← get
  (unwiredGroups context.groups).forM fun group => settleOutputs graph group false
  context.order.forM fun node => do
    let data ← graph.getNode node
    data.outputs.forM (unifyOutput graph)
  modify fun context => { context with flows := context.flows.resolveAll context.terms }

end Pass

end BorrowFlow
