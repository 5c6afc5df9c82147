import BorrowFlow.Borrow.Decision
import BorrowFlow.Facade
import BorrowFlow.Graph.Basic

/-!
# Borrow groups

The reference inputs of one node that share a lifetime parameter form a group. A group is ready to
be decided when every one of its wired inputs has received its value.
-/

namespace BorrowFlow

/-- A reference input, and the output that hands back what it took, where a borrow can end. -/
structure GroupMember where
  port : PortId
  pairedOutput : Option PortId := none
  deriving DecidableEq

structure BorrowGroup where
  node : NodeId
  scope : ScopeId
  policy : Policy
  members : List GroupMember := []
  /-- The lifetime term of every reference that has the lifetime parameter of the group. -/
  lifetimeTerm : TermId
  /-- How many members have a wire. -/
  wired : Nat := 0
  /-- How many wired members have received their value. -/
  received : Nat := 0
  decision : Option Decision := none
  deriving DecidableEq

def BorrowGroup.wiredMembers (group : BorrowGroup) (graph : Graph) :
    Except Fault (List GroupMember) :=
  group.members.filterM fun member => graph.isConnected member.port

structure BorrowGroups where
  groups : Array BorrowGroup := #[]
  byPort : IdMap GroupId := ∅

namespace BorrowGroups

def size (groups : BorrowGroups) : Nat := groups.groups.size

def get (groups : BorrowGroups) (group : GroupId) : Except Fault BorrowGroup :=
  match groups.groups[group]? with
  | some found => .ok found
  | none => .error (.unknownGroup group)

def groupOf? (groups : BorrowGroups) (port : PortId) : Option GroupId := groups.byPort.get? port

def groupOf (groups : BorrowGroups) (port : PortId) : Except Fault GroupId :=
  match groups.groupOf? port with
  | some group => .ok group
  | none => .error (.notReferenceInput port)

def create (groups : BorrowGroups) (node : NodeId) (scope : ScopeId) (policy : Policy)
    (lifetimeTerm : TermId) : GroupId × BorrowGroups :=
  (groups.size,
    { groups with groups := groups.groups.push { node, scope, policy, lifetimeTerm } })

def modify (groups : BorrowGroups) (group : GroupId) (change : BorrowGroup → BorrowGroup) :
    BorrowGroups :=
  { groups with groups := groups.groups.modify group change }

def addMember (groups : BorrowGroups) (group : GroupId) (port : PortId) :
    Except Fault BorrowGroups := do
  let _ ← groups.get group
  let groups := groups.modify group fun data => { data with members := data.members ++ [{ port }] }
  return { groups with byPort := groups.byPort.insert port group }

/-- Records the output that hands back what an input took. -/
def pairOutput (groups : BorrowGroups) (input output : PortId) : Except Fault BorrowGroups := do
  let group ← groups.groupOf input
  return groups.modify group fun data =>
    { data with
      members := data.members.map fun member =>
        if member.port = input then { member with pairedOutput := some output } else member }

/-- Counts the wired members of a group, and forgets what they have received. -/
def countGroup (graph : Graph) (group : GroupId) : EStateM Fault BorrowGroups Unit := do
  let groups ← getThe BorrowGroups
  let data ← groups.get group
  let wired ← data.wiredMembers graph
  set (groups.modify group fun data => { data with wired := wired.length, received := 0 })

/-- Counts the wired members of every group. If a group has a member outside the graph, those before
it have been counted. -/
def countWired (graph : Graph) : EStateM Fault BorrowGroups Unit := do
  let groups ← getThe BorrowGroups
  (List.range groups.size).forM (countGroup graph)

/-- Records that one more wired member has received its value, and answers whether the group is
ready to be decided. -/
def arrive (groups : BorrowGroups) (group : GroupId) : Except Fault (Bool × BorrowGroups) := do
  let data ← groups.get group
  let received := data.received + 1
  return (data.decision.isNone && received = data.wired,
    groups.modify group fun data => { data with received })

/-- Records the decision of a group, which may be decided only once. -/
def decide (groups : BorrowGroups) (group : GroupId) (decision : Decision) :
    Except Fault BorrowGroups := do
  if (← groups.get group).decision.isSome then
    throw (.decidedTwice group)
  return groups.modify group fun data => { data with decision := some decision }

end BorrowGroups

end BorrowFlow
