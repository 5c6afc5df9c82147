import BorrowFlow.Data.IdMap
import BorrowFlow.Flow

/-!
# Port facades

A facade stands between what a port really holds and what the wires see of it. For most ports the
two are one flow. A reference input sees the supplied value on its wire side, while the node works
with the reference behind it; this is what lets a borrow be inserted without the rest of the graph
noticing.
-/

namespace BorrowFlow

/-- Borrow groups are numbered from zero in the order they are created. -/
abbrev GroupId := Nat

inductive Facade where
  | simple (flow : FlowId)
  /-- Takes part in the borrow decision of its group. -/
  | referenceInput (nodeSide wireSide : FlowId) (group : GroupId)
  /-- Leaves a structure. If the body may not run, the outside sees an option. -/
  | tunnel (nodeSide wireSide : FlowId)
  /-- Hands back what the reference input `closes` took. The node produces the reference; the wires
  see the supplied value if the group borrowed, and the reference if it reused a lifetime. -/
  | terminationOutput (nodeSide wireSide : FlowId) (closes : PortId)
  deriving DecidableEq

namespace Facade

/-- The flow that the wires see. -/
def wireSide : Facade → FlowId
  | simple flow => flow
  | referenceInput _ flow _ | tunnel _ flow | terminationOutput _ flow _ => flow

/-- The flow that the node works with. -/
def nodeSide : Facade → FlowId
  | simple flow => flow
  | referenceInput flow _ _ | tunnel flow _ | terminationOutput flow _ _ => flow

def group? : Facade → Option GroupId
  | referenceInput _ _ group => some group
  | _ => none

end Facade

structure Facades where
  byPort : IdMap Facade := ∅

namespace Facades

def get? (table : Facades) (port : PortId) : Option Facade := table.byPort.get? port

def get (table : Facades) (port : PortId) : Except Fault Facade :=
  match table.get? port with
  | some facade => .ok facade
  | none => .error (.noFacade port)

/-- Sets the facade of a port, whether it has one or not. -/
def set (table : Facades) (port : PortId) (facade : Facade) : Facades :=
  ⟨table.byPort.insert port facade⟩

def contains (table : Facades) (port : PortId) : Bool := table.byPort.contains port

def wireSide (table : Facades) (port : PortId) : Except Fault FlowId :=
  Facade.wireSide <$> table.get port

def nodeSide (table : Facades) (port : PortId) : Except Fault FlowId :=
  Facade.nodeSide <$> table.get port

/-- Once a borrow is explicit in the graph, the port carries what the node produces. -/
def collapse (table : Facades) (port : PortId) : Except Fault (FlowId × Facades) := do
  let flow ← table.nodeSide port
  return (flow, table.set port (.simple flow))

def isReferenceInput (table : Facades) (port : PortId) : Bool :=
  ((table.get? port).bind Facade.group?).isSome

def size (table : Facades) : Nat := table.byPort.size

end Facades

end BorrowFlow
