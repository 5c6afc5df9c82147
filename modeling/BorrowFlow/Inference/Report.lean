import BorrowFlow.Inference.Context

/-!
# What inference reports

Every port that has a facade reports the value it carries: an input what its node sees of it, an
output what the wires see of it.
-/

namespace BorrowFlow

/-- What is known of the value that a port carries. -/
structure Carried where
  /-- Ports that carry the same value have the same number here. -/
  flow : Nat
  type : DataType
  mutable : Bool
  lifetime : Lifetime
  deriving DecidableEq

/-- A reference is as mutable as its type says, an owned value as its flow says. -/
def Flow.carried (flow : Flow) : Carried where
  flow := flow.id
  type := flow.type
  mutable := if flow.type.isReference then flow.type.isMutableReference else flow.mutable
  lifetime := flow.lifetime

def Facade.reported (facade : Facade) : Direction → FlowId
  | .input => facade.nodeSide
  | .output => facade.wireSide

structure Report where
  /-- What the ports carry, by ascending ports. -/
  ports : List (PortId × Carried)
  diagnostics : Diagnostics
  stats : Stats

namespace Report

def carried? (report : Report) (port : PortId) : Option Carried :=
  (report.ports.find? fun entry => entry.1 = port).map Prod.snd

def isClean (report : Report) : Bool := report.diagnostics.isEmpty

end Report

namespace Context

/-- The flow that a port of the graph reports, if the port has a facade. -/
def reportedFlow? (context : Context) (graph : Graph) (port : PortId) : Option FlowId := do
  let data ← graph.ports[port]?
  let facade ← context.facades.get? port
  return facade.reported data.direction

def carried? (context : Context) (graph : Graph) (port : PortId) : Option Carried :=
  (context.reportedFlow? graph port).map fun flow => (context.flows.get flow).carried

def report (context : Context) (graph : Graph) : Report where
  ports := (List.range graph.ports.size).filterMap fun port =>
    (context.carried? graph port).map (port, ·)
  diagnostics := context.diagnostics
  stats := context.stats

end Context

end BorrowFlow
