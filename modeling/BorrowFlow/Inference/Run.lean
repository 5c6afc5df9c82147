import BorrowFlow.Inference.Facing
import BorrowFlow.Inference.Insertion
import BorrowFlow.Inference.Report
import BorrowFlow.Inference.Wires
import BorrowFlow.Message.Printed

/-!
# Running inference

The passes in their order, each admitted only in its phase. A pass that fails leaves the phase as it
was, and keeps what it changed before it failed.
-/

namespace BorrowFlow

structure Inference where
  config : Config
  graph : Graph
  context : Context := {}
  phase : Phase := .notStarted

abbrev Run := EStateM Fault Inference

namespace Run

def require (step : Step) : Run Unit := do
  let phase := (← get).phase
  if phase ≠ step.requires then
    throw (.outOfPhase step phase)

def enter (phase : Phase) : Run Unit := modify fun state => { state with phase }

/-- Runs a pass that only reads the graph. -/
def pass {α : Type} (run : Config → Graph → Pass α) : Run α := fun state =>
  match run state.config state.graph state.context with
  | .ok value context => .ok value { state with context }
  | .error fault context => .error fault { state with context }

/-- Runs a pass that changes the graph. -/
def changing {α : Type} (run : Config → Insertion α) : Run α := fun state =>
  match run state.config { graph := state.graph, context := state.context } with
  | .ok value workspace =>
    .ok value { state with graph := workspace.graph, context := workspace.context }
  | .error fault workspace =>
    .error fault { state with graph := workspace.graph, context := workspace.context }

def facePorts : Run Unit := do
  require .facing
  pass Pass.facePorts
  enter .facadesConstructed

def unifyWires : Run Unit := do
  require .unifying
  pass fun _ => Pass.unifyWires
  enter .edgesUnified

def insertBorrows : Run Unit := do
  require .inserting
  changing Insertion.insertBorrows
  enter .borrowsInserted

def report : Run Report := do
  require .reporting
  let state ← get
  return state.context.report state.graph

def all : Run Report := do
  facePorts
  unifyWires
  insertBorrows
  report

end Run

/-- Infers types, mutabilities and lifetimes of a graph. The graph may gain nodes, also when
inference fails in the end. -/
def infer (config : Config) (graph : Graph) : Except Fault Report × Graph :=
  match Run.all { config, graph } with
  | .ok report state => (.ok report, state.graph)
  | .error fault state => (.error fault, state.graph)

/-- Everything that the user should see of an inference. -/
def messagesOf : Except Fault Report → Messages
  | .ok report => .ofDiagnostics report.diagnostics
  | .error fault => .ofError fault.report

end BorrowFlow
