import BorrowFlow.Data.IdMap
import BorrowFlow.Entity
import BorrowFlow.Term.Unification

/-!
# Port diagnostics

Problems in the user's program, each attached to the port where it was found. They never stop
inference, and a port keeps each of its problems once, in the order they were found.
-/

namespace BorrowFlow

inductive Diagnostic where
  | typeMismatch (expected found : DataType)
  /-- An immutable value was supplied where a mutable reference is required. -/
  | notMutable
  /-- A type does not satisfy a constraint of the generic that it was bound to. -/
  | failedConstraint (constraint : Constraint)
  | featureDisabled (head : TypeConstructor)
  deriving DecidableEq

namespace Diagnostic

def message : Diagnostic → String
  | typeMismatch expected found =>
      s!"Expected a value of type '{expected.text}' but found '{found.text}'"
  | notMutable => "This input needs a mutable value but the value supplied is not mutable"
  | failedConstraint constraint =>
      s!"The type of this value does not satisfy '{constraint.name}'"
  | featureDisabled head => s!"'{head.name}' values are disabled in this configuration"

def text (diagnostic : Diagnostic) (port : PortId) : String :=
  portName port ++ ": " ++ diagnostic.message

end Diagnostic

/-- The diagnostics of every port that has any. -/
structure Diagnostics where
  byPort : IdMap (List Diagnostic) := ∅

namespace Diagnostics

def forPort (diagnostics : Diagnostics) (port : PortId) : List Diagnostic :=
  (diagnostics.byPort.get? port).getD []

/-- Attaches a diagnostic to a port, unless the port has it already. -/
def push (diagnostics : Diagnostics) (port : PortId) (diagnostic : Diagnostic) : Diagnostics :=
  let known := diagnostics.forPort port
  if diagnostic ∈ known then diagnostics
  else ⟨diagnostics.byPort.insert port (known ++ [diagnostic])⟩

end Diagnostics

/-- What a unification reported, as diagnostics: mismatches, then mutability, then constraints. -/
def Outcome.diagnostics (outcome : Outcome) : List Diagnostic :=
  outcome.mismatches.map (fun (expected, found) => .typeMismatch expected found) ++
    (if outcome.expectedMutable then [.notMutable] else []) ++
      outcome.failedConstraints.map .failedConstraint

namespace Diagnostics

/-- Attaches everything that a unification reported to a port. -/
def record (diagnostics : Diagnostics) (port : PortId) (outcome : Outcome) : Diagnostics :=
  outcome.diagnostics.foldl (fun diagnostics diagnostic => diagnostics.push port diagnostic)
    diagnostics

def isEmpty (diagnostics : Diagnostics) : Bool := diagnostics.byPort.isEmpty

def portCount (diagnostics : Diagnostics) : Nat := diagnostics.byPort.size

/-- All diagnostics with their ports, by ascending ports. -/
def sorted (diagnostics : Diagnostics) : List (PortId × Diagnostic) :=
  diagnostics.byPort.entries.flatMap fun (port, found) => found.map fun diagnostic =>
    (port, diagnostic)

def size (diagnostics : Diagnostics) : Nat := diagnostics.sorted.length

end Diagnostics

end BorrowFlow
