import BorrowFlow.DataType
import BorrowFlow.Entity

/-!
# Signatures of operations

What an operation declares about its inputs and outputs. A signature may be generic over data types,
over the lifetimes of its references, and over the mutability of its references. The reference
inputs that share a lifetime parameter are borrowed together.
-/

namespace BorrowFlow

/-- The declared mutability of a reference. A polymorphic one is mutable only if everything that
shares its lifetime parameter is. -/
inductive DeclaredMutability where
  | immutable
  | mutable
  | polymorphic
  deriving DecidableEq

def DeclaredMutability.name : DeclaredMutability → String
  | immutable => "Immutable"
  | mutable => "Mutable"
  | polymorphic => "Polymorphic"

inductive DeclaredType where
  | generic (index : Nat)
  | concrete (type : DataType)
  | constructed (head : TypeConstructor) (argument : DeclaredType)
  | reference (mutability : DeclaredMutability) (lifetime : Nat) (referent : DeclaredType)
  deriving DecidableEq

namespace DeclaredType

/-- Lifetime parameter and mutability, if the type is a reference at its outermost. -/
def referenceLifetime? : DeclaredType → Option (Nat × DeclaredMutability)
  | reference mutability lifetime _ => some (lifetime, mutability)
  | _ => none

/-- Every constructor the type mentions, outermost first. -/
def constructors : DeclaredType → List TypeConstructor
  | generic _ => []
  | concrete type => type.constructors
  | constructed head argument => head :: argument.constructors
  | reference _ _ referent => referent.constructors

end DeclaredType

structure Generic where
  name : String
  constraints : List Constraint := []
  deriving DecidableEq

structure Parameter where
  name : String
  direction : Direction
  type : DeclaredType
  /-- For an output: the position of the input parameter that it hands back, so that a borrow taken
  for that input can end there. -/
  pairsWith : Option Nat := none
  deriving DecidableEq

structure Signature where
  name : String
  generics : List Generic := []
  parameters : List Parameter
  deriving DecidableEq

namespace Signature

def inputCount (signature : Signature) : Nat :=
  signature.parameters.countP fun parameter => parameter.direction = .input

def outputCount (signature : Signature) : Nat :=
  signature.parameters.countP fun parameter => parameter.direction = .output

/-- The position of a parameter among those with its direction, which is the index of its port. -/
def portIndex? (signature : Signature) (index : Nat) : Option Nat :=
  (signature.parameters[index]?).map fun parameter =>
    (signature.parameters.take index).countP fun other => other.direction = parameter.direction

end Signature

end BorrowFlow
