/-!
# Lifetimes

How long a value stays valid. Owned values are unbounded. A bounded lifetime is a node of the
lifetime graph of one scope, and node zero of that graph is the lifetime of the scope itself.
-/

namespace BorrowFlow

/-- A node of one scope's lifetime graph. -/
structure BoundedLifetime where
  graph : Nat
  node : Nat
  deriving DecidableEq

/-- `empty` outlasts nothing: it is what a reference reports whose lifetime was never resolved. -/
inductive Lifetime where
  | unbounded
  | static
  | empty
  | bounded (place : BoundedLifetime)
  deriving DecidableEq

namespace Lifetime

def isBounded : Lifetime → Bool
  | bounded _ => true
  | _ => false

def bounded? : Lifetime → Option BoundedLifetime
  | bounded place => some place
  | _ => none

def text : Lifetime → String
  | unbounded => "'unbounded"
  | static => "'static"
  | empty => "'empty"
  | bounded place => s!"'g{place.graph}.{place.node}"

end Lifetime

end BorrowFlow
