import BorrowFlow.DataType
import BorrowFlow.Lifetime

/-!
# Type terms

The terms that inference computes with. A term names its parts by their numbers in a term store, so
that a part which becomes known is known wherever it is used. Lifetimes and shared mutabilities are
terms too, and live in the same store.
-/

namespace BorrowFlow

/-- Terms are numbered from zero in the order they are created. -/
abbrev TermId := Nat

/-- The mutability of a reference: fixed, or shared through a mutability term. -/
inductive Mutability where
  | fixed (mutable : Bool)
  | shared (term : TermId)
  deriving DecidableEq

inductive Term where
  /-- A type that is not known yet, with what will be asked of it. -/
  | unbound (id : Nat) (constraints : List Constraint)
  | literal (type : DataType)
  | constructed (head : TypeConstructor) (argument : TermId)
  | reference (mutability : Mutability) (underlying lifetime : TermId)
  /-- A lifetime, or one that adopts whatever it is unified with. -/
  | lifetime (value : Option Lifetime)
  /-- The conjunction of everything it was constrained to, if there was anything. -/
  | mutability (value : Option Bool)
  deriving DecidableEq

namespace Term

/-- The constraints of the left list, then those of the right list that are new. -/
def joinConstraints (left right : List Constraint) : List Constraint :=
  right.foldl (fun joined constraint =>
    if constraint ∈ joined then joined else joined ++ [constraint]) left

/-- The conjunction of the values that are there. -/
def bothMutable : Option Bool → Option Bool → Option Bool
  | some left, some right => some (left && right)
  | none, right => right
  | left, none => left

/-- The term of a class that is merged from two classes. Something known wins over an unbound type,
and the left term wins between two known types. -/
def merge : Term → Term → Term
  | unbound id left, unbound _ right => unbound id (joinConstraints left right)
  | unbound _ _, known => known
  | known, unbound _ _ => known
  | lifetime left, lifetime right => lifetime (left <|> right)
  | mutability left, mutability right => mutability (bothMutable left right)
  | left, _ => left

end Term

end BorrowFlow
