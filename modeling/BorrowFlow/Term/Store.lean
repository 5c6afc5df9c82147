import BorrowFlow.Data.Classes
import BorrowFlow.Term.Basic

/-!
# The term store

All terms of one inference, in classes of terms that unification made equal. A handle that was never
created reads as an unresolved literal, which nothing can be bound to.
-/

namespace BorrowFlow

structure TermStore where
  classes : Classes Term := ∅
  /-- The identity that the next unbound term gets. -/
  nextUnbound : Nat := 0

namespace TermStore

def size (store : TermStore) : Nat := store.classes.size

def contains (store : TermStore) (term : TermId) : Bool := term < store.size

/-! ## Creating terms -/

def push (store : TermStore) (term : Term) : TermId × TermStore :=
  (store.size, { store with classes := store.classes.push term })

def newUnbound (store : TermStore) (constraints : List Constraint) : TermId × TermStore :=
  { store with nextUnbound := store.nextUnbound + 1 }.push (.unbound store.nextUnbound constraints)

def newConstructed (store : TermStore) (head : TypeConstructor) (argument : TermId) :
    TermId × TermStore :=
  store.push (.constructed head argument)

def newReference (store : TermStore) (mutability : Mutability) (underlying lifetime : TermId) :
    TermId × TermStore :=
  store.push (.reference mutability underlying lifetime)

/-- Without a value, the lifetime is found by unification. -/
def newLifetime (store : TermStore) (value : Option Lifetime) : TermId × TermStore :=
  store.push (.lifetime value)

def newMutability (store : TermStore) : TermId × TermStore :=
  store.push (.mutability none)

/-- The term of a data type, taken apart into constructors and references so that it unifies with
terms made from signatures. An unresolved part becomes an unbound term, and each reference gets a
lifetime of its own. -/
def newType (store : TermStore) : DataType → TermId × TermStore
  | .unresolved => store.newUnbound []
  | .constructed head argument =>
    let (argumentTerm, store) := store.newType argument
    store.newConstructed head argumentTerm
  | .reference mutable referent =>
    let (underlying, store) := store.newType referent
    let (lifetime, store) := store.newLifetime none
    store.newReference (.fixed mutable) underlying lifetime
  | type => store.push (.literal type)

/-! ## Reading terms -/

def probe (store : TermStore) (term : TermId) : Term :=
  (store.classes.value? term).getD (.literal .unresolved)

def same (store : TermStore) (left right : TermId) : Bool := store.classes.same left right

def isReference (store : TermStore) (term : TermId) : Bool :=
  match store.probe term with
  | .reference .. => true
  | _ => false

/-- Mutability, underlying type and lifetime of a reference. -/
def referenceParts? (store : TermStore) (term : TermId) :
    Option (Mutability × TermId × TermId) :=
  match store.probe term with
  | .reference mutability underlying lifetime => some (mutability, underlying, lifetime)
  | _ => none

/-- A shared mutability that nothing has constrained yet counts as immutable. -/
def isMutable (store : TermStore) : Mutability → Bool
  | .fixed mutable => mutable
  | .shared term =>
    match store.probe term with
    | .mutability (some mutable) => mutable
    | _ => false

/-- Whether a reference is mutable; nothing for a term that is no reference. -/
def mutability? (store : TermStore) (term : TermId) : Option Bool :=
  (store.referenceParts? term).map fun parts => store.isMutable parts.1

/-- The value of a lifetime term, `empty` while it is not resolved. -/
def lifetimeValue (store : TermStore) (term : TermId) : Lifetime :=
  match store.probe term with
  | .lifetime (some value) => value
  | _ => .empty

/-- The lifetime of a value of this type: owned values live forever. -/
def lifetimeOf (store : TermStore) (term : TermId) : Lifetime :=
  match store.probe term with
  | .reference _ _ lifetime => store.lifetimeValue lifetime
  | .literal _ | .constructed .. => .unbounded
  | _ => .empty

/-- The data type of a term, read to the given depth. -/
def renderTo (store : TermStore) : Nat → TermId → DataType
  | 0, _ => .unresolved
  | depth + 1, term =>
    match store.probe term with
    | .literal type => type
    | .constructed head argument => .constructed head (store.renderTo depth argument)
    | .reference mutability underlying _ =>
      .reference (store.isMutable mutability) (store.renderTo depth underlying)
    | .unbound .. | .lifetime _ | .mutability _ => .unresolved

/-- A depth that no type in the store exceeds, because no type contains itself. -/
def depth (store : TermStore) : Nat := store.size + 1

def render (store : TermStore) (term : TermId) : DataType :=
  store.renderTo store.depth term

/-! ## Direct changes -/

def union (store : TermStore) (left right : TermId) : TermStore :=
  { store with classes := store.classes.union Term.merge left right }

/-- Merges a term into the class of a handle. -/
def absorb (store : TermStore) (term : TermId) (other : Term) : TermStore :=
  { store with classes := store.classes.modify term (·.merge other) }

/-- Resolves a lifetime term. One that has a lifetime already keeps it. -/
def resolveLifetime (store : TermStore) (term : TermId) (value : Lifetime) : TermStore :=
  match store.probe term with
  | .lifetime none => store.absorb term (.lifetime (some value))
  | _ => store

/-- Restricts a mutability term: it is mutable only if everything it is constrained to is. -/
def constrainMutability (store : TermStore) (term : TermId) (mutable : Bool) : TermStore :=
  store.absorb term (.mutability (some mutable))

end TermStore

end BorrowFlow
