import BorrowFlow.Lifetime

/-!
# Deciding how to borrow

Reference inputs that share a lifetime parameter are decided on together, once every wired one has
received its value: either the values are references that already share a bounded lifetime, which is
then reused, or the values are borrowed anew.
-/

namespace BorrowFlow

/-- What an operation asks of the references it takes. -/
inductive Policy where
  /-- The operation changes what it is given. -/
  | requireMutable
  /-- The operation only looks at what it is given. -/
  | allowImmutable
  /-- The operation passes on what it is given, mutable only if every input is. -/
  | polymorphic
  deriving DecidableEq

namespace Policy

def name : Policy → String
  | requireMutable => "RequireMutable"
  | allowImmutable => "AllowImmutable"
  | polymorphic => "Polymorphic"

def ofName? (name : String) : Option Policy :=
  [requireMutable, allowImmutable, polymorphic].find? fun policy => policy.name = name

def acceptsMutable : Policy → Bool
  | allowImmutable => false
  | _ => true

end Policy

/-- What arrived at a wired input: an owned value, bound mutably or not, or a reference. -/
inductive Supply where
  | owned (mutableBinding : Bool)
  | reference (mutable : Bool) (lifetime : Lifetime)
  deriving DecidableEq

namespace Supply

def lendsMutably : Supply → Bool
  | owned mutableBinding => mutableBinding
  | reference mutable _ => mutable

end Supply

inductive Choice where
  | reuse (lifetime : Lifetime)
  | borrow (mutable : Bool)
  deriving DecidableEq

/-- The bounded lifetime that all the values share, if they are references of the given
mutability. -/
def sharedLifetime? (mutable : Bool) (supplied : List Supply) : Option Lifetime :=
  match supplied with
  | .reference _ (.bounded place) :: _ =>
    if supplied.all fun value => value = .reference mutable (.bounded place) then
      some (.bounded place)
    else none
  | _ => none

/-- The first of these that applies: reuse the lifetime of mutable references, if the policy accepts
mutable ones; borrow mutably, if the policy accepts it and every value allows it; reuse the lifetime
of immutable references; borrow immutably. -/
def Policy.choose (policy : Policy) (supplied : List Supply) : Choice :=
  match (if policy.acceptsMutable then sharedLifetime? true supplied else none) with
  | some lifetime => .reuse lifetime
  | none =>
    if policy.acceptsMutable && !supplied.isEmpty && supplied.all Supply.lendsMutably then
      .borrow true
    else
      match sharedLifetime? false supplied with
      | some lifetime => .reuse lifetime
      | none => .borrow false

/-- What a group ended up with: a lifetime that was there already, or one that was opened for it. -/
inductive Decision where
  | reuse (lifetime : Lifetime)
  | borrow (mutable : Bool) (lifetime : Lifetime)
  deriving DecidableEq

namespace Decision

def lifetime : Decision → Lifetime
  | reuse lifetime | borrow _ lifetime => lifetime

def isBorrow : Decision → Bool
  | reuse _ => false
  | borrow .. => true

end Decision

end BorrowFlow
