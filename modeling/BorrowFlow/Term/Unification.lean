import BorrowFlow.Term.Store

/-!
# Unification

Unifying two terms makes them equal or reports why that cannot be. It never stops at the first
problem. Reference terms are not merged themselves: their mutability, underlying type and lifetime
are unified one by one, so that each reference keeps a lifetime of its own.
-/

namespace BorrowFlow

/-- Everything that one unification reported. -/
structure Outcome where
  /-- Pairs of the expected type and the type that was found. -/
  mismatches : List (DataType × DataType) := []
  /-- An immutable reference met a place that requires a mutable one. -/
  expectedMutable : Bool := false
  failedConstraints : List Constraint := []
  deriving DecidableEq

namespace Outcome

def isClean (outcome : Outcome) : Bool :=
  outcome.mismatches.isEmpty && !outcome.expectedMutable && outcome.failedConstraints.isEmpty

def addMismatch (outcome : Outcome) (expected found : DataType) : Outcome :=
  { outcome with mismatches := outcome.mismatches ++ [(expected, found)] }

def setExpectedMutable (outcome : Outcome) : Outcome :=
  { outcome with expectedMutable := true }

/-- Each constraint is reported once. -/
def addFailed (outcome : Outcome) (constraint : Constraint) : Outcome :=
  if constraint ∈ outcome.failedConstraints then outcome
  else { outcome with failedConstraints := outcome.failedConstraints ++ [constraint] }

/-- The reports of two unifications, one after the other. -/
def append (first second : Outcome) : Outcome where
  mismatches := first.mismatches ++ second.mismatches
  expectedMutable := first.expectedMutable || second.expectedMutable
  failedConstraints := (second.failedConstraints.foldl addFailed first).failedConstraints

instance : Append Outcome := ⟨append⟩

/-- The same reports without the mismatches. -/
def withoutMismatches (outcome : Outcome) : Outcome := { outcome with mismatches := [] }

end Outcome

/-- The result of one unification: the store it leaves, whether the two types were made equal, and
what it reported. -/
structure Unified where
  store : TermStore
  equal : Bool
  outcome : Outcome := {}

namespace TermStore

/-! ## Constraints -/

def checkTo (store : TermStore) : Nat → TermId → Constraint → Bool × TermStore
  | 0, _, _ => (false, store)
  | depth + 1, term, constraint =>
    match store.probe term with
    | .unbound id constraints =>
      if constraint ∈ constraints then (true, store)
      else (true, store.absorb term (.unbound id (constraints ++ [constraint])))
    | .literal type => (type.satisfies constraint, store)
    | .constructed .option argument =>
      match constraint with
      | .copy => store.checkTo depth argument constraint
      | .display => (false, store)
    | .constructed .. => (false, store)
    | .reference mutability underlying _ =>
      match constraint with
      | .copy => (!store.isMutable mutability, store)
      | .display => store.checkTo depth underlying constraint
    | .lifetime _ | .mutability _ => (false, store)

/-- Checks a constraint on a term. An unbound term takes the constraint on, and is checked when it
is bound. -/
def check (store : TermStore) (term : TermId) (constraint : Constraint) : Bool × TermStore :=
  store.checkTo store.depth term constraint

def occursTo (store : TermStore) (inner : TermId) : Nat → TermId → Bool
  | 0, _ => false
  | depth + 1, term =>
    store.same inner term ||
      match store.probe term with
      | .constructed _ argument => store.occursTo inner depth argument
      | .reference _ underlying _ => store.occursTo inner depth underlying
      | _ => false

def occurs (store : TermStore) (inner term : TermId) : Bool :=
  store.occursTo inner store.depth term

/-! ## Unification -/

/-- The report that two terms cannot be made equal. -/
def mismatch (store : TermStore) (expected found : TermId) : Outcome :=
  { mismatches := [(store.render expected, store.render found)] }

/-- Two terms that stay apart. -/
def refuse (store : TermStore) (expected found : TermId) : Unified where
  store := store
  equal := false
  outcome := store.mismatch expected found

def accept (store : TermStore) (left right : TermId) : Unified where
  store := store.union left right
  equal := true

/-- Fixed mutabilities have to agree. A fixed one constrains a shared one, and two shared ones
become one. The two references are only rendered, for the report. -/
def unifyMutability (store : TermStore) (expected found : TermId) :
    Mutability → Mutability → Outcome × TermStore
  | .fixed true, .fixed false => ({ expectedMutable := true }, store)
  | .fixed false, .fixed true => (store.mismatch expected found, store)
  | .fixed _, .fixed _ => ({}, store)
  | .fixed mutable, .shared term => ({}, store.constrainMutability term mutable)
  | .shared term, .fixed mutable => ({}, store.constrainMutability term mutable)
  | .shared left, .shared right => ({}, store.union left right)

/-- An unresolved lifetime becomes one with the other. Two different lifetimes stay as they are. -/
def unifyLifetimes (store : TermStore) (left right : TermId) : TermStore :=
  match store.probe left, store.probe right with
  | .lifetime (some first), .lifetime (some second) =>
    if first = second then store.union left right else store
  | .lifetime _, .lifetime _ => store.union left right
  | _, _ => store

/-- Checks constraints one after the other, and reports those that fail. -/
def checkAll (store : TermStore) (term : TermId) (constraints : List Constraint) :
    Outcome × TermStore :=
  constraints.foldl
    (fun (outcome, store) constraint =>
      let (holds, store) := store.check term constraint
      (if holds then outcome else outcome.addFailed constraint, store))
    ({}, store)

/-- Binds an unbound term to another term. A term that contains it is refused, because the type
would be infinite; constraints that fail are reported, and do not keep the term from being bound. -/
def bindTo (store : TermStore) (inner : TermId) (constraints : List Constraint) (term : TermId)
    (expected found : TermId) : Unified :=
  if store.occurs inner term then store.refuse expected found
  else
    let (outcome, store) := store.checkAll term constraints
    { store := store.union inner term, equal := true, outcome }

/-- Unifies two terms, to the given depth. -/
def unifyTo : Nat → TermStore → TermId → TermId → Unified
  | 0, store, _, _ => { store, equal := true }
  | depth + 1, store, left, right =>
    if store.same left right then { store, equal := true }
    else
      match store.probe left, store.probe right with
      | .literal first, .literal second =>
        if first = second then store.accept left right else store.refuse left right
      | .constructed first leftArgument, .constructed second rightArgument =>
        if first = second then
          let inner := unifyTo depth store leftArgument rightArgument
          let reported := inner.outcome.withoutMismatches
          if inner.equal then { inner.store.accept left right with outcome := reported }
          else
            let refused := inner.store.refuse left right
            { refused with outcome := reported ++ refused.outcome }
        else store.refuse left right
      | .reference leftMutability leftUnderlying leftLifetime,
          .reference rightMutability rightUnderlying rightLifetime =>
        let (outcome, store) := store.unifyMutability left right leftMutability rightMutability
        let inner := unifyTo depth store leftUnderlying rightUnderlying
        { store := inner.store.unifyLifetimes leftLifetime rightLifetime
          equal := inner.equal
          outcome := outcome ++ inner.outcome }
      | .lifetime _, .lifetime _ => { store := store.unifyLifetimes left right, equal := true }
      | .mutability _, .mutability _ => store.accept left right
      | .unbound .., .unbound .. => store.accept left right
      | .unbound _ constraints, _ => store.bindTo left constraints right left right
      | _, .unbound _ constraints => store.bindTo right constraints left left right
      | _, _ => store.refuse left right

/-- Unifies two terms. The left one is what is expected, the right one what is supplied. -/
def unify (store : TermStore) (left right : TermId) : Unified :=
  unifyTo store.depth store left right

end TermStore

end BorrowFlow
