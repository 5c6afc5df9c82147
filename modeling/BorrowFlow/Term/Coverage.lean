import BorrowFlow.Term.Unification

/-!
# Handles that were never created

A term may be made of handles that the store does not have yet. Told here is which questions about a
term, and which unifications, look only at handles that were created; the others have no answer.
-/

namespace BorrowFlow

namespace TermStore

/-! ## Reading terms -/

def coversMutability (store : TermStore) : Mutability → Bool
  | .fixed _ => true
  | .shared term => store.contains term

/-- Whether rendering a term, to the given depth, looks only at created handles. -/
def coversTo (store : TermStore) : Nat → TermId → Bool
  | 0, _ => true
  | depth + 1, term =>
    store.contains term &&
      match store.probe term with
      | .constructed _ argument => store.coversTo depth argument
      | .reference mutability underlying _ =>
        store.coversMutability mutability && store.coversTo depth underlying
      | _ => true

/-- Whether the term, and every term its type is made of, was created. -/
def covers (store : TermStore) (term : TermId) : Bool :=
  store.coversTo store.depth term

/-- Whether the term was created, and also its lifetime if it is a reference. -/
def coversLifetime (store : TermStore) (term : TermId) : Bool :=
  store.contains term &&
    (store.referenceParts? term).all fun (_, _, lifetime) => store.contains lifetime

/-- Whether checking a constraint on a term, to the given depth, looks only at created handles. -/
def coversCheckTo (store : TermStore) (constraint : Constraint) : Nat → TermId → Bool
  | 0, _ => true
  | depth + 1, term =>
    store.contains term &&
      match store.probe term, constraint with
      | .constructed .option argument, .copy => store.coversCheckTo constraint depth argument
      | .reference mutability _ _, .copy => store.coversMutability mutability
      | .reference _ underlying _, .display => store.coversCheckTo constraint depth underlying
      | _, _ => true

/-- Whether checking a constraint on a term looks only at created handles. -/
def coversCheck (store : TermStore) (constraint : Constraint) (term : TermId) : Bool :=
  store.coversCheckTo constraint store.depth term

/-- Whether searching a term for an unbound one, to the given depth, meets only created handles. -/
def coversSearchTo (store : TermStore) (inner : TermId) : Nat → TermId → Bool
  | 0, _ => true
  | depth + 1, term =>
    store.contains term &&
      (store.same inner term ||
        match store.probe term with
        | .constructed _ argument => store.coversSearchTo inner depth argument
        | .reference _ underlying _ => store.coversSearchTo inner depth underlying
        | _ => true)

/-! ## Unification -/

/-- Whether binding an unbound term to another term looks only at created handles. -/
def coversBinding (store : TermStore) (inner : TermId) (constraints : List Constraint)
    (term : TermId) : Bool :=
  store.coversSearchTo inner store.depth term &&
    if store.occurs inner term then store.covers term
    else constraints.all (store.coversCheck · term)

/-- Whether unifying two terms, to the given depth, looks only at created handles. -/
def coversUnifyTo : Nat → TermStore → TermId → TermId → Bool
  | 0, _, _, _ => true
  | depth + 1, store, left, right =>
    store.contains left && store.contains right &&
      (store.same left right ||
        match store.probe left, store.probe right with
        | .constructed first leftArgument, .constructed second rightArgument =>
          if first = second then
            let inner := unifyTo depth store leftArgument rightArgument
            coversUnifyTo depth store leftArgument rightArgument &&
              (inner.equal || inner.store.covers left && inner.store.covers right)
          else store.covers left && store.covers right
        | .reference leftMutability leftUnderlying leftLifetime,
            .reference rightMutability rightUnderlying rightLifetime =>
          let (outcome, constrained) :=
            store.unifyMutability left right leftMutability rightMutability
          store.coversMutability leftMutability && store.coversMutability rightMutability &&
            (outcome.mismatches.isEmpty || store.covers left && store.covers right) &&
            coversUnifyTo depth constrained leftUnderlying rightUnderlying &&
            store.contains leftLifetime && store.contains rightLifetime
        | .unbound _ constraints, _ => store.coversBinding left constraints right
        | _, .unbound _ constraints => store.coversBinding right constraints left
        | _, _ => store.covers left && store.covers right)

/-- Whether every handle that a term is made of, to the given depth, was created. -/
def isClosedTo (store : TermStore) : Nat → TermId → Bool
  | 0, _ => true
  | depth + 1, term =>
    store.contains term &&
      match store.probe term with
      | .constructed _ argument => store.isClosedTo depth argument
      | .reference mutability underlying lifetime =>
        store.coversMutability mutability && store.contains lifetime &&
          store.isClosedTo depth underlying
      | _ => true

/--
Whether unifying two terms looks only at created handles. It need not be followed step by step if
the terms are made of such handles alone.
-/
def coversUnify (store : TermStore) (left right : TermId) : Bool :=
  store.isClosedTo store.depth left && store.isClosedTo store.depth right ||
    coversUnifyTo store.depth store left right

end TermStore

end BorrowFlow
