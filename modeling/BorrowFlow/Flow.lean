import BorrowFlow.Message.Fault
import BorrowFlow.Term.Store

/-!
# Flows

A flow is one value on its way along the wires. Ports that carry the same value share a flow:
merging puts their flows into one class. Once inference has run, each flow carries the rendered type
and the lifetime of its value.
-/

namespace BorrowFlow

/-- Flows are numbered from zero in the order they are created. -/
abbrev FlowId := Nat

structure Flow where
  /-- The number it was created under. Ports that carry the same value report the same number. -/
  id : Nat
  mutable : Bool
  type : DataType := .unresolved
  lifetime : Lifetime := .empty
  term : Option TermId := none
  deriving DecidableEq

/-- The flow of a class that is merged from two classes: the later one wins, but a type term is
never lost. -/
def Flow.merge (earlier later : Flow) : Flow :=
  { later with term := later.term <|> earlier.term }

structure FlowStore where
  classes : Classes Flow := ∅
  /-- For each lifetime, the flows that were borrowed when it was opened. They must not be used
  again until it ends. -/
  interrupted : List (Lifetime × List FlowId) := []

namespace FlowStore

def size (store : FlowStore) : Nat := store.classes.size

def contains (store : FlowStore) (flow : FlowId) : Bool := flow < store.size

/-- A new flow, with a type term or without one. -/
def new (store : FlowStore) (mutable : Bool) (term : Option TermId) : FlowId × FlowStore :=
  (store.size,
    { store with classes := store.classes.push { id := store.size, mutable, term } })

/-- What is known of a flow. One that was never created is an immutable value of unknown type. -/
def get (store : FlowStore) (flow : FlowId) : Flow :=
  (store.classes.value? flow).getD { id := flow, mutable := false }

def same (store : FlowStore) (left right : FlowId) : Bool := store.classes.same left right

/-- Makes two flows one, with what is known of the later one. -/
def merge (store : FlowStore) (earlier later : FlowId) : FlowStore :=
  { store with classes := store.classes.union Flow.merge earlier later }

def modify (store : FlowStore) (flow : FlowId) (change : Flow → Flow) : FlowStore :=
  { store with classes := store.classes.modify flow change }

def setMutable (store : FlowStore) (flow : FlowId) (mutable : Bool) : FlowStore :=
  store.modify flow fun data => { data with mutable }

def setRendered (store : FlowStore) (flow : FlowId) (type : DataType) (lifetime : Lifetime) :
    FlowStore :=
  store.modify flow fun data => { data with type, lifetime }

def term (store : FlowStore) (flow : FlowId) : Except Fault TermId :=
  match (store.get flow).term with
  | some term => .ok term
  | none => .error (.noTypeTerm flow)

/-- The type term of a flow may be set only once. -/
def setTerm (store : FlowStore) (flow : FlowId) (term : TermId) : Except Fault FlowStore :=
  match (store.get flow).term with
  | some _ => .error (.typeTermTwice (store.get flow).id)
  | none => .ok (store.modify flow fun data => { data with term := some term })

/-- Renders a flow from its type term, if it has one. -/
def rendered (terms : TermStore) (flow : Flow) : Flow :=
  match flow.term with
  | some term => { flow with type := terms.render term, lifetime := terms.lifetimeOf term }
  | none => flow

def resolveAll (store : FlowStore) (terms : TermStore) : FlowStore :=
  { store with classes := store.classes.mapValues (rendered terms) }

/-- The flows that were borrowed when the lifetime was opened, in the order they were recorded. -/
def interruptedBy (store : FlowStore) (lifetime : Lifetime) : List FlowId :=
  ((store.interrupted.find? fun entry => entry.1 = lifetime).map Prod.snd).getD []

/-- Adds a flow to those that a lifetime interrupts, unless it is there. -/
def insertInterrupted (lifetime : Lifetime) (flow : FlowId) :
    List (Lifetime × List FlowId) → List (Lifetime × List FlowId)
  | [] => [(lifetime, [flow])]
  | entry :: rest =>
    if entry.1 = lifetime then
      (lifetime, if flow ∈ entry.2 then entry.2 else entry.2 ++ [flow]) :: rest
    else entry :: insertInterrupted lifetime flow rest

/-- Records a flow that was borrowed when a lifetime was opened. -/
def interrupt (store : FlowStore) (lifetime : Lifetime) (flow : FlowId) : FlowStore :=
  { store with interrupted := insertInterrupted lifetime flow store.interrupted }

end FlowStore

end BorrowFlow
