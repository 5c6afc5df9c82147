import BorrowFlow.Borrow.Group
import BorrowFlow.Flow
import BorrowFlow.LifetimeForest
import BorrowFlow.Message.Diagnostic

/-!
# The state of one inference

Everything that inference knows about one graph, and the small steps that the passes are made of. A
pass that fails keeps what it found out before it failed.
-/

namespace BorrowFlow

/-- What the passes did, in numbers. -/
structure Stats where
  nodesVisited : Nat := 0
  facadesCreated : Nat := 0
  wiresUnified : Nat := 0
  groupsDecided : Nat := 0
  borrowsInserted : Nat := 0
  terminationsInserted : Nat := 0
  dropsInserted : Nat := 0
  deriving DecidableEq

structure Context where
  terms : TermStore := {}
  flows : FlowStore := {}
  lifetimes : LifetimeForest := {}
  facades : Facades := {}
  groups : BorrowGroups := {}
  diagnostics : Diagnostics := {}
  stats : Stats := {}
  order : List NodeId := []

instance : Inhabited Context := ⟨{}⟩

/-- A computation with the state of an inference. -/
abbrev Pass := EStateM Fault Context

namespace Pass

/-- A question about the state that may have no answer. -/
def ask {α : Type} (query : Context → Except Fault α) : Pass α := do
  query (← get)

def count (change : Stats → Stats) : Pass Unit :=
  modify fun context => { context with stats := change context.stats }

def newTerm (create : TermStore → TermId × TermStore) : Pass TermId :=
  modifyGet fun context =>
    let (term, terms) := create context.terms
    (term, { context with terms })

/-- A type about which nothing is known yet. -/
def newUnbound : Pass TermId := newTerm (·.newUnbound [])

def newFlow (mutable : Bool) (term : TermId) : Pass FlowId :=
  modifyGet fun context =>
    let (flow, flows) := context.flows.new mutable (some term)
    (flow, { context with flows })

def modifyFlows (change : FlowStore → FlowStore) : Pass Unit :=
  modify fun context => { context with flows := change context.flows }

def termOf (flow : FlowId) : Pass TermId := ask (·.flows.term flow)

/-- A fresh lifetime that ends before the scope does. -/
def carveLifetime (scope : ScopeId) : Pass Lifetime := do
  let (lifetime, lifetimes) ← ask (·.lifetimes.carve scope)
  modify fun context => { context with lifetimes }
  return lifetime

/-- A fresh lifetime that ends before the scope does, and a term for it. -/
def openLifetime (scope : ScopeId) : Pass (Lifetime × TermId) := do
  let lifetime ← carveLifetime scope
  let term ← newTerm (·.newLifetime (some lifetime))
  return (lifetime, term)

/-- Gives a port its facade. A port that has one gets the new one all the same, and that is a
fault. -/
def insertFacade (port : PortId) (facade : Facade) : Pass Unit := do
  let context ← get
  set { context with facades := context.facades.set port facade }
  if context.facades.contains port then
    throw (.facadeTwice port)

def newGroup (node : NodeId) (scope : ScopeId) (policy : Policy) (lifetimeTerm : TermId) :
    Pass GroupId :=
  modifyGet fun context =>
    let (group, groups) := context.groups.create node scope policy lifetimeTerm
    (group, { context with groups })

def changeGroups (change : BorrowGroups → Except Fault BorrowGroups) : Pass Unit := do
  let groups ← ask fun context => change context.groups
  modify fun context => { context with groups }

def diagnose (port : PortId) (diagnostic : Diagnostic) : Pass Unit :=
  modify fun context =>
    { context with diagnostics := context.diagnostics.push port diagnostic }

/-- Unifies two types, and attaches what goes wrong to a port. -/
def unifyAt (port : PortId) (expected supplied : TermId) : Pass Unit :=
  modify fun context =>
    let unified := context.terms.unify expected supplied
    { context with
      terms := unified.store
      diagnostics := context.diagnostics.record port unified.outcome }

end Pass

end BorrowFlow
