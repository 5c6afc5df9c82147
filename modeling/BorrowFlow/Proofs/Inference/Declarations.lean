import BorrowFlow.Inference.Facing
import BorrowFlow.Proofs.Inference.Progress

/-!
# What nodes declare

The first pass gives every port of a node a type that stands for the declared one: a type parameter
becomes a term that owes its constraints, and a reference to a type parameter a reference to that
term. Two kinds of border nodes go together, the one that borrows a value and the one that hands it
back. What a node declares is not lost while the passes run.
-/

namespace BorrowFlow

abbrev Node.assigned (node : Node) (signature : Signature) : List (Parameter × PortId) :=
  assignPorts signature.parameters node.inputs node.outputs

/-- Outputs that hand something back are faced last. -/
def Parameter.Waits (parameter : Parameter) : Prop :=
  parameter.direction = .output ∧ parameter.pairsWith.isSome = true

/-- The facades that a port of a parameter may have, given the ports of all parameters. -/
def Facade.Suits (ports : List PortId) (parameter : Parameter) : Facade → Prop
  | simple _ => True
  | referenceInput .. => parameter.direction = .input
  | tunnel .. => False
  | terminationOutput _ _ input =>
    ∃ index, parameter.pairsWith = some index ∧ ports[index]? = some input

namespace TermStore

variable {s s' : TermStore} {generics : List TermId} {type : DeclaredType} {term : TermId}

/-- A term stands for a declared type, as far as type parameters and references to them go. -/
def Instantiates (s : TermStore) (generics : List TermId) : DeclaredType → TermId → Prop
  | .generic index, term => generics[index]? = some term
  | .reference _ _ referent, term => ∃ mutability underlying lifetime,
    s.probe term = .reference mutability underlying lifetime ∧
      s.Instantiates generics referent underlying
  | .concrete _, _ | .constructed .., _ => True

theorem Instantiates.of_extends (h : s.Instantiates generics type term)
    (hext : s.Extends s') : s'.Instantiates generics type term := by
  induction type generalizing term with
  | generic | concrete | constructed => exact h
  | reference mutability lifetime referent ih =>
    obtain ⟨found, underlying, lifetime', hp, hunderlying⟩ := h
    exact ⟨found, underlying, lifetime', hext.reference hp, ih hunderlying⟩

theorem probe_of_push {data : Term} (h : s.push data = (term, s')) : s'.probe term = data := by
  obtain ⟨rfl, rfl⟩ := Prod.mk.inj h
  exact (s.probe_push data _).trans (if_pos rfl)

def Answers (fixed : Prop) (s : TermStore) (generic : Generic) (term : TermId) : Prop :=
  ∀ constraint ∈ generic.constraints, s.Owes fixed constraint term

end TermStore

namespace Context

variable {fixed : Prop} {ctx ctx' : Context} {generics : List TermId}

/-- The port of a parameter has a facade that suits the parameter, and its node sees a type that
stands for the declared one. -/
def Declares (fixed : Prop) (ctx : Context) (ports : List PortId) (generics : List TermId)
    (parameter : Parameter) (port : PortId) : Prop :=
  ∃ facade term, ctx.facades.get? port = some facade ∧ facade.Suits ports parameter ∧
    ctx.Carries fixed facade.nodeSide term ∧ ctx.terms.Instantiates generics parameter.type term

theorem Declares.of_grows {ports : List PortId} {parameter : Parameter} {port : PortId}
    (h : ctx.Declares fixed ports generics parameter port)
    (hg : ctx.Grows fixed ctx') :
    ctx'.Declares fixed ports generics parameter port := by
  obtain ⟨facade, term, hfacade, hsuits, hcarries, hinstantiates⟩ := h
  exact ⟨facade, term, hg.facades port facade hfacade, hsuits, hcarries.of_grows hg,
    hinstantiates.of_extends hg.terms⟩

/-- As far as nothing has been reported, terms owe what type parameters ask for. -/
def Answers (fixed : Prop) (ctx : Context) (declared : List Generic)
    (generics : List TermId) : Prop :=
  List.Forall₂ (fun generic term => ctx.isClean = true →
    ctx.terms.Answers fixed generic term) declared generics

theorem Answers.of_grows {declared : List Generic} (h : ctx.Answers fixed declared generics)
    (hg : ctx.Grows fixed ctx') : ctx'.Answers fixed declared generics := by
  apply List.Forall₂.imp ?_ h
  intro generic term hanswers hclean constraint hconstraint
  exact (hg.owed hclean).owes (hanswers (hg.clean hclean) constraint hconstraint)

/-- What is known of the ports of a node because of what the node is. -/
structure Presents (fixed : Prop) (g : Graph) (ctx : Context) (node : Node) : Prop where
  signature : ∀ signature, node.kind = .functional signature →
    ∃ generics, ctx.Answers fixed signature.generics generics ∧
      ∀ pair ∈ node.assigned signature, ctx.Declares fixed
        ((node.assigned signature).map Prod.snd) generics pair.1 pair.2
  borrows : ∀ owner mutable, node.kind = .border owner (.borrowTunnel mutable) →
    ∀ input ∈ node.inputs, ∃ flow, ctx.facades.get? input = some (.simple flow)
  returns : ∀ owner borrowTunnel,
    node.kind = .border owner (.terminateLifetimeTunnel borrowTunnel) →
      ∃ input facade, g.inputPort borrowTunnel 0 = .ok input ∧
        ctx.facades.get? input = some facade ∧
          ∀ output ∈ node.outputs, ctx.facades.get? output = some (.simple facade.wireSide)

theorem Presents.of_grows {g : Graph} {node : Node} (h : ctx.Presents fixed g node)
    (hg : ctx.Grows fixed ctx') : ctx'.Presents fixed g node where
  signature signature hk := by
    obtain ⟨generics, hanswers, hdeclares⟩ := h.signature signature hk
    exact ⟨generics, hanswers.of_grows hg, fun pair hpair => (hdeclares pair hpair).of_grows hg⟩
  borrows owner mutable hk input hinput := by
    obtain ⟨flow, hflow⟩ := h.borrows owner mutable hk input hinput
    exact ⟨flow, hg.facades _ _ hflow⟩
  returns owner borrowTunnel hk := by
    obtain ⟨input, facade, hinput, hfacade, houtputs⟩ := h.returns owner borrowTunnel hk
    exact ⟨input, facade, hinput, hg.facades _ _ hfacade,
      fun output houtput => hg.facades _ _ (houtputs output houtput)⟩

end Context

end BorrowFlow
