import BorrowFlow.Inference.Facing
import BorrowFlow.Inference.Wires
import BorrowFlow.Proofs.Coupling
import BorrowFlow.Proofs.Inference.Passes

/-!
# Two inferences side by side

Two inferences that give the same names to their terms, flows and groups are compared step by step.
If the small steps of a pass take related contexts to related contexts, then so does all that the
pass does. A pass that is compared with itself is a special case.
-/

namespace BorrowFlow

/-- The ways in which the passes create terms. Lifetimes are opened apart from these. -/
inductive TermStore.Mints : (TermStore → TermId × TermStore) → Prop
  | unbound (constraints : List Constraint) : Mints (·.newUnbound constraints)
  | type (type : DataType) : Mints (·.newType type)
  | constructed (head : TypeConstructor) (argument : TermId) :
      Mints (·.newConstructed head argument)
  | reference (mutability : Mutability) (underlying lifetime : TermId) :
    Mints (·.newReference mutability underlying lifetime)
  | lifetime : Mints (·.newLifetime none)
  | mutability : Mints (·.newMutability)

/-- How two inferences are compared: how their contexts are related, and what is left of this when
they fail. Related contexts show the same facades. -/
structure Comparison where
  related : Context → Context → Prop
  lost : Context → Context → Prop
  fails : ∀ {ctx ctx' : Context}, related ctx ctx' → lost ctx ctx'
  facades : ∀ {ctx ctx' : Context}, related ctx ctx' → ctx'.facades = ctx.facades

namespace Comparison

variable (comparison : Comparison)

/-- The second pass does to the second context what the first pass does to the first one. -/
abbrev Mimics {α : Type} (pass pass' : Pass α) : Prop :=
  Couples comparison.lost comparison.related pass pass' comparison.related

abbrev Follows {α : Type} (pass : Pass α) : Prop := comparison.Mimics pass pass

variable {comparison} {α : Type}

theorem mimics_throw (fault : Fault) : comparison.Follows (throw fault : Pass α) :=
  .throw fault fun _ _ => comparison.fails

theorem mimics_lift (answer : Except Fault α) : comparison.Follows (liftM answer : Pass α) :=
  .lift fun _ _ => comparison.fails

/-- The small steps of the first pass can be compared. -/
structure Facing (comparison : Comparison) (config config' : Config) : Prop where
  newTerm : ∀ {create : TermStore → TermId × TermStore}, TermStore.Mints create →
    comparison.Mimics (Pass.newTerm create) (Pass.newTerm create)
  openLifetime : ∀ scope, comparison.Mimics (Pass.openLifetime scope) (Pass.openLifetime scope)
  newFlow : ∀ mutable term,
    comparison.Mimics (Pass.newFlow mutable term) (Pass.newFlow mutable term)
  interrupt : ∀ lifetime flow, comparison.Mimics (Pass.modifyFlows (·.interrupt lifetime flow))
    (Pass.modifyFlows (·.interrupt lifetime flow))
  face : ∀ port facade, comparison.Mimics (Pass.face port facade) (Pass.face port facade)
  newGroup : ∀ node scope policy term, comparison.Mimics (Pass.newGroup node scope policy term)
    (Pass.newGroup node scope policy term)
  changeGroups : ∀ change, comparison.Mimics (Pass.changeGroups change) (Pass.changeGroups change)
  checkFeatures : ∀ port heads, comparison.Mimics (Pass.checkFeatures config port heads)
    (Pass.checkFeatures config' port heads)

/-- Related contexts differ in their diagnostics alone, and types can be unified in both. -/
structure Unifying (comparison : Comparison) : Prop where
  agrees : ∀ {ctx ctx' : Context}, comparison.related ctx ctx' →
    ∃ diagnostics, ctx' = { ctx with diagnostics }
  newTerm : ∀ {create : TermStore → TermId × TermStore}, TermStore.Mints create →
    comparison.Follows (Pass.newTerm create)
  unifyAt : ∀ port expected supplied, comparison.Follows (Pass.unifyAt port expected supplied)
  modifyFlows : ∀ change, comparison.Follows (Pass.modifyFlows change)

/-- The small steps of a decision can be compared. -/
structure Deciding (comparison : Comparison) : Prop extends Unifying comparison where
  carveLifetime : ∀ scope, comparison.Follows (Pass.carveLifetime scope)
  resolveLifetime : ∀ term lifetime, comparison.Follows (Pass.resolveLifetime term lifetime)
  beginBorrow : ∀ lifetime member, comparison.Follows (Pass.beginBorrow lifetime member)

/-- The small steps of the second pass can be compared. -/
structure Wiring (comparison : Comparison) : Prop extends Deciding comparison where
  changeGroups : ∀ change, comparison.Follows (Pass.changeGroups change)
  setGroups : ∀ groups, comparison.Follows (modify fun ctx => { ctx with groups })
  countDecided : comparison.Follows (Pass.count fun stats => { stats with
    groupsDecided := stats.groupsDecided + 1 })
  countUnified : comparison.Follows (Pass.count fun stats => { stats with
    wiresUnified := stats.wiresUnified + 1 })
  countWired : ∀ g, comparison.Follows (Pass.countWired g)
  resolveAll : comparison.Follows (modify fun ctx => { ctx with
    flows := ctx.flows.resolveAll ctx.terms })

end Comparison

namespace Pass

open Comparison

variable {comparison : Comparison} {config config' : Config}

section Facing

variable (h : comparison.Facing config config')

include h

/-! ## Declared types -/

theorem mimics_faceReference (port : PortId) (term : TermId) (group : GroupId) :
    comparison.Follows (faceReference port term group) :=
  (h.newFlow _ _).bind fun _ => (h.newTerm (.unbound _)).bind fun _ =>
    (h.newFlow _ _).bind fun _ => (h.face port _).bind fun _ => h.changeGroups _

theorem mimics_lifetimeParameter (used : Instantiation) (parameter : Nat) :
    comparison.Follows (lifetimeParameter used parameter) := by
  unfold lifetimeParameter
  split
  · exact .pure _
  · exact (h.newTerm .lifetime).bind fun _ => .pure _

theorem mimics_mutabilityParameter (used : Instantiation) (parameter : Nat)
    (mutability : DeclaredMutability) :
    comparison.Follows (mutabilityParameter used parameter mutability) := by
  cases mutability with
  | immutable | mutable => exact .pure _
  | polymorphic =>
    dsimp only [mutabilityParameter]
    split
    · exact .pure _
    · exact (h.newTerm .mutability).bind fun _ => .pure _

theorem mimics_instantiate (used : Instantiation) (type : DeclaredType) :
    comparison.Follows (instantiate used type) := by
  induction type generalizing used with
  | generic index =>
    unfold instantiate
    split
    · exact .pure _
    · exact mimics_throw _
  | concrete type => exact (h.newTerm (.type type)).bind fun _ => .pure _
  | constructed head argument ih =>
    exact (ih used).bind fun _ => (h.newTerm (.constructed head _)).bind fun _ => .pure _
  | reference mutability lifetime referent ih =>
    exact (ih used).bind fun _ => (mimics_lifetimeParameter h _ lifetime).bind fun _ =>
      (mimics_mutabilityParameter h _ lifetime mutability).bind fun _ =>
        (h.newTerm (.reference _ _ _)).bind fun _ => .pure _

theorem mimics_groupParameter (node : NodeId) (scope : ScopeId) (used : Instantiation)
    (parameter : Nat) (mutability : DeclaredMutability) :
    comparison.Follows (groupParameter node scope used parameter mutability) := by
  unfold groupParameter
  split
  · exact .pure _
  · exact (mimics_lifetimeParameter h used parameter).bind fun _ => (h.newGroup _ _ _ _).bind
      fun _ => .pure _

theorem mimics_faceParameter (node : NodeId) (scope : ScopeId) (used : Instantiation)
    (parameter : Parameter) (port : PortId) :
    comparison.Mimics (faceParameter config node scope used parameter port)
      (faceParameter config' node scope used parameter port) := by
  refine (mimics_instantiate h used _).bind fun _ => (h.checkFeatures port _).bind fun _ => ?_
  split
  · exact (mimics_groupParameter h _ _ _ _ _).bind fun _ => (mimics_faceReference h port _ _).bind
      fun _ => .pure _
  · exact .pure _
  · exact (h.newFlow _ _).bind fun _ => (h.face port _).bind fun _ => .pure _

theorem mimics_faceParameters (node : NodeId) (scope : ScopeId) (used : Instantiation)
    (assigned : List (Parameter × PortId)) :
    comparison.Mimics (faceParameters config node scope used assigned)
      (faceParameters config' node scope used assigned) := by
  induction assigned generalizing used with
  | nil => exact .pure _
  | cons pair rest ih =>
    exact (mimics_faceParameter h node scope used _ _).bind fun _ => (ih _).bind fun _ => .pure _

theorem mimics_facePairing (signature : Signature) (ports : List PortId) (parameter : Parameter)
    (port : PortId) (term : TermId) :
    comparison.Follows (facePairing signature ports parameter port term) := by
  unfold facePairing
  split
  · exact .pure _
  · refine .get_bind fun ctx ctx' hrelated => ?_
    rw [comparison.facades hrelated]
    split
    · dsimp only
      split
      · exact (h.newFlow _ _).bind fun _ => (h.newTerm (.unbound _)).bind fun _ =>
          (h.newFlow _ _).bind fun _ => (h.face port _).bind fun _ => h.changeGroups _
      · exact mimics_throw _
    · exact mimics_throw _

/-! ## Nodes -/

theorem mimics_faceFunctional (n : NodeId) (node : Node) (signature : Signature) :
    comparison.Mimics (faceFunctional config n node signature)
      (faceFunctional config' n node signature) := by
  refine (Couples.mapM fun _ => h.newTerm (.unbound _)).bind fun _ =>
    (mimics_faceParameters h n node.scope _ _).bind fun _ => .forM fun assigned => ?_
  exact mimics_facePairing h signature _ assigned.1.1 assigned.1.2 assigned.2

theorem mimics_faceAll (ports : List PortId) (flow : FlowId) :
    comparison.Follows (ports.forM fun port => faceSimply port flow) :=
  .forM fun port => h.face port _

theorem mimics_faceExplicitBorrow (node : Node) (mutable : Bool) :
    comparison.Follows (faceExplicitBorrow node mutable) :=
  (h.openLifetime _).bind fun _ => .forM fun ⟨input, output⟩ =>
    (h.newTerm (.unbound _)).bind fun _ => (h.newFlow _ _).bind fun _ => (h.face input _).bind
      fun _ => (h.newTerm (.reference (.fixed mutable) _ _)).bind fun _ => (h.newFlow _ _).bind
        fun _ => (h.face output _).bind fun _ => h.interrupt _ _

theorem mimics_faceOutputTunnel (g : Graph) (node : Node) (owner : NodeId) :
    comparison.Mimics (faceOutputTunnel config g node owner)
      (faceOutputTunnel config' g node owner) := by
  refine (mimics_lift _).bind fun _ => (h.newTerm (.unbound _)).bind fun value =>
    (Couples.mapM fun input => ?_).bind fun inner => .forM fun output => ?_
  · exact (h.newFlow _ _).bind fun _ => (h.face input _).bind fun _ => .pure _
  · have hface : ∀ delivered, comparison.Follows (newFlow false delivered >>= fun wireSide =>
          face output (.tunnel (inner.headD wireSide) wireSide)) := fun _ =>
      (h.newFlow _ _).bind fun _ => h.face output _
    split
    · exact (h.newTerm (.constructed _ _)).bind fun _ => (h.checkFeatures output _).bind
        fun _ => hface _
    · exact hface _

theorem mimics_faceBorrowTunnel (node : Node) (mutable : Bool) :
    comparison.Follows (faceBorrowTunnel node mutable) :=
  (h.newTerm (.unbound _)).bind fun _ => (h.newFlow _ _).bind fun _ =>
    (mimics_faceAll h _ _).bind fun _ => (h.openLifetime _).bind fun _ =>
      (h.newTerm (.reference (.fixed mutable) _ _)).bind fun _ => (h.newFlow _ _).bind fun _ =>
        (mimics_faceAll h _ _).bind fun _ => h.interrupt _ _

theorem mimics_faceTerminateTunnel (g : Graph) (n : NodeId) (node : Node) (borrowTunnel : NodeId) :
    comparison.Follows (faceTerminateTunnel g n node borrowTunnel) := by
  refine (mimics_lift _).bind fun port => .get_bind fun ctx ctx' hrelated => ?_
  rw [comparison.facades hrelated]
  split
  · exact mimics_throw _
  · refine (Couples.forM fun input => ?_).bind fun _ => mimics_faceAll h _ _
    exact (h.newTerm (.unbound _)).bind fun _ => (h.newFlow _ _).bind fun _ => h.face input _

theorem mimics_faceUnwrapping (node : Node) :
    comparison.Mimics (faceUnwrapping config node) (faceUnwrapping config' node) :=
  (h.newTerm (.unbound _)).bind fun _ => (h.newTerm (.constructed _ _)).bind fun _ =>
    (h.newFlow _ _).bind fun _ =>
      (Couples.forM fun input => (h.face input _).bind fun _ => h.checkFeatures input _).bind
        fun _ => (h.newFlow _ _).bind fun _ => mimics_faceAll h _ _

theorem mimics_faceLoopCondition (node : Node) : comparison.Follows (faceLoopCondition node) :=
  (h.newTerm (.type _)).bind fun _ => (h.newFlow _ _).bind fun _ =>
    (mimics_faceAll h _ _).bind fun _ => (h.openLifetime _).bind fun _ =>
      (h.newTerm (.reference (.fixed true) _ _)).bind fun _ => (h.newFlow _ _).bind
        fun _ => mimics_faceAll h _ _

theorem mimics_faceIterateTunnel (n : NodeId) (node : Node) :
    comparison.Mimics (faceIterateTunnel config n node) (faceIterateTunnel config' n node) :=
  (h.newTerm (.unbound _)).bind fun _ => (h.newTerm (.constructed _ _)).bind fun _ =>
    (h.newTerm .lifetime).bind fun _ => (h.newTerm (.reference (.fixed true) _ _)).bind fun _ =>
      (h.newGroup _ _ _ _).bind fun _ =>
        (Couples.forM fun input => (mimics_faceReference h input _ _).bind
          fun _ => h.checkFeatures input _).bind fun _ => (h.newFlow _ _).bind
            fun _ => mimics_faceAll h _ _

theorem mimics_faceNode (g : Graph) (n : NodeId) (node : Node) :
    comparison.Mimics (faceNode config g n node) (faceNode config' g n node) := by
  unfold faceNode
  split
  · exact (h.newTerm (.type _)).bind fun _ => (h.newFlow _ _).bind fun _ => .forM fun output =>
      (h.face output _).bind fun _ => h.checkFeatures output _
  · exact mimics_faceFunctional h n node _
  · exact mimics_faceExplicitBorrow h node _
  · exact mimics_throw _
  · exact (h.newTerm (.unbound _)).bind fun _ => (h.newFlow _ _).bind fun _ =>
      mimics_faceAll h _ _
  · exact .pure _
  · rename_i owner kind _
    cases kind with
    | inputTunnel =>
      exact (h.newTerm (.unbound _)).bind fun _ => (h.newFlow _ _).bind fun _ =>
        mimics_faceAll h _ _
    | outputTunnel => exact mimics_faceOutputTunnel h g node owner
    | borrowTunnel mutable => exact mimics_faceBorrowTunnel h node mutable
    | terminateLifetimeTunnel borrowTunnel =>
      exact mimics_faceTerminateTunnel h g n node borrowTunnel
    | unwrapOptionTunnel | optionSelector => exact mimics_faceUnwrapping h node
    | loopCondition => exact mimics_faceLoopCondition h node
    | iterateTunnel => exact mimics_faceIterateTunnel h n node

end Facing

/-! ## Deciding groups -/

section Unifying

variable (h : comparison.Unifying)

include h

theorem mimics_ask {α : Type} {query : Context → Except Fault α} (hquery : ∀ ctx diagnostics,
    query { ctx with diagnostics } = query ctx) : comparison.Follows (ask query) := by
  refine .get_bind fun ctx ctx' hrelated => ?_
  obtain ⟨diagnostics, rfl⟩ := h.agrees hrelated
  rw [hquery ctx diagnostics]
  exact mimics_lift _

theorem mimics_settleOutput (g : Graph) (borrowed : Bool) (member : GroupMember)
    (output : PortId) : comparison.Follows (settleOutput g borrowed member output) := by
  refine (mimics_ask h fun _ _ => rfl).bind fun facade => (mimics_lift _).bind fun connected => ?_
  have hsettle : ∀ handedBack, comparison.Follows (do
        let expected ← termOf facade.wireSide
        let supplied ← termOf handedBack
        unifyAt output expected supplied
        modifyFlows (·.merge facade.wireSide handedBack)) := fun handedBack =>
    (mimics_ask h fun _ _ => rfl).bind fun _ => (mimics_ask h fun _ _ => rfl).bind fun _ =>
      (h.unifyAt output _ _).bind fun _ => h.modifyFlows _
  split
  · exact (mimics_ask h fun _ _ => rfl).bind hsettle
  · exact hsettle _

theorem mimics_settleOutputs (g : Graph) (group : GroupId) (borrowed : Bool) :
    comparison.Follows (settleOutputs g group borrowed) := by
  refine (mimics_ask h fun _ _ => rfl).bind fun data => .forM fun member => ?_
  split
  · exact mimics_settleOutput h g borrowed member _
  · exact .pure ()

theorem mimics_supplyOf (member : GroupMember) : comparison.Follows (supplyOf member) := by
  refine (mimics_ask h fun _ _ => rfl).bind fun _ => (mimics_ask h fun _ _ => rfl).bind fun _ =>
    .get_bind fun ctx ctx' hrelated => ?_
  obtain ⟨diagnostics, rfl⟩ := h.agrees hrelated
  exact .pure _

theorem mimics_deriveReference (lifetimeTerm : TermId) (decision : Decision)
    (member : SuppliedMember) :
    comparison.Follows (deriveReference lifetimeTerm decision member) := by
  refine .get_bind fun ctx ctx' hrelated => ?_
  obtain ⟨diagnostics, rfl⟩ := h.agrees hrelated
  exact (h.newTerm (.reference ..)).bind fun _ => (mimics_ask h fun _ _ => rfl).bind fun _ =>
    (mimics_ask h fun _ _ => rfl).bind fun _ => h.unifyAt member.port _ _

theorem mimics_joinSink (source sink : FlowId) (shared mutable : Bool) :
    comparison.Follows (joinSink source sink shared mutable) := by
  unfold joinSink
  split <;> exact h.modifyFlows _

theorem mimics_requireCopy (source : PortId) (term : TermId) :
    comparison.Follows (requireCopy source term) :=
  (h.newTerm (.unbound _)).bind fun _ => h.unifyAt source _ _

end Unifying

theorem mimics_makeDecision (h : comparison.Deciding) (group : BorrowGroup)
    (supplied : List SuppliedMember) : comparison.Follows (makeDecision group supplied) := by
  unfold makeDecision
  split
  · exact (h.resolveLifetime _ _).bind fun _ => .pure _
  · exact (h.carveLifetime _).bind fun lifetime => (h.resolveLifetime _ _).bind fun _ =>
      (Couples.forM fun member => h.beginBorrow lifetime member).bind fun _ => .pure _

/-! ## Wires -/

section Wiring

variable (h : comparison.Wiring)

include h

theorem mimics_arriveAt (g : Graph) (group : GroupId) : comparison.Follows (arriveAt g group) := by
  have hunifying := h.toUnifying
  refine (mimics_ask hunifying fun _ _ => rfl).bind fun arrival => (h.setGroups _).bind fun _ => ?_
  split
  · exact (mimics_ask hunifying fun _ _ => rfl).bind fun data => (mimics_lift _).bind fun _ =>
      (Couples.mapM fun member => mimics_supplyOf hunifying member).bind fun _ =>
        (mimics_makeDecision h.toDeciding data _).bind fun decision =>
          (Couples.forM fun member => mimics_deriveReference hunifying _ decision member).bind
            fun _ => (h.changeGroups _).bind fun _ => h.countDecided.bind fun _ =>
              mimics_settleOutputs hunifying g group _
  · exact .pure ()

theorem mimics_unifySink (g : Graph) (source : FlowId) (mutable shared : Bool)
    (supplied : TermId) (sink : PortId) :
    comparison.Follows (unifySink g source mutable shared supplied sink) := by
  have hunifying := h.toUnifying
  refine (mimics_ask hunifying fun _ _ => rfl).bind fun flow =>
    (mimics_ask hunifying fun _ _ => rfl).bind fun expected => (h.unifyAt sink _ _).bind fun _ =>
      (mimics_joinSink hunifying source flow shared mutable).bind fun _ =>
        (mimics_ask hunifying fun _ _ => rfl).bind fun facade => ?_
  split
  · exact (mimics_arriveAt h g _).bind fun _ => .pure expected
  · exact .pure expected

theorem mimics_unifyWire (g : Graph) (source : PortId) (sinks : List PortId) :
    comparison.Follows (unifyWire g source sinks) := by
  have hunifying := h.toUnifying
  refine (mimics_ask hunifying fun _ _ => rfl).bind fun flow =>
    (mimics_ask hunifying fun _ _ => rfl).bind fun term =>
      .get_bind fun ctx ctx' hrelated => ?_
  obtain ⟨diagnostics, rfl⟩ := h.agrees hrelated
  have hsinks : ∀ mutable borrowed first (rest : List PortId), comparison.Follows (do
      let firstTerm ← unifySink g flow mutable true term first
      rest.forM fun sink => discard (unifySink g flow mutable borrowed firstTerm sink)) :=
    fun _ _ _ _ => (mimics_unifySink h _ _ _ _ _ _).bind fun _ => .forM fun _ =>
      (mimics_unifySink h _ _ _ _ _ _).bind fun _ => .pure ()
  cases sinks with
  | nil => exact .pure ()
  | cons first rest =>
    dsimp only
    split
    · exact (mimics_requireCopy hunifying source term).bind fun _ => hsinks _ _ first rest
    · exact hsinks _ _ first rest

theorem mimics_unifyWires (g : Graph) : comparison.Follows (unifyWires g) := by
  refine (h.countWired g).bind fun _ => .get_bind fun ctx ctx' hrelated => ?_
  obtain ⟨diagnostics, rfl⟩ := h.agrees hrelated
  refine .bind (.forM fun group => mimics_settleOutputs h.toUnifying g group false) fun _ =>
    .bind (.forM fun n => (mimics_lift _).bind fun node => .forM fun output => ?_) fun _ =>
      h.resolveAll
  refine (mimics_lift _).bind fun sinks => ?_
  split
  · exact (mimics_unifyWire h g output sinks).bind fun _ => h.countUnified
  · exact .pure ()

end Wiring

end Pass

end BorrowFlow
