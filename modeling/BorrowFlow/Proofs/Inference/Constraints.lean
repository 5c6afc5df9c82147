import BorrowFlow.Proofs.Inference.Operations
import BorrowFlow.Proofs.Inference.Returning
import BorrowFlow.Proofs.Term.Knowledge
import BorrowFlow.Signature.Catalogue

/-!
# What a clean report says of constraints

A constraint is checked when a type is bound, which may be at another wire than the one that asked
for it. If nothing was reported, then every type that owes a constraint satisfies it once it is
known in full. So a value that a wire duplicates can be copied, and the port of a parameter carries
a type that its type parameter accepts. The exception is an output that another one has displaced,
because both were to hand back what one input took: nothing connects what the wires see of it with
what its node declares.
-/

namespace BorrowFlow

variable {facade : Facade}

/-- Whether a type may stand for a declared one, as far as the constraints of type parameters and of
references to them go. -/
def DeclaredType.Accepts (generics : List Generic) : DeclaredType → DataType → Prop
  | .generic index, type => ∃ generic, generics[index]? = some generic ∧
    (type.isResolved = true → ∀ constraint ∈ generic.constraints, type.satisfies constraint = true)
  | .reference _ _ referent, type => ∃ mutable inner,
    type = .reference mutable inner ∧ referent.Accepts generics inner
  | .concrete _, _ | .constructed .., _ => True

namespace TermStore

variable {agree : Mutability → Mutability → Prop} {s : TermStore} {term found : TermId}

theorem Alike.exists_reference {mutability : Mutability} {underlying lifetime : TermId}
    (h : s.Alike agree term found)
    (hp : s.probe term = .reference mutability underlying lifetime) :
    ∃ mutability' underlying' lifetime',
      s.probe found = .reference mutability' underlying' lifetime' ∧
        s.Alike agree underlying underlying' := by
  cases h with
  | same hsame =>
    exact ⟨mutability, underlying, lifetime, (probe_of_same hsame).symm.trans hp, .refl _⟩
  | reference hl hr _ h =>
    cases hp.symm.trans hl
    exact ⟨_, _, _, hr, h⟩

theorem Sound.satisfies_render (h : s.Sound) {constraint : Constraint}
    (howes : s.Owes True constraint term) (hresolved : (s.render term).isResolved = true) :
    (s.render term).satisfies constraint = true := by
  have hrenders := renders_render h.wellSorted h.solvable term
  exact (howes.satisfies hrenders hresolved).resolve_right fun hexcept => hexcept.1 trivial

/-- A type that stands for a declared one, or is like such a type, is accepted by the type
parameters if these have what they ask for. -/
theorem Sound.accepts_render (h : s.Sound) {declared : List Generic} {generics : List TermId}
    (hanswers : List.Forall₂ (s.Answers True) declared generics) {type : DeclaredType}
    (hinstantiates : s.Instantiates generics type term)
    (halike : s.AlikeIf True term found) : type.Accepts declared (s.render found) := by
  induction type generalizing term found with
  | generic index =>
    obtain ⟨hindex, ht⟩ := List.getElem?_eq_some_iff.mp hinstantiates
    have hlen := hanswers.length_eq
    refine ⟨declared[index], List.getElem?_eq_getElem _, fun hresolved constraint hconstraint => ?_⟩
    have howes : s.Owes True constraint term :=
      ht ▸ hanswers.get (hlen ▸ hindex) hindex constraint hconstraint
    exact h.satisfies_render (howes.of_alikeIf halike.symm) hresolved
  | concrete | constructed => trivial
  | reference mutability lifetime referent ih =>
    obtain ⟨_, _, _, hp, hreferent⟩ := hinstantiates
    obtain ⟨_, _, _, hp', halike'⟩ := halike.exists_reference hp
    exact ⟨_, _, h.render_reference hp', ih hreferent halike'⟩

end TermStore

namespace Context

variable {g : Graph} {ctx : Context} {ws : Workspace}

/-! ## What passes leave behind -/

theorem Concluded.isCopyable (h : ctx.Concluded True g) (hclean : ctx.isClean = true)
    {source : PortId} (hcopyable : ctx.Copyable True source) :
    ∃ facade, ctx.facades.get? source = some facade ∧
      ((ctx.flows.get facade.wireSide).type.isResolved = true →
        (ctx.flows.get facade.wireSide).type.isCopyable = true) := by
  obtain ⟨facade, term, hfacade, ⟨found, hf, halike⟩, howes⟩ := hcopyable
  refine ⟨facade, hfacade, fun hresolved => ?_⟩
  rw [(h.rendered _ _ hf).1] at hresolved ⊢
  have howes' := (howes hclean).of_alikeIf (halike hclean).symm
  exact h.typed.sound.satisfies_render howes' hresolved

theorem Concluded.accepts (h : ctx.Concluded True g) (hclean : ctx.isClean = true)
    {declared : List Generic} {generics : List TermId}
    (hanswers : ctx.Answers True declared generics) {flow : FlowId} {term : TermId}
    {type : DeclaredType} (hcarries : ctx.Carries True flow term)
    (hinstantiates : ctx.terms.Instantiates generics type term) :
    type.Accepts declared (ctx.flows.get flow).type := by
  obtain ⟨found, hf, halike⟩ := hcarries
  rw [(h.rendered _ _ hf).1]
  have hanswers' : List.Forall₂ (ctx.terms.Answers True) declared generics :=
    hanswers.imp fun _ _ hanswer => hanswer hclean
  exact h.typed.sound.accepts_render hanswers' hinstantiates (halike hclean)

/-! ## What ports report -/

/-- An input reports what its node sees. So does an output that shows the same to the wires, or has
come to show them what its node hands back. -/
theorem Realized.carried?_nodeSide (h : ctx.Realized g ws) {port : PortId}
    {data : Port} (hport : g.ports[port]? = some data)
    (hfacade : ctx.facades.get? port = some facade) (hshown : data.direction = .output →
      ctx.flows.get facade.wireSide = ctx.flows.get facade.nodeSide ∨
        ws.context.facades.get? port = some (.simple facade.nodeSide)) :
    (ws.context.report ws.graph).carried? port =
      some (ctx.flows.get facade.nodeSide).carried := by
  obtain ⟨wire, hport'⟩ := h.spares.keeps.port hport
  obtain ⟨facade', hfacade', hcase⟩ := h.spares.facades port facade hfacade
  rw [carried?_of_facade hport' hfacade', h.spares.flows]
  rcases hcase with rfl | ⟨-, rfl⟩
  · cases hdirection : data.direction with
    | input => rfl
    | output =>
      rcases hshown hdirection with hsame | hsimple
      · exact congrArg (fun flow => some flow.carried) hsame
      · rw [hfacade'] at hsimple
        rw [Option.some.inj hsimple]
        rfl
  · cases data.direction <;> rfl

/-- The output that a group knows for a member shows the wires what its node hands back, or has come
to do so when the borrow was ended behind it. -/
theorem Realized.shown_of_records (h : ctx.Realized g ws) {fixed : Prop}
    (hconcluded : ctx.Concluded fixed g) {input output : PortId}
    (hrecords : ctx.groups.Records input output)
    (hfacade : ctx.facades.get? output = some facade) :
    ctx.flows.get facade.wireSide = ctx.flows.get facade.nodeSide ∨
      ws.context.facades.get? output = some (.simple facade.nodeSide) := by
  obtain ⟨id, group, member, hgroup, hmember, rfl, houtput⟩ := hrecords
  by_cases hlent : group.decision.any Decision.isBorrow = true ∧ g.isWired member.port = true
  · right
    obtain ⟨mutable, lifetime, hdecision⟩ := Decision.exists_of_any_isBorrow hlent.1
    have hm : output ∈ (group.wiredIn g).filterMap GroupMember.pairedOutput :=
      List.mem_filterMap.mpr ⟨member, List.mem_filter.mpr ⟨hmember, hlent.2⟩, houtput⟩
    have hexplicit := h.explicit id group mutable lifetime hgroup hdecision
    obtain ⟨_, -, hended⟩ := hexplicit.ended (List.ne_nil_of_mem hm)
    obtain ⟨index, hindex⟩ := List.mem_iff_getElem?.mp hm
    obtain ⟨found, hf, hsimple, -⟩ := hended index output hindex
    cases hfacade.symm.trans hf
    exact hsimple
  · left
    have hback := hconcluded.handsBack id group hgroup member hmember output houtput
    obtain ⟨found, hf, hsame⟩ := hback.kept hlent
    cases hfacade.symm.trans hf
    exact FlowStore.get_of_same hsame

/-- The port of a parameter reports what its node sees, unless it is an output that another one has
displaced. -/
theorem Realized.carried?_of_assigned (h : ctx.Realized g ws) {fixed : Prop}
    (hconcluded : ctx.Concluded fixed g) (hs : g.Seated) {n : NodeId} {node : Node}
    {signature : Signature} (hnode : g.nodes[n]? = some node)
    (hk : node.kind = .functional signature) {pair : Parameter × PortId}
    (hpair : pair ∈ node.assigned signature) (hfacade : ctx.facades.get? pair.2 = some facade)
    (hsuits : facade.Suits ((node.assigned signature).map Prod.snd) pair.1) :
    (ws.context.report ws.graph).carried? pair.2 = some (ctx.flows.get facade.nodeSide).carried ∨
      ∃ input other, other ≠ pair.2 ∧ g.Pairs pair.2 input ∧ g.Pairs other input ∧
        ctx.groups.Records input other := by
  obtain ⟨data, hd, hdirection⟩ := Pass.exists_port_of_assigned hs hnode hpair
  cases facade with
  | simple flow => exact .inl (h.carried?_nodeSide hd hfacade fun _ => .inl rfl)
  | referenceInput nodeSide wireSide group =>
    refine .inl (h.carried?_nodeSide hd hfacade fun houtput => ?_)
    cases (hdirection.symm.trans houtput).symm.trans hsuits
  | tunnel => exact hsuits.elim
  | terminationOutput nodeSide wireSide input =>
    obtain ⟨other, hpairs, hrecords⟩ := hconcluded.closed pair.2 nodeSide wireSide input hfacade
    by_cases heq : other = pair.2
    · subst heq
      exact .inl (h.carried?_nodeSide hd hfacade fun _ =>
        h.shown_of_records hconcluded hrecords hfacade)
    · obtain ⟨index, hindex, hinput⟩ := hsuits
      exact .inr ⟨input, other, heq,
        ⟨n, node, signature, pair.1, index, hnode, hk, hpair, hindex, hinput⟩, hpairs, hrecords⟩

end Context

namespace Graph

/-- If inference ends with a clean report, then what a wire with several sinks carries can be
copied, unless all of them borrow it, and the port of every parameter carries a type that satisfies
the constraints of its type parameter, unless another output that the signature pairs with the same
input has taken its place. -/
theorem Built.constraints_hold {graph after : Graph} {config : Config} {report : Report}
    (hbuilt : graph.Built) (hmono : graph.Monomorphic)
    (hinfer : infer config graph = (.ok report, after)) (hclean : report.isClean = true) :
    ∃ context state, Inference.decided? config graph = some context ∧
      Run.all { config, graph } = .ok report state ∧
        (∀ (w : WireId) (wire : Wire), graph.wires[w]? = some wire → 1 < wire.sinks.length →
          wire.sinks.all context.facades.isReferenceInput = false →
            ∃ facade, context.facades.get? wire.source = some facade ∧
              ((state.context.flows.get facade.wireSide).type.isResolved = true →
                (state.context.flows.get facade.wireSide).type.isCopyable = true)) ∧
        ∀ (n : NodeId) (node : Node) (signature : Signature), graph.nodes[n]? = some node →
          node.kind = .functional signature →
            ∀ (index : Nat) (parameter : Parameter),
              signature.parameters[index]? = some parameter →
                ∃ port, (node.assigned signature)[index]? = some (parameter, port) ∧
                  ((∃ carried, report.carried? port = some carried ∧
                    parameter.type.Accepts signature.generics carried.type) ∨
                  ∃ input other, other ≠ port ∧ graph.Pairs port input ∧
                    graph.Pairs other input ∧ context.groups.Records input other) := by
  have hc := hbuilt.consistent
  have hs := hbuilt.wellFormed.seated
  obtain ⟨context, state, hdecided, hrun, hconcluded, hrealized, rfl, rfl⟩ :=
    hbuilt.realized (fun _ : True => hmono) hinfer
  have hflows : state.context.flows = context.flows := hrealized.spares.flows
  have hdiagnostics : state.context.diagnostics = context.diagnostics :=
    hrealized.spares.diagnostics
  have hclean' : context.isClean = true := by
    rw [Context.isClean, ← hdiagnostics]
    exact hclean
  refine ⟨context, state, hdecided, hrun, ?_, ?_⟩
  · intro w wire hwire hmany hsome
    rw [hflows]
    apply hconcluded.isCopyable hclean'
    have hne : wire.sinks ≠ [] := List.ne_nil_of_length_pos (Nat.zero_lt_of_lt hmany)
    have hsinks := hc.sinksAt_source hwire hne
    exact hconcluded.copyable wire.source ⟨hsinks ▸ hmany, hsinks ▸ hsome⟩
  · intro n node signature hnode hkind index parameter hparameter
    obtain ⟨hassigned, -⟩ := hs.assigned_perm hnode hkind
    rw [← hassigned, List.getElem?_map, Option.map_eq_some_iff] at hparameter
    obtain ⟨⟨parameter, port⟩, hindex, rfl⟩ := hparameter
    have hpair := List.mem_of_getElem? hindex
    obtain ⟨generics, hanswers, hdeclares⟩ :=
      (hconcluded.presents n node hnode).signature signature hkind
    obtain ⟨facade, term, hfacade, hsuits, hcarries, hinstantiates⟩ :=
      hdeclares (parameter, port) hpair
    refine ⟨port, hindex, ?_⟩
    apply (hrealized.carried?_of_assigned hconcluded hs hnode hkind hpair hfacade hsuits).imp_left
    intro hcarried
    exact ⟨_, hcarried, hconcluded.accepts hclean' hanswers hcarries hinstantiates⟩

/-- A number is copied, and the copy is dropped twice. -/
def droppedCopies : Graph :=
  leaves (connect 3 5) (leaves (connect 3 4) (leaves (connect 0 1)
    (leaves (addNode rootScope .drop false)
      (leaves (addNode rootScope .drop false)
        (leaves (addNode rootScope (.functional .createCopy) false)
          (leaves (addNode rootScope (.constant .int32 false) false) empty))))))

theorem built_droppedCopies : droppedCopies.Built := by
  unfold droppedCopies
  repeat apply Built.connect
  repeat apply Built.addNode
  exact .empty

theorem constraints_hold_droppedCopies : ∃ report after context state,
    infer {} droppedCopies = (.ok report, after) ∧ report.isClean = true ∧
      Inference.decided? {} droppedCopies = some context ∧
        Run.all { config := {}, graph := droppedCopies } = .ok report state ∧
          (∃ facade, context.facades.get? 3 = some facade ∧
            ((state.context.flows.get facade.wireSide).type.isResolved = true →
              (state.context.flows.get facade.wireSide).type.isCopyable = true)) ∧
          ((∃ carried, report.carried? 3 = some carried ∧
            (DeclaredType.generic 0).Accepts Signature.createCopy.generics carried.type) ∨
          ∃ input other, other ≠ 3 ∧ droppedCopies.Pairs 3 input ∧
            droppedCopies.Pairs other input ∧ context.groups.Records input other) := by
  have hanswer : (infer {} droppedCopies).1.toOption.any Report.isClean = true := by
    decide +kernel
  obtain ⟨report, hinfer, hclean⟩ := exists_report_of_isClean hanswer
  obtain ⟨context, state, hdecided, hrun, hwires, hparameters⟩ :=
    built_droppedCopies.constraints_hold (by decide +kernel) hinfer hclean
  have hsome : (Inference.decided? {} droppedCopies).map
      (fun context => [4, 5].all context.facades.isReferenceInput) = some false := by
    decide +kernel
  rw [hdecided, Option.map_some, Option.some.injEq] at hsome
  obtain ⟨node, hnode, hknown⟩ : ∃ node, droppedCopies.nodes[1]? = some node ∧
      (node.kind, node.assigned .createCopy) = (.functional .createCopy,
        Signature.createCopy.parameters.zip [1, 2, 3]) := by
    apply Option.map_eq_some_iff.mp
    decide +kernel
  obtain ⟨hkind, hassigned⟩ := Prod.mk.inj hknown
  obtain ⟨port, hport, haccepts⟩ := hparameters 1 node .createCopy hnode hkind 2
    (.giving "copy" (.generic 0)) rfl
  rw [hassigned] at hport
  cases hport
  have hwire := hwires 1 { scope := rootScope, source := 3, sinks := [4, 5] } (by decide +kernel)
    (by decide) hsome
  exact ⟨report, _, context, state, hinfer, hclean, hdecided, hrun, hwire, haccepts⟩

/-- Borrows a value that can be copied, and hands back two copies. -/
def handBackCopies : Signature where
  name := "hand_back_copies"
  generics := [{ name := "T", constraints := [.copy] }]
  parameters :=
    [.taking "taken" (.reference .immutable 0 (.generic 0)), .handingBack "first" (.generic 0) 0,
      .handingBack "second" (.generic 0) 0]

def showText : Signature where
  name := "show_text"
  parameters := [.taking "text" (.concrete .string)]

/-- The first copy of a value is shown as a text. -/
def shownCopy : Graph :=
  leaves (connect 1 3) (leaves (addNode rootScope (.functional showText) false)
    (leaves (addNode rootScope (.functional handBackCopies) false) empty))

/-- The first of two outputs that hand back what one input took is accepted as a text, although its
type parameter asks for a type that can be copied. -/
theorem not_accepts_shownCopy : shownCopy.Built ∧ shownCopy.Monomorphic ∧
    ∃ report after node carried, infer {} shownCopy = (.ok report, after) ∧
      report.isClean = true ∧ shownCopy.nodes[0]? = some node ∧
        node.kind = .functional handBackCopies ∧
          (node.assigned handBackCopies)[1]? = some (.handingBack "first" (.generic 0) 0, 1) ∧
            report.carried? 1 = some carried ∧
              ¬(DeclaredType.generic 0).Accepts handBackCopies.generics carried.type := by
  refine ⟨.connect (.addNode (.addNode .empty _ _) _ _) _ _, by decide +kernel, ?_⟩
  have hanswer : (infer {} shownCopy).1.toOption.any Report.isClean = true := by decide +kernel
  obtain ⟨report, hinfer, hclean⟩ := exists_report_of_isClean hanswer
  have htext : ((infer {} shownCopy).1.toOption.bind (·.carried? 1)).map (·.type) =
      some .string := by
    decide +kernel
  rw [hinfer] at htext
  obtain ⟨carried, hcarried, htype⟩ := Option.map_eq_some_iff.mp htext
  obtain ⟨node, hnode, hknown⟩ : ∃ node, shownCopy.nodes[0]? = some node ∧
      (node.kind, (node.assigned handBackCopies)[1]?) =
        (.functional handBackCopies, some (.handingBack "first" (.generic 0) 0, 1)) := by
    apply Option.map_eq_some_iff.mp
    decide +kernel
  obtain ⟨hkind, hassigned⟩ := Prod.mk.inj hknown
  refine ⟨report, _, node, carried, hinfer, hclean, hnode, hkind, hassigned, hcarried, ?_⟩
  rintro ⟨generic, hgeneric, hsatisfies⟩
  cases hgeneric
  rw [htype] at hsatisfies
  cases hsatisfies rfl .copy (List.mem_singleton_self _)

end Graph

end BorrowFlow
