import BorrowFlow.Proofs.Inference.Operations

/-!
# Facing constants, borrows and structures

Nodes without a signature declare no types for their ports, but for tunnels that iterate, so any
port may show what is made for them. What the wires see of an input is seen of no other input.
Everything that these nodes need is there when they are faced: lifetimes of their scope, the
structure that a border belongs to, and the facade of the tunnel that a border hands back the value
of.
-/

namespace BorrowFlow

namespace Pass

open Draft (Grows)

variable {g : Graph} {n owner : NodeId} {p q : PortId} {f : FlowId} {t : TermId} {d : Draft}
  {role : Role} {node : Node} {config : Config} {mutable : Bool} {failed : Fault → Prop}
  {ports : List PortId}

theorem lays_pour {pass : Pass TermId} {next : TermId → FlowId → Pass PUnit}
    {last : PUnit → Draft → Prop} (keeper : PortId)
    (hpass : Lays g n failed pass d [] fun t d' => d'.Has t (.plain .type))
    (hnext : ∀ t f d', Grows n d d' → d'.Has t (.plain .type) → d'.Bears f (.plain .type) →
      d'.keeper f = keeper → Lays g n failed (next t f) d' ports last) :
    Lays g n failed (pass >>= fun t => newFlow mutable t >>= next t) d ports last := by
  apply hpass.step
  intro t d1 hg1 ht
  apply (lays_newFlow ht rfl keeper).step
  rintro f d2 hg2 ⟨hf, hkept, -⟩
  exact hnext t f d2 (hg1.trans hg2) (hg2.has _ _ ht) hf hkept

theorem lays_faceSimply (hundeclared : ¬g.IsDeclared p)
    (hf : d.Bears f role) (hcommon : role.IsCommon) (hkeeps : g.IsInput p → d.keeper f = p) :
    Lays g n failed (faceSimply p f) d [p] fun _ d' => d'.facades.get? p = some (.simple f) := by
  have hdress : d.Dresses g p (.simple f) := .common rfl nofun hf hcommon hf hcommon
  refine (lays_face hdress ?_ rfl nofun fun _ => rfl).mono fun _ _ _ _ hdone => hdone.1
  rintro _ (hinput | hnode | heq)
  · exact hkeeps hinput
  · exact absurd (hnode.resolve_left (by simp [Facade.group?])) hundeclared
  · cases heq

theorem lays_faceAll (hundeclared : ∀ p ∈ ports, ¬g.IsDeclared p)
    (hf : d.Bears f role) (hcommon : role.IsCommon)
    (hkeeps : ∀ p ∈ ports, g.IsInput p → d.keeper f = p) :
    Lays g n failed (ports.forM fun p => faceSimply p f) d ports fun _ d' =>
      ∀ p ∈ ports, d'.facades.get? p = some (.simple f) := by
  apply Lays.forPorts fun p d' => d'.facades.get? p = some (.simple f)
  · exact fun p _ _ hg hfacade => hg.facades p _ hfacade
  · intro p hp d' hg
    have ⟨_, ht, _⟩ := hf
    exact lays_faceSimply (hundeclared p hp) (hg.bears _ _ hf) hcommon
      fun hinput => (hg.flow f _ ht).2.trans (hkeeps p hp hinput)

theorem lays_faceConstant {type : DataType} (hundeclared : ∀ p ∈ node.outputs, ¬g.IsDeclared p)
    (houtput : ∀ p ∈ node.outputs, ¬g.IsInput p) :
    Lays g n failed (faceConstant config node type mutable) d node.outputs fun _ _ => True := by
  apply lays_pour 0 ((lays_newType type).mono fun _ _ _ _ hm => hm.has)
  intro t f d1 _ _ hf _
  apply Lays.forEach
  intro output ho d2 hg2
  apply (lays_faceSimply (hundeclared output ho) (hg2.bears _ _ hf) rfl
    fun hinput => absurd hinput (houtput output ho)).finish
  intro _ d3 _ _
  exact lays_checkFeatures.forget

section

theorem lays_newPlain : Lays g n failed newUnbound d [] fun t d' => d'.Has t (.plain .type) :=
  (lays_newUnbound (fun _ => .unbound) rfl).mono fun _ _ _ _ hm => hm.has

theorem lays_newReference {underlying lifetime : TermId}
    (hunderlying : d.Has underlying (.plain .type))
    (hlifetime : d.Has lifetime (.plain .lifetime)) :
    Lays g n failed (newTerm (·.newReference (.fixed mutable) underlying lifetime)) d []
      fun t d' => d'.Has t (.plain .type) :=
  (lays_push rfl (.reference hunderlying hlifetime) rfl).mono fun _ _ _ _ hm => hm.has

theorem lays_newConstructed {head : TypeConstructor} (ht : d.Has t (.plain .type)) :
    Lays g n failed (newTerm (·.newConstructed head t)) d [] fun t d' => d'.Has t (.plain .type) :=
  (lays_push rfl (.constructed ht) rfl).mono fun _ _ _ _ hm => hm.has

variable (hundeclared : ∀ direction, ∀ p ∈ node.portsOn direction, ¬g.IsDeclared p)
  (houtput : ∀ p ∈ node.outputs, ¬g.IsInput p)
include hundeclared houtput

theorem lays_faceOutputs (hf : d.Bears f role) (hcommon : role.IsCommon) :
    Lays g n failed (node.outputs.forM fun p => faceSimply p f) d node.outputs fun _ d' =>
      ∀ p ∈ node.outputs, d'.facades.get? p = some (.simple f) :=
  lays_faceAll (hundeclared .output) hf hcommon fun p hp hinput => absurd hinput (houtput p hp)

theorem lays_faceBorrowed {lifetime : Lifetime} {l : TermId} {input output : PortId}
    (hlifetime : d.Has l (.plain .lifetime)) (hin : input ∈ node.inputs)
    (hout : output ∈ node.outputs) :
    Lays g n failed (faceBorrowed mutable lifetime l input output) d [input, output]
      fun _ _ => True := by
  apply lays_pour input lays_newPlain
  intro underlying borrowed d1 hg1 hunderlying hf hkept
  apply (lays_faceSimply (hundeclared .input input hin) hf rfl fun _ => hkept).bind
  intro _ d2 hg2 _
  apply lays_pour 0
    (lays_newReference (hg2.has _ _ hunderlying) ((hg1.trans hg2).has _ _ hlifetime))
  intro reference flow d3 _ _ hf3 _
  apply (lays_faceSimply (hundeclared .output output hout) hf3 rfl
    fun hinput => absurd hinput (houtput output hout)).finish
  intro _ d4 _ _
  exact lays_interrupt

omit hundeclared houtput in
theorem perm_zip {inputs outputs : List PortId} (h : inputs.length = outputs.length) :
    (inputs ++ outputs).Perm ((inputs.zip outputs).flatMap fun pair => [pair.1, pair.2]) := by
  induction inputs generalizing outputs with
  | nil =>
    cases outputs with
    | nil => exact .nil
    | cons => cases h
  | cons input inputs ih =>
    cases outputs with
    | nil => cases h
    | cons output outputs =>
      apply List.Perm.cons
      exact List.perm_middle.trans ((ih (Nat.succ.inj h)).cons output)

theorem lays_faceExplicitBorrow (hscope : node.scope < g.scopes.size)
    (hlen : node.inputs.length = node.outputs.length) :
    Lays g n failed (faceExplicitBorrow node mutable) d (node.inputs ++ node.outputs)
      fun _ _ => True := by
  refine Lays.perm ?_ (perm_zip hlen)
  apply (lays_openLifetime hscope).step
  rintro ⟨lifetime, l⟩ d1 _ hlifetime
  refine (Lays.forM (fun pair : PortId × PortId => [pair.1, pair.2]) (fun _ _ => True)
    (fun _ _ _ _ => id) ?_).forget
  rintro ⟨input, output⟩ hpair d2 hg2
  have hm := List.of_mem_zip hpair
  exact lays_faceBorrowed hundeclared houtput (hg2.has _ _ hlifetime) hm.1 hm.2

theorem lays_faceOutputTunnel {ownerNode : Node} (howner : g.nodes[owner]? = some ownerNode) :
    Lays g n failed (faceOutputTunnel config g node owner) d (node.inputs ++ node.outputs)
      fun _ _ => True := by
  apply (Lays.lift (Graph.getNode_eq_ok.mpr howner)).step
  rintro _ _ - ⟨rfl, rfl⟩
  apply lays_newPlain.step
  intro value d1 _ hvalue
  refine (Lays.mapPorts (fun f d' => d'.Bears f (.plain .type)) ?_ ?_).bind ?_
  · exact fun _ _ _ hg hf => hg.bears _ _ hf
  · intro input hin d2 hg2
    apply (lays_newFlow (hg2.has _ _ hvalue) rfl input).step
    rintro f d3 _ ⟨hf, hkept, -⟩
    apply (lays_faceSimply (hundeclared .input input hin) hf rfl fun _ => hkept).finish
    intro _ d4 hg4 _
    exact .pure (hg4.bears _ _ hf)
  intro inner d2 hg2 hinner
  apply Lays.forEach
  intro output hout d3 hg3
  have hvalue3 := (hg2.trans hg3).has _ _ hvalue
  have hdeliver : ∀ delivered d', Grows n d3 d' → d'.Has delivered (.plain .type) →
      Lays g n failed (do
        let wireSide ← newFlow false delivered
        face output (.tunnel (inner.headD wireSide) wireSide)) d' [output] fun _ _ => True := by
    intro delivered d' hg hdelivered
    apply (lays_newFlow hdelivered rfl 0).step
    rintro wireSide d'' hg' ⟨hwireSide, -⟩
    have hnodeSide : d''.Bears (inner.headD wireSide) (.plain .type) := by
      cases inner with
      | nil => exact hwireSide
      | cons first rest =>
        exact ((hg3.trans hg).trans hg').bears _ _ (hinner first List.mem_cons_self)
    have hdress : d''.Dresses g output (.tunnel (inner.headD wireSide) wireSide) :=
      .common rfl nofun hnodeSide rfl hwireSide rfl
    refine (lays_face hdress ?_ rfl nofun fun hinput => absurd hinput (houtput output hout)).forget
    rintro _ (hinput | hnode | heq)
    · exact absurd hinput (houtput output hout)
    · exact absurd (hnode.resolve_left (by simp [Facade.group?])) (hundeclared .output output hout)
    · cases heq
  split
  · apply (lays_newConstructed hvalue3).step
    intro option d4 hg4 hoption
    apply lays_checkFeatures.step
    intro _ d5 hg5 _
    exact hdeliver option d5 (hg4.trans hg5) (hg5.has _ _ hoption)
  · exact hdeliver value d3 (.refl n d3) hvalue3

theorem lays_faceTerminateTunnel (hs : g.Seated) {borrowTunnel : NodeId} {input : PortId}
    {facade : Facade} (hport : g.inputPort borrowTunnel 0 = .ok input)
    (hfacade : d.facades.get? input = some facade) :
    Lays g n failed (faceTerminateTunnel g n node borrowTunnel) d (node.inputs ++ node.outputs)
      fun _ d' => ∀ output ∈ node.outputs,
        d'.facades.get? output = some (.simple facade.wireSide) := by
  apply Lays.of_lawful
  intro h
  have hinput : g.IsInput input := by
    obtain ⟨other, ho, hindex⟩ := Graph.inputPort_eq_ok.mp hport
    have hm : input ∈ other.portsOn .input := List.mem_of_getElem? hindex
    exact hs.isInput ho hm
  obtain ⟨role, hwireSide, hcommon⟩ := (h.dresses _ _ hfacade).wire_common hinput
  apply (Lays.lift hport).step
  rintro _ _ - ⟨rfl, rfl⟩
  apply Lays.get.step
  rintro _ _ - ⟨rfl, rfl⟩
  rw [hfacade]
  refine (Lays.forEach ?_).bind ?_
  · intro input hin d1 _
    apply lays_pour input lays_newPlain
    intro t f d2 _ _ hf hkept
    exact (lays_faceSimply (hundeclared .input input hin) hf rfl fun _ => hkept).forget
  · intro _ d1 hg1 _
    exact lays_faceOutputs hundeclared houtput (hg1.bears _ _ hwireSide) hcommon

variable (hq : node.inputs = [q])
include hq

omit houtput in
theorem lays_faceInputs (hf : d.Bears f role) (hcommon : role.IsCommon) (hkept : d.keeper f = q) :
    Lays g n failed (node.inputs.forM fun p => faceSimply p f) d node.inputs fun _ d' =>
      ∀ p ∈ node.inputs, d'.facades.get? p = some (.simple f) :=
  lays_faceAll (hundeclared .input) hf hcommon fun p hp _ => by
    rw [hq, List.mem_singleton] at hp
    rw [hkept, hp]

omit houtput in
theorem lays_faceDrop : Lays g n failed (faceDrop node) d node.inputs fun _ _ => True := by
  apply lays_pour q lays_newPlain
  intro t f d1 _ _ hf hkept
  exact (lays_faceInputs hundeclared hq hf rfl hkept).forget

theorem lays_faceInputTunnel :
    Lays g n failed (faceInputTunnel node) d (node.inputs ++ node.outputs) fun _ _ => True := by
  apply lays_pour q lays_newPlain
  intro t f d1 _ _ hf hkept
  rw [List.forM_eq_forM, List.forM_append]
  apply (lays_faceInputs hundeclared hq hf rfl hkept).bind
  intro _ d2 hg2 _
  exact (lays_faceOutputs hundeclared houtput (hg2.bears _ _ hf) rfl).forget

theorem lays_faceBorrowTunnel (hscope : node.scope < g.scopes.size) :
    Lays g n failed (faceBorrowTunnel node mutable) d (node.inputs ++ node.outputs) fun _ d' =>
      ∀ input ∈ node.inputs, ∃ f, d'.facades.get? input = some (.simple f) := by
  apply lays_pour q lays_newPlain
  intro underlying borrowed d1 _ hunderlying hf hkept
  apply (lays_faceInputs hundeclared hq hf rfl hkept).bind
  intro _ d2 hg2 hinputs
  apply (lays_openLifetime hscope).step
  rintro ⟨lifetime, l⟩ d3 hg3 hlifetime
  apply lays_pour 0 (lays_newReference ((hg2.trans hg3).has _ _ hunderlying) hlifetime)
  intro reference f d4 hg4 _ hf4 _
  apply (lays_faceOutputs hundeclared houtput hf4 rfl).finish
  intro _ d5 hg5 _
  apply lays_interrupt.mono
  intro _ d6 hg6 _ _ input hin
  have hg := ((hg3.trans hg4).trans hg5).trans hg6
  exact ⟨borrowed, hg.facades _ _ (hinputs input hin)⟩

theorem lays_faceUnwrapping :
    Lays g n failed (faceUnwrapping config node) d (node.inputs ++ node.outputs)
      fun _ _ => True := by
  apply lays_newPlain.step
  intro value d1 _ hvalue
  apply lays_pour q (lays_newConstructed hvalue)
  intro option outer d2 hg2 _ hf hkept
  refine (Lays.forEach ?_).bind ?_
  · intro input hin d3 hg3
    have ⟨_, ht, _⟩ := hf
    apply (lays_faceSimply (hundeclared .input input hin) (hg3.bears _ _ hf) rfl fun _ => ?_).finish
    · intro _ d4 _ _
      exact lays_checkFeatures.forget
    · rw [hq, List.mem_singleton] at hin
      rw [(hg3.flow _ _ ht).2, hkept, hin]
  · intro _ d3 hg3 _
    apply (lays_newFlow ((hg2.trans hg3).has _ _ hvalue) rfl 0).step
    rintro unwrapped d4 _ ⟨hf4, -⟩
    exact (lays_faceOutputs hundeclared houtput hf4 rfl).forget

theorem lays_faceLoopCondition (hscope : node.scope < g.scopes.size) :
    Lays g n failed (faceLoopCondition node) d (node.inputs ++ node.outputs) fun _ _ => True := by
  apply lays_pour q ((lays_newType .bool).mono fun _ _ _ _ hm => hm.has)
  intro condition outer d1 _ hcondition hf hkept
  apply (lays_faceInputs hundeclared hq hf rfl hkept).bind
  intro _ d2 hg2 _
  apply (lays_openLifetime hscope).step
  rintro ⟨_, l⟩ d3 hg3 hlifetime
  apply lays_pour 0 (lays_newReference ((hg2.trans hg3).has _ _ hcondition) hlifetime)
  intro reference inner d4 _ _ hf4 _
  exact (lays_faceOutputs hundeclared houtput hf4 rfl).forget

end

/-- A tunnel that iterates is an operation with one type parameter and one lifetime parameter. -/
theorem lays_faceIterateTunnel (hw : g.WellFormed) (hnode : g.nodes[n]? = some node)
    (hk : node.kind = .border owner .iterateTunnel) (hq : node.inputs = [q])
    (hundeclared : ∀ p ∈ node.outputs, ¬g.IsDeclared p) (houtput : ∀ p ∈ node.outputs, ¬g.IsInput p)
    (hbook : d.book n = { generics := [] }) :
    Lays g n failed (faceIterateTunnel config n node) d (node.inputs ++ node.outputs)
      fun _ _ => True := by
  apply Lays.of_lawful
  intro h
  have hm : q ∈ node.portsOn .input := show q ∈ node.inputs by simp [hq]
  have hasks := Graph.Asks.iterated hnode hk hm
  have hbounds : g.Bounds n 0 [] := fun other signature ho hf => by
    cases hnode.symm.trans ho
    cases hk.symm.trans hf
  have hlists : Role.Lists (Function.update d.book n { generics := [d.terms.size] })
      (d.HasWith (.generic n 0)) := by
    apply h.lists_update
    · intro index t
      rw [hbook, List.getElem?_singleton]
      grind
    · simp [hbook]
    · simp [hbook]
    · simp +contextual [eq_comm]
  apply (lays_list rfl (d.terms.adds_newUnbound _) (.generic hbounds) hlists (by rw [hbook])).step
  rintro item d1 _ ⟨-, hitem, hbook1⟩
  apply (lays_push rfl (.layerConstructed hasks.reference hitem) rfl).step
  intro iterator d2 hg2 hm2
  have hbook2 := (congrFun hm2.book n).trans hbook1
  have hnone2 : (d2.book n).lifetimes.get? 0 = none := by rw [hbook2]; rfl
  apply (lays_newLifetime hnone2).step
  rintro l d3 hg3 ⟨hlifetime, hbook3⟩
  have hshares : Role.Shares d3.Has n 0 .mutable (.fixed true) := ⟨by simp, rfl⟩
  apply (lays_push rfl (.layerReference hasks hshares (hg3.has _ _ hm2.has) hlifetime) rfl).step
  intro reference d4 hg4 hm4
  have hnone4 : (d4.book n).groups.get? 0 = none := by rw [hm4.book, hbook3, hbook2]; rfl
  have hinputOf : g.InputOf node.scope n q := by
    apply hw.inputOf hnode hm
    intro port hport
    obtain ⟨-, -, hfaced⟩ := hw.seated.of_mem hnode hm hport
    simpa [Graph.faced, hk, BorderKind.faced, BorderKind.side] using hfaced
  apply (lays_newGroup hnode (hg4.has _ _ hlifetime) hnone4).step
  intro group d5 hg5 hbook5
  have hgroup : (d5.book n).groups.get? 0 = some group := by rw [hbook5]; simp
  refine (Lays.forEach ?_).bind ?_
  · intro input hin' d6 hg6
    obtain rfl := List.mem_singleton.mp (hq ▸ hin')
    apply (lays_faceReference hnode hasks ((hg5.trans hg6).has _ _ hm4.has)
      (hg6.groups n 0 group hgroup) hinputOf).finish
    intro _ d7 _ _
    exact lays_checkFeatures.forget
  · intro _ d6 hg6 _
    have hg := (((hg2.trans hg3).trans hg4).trans hg5).trans hg6
    apply (lays_newFlow (hg.has _ _ hitem) rfl 0).step
    rintro element d7 _ ⟨hf7, -⟩
    exact (lays_faceAll hundeclared hf7 rfl fun p hp hinput => absurd hinput (houtput p hp)).forget

end Pass

end BorrowFlow
