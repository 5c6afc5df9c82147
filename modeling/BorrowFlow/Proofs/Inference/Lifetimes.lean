import BorrowFlow.Proofs.Inference.Constraints
import BorrowFlow.Proofs.Inference.Unveiling

/-!
# References report the lifetime of their group

If lifetime parameters occur at the outermost references of parameters only, then all references
with the lifetime parameter of a group share one lifetime, which is open until the group is decided.
So they report what the group decided on, whether they are members of the group or outputs that have
the lifetime parameter of its members, as long as no output is displaced by another one that hands
back what the same input took.
-/

namespace BorrowFlow

variable {g : Graph} {group : BorrowGroup} {port : PortId}

/-! ## Outputs that hand back what an input took -/

/-- No input is handed back by two outputs. -/
def Signature.PairsOnce (signature : Signature) : Prop :=
  ((signature.parameters.filter fun parameter => parameter.direction = .output).filterMap
    Parameter.pairsWith).Nodup

def NodeKind.PairsOnce : NodeKind → Prop
  | functional signature => signature.PairsOnce
  | _ => True

def Graph.PairsOnce (g : Graph) : Prop :=
  ∀ node ∈ g.nodes, node.kind.PairsOnce

instance (signature : Signature) : Decidable signature.PairsOnce :=
  inferInstanceAs (Decidable (List.Nodup _))

instance NodeKind.decidablePairsOnce : (kind : NodeKind) → Decidable kind.PairsOnce
  | functional signature => inferInstanceAs (Decidable signature.PairsOnce)
  | constant .. | explicitBorrow .. | terminateLifetime .. | drop | compound _ | border .. =>
    .isTrue trivial

instance (g : Graph) : Decidable g.PairsOnce :=
  inferInstanceAs (Decidable (∀ node ∈ g.nodes, node.kind.PairsOnce))

namespace Graph

variable {n : NodeId} {node : Node} {signature : Signature}

theorem Faces.isInput_iff {direction : Direction} {scope : ScopeId} {host : NodeId}
    (h : g.Faces direction scope host port) : g.IsInput port ↔ direction = .input := by
  obtain ⟨data, hd, rfl, -⟩ := h.port
  constructor
  · rintro ⟨found, hf, hdirection⟩
    cases hd.symm.trans hf
    exact hdirection
  · exact fun hdirection => ⟨data, hd, hdirection⟩

theorem PairsOnce.unique (h : g.PairsOnce) (hs : g.Seated) {input output output' : PortId}
    (hpairs : g.Pairs output input) (hpairs' : g.Pairs output' input)
    (houtput : ¬g.IsInput output) (houtput' : ¬g.IsInput output') : output = output' := by
  obtain ⟨n, node, signature, parameter, index, hnode, hk, hpair, hindex, hinput⟩ := hpairs
  obtain ⟨n', node', signature', parameter', index', hnode', hk', hpair', hindex', hinput'⟩ :=
    hpairs'
  have hat : ∀ {n : NodeId} {node : Node} {signature : Signature} {index : Nat},
      g.nodes[n]? = some node → ((node.assigned signature).map Prod.snd)[index]? = some input →
        g.IsAt n input := by
    intro n node signature index hnode hinput
    obtain ⟨pair, hpair, rfl⟩ := List.mem_map.mp (List.mem_of_getElem? hinput)
    exact hs.isAt hnode (Pass.mem_portsOn_of_assigned hpair)
  obtain rfl := (hat hnode hinput).unique (hat hnode' hinput')
  cases hnode.symm.trans hnode'
  cases hk.symm.trans hk'
  obtain rfl : index = index' := by
    refine (List.getElem?_inj ?_ (hs.nodup_assigned hnode hk)).mp (hinput.trans hinput'.symm)
    exact (List.getElem?_eq_some_iff.mp hinput).1
  have hdirection : ∀ {pair : Parameter × PortId}, pair ∈ node.assigned signature →
      ¬g.IsInput pair.2 → pair.1.direction = .output := by
    intro pair hm hnot
    obtain ⟨data, hd, hdirection⟩ := Pass.exists_port_of_assigned hs hnode hm
    cases hf : pair.1.direction with
    | input => exact absurd ⟨data, hd, hdirection.trans hf⟩ hnot
    | output => rfl
  -- two outputs that are paired with one position would show up twice in the signature
  have honce : signature.PairsOnce := by
    have hk' := h node (Array.mem_of_getElem? hnode)
    rwa [hk] at hk'
  have hapart : ((node.assigned signature).filter fun pair => pair.1.direction = .output).Pairwise
      fun pair pair' => ∀ index, pair.1.pairsWith = some index →
        pair'.1.pairsWith ≠ some index := by
    rw [Signature.PairsOnce, ← (hs.assigned_perm hnode hk).1, List.filter_map, List.filterMap_map,
      List.Nodup, List.pairwise_filterMap] at honce
    exact honce.imp fun hne index hindex hindex' => hne index hindex index hindex' rfl
  have hsymm : Std.Symm fun (pair pair' : Parameter × PortId) => ∀ index,
      pair.1.pairsWith = some index → pair'.1.pairsWith ≠ some index :=
    ⟨fun _ _ h index hindex hindex' => h index hindex' hindex⟩
  by_contra hne
  exact hapart.forall (List.mem_filter.mpr ⟨hpair, decide_eq_true (hdirection hpair houtput)⟩)
    (List.mem_filter.mpr ⟨hpair', decide_eq_true (hdirection hpair' houtput')⟩)
    (fun heq => hne (Prod.mk.inj heq).2) index hindex hindex'

end Graph

/-! ## The ports that share the lifetime of a group -/

/-- The ports at which a node sees references with the lifetime of a group: the members of the
group, and all ports whose parameters are references with the lifetime parameter of a member. -/
inductive BorrowGroup.Governs (group : BorrowGroup) (g : Graph) : PortId → Prop
  | member {member : GroupMember} (hmember : member ∈ group.members) :
    group.Governs g member.port
  | parameter {node : Node} {signature : Signature} {member : GroupMember}
    {taken given : Parameter × PortId} {index : Nat} {shared shared' : DeclaredMutability}
    (hnode : g.nodes[group.node]? = some node) (hkind : node.kind = .functional signature)
    (hmember : member ∈ group.members) (htaken : taken ∈ node.assigned signature)
    (hport : taken.2 = member.port)
    (hindex : taken.1.type.referenceLifetime? = some (index, shared))
    (hgiven : given ∈ node.assigned signature)
    (hindex' : given.1.type.referenceLifetime? = some (index, shared')) :
    group.Governs g given.2

theorem BorrowGroup.Governs.of_static_eq {other : BorrowGroup} (h : group.Governs g port)
    (hstatic : group.static = other.static) : other.Governs g port := by
  obtain ⟨hnode, -, hmembers, -⟩ := BorrowGroup.of_static_eq hstatic
  cases h with
  | member hmember => exact .member (hmembers ▸ hmember)
  | parameter hf hk hmember htaken hport hindex hgiven hindex' =>
    exact .parameter (hnode ▸ hf) hk (hmembers ▸ hmember) htaken hport hindex hgiven hindex'

namespace Context

variable {start ctx : Context} {d : Draft} {id : GroupId}

/-- What a node sees of the port is a reference with the lifetime of the group, and goes on to be
what the node sees of it. -/
structure Pledges (start : Context) (g : Graph) (group : BorrowGroup) (port : PortId)
    (facade : Facade) : Prop where
  faced : start.facades.get? port = some facade
  fixed : g.Fixes port facade
  reference : ∃ term shared underlying, (start.flows.get facade.nodeSide).term = some term ∧
    start.terms.probe term = .reference shared underlying group.lifetimeTerm

theorem pledges_member (hl : d.Lawful g) (hgroup : d.groups.groups[id]? = some group)
    {member : GroupMember} (hmember : member ∈ group.members) :
    ∃ nodeSide wireSide n parameter declared type,
      d.Has group.lifetimeTerm (.lifetime n parameter) ∧
        d.Bears nodeSide (.layer n member.port 0 (.reference declared parameter type)) ∧
          d.toContext.Pledges g group member.port (.referenceInput nodeSide wireSide id) := by
  obtain ⟨nodeSide, wireSide, hfacade⟩ := (hl.arranged.placed id group hgroup).takes member hmember
  cases hl.dresses _ _ hfacade with
  | common hnone => cases hnone
  | member _ hnode _ _ hid =>
    obtain ⟨data, hd, -, hlifetime⟩ := (hl.grouped ..).mp hid
    cases hgroup.symm.trans hd
    exact ⟨nodeSide, wireSide, _, _, _, _, hlifetime, hnode, hfacade, .inl rfl,
      hl.reference_of_bears hlifetime hnode⟩

/-- An input that is no member of a group shows the wires what its node sees, which is no reference
with a lifetime of a node. -/
theorem group?_isSome_of_input (hl : d.Lawful g) {facade : Facade} {n : NodeId} {p : PortId}
    {depth parameter : Nat} {declared : DeclaredMutability} {type : DeclaredType}
    (hfacade : d.facades.get? port = some facade) (hinput : g.IsInput port)
    (hnode : d.Bears facade.nodeSide (.layer n p depth (.reference declared parameter type))) :
    facade.group?.isSome = true := by
  by_contra hnone
  rw [Option.not_isSome_iff_eq_none] at hnone
  obtain ⟨data, hd, hdirection⟩ := hinput
  rw [hl.arranged.plain port data facade hd hdirection hfacade hnone] at hnode
  obtain ⟨role, hwire, hcommon⟩ := (hl.dresses port facade hfacade).wire_common
    ⟨data, hd, hdirection⟩
  cases hwire.unique hnode
  exact hcommon

theorem pledges_of_governs (hl : d.Lawful g)
    (hpresents : ∀ (n : NodeId) (node : Node), g.nodes[n]? = some node → d.Presents g n node)
    (hgroup : d.groups.groups[id]? = some group) (hgoverns : group.Governs g port) :
    ∃ facade, d.toContext.Pledges g group port facade := by
  cases hgoverns with
  | member hmember =>
    obtain ⟨_, _, _, _, _, _, -, -, hpledges⟩ := pledges_member hl hgroup hmember
    exact ⟨_, hpledges⟩
  | @parameter node signature member taken given index shared shared' hnode hk hmember htaken
      hport hindex hgiven hindex' =>
    obtain ⟨_, _, n, parameter, _, _, hlifetime, hshown, hpledges⟩ :=
      pledges_member hl hgroup hmember
    have hdeclares := ((hpresents group.node node hnode).signature signature hk).2
    -- the lifetime that the node has for the lifetime parameter is that of the group
    obtain ⟨_, htaken'⟩ := DeclaredType.exists_of_referenceLifetime? hindex
    obtain ⟨facade', hfacade', -, -, -, hshown'⟩ := hdeclares taken htaken
    rw [hport] at hfacade'
    cases hpledges.faced.symm.trans hfacade'
    rw [htaken'] at hshown'
    obtain ⟨rfl, -, -, heq⟩ := Role.layer.inj (hshown.unique hshown')
    obtain ⟨-, rfl, -⟩ := DeclaredType.reference.inj heq
    obtain ⟨_, hgiven'⟩ := DeclaredType.exists_of_referenceLifetime? hindex'
    obtain ⟨facade, hfacade, -, -, -, hsees⟩ := hdeclares given hgiven
    rw [hgiven'] at hsees
    refine ⟨facade, hfacade, ?_, hl.reference_of_bears hlifetime hsees⟩
    by_cases hinput : g.IsInput given.2
    · exact .inl (group?_isSome_of_input hl hfacade hinput hsees)
    · exact .inr ⟨⟨_, _, .parameter hnode hk hgiven rfl⟩, hinput⟩

theorem Pledges.lifetime_eq {facade : Facade} {decision : Decision}
    (h : start.Pledges g group port facade) (hext : start.terms.Extends ctx.terms)
    (hunveiled : ctx.Unveiled g start) (hrendered : ctx.Rendered)
    (hgroup : start.groups.groups[id]? = some group)
    (hdecision : ctx.groups.decisionOf? id = some decision) :
    (ctx.flows.get facade.nodeSide).lifetime = decision.lifetime := by
  obtain ⟨term, shared, underlying, ht, hp⟩ := h.reference
  rw [← hunveiled.kept port facade h.faced h.fixed] at ht
  rw [(hrendered _ term ht).2, TermStore.lifetimeOf, hext.reference hp]
  have hresolved := hunveiled.resolved id group decision hgroup hdecision
  simp only [TermStore.lifetimeValue, hresolved]

end Context

/-! ## What is reported -/

namespace Graph

theorem Built.unveiled {config : Config} {faced unified : Inference} (hb : g.Built)
    (hshallow : g.Shallow) (hfaced : Run.facePorts { config, graph := g } = .ok () faced)
    (hunified : Run.unifyWires faced = .ok () unified) :
    ∀ (id : GroupId) (group : BorrowGroup) (decision : Decision),
      unified.context.groups.groups[id]? = some group → group.decision = some decision →
        ∀ port, group.Governs g port → ∃ facade, unified.context.facades.get? port = some facade ∧
            (unified.context.flows.get facade.nodeSide).lifetime = decision.lifetime := by
  have hw := hb.wellFormed
  have hc := hb.consistent
  have hfaces : Yields (Pass.facePorts config g) {} fun _ ctx => ∃ d : Draft, d.toContext = ctx ∧
      d.Lawful g ∧ g.visitOrder = .ok d.order ∧ ∀ (n : NodeId) (node : Node),
        g.nodes[n]? = some node → d.Presents g n node :=
    (Pass.meets_facePorts hw hc hb.layered).mono
      (fun _ _ ⟨_, d, heq, hr, hord, hpresents⟩ => ⟨d, heq, hr.lawful, hord, hpresents⟩)
      fun _ _ _ => trivial
  obtain ⟨hgraph, d, heq, hl, hord, hpresents⟩ := (Run.ends_facePorts_of hfaces).of_eq_ok hfaced
  have hdrafted : faced.context.Drafted g := ⟨hw.seated, hshallow, d, heq, hl⟩
  have hstands : faced.context.Stands False g.Arranged := heq ▸ hl.stands False.elim
  have hord : g.visitOrder = .ok faced.context.order := heq ▸ hord
  have htally : faced.context.tally = (0, 0) :=
    congrArg Stats.tally ((Run.ends_facePorts_keeps
      (Pass.keeps_uncounted_facePorts config g)).of_eq_ok hfaced)
  subst hgraph
  obtain ⟨-, hdone, hrendered⟩ := (Run.ends_unifyWires hw hc hstands hord).of_eq_ok hunified
  obtain ⟨-, hunveiled⟩ := (Run.ends_unifyWires_of (Pass.ends_unifyWires_unveiled hw hc
    hb.layered hdrafted hstands hord htally)).of_eq_ok hunified
  intro id group decision hgroup hdecision port hgoverns
  obtain ⟨hg, done, hkept, -⟩ := hdone
  obtain ⟨data, hd, hstatic⟩ := hkept.kept.follows.exists_static hgroup
  obtain ⟨facade, hpledges⟩ := Context.pledges_of_governs hl hpresents (heq ▸ hd)
    (hgoverns.of_static_eq hstatic)
  rw [heq] at hpledges
  refine ⟨facade, hkept.kept.facades_eq ▸ hpledges.faced, ?_⟩
  apply hpledges.lifetime_eq hg.terms hunveiled hrendered hd
  rw [BorrowGroups.decisionOf?_of_get hgroup, hdecision]

/-- If lifetime parameters occur at the outermost references of parameters only, and no input is
handed back by two outputs, then all ports that a decided group governs report the lifetime that the
group decided on. -/
theorem Built.lifetime_eq_decided {graph after : Graph} {config : Config} {report : Report}
    (hbuilt : graph.Built) (hshallow : graph.Shallow) (hpairs : graph.PairsOnce)
    (hinfer : infer config graph = (.ok report, after)) :
    ∃ context, Inference.decided? config graph = some context ∧
      ∀ (id : GroupId) (group : BorrowGroup) (decision : Decision),
        context.groups.groups[id]? = some group → group.decision = some decision →
          ∀ port, group.Governs graph port → ∃ carried, report.carried? port = some carried ∧
            carried.lifetime = decision.lifetime := by
  have hs := hbuilt.wellFormed.seated
  obtain ⟨faced, unified, -, hfaced, hunified, -, hdecided, -⟩ := exists_of_infer_ok hinfer
  obtain ⟨context, state, hdecided', -, hconcluded, hrealized, rfl, rfl⟩ :=
    hbuilt.realized (False.elim : False → _) hinfer
  cases hdecided.symm.trans hdecided'
  refine ⟨unified.context, hdecided, fun id group decision hgroup hdecision port hgoverns => ?_⟩
  obtain ⟨facade, hfacade, hlifetime⟩ :=
    hbuilt.unveiled hshallow hfaced hunified id group decision hgroup hdecision port hgoverns
  refine ⟨(unified.context.flows.get facade.nodeSide).carried, ?_, hlifetime⟩
  by_cases hinput : graph.IsInput port
  · obtain ⟨data, hdata, hdirection⟩ := hinput
    refine hrealized.carried?_nodeSide hdata hfacade fun houtput => ?_
    cases hdirection.symm.trans houtput
  cases hgoverns with
  | member hmember =>
    have hfaces := (hconcluded.ready.placed id group hgroup).inputs _ hmember
    exact absurd (hfaces.isInput_iff.mpr rfl) hinput
  | @parameter node signature _ _ given _ _ _ hnode hkind _ _ _ _ hgiven =>
    obtain ⟨_, -, hdeclares⟩ := (hconcluded.presents _ node hnode).signature signature hkind
    obtain ⟨_, _, hfacade', hsuits, -⟩ := hdeclares given hgiven
    cases hfacade.symm.trans hfacade'
    rcases hrealized.carried?_of_assigned hconcluded hs hnode hkind hgiven hfacade hsuits with
      hcarried | ⟨input, other, hne, hgives, hgives', hrecords⟩
    · exact hcarried
    · have hother : ¬graph.IsInput other := by
        obtain ⟨_, closing, _, hclosing, hmember, -, houtput⟩ := hrecords
        have hfaces := (hconcluded.ready.placed _ closing hclosing).outputs _ hmember other houtput
        exact fun hinput => nomatch hfaces.isInput_iff.mp hinput
      exact absurd (hpairs.unique hs hgives' hgives hother hinput) hne

theorem governs_selected (hs : g.Seated) {selector choice other result : PortId}
    (hselects : (g.nodes[group.node]?).map (fun node =>
      (node.kind, (node.assigned .selectReference).map Prod.snd)) =
        some (.functional .selectReference, [selector, choice, other, result]))
    (hmember : { port := choice } ∈ group.members) : group.Governs g result := by
  obtain ⟨node, hnode, hknown⟩ := Option.map_eq_some_iff.mp hselects
  obtain ⟨hk, hports⟩ := Prod.mk.inj hknown
  have hassigned : node.assigned .selectReference =
      Signature.selectReference.parameters.zip [selector, choice, other, result] :=
    List.zip_of_prod (hs.assigned_perm hnode hk).1 hports
  have htaken : (Parameter.taking "true value" (.reference .polymorphic 1 (.generic 0)), choice) ∈
      node.assigned .selectReference := by
    rw [hassigned]
    simp [Signature.selectReference]
  have hgiven : (Parameter.giving "result" (.reference .polymorphic 1 (.generic 0)), result) ∈
      node.assigned .selectReference := by
    rw [hassigned]
    simp [Signature.selectReference]
  exact .parameter hnode hk hmember htaken rfl rfl hgiven rfl

/-- The result of the first selection reports the lifetime that is opened for its choices. The
second selection reuses it, so its result reports the same lifetime, and so does its choice without
a wire. -/
theorem lifetime_eq_decided_sharedSelection : sharedSelection.Shallow ∧ sharedSelection.PairsOnce ∧
    ∃ report after context opened reused,
      infer {} sharedSelection = (.ok report, after) ∧
        Inference.decided? {} sharedSelection = some context ∧
          context.groups.decisionOf? 1 = some (.borrow true opened) ∧
            (∃ carried, report.carried? 5 = some carried ∧ carried.lifetime = opened) ∧
              context.groups.decisionOf? 3 = some (.reuse reused) ∧
                (∃ carried, report.carried? 8 = some carried ∧ carried.lifetime = reused) ∧
                  ∃ carried, report.carried? 9 = some carried ∧ carried.lifetime = reused := by
  have hshallow : sharedSelection.Shallow := by decide +kernel
  have hpairs : sharedSelection.PairsOnce := by decide +kernel
  have hs := built_sharedSelection.wellFormed.seated
  have hanswer : (infer {} sharedSelection).1.toOption.any Report.isClean = true := by
    decide +kernel
  obtain ⟨report, hinfer, -⟩ := exists_report_of_isClean hanswer
  obtain ⟨context, hdecided, hreports⟩ :=
    built_sharedSelection.lifetime_eq_decided hshallow hpairs hinfer
  have hnodes : [2, 3].map (fun n => (sharedSelection.nodes[n]?).map fun node =>
      (node.kind, (node.assigned .selectReference).map Prod.snd)) =
      [some (.functional .selectReference, [2, 3, 4, 5]),
        some (.functional .selectReference, [6, 7, 8, 9])] := by
    decide +kernel
  simp only [List.map_cons, List.map_nil, List.cons.injEq, and_true] at hnodes
  obtain ⟨hselects, hselects'⟩ := hnodes
  have hgroups : (Inference.decided? {} sharedSelection).bind (fun context =>
      (context.groups.groups[1]?).bind fun first => (context.groups.groups[3]?).map fun second =>
        [(first.node, first.members, first.decision),
          (second.node, second.members, second.decision)]) =
      some [(2, [{ port := 3 }, { port := 4 }], some (.borrow true (.bounded ⟨0, 1⟩))),
        (3, [{ port := 7 }, { port := 8 }], some (.reuse (.bounded ⟨0, 1⟩)))] := by
    decide +kernel
  rw [hdecided, Option.bind_some, Option.bind_eq_some_iff] at hgroups
  obtain ⟨first, hfirst, hgroups⟩ := hgroups
  obtain ⟨second, hsecond, hgroups⟩ := Option.map_eq_some_iff.mp hgroups
  simp only [List.cons.injEq, Prod.mk.injEq, and_true] at hgroups
  obtain ⟨⟨hnode, hmembers, hopened⟩, hnode', hmembers', hreused⟩ := hgroups
  refine ⟨hshallow, hpairs, report, _, context, .bounded ⟨0, 1⟩, .bounded ⟨0, 1⟩, hinfer, hdecided,
    ?_, ?_, ?_, ?_, ?_⟩
  · rw [BorrowGroups.decisionOf?_of_get hfirst, hopened]
  · exact hreports 1 first _ hfirst hopened 5
      (governs_selected hs (hnode ▸ hselects) (by simp [hmembers]))
  · rw [BorrowGroups.decisionOf?_of_get hsecond, hreused]
  · have hunwired : { port := 8 } ∈ second.members := by simp [hmembers']
    exact hreports 3 second _ hsecond hreused 8 (.member hunwired)
  · exact hreports 3 second _ hsecond hreused 9
      (governs_selected hs (hnode' ▸ hselects') (by simp [hmembers']))

end Graph

end BorrowFlow
