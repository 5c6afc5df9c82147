import BorrowFlow.Proofs.Graph.Visits
import BorrowFlow.Proofs.Inference.Structures

/-!
# Which graphs get all their facades

Facing the ports fails if the graph has no order, if it has a node that ends lifetimes, or if a
signature is not valid, and in no other case. The fault is then one of the compiler. Otherwise
everything that was made can be noted down in a lawful draft, and every node shows what it declares.
-/

namespace BorrowFlow

variable {g : Graph} {n : NodeId} {config : Config} {ctx : Context} {node : Node} {d d' : Draft}

def NodeKind.Admitted : NodeKind → Prop
  | functional signature => signature.Valid
  | terminateLifetime .. => False
  | _ => True

namespace Draft

/-- What is known of the ports of a node because of what the node is. -/
structure Presents (d : Draft) (g : Graph) (n : NodeId) (node : Node) : Prop where
  signature : ∀ signature, node.kind = .functional signature →
    d.HasGenerics n signature.generics.length ∧ ∀ pair ∈ node.assigned signature,
      d.Declares ((node.assigned signature).map Prod.snd) n pair.1 pair.2
  borrows : ∀ owner mutable, node.kind = .border owner (.borrowTunnel mutable) →
    ∀ input ∈ node.inputs, ∃ f, d.facades.get? input = some (.simple f)
  returns : ∀ owner borrowTunnel,
    node.kind = .border owner (.terminateLifetimeTunnel borrowTunnel) →
      ∃ input facade, g.inputPort borrowTunnel 0 = .ok input ∧
        d.facades.get? input = some facade ∧
          ∀ output ∈ node.outputs, d.facades.get? output = some (.simple facade.wireSide)

theorem Presents.of_other {kind : NodeKind} (h : node.kind = kind)
    (hsignature : ∀ signature, kind ≠ .functional signature := by simp)
    (hborrows : ∀ owner mutable, kind ≠ .border owner (.borrowTunnel mutable) := by simp)
    (hreturns : ∀ owner tunnel, kind ≠ .border owner (.terminateLifetimeTunnel tunnel) := by simp) :
    d.Presents g n node :=
  ⟨fun signature hk => absurd (h.symm.trans hk) (hsignature signature),
    fun owner mutable hk => absurd (h.symm.trans hk) (hborrows owner mutable),
    fun owner tunnel hk => absurd (h.symm.trans hk) (hreturns owner tunnel)⟩

theorem Presents.of_grows {m : NodeId} (h : d.Presents g n node) (hg : Grows m d d') :
    d'.Presents g n node where
  signature signature hk := by
    obtain ⟨hgenerics, hdeclares⟩ := h.signature signature hk
    exact ⟨hgenerics.of_grows hg, fun pair hpair => (hdeclares pair hpair).of_grows hg⟩
  borrows owner mutable hk input hinput := by
    obtain ⟨f, hf⟩ := h.borrows owner mutable hk input hinput
    exact ⟨f, hg.facades _ _ hf⟩
  returns owner borrowTunnel hk := by
    obtain ⟨input, facade, hinput, hfacade, houtputs⟩ := h.returns owner borrowTunnel hk
    exact ⟨input, facade, hinput, hg.facades _ _ hfacade,
      fun output houtput => hg.facades _ _ (houtputs output houtput)⟩

theorem lawful_empty (g : Graph) (lifetimes : LifetimeForest) (order : List NodeId) :
    Lawful { lifetimes, order } g := by
  have ht : ∀ f t, ((({ lifetimes, order } : Draft).flows.get f).term) ≠ some t :=
    fun f t ht => absurd (FlowStore.lt_size_of_term ht) (Nat.not_lt_zero f)
  have hhas : ∀ t role, ¬({ lifetimes, order } : Draft).Has t role :=
    fun t role h => absurd h.1 (Nat.not_lt_zero t)
  refine ⟨TermStore.sound_empty, ?_, fun t hlt => absurd hlt (Nat.not_lt_zero t), ?_,
    fun f t h => absurd h (ht f t), ⟨?_, ?_, nofun⟩, ?_, nofun, nofun, nofun,
    ⟨nofun, nofun, nofun, nofun, nofun, nofun⟩⟩
  · exact fun t t' hsame => (Classes.same_iff _).mp hsame
  · exact fun f f' hsame => (Classes.same_iff _).mp hsame
  · exact fun n index t => ⟨nofun, fun h => absurd h (hhas _ _)⟩
  · exact fun n parameter t => ⟨nofun, fun h => absurd h (hhas _ _)⟩
  · exact fun n parameter id => ⟨nofun, fun ⟨_, hb, _⟩ => by cases hb⟩

end Draft

/-! ## One node -/

namespace Pass

variable {failed : Fault → Prop}

theorem length_inputs (hs : g.Seated) (hnode : g.nodes[n]? = some node) {owner : NodeId}
    {kind : BorderKind} (hborder : node.kind = .border owner kind) (hside : kind.side = .input) :
    node.inputs.length = 1 := by
  have hlen := hs.length_eq hnode .input
  simpa [Graph.faced, hborder, BorderKind.faced, hside, Node.portsOn] using hlen

section

variable (hw : g.WellFormed) (hnode : g.nodes[n]? = some node)
  (hbook : d.book n = { generics := [] })
  (hpartner : ∀ owner tunnel, node.kind = .border owner (.terminateLifetimeTunnel tunnel) →
    ∃ port facade, g.inputPort tunnel 0 = .ok port ∧ d.facades.get? port = some facade)
include hw hnode hbook hpartner

theorem lays_faceBorder {owner : NodeId} {kind : BorderKind} (hk : node.kind = .border owner kind) :
    Lays g n failed (faceBorder config g n node owner kind) d (node.inputs ++ node.outputs)
      fun _ d' => d'.Presents g n node := by
  have hs := hw.seated
  have hscope := hw.nested.scope_lt hnode
  have houtput : ∀ p ∈ node.outputs, ¬g.IsInput p := fun p hp => hs.not_isInput hnode hp
  have hundeclared : kind ≠ .iterateTunnel → ∀ direction, ∀ p ∈ node.portsOn direction,
      ¬g.IsDeclared p :=
    fun hkind direction p => hs.not_isDeclared hnode (by simp [hk]) fun owner hk' => by
      cases hk.symm.trans hk'
      exact absurd rfl hkind
  have hsole : kind.side = .input → ∃ q, node.inputs = [q] := fun hside =>
    List.length_eq_one_iff.mp (length_inputs hs hnode hk hside)
  cases kind with
  | inputTunnel =>
    obtain ⟨q, hq⟩ := hsole rfl
    exact (lays_faceInputTunnel (hundeclared nofun) houtput hq).mono fun _ _ _ _ _ => .of_other hk
  | outputTunnel =>
    obtain ⟨ownerNode, _, howner, -⟩ := hw.nested.attached hnode hk
    exact (lays_faceOutputTunnel (hundeclared nofun) houtput howner).mono
      fun _ _ _ _ _ => .of_other hk
  | borrowTunnel mutable =>
    obtain ⟨q, hq⟩ := hsole rfl
    apply (lays_faceBorrowTunnel (hundeclared nofun) houtput hq hscope).mono
    intro _ d' _ _ hinputs
    exact ⟨by simp [hk], fun _ _ _ => hinputs, by simp [hk]⟩
  | terminateLifetimeTunnel tunnel =>
    obtain ⟨port, facade, hport, hfacade⟩ := hpartner owner tunnel hk
    apply (lays_faceTerminateTunnel (hundeclared nofun) houtput hs hport hfacade).mono
    intro _ d' hg _ houtputs
    refine ⟨by simp [hk], by simp [hk], fun found tunnel hf => ?_⟩
    cases hk.symm.trans hf
    exact ⟨port, facade, hport, hg.facades _ _ hfacade, houtputs⟩
  | unwrapOptionTunnel | optionSelector =>
    obtain ⟨q, hq⟩ := hsole rfl
    exact (lays_faceUnwrapping (hundeclared nofun) houtput hq).mono fun _ _ _ _ _ => .of_other hk
  | loopCondition =>
    obtain ⟨q, hq⟩ := hsole rfl
    exact (lays_faceLoopCondition (hundeclared nofun) houtput hq hscope).mono fun _ _ _ _ _ =>
      .of_other hk
  | iterateTunnel =>
    obtain ⟨q, hq⟩ := hsole rfl
    have hout : ∀ p ∈ node.portsOn .output, ¬g.IsDeclared p := fun p =>
      hs.not_isDeclared hnode (by simp [hk]) fun _ _ => rfl
    exact (lays_faceIterateTunnel hw hnode hk hq hout houtput hbook).mono fun _ _ _ _ _ =>
      .of_other hk

variable (hfailed : ¬node.kind.Admitted → ∀ fault : Fault, fault.kind = .compiler → failed fault)
include hfailed

theorem lays_faceNode :
    Lays g n failed (faceNode config g n node) d (node.inputs ++ node.outputs)
      fun _ d' => node.kind.Admitted ∧ d'.Presents g n node := by
  have hs := hw.seated
  have hlen := hs.length_of_plain hnode
  have houtput : ∀ p ∈ node.outputs, ¬g.IsInput p := fun p hp => hs.not_isInput hnode hp
  have hundeclared : (∀ signature, node.kind ≠ .functional signature) →
      (∀ owner, node.kind ≠ .border owner .iterateTunnel) →
        ∀ direction, ∀ p ∈ node.portsOn direction, ¬g.IsDeclared p :=
    fun hfun hborder direction p => hs.not_isDeclared hnode hfun fun owner hk =>
      absurd hk (hborder owner)
  unfold faceNode
  cases hk : node.kind with
  | functional signature =>
    rw [hk] at hfailed
    apply (lays_faceFunctional hw hnode hk hbook hfailed).mono
    intro _ d' _ _ hdone
    refine ⟨hdone.1, fun found hf => ?_, by simp [hk], by simp [hk]⟩
    cases hk.symm.trans hf
    exact hdone.2
  | constant type mutable =>
    rw [hk] at hlen
    have hinputs : node.inputs = [] := List.length_eq_zero_iff.mp (hlen rfl .input)
    rw [hinputs]
    exact (lays_faceConstant (hundeclared (by simp [hk]) (by simp [hk]) .output) houtput).mono
      fun _ _ _ _ _ => ⟨trivial, .of_other hk⟩
  | explicitBorrow mutable count =>
    rw [hk] at hlen
    have hinputs : node.inputs.length = count := hlen rfl .input
    have houtputs : node.outputs.length = count := hlen rfl .output
    exact (lays_faceExplicitBorrow (hundeclared (by simp [hk]) (by simp [hk])) houtput
      (hw.nested.scope_lt hnode) (hinputs.trans houtputs.symm)).mono
        fun _ _ _ _ _ => ⟨trivial, .of_other hk⟩
  | terminateLifetime inputs outputs =>
    rw [hk] at hfailed
    exact .throw (hfailed (fun h => h) _ rfl)
  | drop =>
    rw [hk] at hlen
    have houtputs : node.outputs = [] := List.length_eq_zero_iff.mp (hlen rfl .output)
    obtain ⟨q, hq⟩ := List.length_eq_one_iff.mp (hlen rfl .input)
    rw [houtputs, List.append_nil]
    exact (lays_faceDrop (hundeclared (by simp [hk]) (by simp [hk])) hq).mono
      fun _ _ _ _ _ => ⟨trivial, .of_other hk⟩
  | compound kind =>
    rw [hk] at hlen
    have hinputs : node.inputs = [] := List.length_eq_zero_iff.mp (hlen rfl .input)
    have houtputs : node.outputs = [] := List.length_eq_zero_iff.mp (hlen rfl .output)
    rw [hinputs, houtputs]
    exact .pure ⟨trivial, .of_other hk⟩
  | border owner kind =>
    exact (lays_faceBorder hw hnode hbook hpartner hk).mono fun _ _ _ _ hpresents =>
      ⟨trivial, hpresents⟩

theorem lays_visitNode :
    Lays g n failed (visitNode config g n) d (node.inputs ++ node.outputs)
      fun _ d' => node.kind.Admitted ∧ d'.Presents g n node := by
  apply (Lays.lift (Graph.getNode_eq_ok.mpr hnode)).step
  rintro _ _ - ⟨rfl, rfl⟩
  apply (lays_faceNode hw hnode hbook hpartner hfailed).finish
  rintro _ d1 _ ⟨hadmitted, hpresents⟩
  exact lays_count.mono fun _ _ hg _ _ => ⟨hadmitted, hpresents.of_grows hg⟩

end

end Pass

/-! ## All nodes in turn -/

namespace Graph

def Accepted (g : Graph) : Prop :=
  (∃ order, g.visitOrder = .ok order) ∧ ∀ (n : NodeId) (node : Node),
    g.nodes[n]? = some node → node.kind.Admitted

def portsAt (g : Graph) (n : NodeId) : List PortId :=
  ((g.nodes[n]?).map fun node => node.inputs ++ node.outputs).getD []

theorem portsAt_eq {n : NodeId} (hnode : g.nodes[n]? = some node) :
    g.portsAt n = node.inputs ++ node.outputs := by
  rw [portsAt, hnode]
  rfl

theorem mem_portsAt {n : NodeId} {id : PortId} : id ∈ g.portsAt n ↔
      ∃ node direction, g.nodes[n]? = some node ∧ id ∈ node.portsOn direction := by
  constructor
  · intro hid
    cases hnode : g.nodes[n]? with
    | none => simp [portsAt, hnode] at hid
    | some node =>
      rw [portsAt_eq hnode, List.mem_append] at hid
      rcases hid with hid | hid
      · exact ⟨node, .input, rfl, hid⟩
      · exact ⟨node, .output, rfl, hid⟩
  · rintro ⟨node, direction, hnode, hid⟩
    rw [portsAt_eq hnode, List.mem_append]
    cases direction with
    | input => exact .inl hid
    | output => exact .inr hid

theorem Seated.nodup_portsAt (hs : g.Seated) (n : NodeId) : (g.portsAt n).Nodup := by
  cases hnode : g.nodes[n]? with
  | none => simp [portsAt, hnode]
  | some node =>
    rw [portsAt_eq hnode, List.nodup_append]
    refine ⟨hs.nodup_portsOn hnode .input, hs.nodup_portsOn hnode .output, ?_⟩
    rintro id hinput _ houtput rfl
    obtain ⟨index, hindex⟩ := List.mem_iff_getElem?.mp hinput
    obtain ⟨index', hindex'⟩ := List.mem_iff_getElem?.mp houtput
    cases (hs.unique .input .output hnode hnode hindex hindex').2.1

theorem WellFormed.awaits (hw : g.WellFormed) (hc : g.Consistent) (hl : g.Layered)
    {order : List NodeId} (hord : g.visitOrder = .ok order) {lifetimes : LifetimeForest}
    (hlifetimes : ∀ scope, scope < g.scopes.size → lifetimes.hasGraph scope = true) :
    g.Awaits (fun _ _ => True) (order.flatMap g.portsAt) { lifetimes, order } where
  nodup := by
    rw [List.nodup_flatMap]
    refine ⟨fun n _ => hw.seated.nodup_portsAt n, ?_⟩
    apply (hw.pairwise_visitOrder hc hl hord).imp
    intro n m hprecedes id hid hid'
    obtain ⟨node, direction, hnode, hid⟩ := mem_portsAt.mp hid
    obtain ⟨node', direction', hnode', hid'⟩ := mem_portsAt.mp hid'
    exact hprecedes.1 (hw.seated.node_unique direction direction' hnode hnode' hid hid')
  listed id hid := by
    obtain ⟨n, -, hid⟩ := List.mem_flatMap.mp hid
    obtain ⟨node, direction, hnode, hid⟩ := mem_portsAt.mp hid
    obtain ⟨index, hindex⟩ := List.mem_iff_getElem?.mp hid
    obtain ⟨port, hport, -⟩ := hw.seated.seat hnode hindex
    exact lt_size_of_port hport
  fresh _ _ := rfl
  known := nofun
  faced id hlt hid := by
    obtain ⟨node, hnode, hlisted⟩ := hw.seated.listed (Array.getElem?_eq_getElem hlt)
    refine absurd (List.mem_flatMap.mpr ⟨_, hw.mem_visitOrder hord hnode, ?_⟩) hid
    exact mem_portsAt.mpr ⟨node, _, hnode, List.mem_of_getElem? hlisted⟩
  sides := nofun
  typed := nofun
  lifetimes := hlifetimes
  kept := trivial

end Graph

namespace Pass

theorem exists_partner (hw : g.WellFormed) (hl : g.Layered)
    {rest : List NodeId} (hnode : g.nodes[n]? = some node)
    (hrest : ∀ m ∈ rest, g.MayPrecede n m)
    (hawaits : g.Awaits (fun _ _ => True) ((n :: rest).flatMap g.portsAt) ctx)
    {owner tunnel : NodeId} (hk : node.kind = .border owner (.terminateLifetimeTunnel tunnel)) :
    ∃ port facade, g.inputPort tunnel 0 = .ok port ∧ ctx.facades.get? port = some facade := by
  obtain ⟨data, mutable, hd, hdataKind⟩ := hl.partner hnode hk
  have hlen := hw.seated.length_eq hd .input
  simp only [Graph.faced, hdataKind, BorderKind.faced, BorderKind.side, if_pos] at hlen
  obtain ⟨port, hport⟩ := List.length_eq_one_iff.mp hlen
  have hmem : port ∈ data.portsOn .input := by simp [hport]
  have hfirst : data.inputs[0]? = some port := by
    have hinputs : data.inputs = [port] := hport
    rw [hinputs]
    rfl
  have hfirst' : (data.portsOn .input)[0]? = some port := hfirst
  obtain ⟨found, hf, -⟩ := hw.seated.seat hd hfirst'
  obtain ⟨facade, hfacade⟩ := hawaits.faced port (Graph.lt_size_of_port hf) (by
    intro htodo
    obtain ⟨m, hm, hid⟩ := List.mem_flatMap.mp htodo
    obtain ⟨other, direction, ho, hid⟩ := Graph.mem_portsAt.mp hid
    obtain rfl := hw.seated.node_unique .input direction hd ho hmem hid
    rcases List.mem_cons.mp hm with rfl | hm
    · cases hnode.symm.trans hd
      cases hk.symm.trans hdataKind
    · exact (hrest tunnel hm).2 node owner hnode hk)
  exact ⟨port, facade, Graph.inputPort_eq_ok.mpr ⟨data, hd, hfirst⟩, hfacade⟩

/-- All nodes that were visited are admitted and show what they declare. -/
structure Visited (g : Graph) (order rest : List NodeId) (d : Draft) : Prop where
  ready : d.Ready g (rest.flatMap g.portsAt)
  order_eq : d.order = order
  unused : ∀ n ∈ rest, d.book n = { generics := [] }
  presents : ∀ n ∈ order, n ∉ rest → ∀ node, g.nodes[n]? = some node →
    node.kind.Admitted ∧ d.Presents g n node

theorem meets_visitNodes (hw : g.WellFormed) (hc : g.Consistent) (hl : g.Layered)
    {order : List NodeId} (hord : g.visitOrder = .ok order) (h : Visited g order order d) :
    Meets (order.forM (visitNode config g)) d.toContext
      (fun _ ctx => g.Accepted ∧ ∃ d' : Draft, d'.toContext = ctx ∧ Visited g order [] d')
      fun fault _ => fault.kind = .compiler ∧ ¬g.Accepted := by
  apply Meets.forM fun rest ctx => rest.Pairwise g.MayPrecede ∧ (∀ n ∈ rest, n ∈ order) ∧
    ∃ d' : Draft, d'.toContext = ctx ∧ Visited g order rest d'
  · exact ⟨hw.pairwise_visitOrder hc hl hord, fun _ => id, d, rfl, h⟩
  · rintro n rest _ ⟨hpairwise, hsubset, d, rfl, hvisited⟩
    obtain ⟨hn, hrest⟩ := List.forall_mem_cons.mp hsubset
    obtain ⟨hfirst, hpairwise⟩ := List.pairwise_cons.mp hpairwise
    obtain ⟨node, hnode⟩ := hw.exists_of_mem_visitOrder hc hl hord hn
    obtain ⟨hbook, hunused⟩ := List.forall_mem_cons.mp hvisited.unused
    have hvisit : Lays g n (fun fault => fault.kind = .compiler ∧ ¬g.Accepted)
        (visitNode config g n) d (g.portsAt n)
        fun _ d' => node.kind.Admitted ∧ d'.Presents g n node := by
      rw [Graph.portsAt_eq hnode]
      apply lays_visitNode hw hnode hbook
      · exact fun owner tunnel hk => exists_partner hw hl hnode hfirst hvisited.ready.awaits hk
      · exact fun hrefused fault hfault =>
          ⟨hfault, fun haccepted => hrefused (haccepted.2 n node hnode)⟩
    apply (hvisit (rest.flatMap g.portsAt) hvisited.ready).mono ?_ fun _ _ hfailed => hfailed
    rintro _ _ ⟨d', rfl, hg, hr, hdone⟩
    refine ⟨hpairwise, hrest, d', rfl, hr, hg.order.trans hvisited.order_eq, fun m hm => ?_,
      fun m hm hnot found hf => ?_⟩
    · rw [hg.others m fun heq => (hfirst m hm).1 heq.symm, hunused m hm]
    · by_cases heq : m = n
      · subst heq
        cases hnode.symm.trans hf
        exact hdone
      · obtain ⟨hadmitted, hpresents⟩ := hvisited.presents m hm
          (fun hmem => (List.mem_cons.mp hmem).elim heq hnot) found hf
        exact ⟨hadmitted, hpresents.of_grows hg⟩
  · rintro _ ⟨-, -, d, rfl, hvisited⟩
    refine ⟨⟨⟨order, hord⟩, fun n node hnode => ?_⟩, d, rfl, hvisited⟩
    exact (hvisited.presents n (hw.mem_visitOrder hord hnode) nofun node hnode).1

/-! ## The whole pass -/

theorem establish_eq {forest : LifetimeForest} {scope : ScopeId} {parent : Option ScopeId}
    (hnew : forest.hasGraph scope = false)
    (hparent : ∀ outer, parent = some outer → forest.hasGraph outer = true) :
    ∃ place established, forest.establish scope parent = .ok (place, established) ∧
      ∀ other, established.hasGraph other = true ↔ other = scope ∨
        forest.hasGraph other = true := by
  have hgraph : ∃ parentGraph, parent.mapM forest.graphOf = .ok parentGraph := by
    cases parent with
    | none => exact ⟨none, rfl⟩
    | some outer =>
      obtain ⟨place, hplace⟩ := LifetimeForest.graphOf_of_hasGraph (hparent outer rfl)
      exact ⟨some place, by simp [Option.mapM_some, hplace]⟩
  obtain ⟨parentGraph, hparentGraph⟩ := hgraph
  unfold LifetimeForest.establish
  simp only [hnew, hparentGraph, bind, Except.bind]
  refine ⟨_, _, rfl, fun other => ?_⟩
  simp only [LifetimeForest.hasGraph, IdMap.contains, IdMap.get?_insert]
  split <;> simp [*]

theorem meets_establishScope (hl : g.Layered) {scope : ScopeId} (hscope : scope < g.scopes.size)
    (hbefore : ∀ other, ctx.lifetimes.hasGraph other = true ↔ other < scope) :
    Meets (establishScope g scope) ctx (fun _ ctx' => ∃ lifetimes, ctx' = { ctx with lifetimes } ∧
        ∀ other, lifetimes.hasGraph other = true ↔ other < scope + 1)
      fun _ _ => False := by
  have hf := Array.getElem?_eq_getElem hscope
  have hnew : ctx.lifetimes.hasGraph scope = false := by
    rw [Bool.eq_false_iff]
    exact fun h => Nat.lt_irrefl _ ((hbefore scope).mp h)
  obtain ⟨place, established, hestablish, hall⟩ := establish_eq hnew fun outer houter =>
    (hbefore outer).mpr (hl.parent hf houter)
  apply Meets.bind
  apply Meets.lift
  · intro data hd
    cases (Graph.getScope_eq_ok.mpr hf).symm.trans hd
    apply Meets.bind
    apply meets_ask
    · intro result hresult
      cases hestablish.symm.trans hresult
      refine ⟨established, rfl, fun other => ?_⟩
      rw [hall, hbefore, Nat.lt_succ_iff_lt_or_eq, or_comm]
    · intro fault hfault
      cases hestablish.symm.trans hfault
  · intro fault hfault
    cases (Graph.getScope_eq_ok.mpr hf).symm.trans hfault

theorem meets_establishScopes (hl : g.Layered) :
    Meets ((List.range g.scopes.size).forM (establishScope g)) {}
      (fun _ ctx => ∃ lifetimes, ctx = { lifetimes } ∧
        ∀ scope, scope < g.scopes.size → lifetimes.hasGraph scope = true)
      fun _ _ => False := by
  -- scopes are numbered, so the ones that are left are a range
  apply Meets.forM fun rest ctx => ∃ scope lifetimes, scope ≤ g.scopes.size ∧
    rest = List.range' scope (g.scopes.size - scope) ∧
      ctx = { lifetimes } ∧ ∀ other, lifetimes.hasGraph other = true ↔ other < scope
  · refine ⟨0, {}, Nat.zero_le _, List.range_eq_range', rfl, fun other => ?_⟩
    exact ⟨nofun, fun h => absurd h (Nat.not_lt_zero other)⟩
  · rintro item rest _ ⟨scope, lifetimes, hle, hrest, rfl, hbefore⟩
    have hlt : scope < g.scopes.size := by
      apply Nat.lt_of_le_of_ne hle
      rintro rfl
      simp at hrest
    have hsucc : g.scopes.size - scope = g.scopes.size - (scope + 1) + 1 := by omega
    rw [hsucc, List.range'_succ] at hrest
    obtain ⟨rfl, rfl⟩ := List.cons.inj hrest
    apply (meets_establishScope hl hlt hbefore).mono ?_ fun _ _ => id
    rintro _ _ ⟨lifetimes', rfl, hafter⟩
    exact ⟨item + 1, lifetimes', hlt, rfl, rfl, hafter⟩
  · rintro _ ⟨scope, lifetimes, hle, hrest, rfl, hall⟩
    refine ⟨lifetimes, rfl, fun other ho => (hall other).mpr ?_⟩
    have hlen := congrArg List.length hrest
    rw [List.length_nil, List.length_range'] at hlen
    omega

/-- Facing the ports of a well-formed graph leaves a lawful draft with an order of the nodes, in
which all ports have facades and every node shows what it declares. It fails only if the graph is
not accepted. -/
theorem meets_facePorts (hw : g.WellFormed) (hc : g.Consistent) (hl : g.Layered) :
    Meets (facePorts config g) {} (fun _ ctx => g.Accepted ∧ ∃ d : Draft, d.toContext = ctx ∧
        d.Ready g [] ∧ g.visitOrder = .ok d.order ∧ ∀ (n : NodeId) (node : Node),
          g.nodes[n]? = some node → d.Presents g n node)
      fun fault _ => fault.kind = .compiler ∧ ¬g.Accepted := by
  apply Meets.bind
  apply (meets_establishScopes hl).mono ?_ fun _ _ => False.elim
  rintro _ _ ⟨lifetimes, rfl, hlifetimes⟩
  apply Meets.bind
  apply Meets.lift
  · intro order hord
    have hstart : Visited g order order { lifetimes, order } :=
      ⟨⟨Draft.lawful_empty g lifetimes order, hw.awaits hc hl hord hlifetimes⟩, rfl, fun _ _ => rfl,
        fun n hn hnot => absurd hn hnot⟩
    apply (meets_visitNodes hw hc hl hord hstart).mono ?_ fun _ _ => id
    rintro _ _ ⟨haccepted, d, rfl, hvisited⟩
    refine ⟨haccepted, d, rfl, hvisited.ready, hvisited.order_eq ▸ hord, fun n node hnode => ?_⟩
    exact (hvisited.presents n (hw.mem_visitOrder hord hnode) nofun node hnode).2
  · intro fault hfault
    obtain ⟨scope, n, rfl⟩ := hw.of_visitOrder_eq_error hc hfault
    refine ⟨rfl, fun haccepted => ?_⟩
    obtain ⟨order, hord⟩ := haccepted.1
    cases hfault.symm.trans hord

end Pass

end BorrowFlow
