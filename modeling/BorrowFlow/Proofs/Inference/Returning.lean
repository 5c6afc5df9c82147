import BorrowFlow.Proofs.Graph.Nesting
import BorrowFlow.Proofs.Inference.Atomicity
import BorrowFlow.Proofs.Inference.Pairing
import BorrowFlow.Proofs.Inference.Routing
import BorrowFlow.Proofs.Inference.Soundness

/-!
# A borrow hands back what it took

A group that borrows and hands its references back gets a borrow node and a node that ends the
borrow. When its wires were unified, what the wires see of an output that hands back was made one
with what they see of the member that was lent its value. So at each index the second node gives
back the value that the first one took: one flow, with one type, one mutability and one lifetime.
The same holds of the tunnels that begin and end a borrow at the border of a structure.
-/

namespace BorrowFlow

variable {config : Config} {ws : Workspace} {g : Graph} {ctx : Context} {fixed : Prop}

/-! ## Groups are apart -/

namespace Context

def returnedIn (ctx : Context) (g : Graph) : List PortId :=
  ctx.groups.groups.toList.flatMap (·.returnedIn g)

theorem Ready.exists_placed (h : ctx.Ready fixed g) :
    ∀ group ∈ ctx.groups.groups.toList, ∃ id, group.Placed g ctx.facades id := by
  intro group hgroup
  obtain ⟨id, hid⟩ := Array.mem_iff_getElem?.mp (Array.mem_toList_iff.mp hgroup)
  exact ⟨id, h.placed id group hid⟩

theorem Ready.pairwise_apart (h : ctx.Ready fixed g) :
    ctx.groups.groups.toList.Pairwise (BorrowGroup.Apart g) := by
  apply (List.nodup_flatMap.mp h.nodup_borrowedIn).2.imp_of_mem
  intro group other hgroup ho hdisjoint
  refine ⟨fun port hport hport' => hdisjoint hport hport', fun port hport hport' => ?_⟩
  -- an output names the input that it closes, and no input is a member of both
  obtain ⟨_, hplaced⟩ := h.exists_placed group hgroup
  obtain ⟨_, hplaced'⟩ := h.exists_placed other ho
  obtain ⟨member, hmember, houtput, hborrowed⟩ := BorrowGroup.exists_of_mem_returnedIn hport
  obtain ⟨member', hmember', houtput', hborrowed'⟩ := BorrowGroup.exists_of_mem_returnedIn hport'
  obtain ⟨_, _, hcloses⟩ := hplaced.closes member (List.mem_filter.mp hmember).1 port houtput
  obtain ⟨_, _, hcloses'⟩ := hplaced'.closes member' (List.mem_filter.mp hmember').1 port houtput'
  obtain ⟨-, -, hsame⟩ :=
    Facade.terminationOutput.inj (Option.some.inj (hcloses.symm.trans hcloses'))
  exact hdisjoint hborrowed (hsame ▸ hborrowed')

theorem Ready.exists_fits (h : ctx.Ready fixed g) :
    ∀ group ∈ ctx.groups.groups.toList, ∃ host, group.Fits g host := by
  intro group hgroup
  obtain ⟨_, hplaced⟩ := h.exists_placed group hgroup
  exact ⟨_, hplaced.fits⟩

theorem Ready.exists_facade (h : ctx.Ready fixed g) : ∀ group ∈ ctx.groups.groups.toList, ∀ port,
      port ∈ group.borrowedIn g ∨ port ∈ group.returnedIn g →
        ∃ facade, ctx.facades.get? port = some facade := by
  intro group hgroup port hport
  obtain ⟨_, hplaced⟩ := h.exists_placed group hgroup
  rcases hport with hborrowed | hreturned
  · obtain ⟨member, hmember, rfl⟩ := BorrowGroup.exists_of_mem_borrowedIn hborrowed
    obtain ⟨_, _, hfacade⟩ := hplaced.takes member (List.mem_filter.mp hmember).1
    exact ⟨_, hfacade⟩
  · obtain ⟨member, hmember, houtput, -⟩ := BorrowGroup.exists_of_mem_returnedIn hreturned
    obtain ⟨_, _, hfacade⟩ := hplaced.closes member (List.mem_filter.mp hmember).1 port houtput
    exact ⟨_, hfacade⟩

/-- What was decided has been made explicit in a graph. -/
structure Realized (g : Graph) (ctx : Context) (ws : Workspace) : Prop where
  refined : g.Refined ws.graph
  spares : Insertion.Spares (ctx.borrowedIn g) (ctx.returnedIn g) { graph := g, context := ctx } ws
  explicit : ∀ (id : GroupId) (group : BorrowGroup) (mutable : Bool) (lifetime : Lifetime),
    ctx.groups.groups[id]? = some group → group.decision = some (.borrow mutable lifetime) →
      Insertion.Explicit g ctx.facades mutable (group.wiredIn g) ws
  borrows : ∀ {n : NodeId} {node : Node} {mutable : Bool} {count : Nat}, g.nodes.size ≤ n →
    ws.graph.nodes[n]? = some node → node.kind = .explicitBorrow mutable count →
      ∃ group ∈ ctx.groups.groups.toList, Insertion.Feeds ws.graph node (group.borrowedIn g)

end Context

theorem Run.ends_insertBorrows_realized {state : Inference} {order : List NodeId}
    (hw : state.graph.WellFormed) (hc : state.graph.Consistent)
    (hord : state.graph.visitOrder = .ok order) (hready : state.context.Ready fixed state.graph) :
    Yields insertBorrows state fun _ state' => state.context.Realized state.graph
        { graph := state'.graph, context := state'.context } := by
  apply Ends.bind
  apply ends_require ?_ trivial
  apply Ends.bind
  apply ends_changing
  refine Ends.mono (Insertion.ends_insertBorrows_explicit hc state.config rfl hready.exists_fits
    hready.pairwise_apart hready.exists_facade ⟨.refl hw hc, hw.exists_ranks hc hord⟩ rfl) ?_
      fun _ => id
  rintro _ ws ⟨hunderway, hexplicit⟩
  refine ends_enter ⟨hunderway.refined, hunderway.spares, ?_, fun hbase hnode hk => ?_⟩
  swap
  · obtain ⟨group, hgroup, hfeeds, -⟩ := hunderway.borrows hbase hnode hk
    exact ⟨group, hgroup, hfeeds⟩
  intro id group mutable lifetime hgroup
  exact hexplicit group (Array.mem_toList_iff.mpr (Array.mem_of_getElem? hgroup)) mutable lifetime

/-! ## Reports -/

theorem Context.carried?_of_facade {port : PortId} {data : Port} {facade : Facade}
    (hport : g.ports[port]? = some data) (hfacade : ctx.facades.get? port = some facade) :
    (ctx.report g).carried? port =
      some (ctx.flows.get (facade.reported data.direction)).carried := by
  rw [Context.carried?_report]
  simp [Context.carried?, Context.reportedFlow?, hport, hfacade]

theorem Context.carried?_of_simple {port : PortId} {data : Port} {flow : FlowId}
    (hport : g.ports[port]? = some data)
    (hfacade : ctx.facades.get? port = some (.simple flow)) :
    (ctx.report g).carried? port = some (ctx.flows.get flow).carried := by
  rw [Context.carried?_of_facade hport hfacade]
  cases data.direction <;> rfl

/-- An inference that ends with a report has run every pass, and reports what it knows then. -/
theorem exists_of_infer_ok {after : Graph} {report : Report}
    (hinfer : infer config g = (.ok report, after)) :
    ∃ faced unified inserted, Run.facePorts { config, graph := g } = .ok () faced ∧
      Run.unifyWires faced = .ok () unified ∧ Run.insertBorrows unified = .ok () inserted ∧
        Inference.decided? config g = some unified.context ∧ unified.config = config ∧
          Run.all { config, graph := g } = .ok report inserted ∧ inserted.graph = after ∧
            inserted.context.report after = report := by
  unfold infer at hinfer
  split at hinfer
  swap
  · cases hinfer
  rename_i found state hrun
  cases hinfer
  obtain ⟨_, unified, hdecided, hrest⟩ := exists_of_bind_eq_ok (Run.all_eq ▸ hrun)
  have hcontext : Inference.decided? config g = some unified.context := by
    rw [Inference.decided?, hdecided]
  obtain ⟨-, -, hconfig⟩ := Run.ends_decideGroups.of_eq_ok hdecided
  unfold Run.decideGroups at hdecided
  obtain ⟨_, faced, hfaced, hunified⟩ := exists_of_bind_eq_ok hdecided
  obtain ⟨_, inserted, hinserted, hreport⟩ := exists_of_bind_eq_ok hrest
  have hreported : Yields Run.report inserted fun report state => state = inserted ∧
      report = inserted.context.report inserted.graph :=
    Run.ends_report ⟨rfl, rfl⟩ trivial
  obtain ⟨rfl, rfl⟩ := hreported.of_eq_ok hreport
  exact ⟨faced, unified, state, hfaced, hunified, hinserted, hcontext, hconfig, hrun, rfl, rfl⟩

theorem Graph.Built.realized_of_eq_ok (hb : g.Built) {faced unified state : Inference}
    (hfaced : Run.facePorts { config, graph := g } = .ok () faced)
    (hunified : Run.unifyWires faced = .ok () unified)
    (hinserted : Run.insertBorrows unified = .ok () state) :
    unified.context.Realized g { graph := state.graph, context := state.context } := by
  have hw := hb.wellFormed
  have hc := hb.consistent
  obtain ⟨-, -, hord, -⟩ :=
    (Run.ends_facePorts hw hc hb.layered (False.elim : False → _)).of_eq_ok hfaced
  obtain ⟨rfl, hconcluded⟩ := hb.concluded (False.elim : False → _) hfaced hunified
  exact (Run.ends_insertBorrows_realized hw hc hord hconcluded.ready).of_eq_ok hinserted

/-- A run that ends with a report has decided every group and made the borrows explicit. -/
theorem Graph.Built.realized {after : Graph} {report : Report}
    (hb : g.Built) (hmono : fixed → g.Monomorphic)
    (hinfer : infer config g = (.ok report, after)) :
    ∃ ctx state, Inference.decided? config g = some ctx ∧
      Run.all { config, graph := g } = .ok report state ∧ ctx.Concluded fixed g ∧
        ctx.Realized g { graph := state.graph, context := state.context } ∧
          state.graph = after ∧ state.context.report after = report := by
  obtain ⟨faced, unified, state, hfaced, hunified, hinserted, hcontext, -, hrun, hafter, hreport⟩ :=
    exists_of_infer_ok hinfer
  exact ⟨unified.context, state, hcontext, hrun, (hb.concluded hmono hfaced hunified).2,
    hb.realized_of_eq_ok hfaced hunified hinserted, hafter, hreport⟩

/-! ## Borrow nodes and the nodes that end the borrow -/

/-- At one index, what feeds an input goes through the one node, what an output hands back goes
through the other, and the other gives back the very value that the one took. -/
structure Report.Returns (report : Report) (g : Graph) (borrow terminate : NodeId)
    (index : Nat) (input output : PortId) : Prop where
  lent : ∃ through, g.outputPort borrow index = .ok through ∧ g.sourceOf input = .ok (some through)
  ended : ∃ through, g.inputPort terminate index = .ok through ∧
    g.sourceOf through = .ok (some output)
  same : ∃ taken given carried, g.inputPort borrow index = .ok taken ∧
    g.outputPort terminate index = .ok given ∧
      report.carried? taken = some carried ∧ report.carried? given = some carried

theorem Graph.Consistent.sourceOf_of_mem (h : g.Consistent) {source sink : PortId}
    (hsink : sink ∈ g.sinksAt source) : g.sourceOf sink = .ok (some source) := by
  obtain ⟨_, data, -, hd, -⟩ := h.ends hsink
  rw [h.sourceOf_eq hd, h.mem_sinksAt_iff.mp hsink]

namespace Insertion

variable {before : Graph} {n : NodeId} {index : Nat} {taken given : FlowId} {input output : PortId}

theorem Adds.inserted {kind : NodeKind} (h : Adds before kind n g) (hwoven : before.Woven g) :
    (g.nodes[n]?).map (fun node => (node.inserted, node.kind)) = some (true, kind) := by
  obtain ⟨hbase, node, hnode, rfl⟩ := h
  rw [hnode, Option.map_some, (hwoven.added hbase hnode).1]

theorem Through.ports (h : Through before ws n index taken given input output) :
    ws.graph.inputPort n index = .ok input ∧ ws.graph.outputPort n index = .ok output := by
  obtain ⟨node, hnode, hinput, houtput⟩ := h.passes
  exact ⟨Graph.inputPort_eq_ok.mpr ⟨node, hnode, hinput⟩,
    Graph.outputPort_eq_ok.mpr ⟨node, hnode, houtput⟩⟩

theorem Through.carried (h : Through before ws n index taken given input output)
    (hwoven : before.Woven ws.graph) :
    (ws.context.report ws.graph).carried? input = some (ws.context.flows.get taken).carried ∧
      (ws.context.report ws.graph).carried? output =
        some (ws.context.flows.get given).carried := by
  obtain ⟨⟨data, hd, -⟩, data', hd', -⟩ := h.passes.directions hwoven.wellFormed.seated
  exact ⟨Context.carried?_of_simple hd h.taken, Context.carried?_of_simple hd' h.given⟩

end Insertion

namespace Context

theorem Realized.returns (h : ctx.Realized g ws)
    (hconcluded : ctx.Concluded fixed g) {id : GroupId} {group : BorrowGroup}
    {mutable : Bool} {lifetime : Lifetime} (hgroup : ctx.groups.groups[id]? = some group)
    (hdecision : group.decision = some (.borrow mutable lifetime))
    (hsome : ∃ member ∈ group.wiredIn g, member.pairedOutput ≠ none) :
    ∃ borrow terminate, Insertion.Adds g (.explicitBorrow mutable (group.wiredIn g).length) borrow
          ws.graph ∧
        Insertion.Adds g (.terminateLifetime (group.wiredIn g).length
          (group.wiredIn g).length) terminate ws.graph ∧
          ∀ (index : Nat) (member : GroupMember), (group.wiredIn g)[index]? = some member →
            ∃ output, member.pairedOutput = some output ∧
              (ws.context.report ws.graph).Returns ws.graph borrow terminate
                index member.port output := by
  have hwoven := h.refined.woven
  have hexplicit := h.explicit id group mutable lifetime hgroup hdecision
  obtain ⟨member, hmember, hpaired⟩ := hsome
  have hne : (group.wiredIn g).filterMap GroupMember.pairedOutput ≠ [] := by
    obtain ⟨output, houtput⟩ := Option.ne_none_iff_exists'.mp hpaired
    exact List.ne_nil_of_mem (List.mem_filterMap.mpr ⟨member, hmember, houtput⟩)
  obtain ⟨borrow, hborrow, hlent⟩ := hexplicit.lent (List.ne_nil_of_mem hmember)
  obtain ⟨terminate, hterminate, hended⟩ := hexplicit.ended hne
  rw [hexplicit.even hne] at hterminate
  refine ⟨borrow, terminate, hborrow, hterminate, fun index member hmember => ?_⟩
  obtain ⟨output, houtput, hindex⟩ :=
    Insertion.exists_pairedOutput (hexplicit.even hne) hmember
  obtain ⟨supplied, hsupplied, taken, lent, hlentBy, hfed⟩ := hlent index member hmember
  obtain ⟨facade, hfacade, -, ended, given, hendedBy, hfed'⟩ := hended index output hindex
  -- the wires see one flow of the output and of the member
  obtain ⟨hm, hwired⟩ := List.mem_filter.mp (List.mem_of_getElem? hmember)
  have hback := hconcluded.handsBack id group hgroup member hm output houtput
  obtain ⟨facade', supplied', hfacade', hsupplied', hsame⟩ :=
    hback.lent (by rw [hdecision]; rfl) hwired
  cases hfacade.symm.trans hfacade'
  cases hsupplied.symm.trans hsupplied'
  refine ⟨output, houtput, ⟨lent, hlentBy.ports.2, hwoven.consistent.sourceOf_of_mem hfed⟩,
    ⟨ended, hendedBy.ports.1, hwoven.consistent.sourceOf_of_mem hfed'⟩, taken, given, _,
    hlentBy.ports.1, hendedBy.ports.2, (hlentBy.carried hwoven).1, ?_⟩
  rw [(hendedBy.carried hwoven).2, h.spares.flows]
  exact congrArg (fun flow => some flow.carried) (FlowStore.get_of_same hsame)

theorem Realized.tunnel_returns (h : ctx.Realized g ws)
    (hconcluded : ctx.Concluded fixed g) (hl : g.Layered) {n owner tunnel : NodeId}
    {node : Node} (hnode : ws.graph.nodes[n]? = some node)
    (hk : node.kind = .border owner (.terminateLifetimeTunnel tunnel)) :
    ∃ input output carried, ws.graph.inputPort tunnel 0 = .ok input ∧
      ws.graph.outputPort n 0 = .ok output ∧
        (ws.context.report ws.graph).carried? input = some carried ∧
          (ws.context.report ws.graph).carried? output = some carried := by
  have hwoven := h.refined.woven
  have hkeeps := hwoven.keeps
  have hseated := hwoven.original.seated
  have hnode' : g.nodes[n]? = some node := by
    by_cases hn : n < g.nodes.size
    · have hf := hkeeps.node (Array.getElem?_eq_getElem hn)
      rw [Array.getElem?_eq_getElem hn, ← hf, hnode]
    · obtain ⟨-, hadded⟩ := hwoven.added (Nat.le_of_not_lt hn) hnode
      rw [hk] at hadded
      cases hadded
  obtain ⟨input, facade, hinput, hfacade, houtputs⟩ :=
    (hconcluded.presents n node hnode').returns owner tunnel hk
  -- the tunnel that began the borrow shows one flow on both sides
  obtain ⟨data, mutable, hd, hdataKind⟩ := hl.partner hnode' hk
  obtain ⟨found, hf, hindex⟩ := Graph.inputPort_eq_ok.mp hinput
  cases hd.symm.trans hf
  obtain ⟨flow, hflow⟩ := (hconcluded.presents tunnel data hd).borrows owner mutable hdataKind
    input (List.mem_of_getElem? hindex)
  cases hfacade.symm.trans hflow
  have hlen := hseated.length_eq hnode' .output
  simp only [Graph.faced, hk, BorderKind.faced, BorderKind.side] at hlen
  obtain ⟨output, houtput⟩ : ∃ output, (node.portsOn .output)[0]? = some output := by
    refine ⟨_, List.getElem?_eq_getElem ?_⟩
    rw [hlen]
    exact Nat.zero_lt_one
  have hindex' : (data.portsOn .input)[0]? = some input := hindex
  obtain ⟨inputPort, hinputPort, -⟩ := hseated.seat hd hindex'
  obtain ⟨outputPort, houtputPort, -⟩ := hseated.seat hnode' houtput
  obtain ⟨_, hinputPort'⟩ := hkeeps.port hinputPort
  obtain ⟨_, houtputPort'⟩ := hkeeps.port houtputPort
  have hshows := houtputs output (List.mem_of_getElem? houtput)
  refine ⟨input, output, _, Graph.inputPort_eq_ok.mpr ⟨data, hkeeps.node hd, hindex⟩,
    Graph.outputPort_eq_ok.mpr ⟨node, hnode, houtput⟩,
    carried?_of_simple hinputPort' (h.spares.get?_simple hflow),
    carried?_of_simple houtputPort' (h.spares.get?_simple hshows)⟩

end Context

namespace Graph

/-- If inference ends with a report, then a group that borrows and hands back has a borrow node in
front of its wired members and a node that ends the borrow behind the outputs paired with them, and
at each index the second gives back the value that the first took. So does every tunnel that ends
the borrow of another one. -/
theorem Built.borrows_return {graph after : Graph} {config : Config} {report : Report}
    (hbuilt : graph.Built) (hinfer : infer config graph = (.ok report, after)) :
    ∃ context, Inference.decided? config graph = some context ∧
      (∀ (id : GroupId) (group : BorrowGroup) (mutable : Bool) (lifetime : Lifetime),
        context.groups.groups[id]? = some group →
          group.decision = some (.borrow mutable lifetime) →
            (∃ member ∈ group.wiredIn graph, member.pairedOutput ≠ none) →
              ∃ borrow terminate,
                (after.nodes[borrow]?).map (fun node => (node.inserted, node.kind)) =
                    some (true, .explicitBorrow mutable (group.wiredIn graph).length) ∧
                  (after.nodes[terminate]?).map (fun node => (node.inserted, node.kind)) =
                      some (true, .terminateLifetime (group.wiredIn graph).length
                        (group.wiredIn graph).length) ∧
                    ∀ (index : Nat) (member : GroupMember),
                      (group.wiredIn graph)[index]? = some member →
                        ∃ output, member.pairedOutput = some output ∧
                          report.Returns after borrow terminate index member.port output) ∧
      ∀ (n owner tunnel : NodeId) (node : Node), after.nodes[n]? = some node →
        node.kind = .border owner (.terminateLifetimeTunnel tunnel) →
          ∃ input output carried, after.inputPort tunnel 0 = .ok input ∧
            after.outputPort n 0 = .ok output ∧
              report.carried? input = some carried ∧ report.carried? output = some carried := by
  obtain ⟨context, state, hdecided, -, hconcluded, hrealized, rfl, rfl⟩ :=
    hbuilt.realized (False.elim : False → _) hinfer
  refine ⟨context, hdecided, ?_, ?_⟩
  · intro id group mutable lifetime hgroup hdecision hsome
    obtain ⟨borrow, terminate, hborrow, hterminate, hreturns⟩ :=
      hrealized.returns hconcluded hgroup hdecision hsome
    exact ⟨borrow, terminate, hborrow.inserted hrealized.refined.woven,
      hterminate.inserted hrealized.refined.woven, hreturns⟩
  · intro n owner tunnel node hnode hkind
    exact hrealized.tunnel_returns hconcluded hbuilt.layered hnode hkind

/-- A number is incremented and then borrowed by a frame. -/
def tunnelledIncrement : Graph :=
  leaves (connect 2 3) (leaves (connect 0 1)
    (leaves (addBorder 2 (.terminateLifetimeTunnel 3))
      (leaves (addBorder 2 (.borrowTunnel true))
        (leaves (addStructure rootScope .frame)
          (leaves (addNode rootScope (.functional .increment) false)
            (leaves (addNode rootScope (.constant .int32 true) false) empty))))))

theorem built_tunnelledIncrement : tunnelledIncrement.Built := by
  unfold tunnelledIncrement
  repeat apply Built.connect
  repeat apply Built.addBorder
  apply Built.addStructure
  repeat apply Built.addNode
  exact .empty

theorem borrows_return_tunnelledIncrement : ∃ report after,
    infer {} tunnelledIncrement = (.ok report, after) ∧
      (∃ borrow terminate, report.Returns after borrow terminate 0 1 2) ∧
        ∃ input output carried, after.inputPort 3 0 = .ok input ∧
          after.outputPort 4 0 = .ok output ∧
            report.carried? input = some carried ∧ report.carried? output = some carried := by
  have hanswer : (infer {} tunnelledIncrement).1.toOption.any Report.isClean = true := by
    decide +kernel
  obtain ⟨report, hinfer, -⟩ := exists_report_of_isClean hanswer
  obtain ⟨context, hdecided, hgroups, htunnels⟩ := built_tunnelledIncrement.borrows_return hinfer
  have hlist : (Inference.decided? {} tunnelledIncrement).map
      (fun context => context.groups.groups.toList.map fun group =>
        (group.wiredIn tunnelledIncrement, group.decision.any Decision.isBorrow)) =
      some [([{ port := 1, pairedOutput := some 2 }], true)] := by
    decide +kernel
  rw [hdecided, Option.map_some, Option.some.injEq] at hlist
  obtain ⟨group, hgroup, hknown⟩ := List.map_eq_singleton_iff.mp hlist
  obtain ⟨hwired, hborrow⟩ := Prod.mk.inj hknown
  have hget : context.groups.groups[0]? = some group := by
    rw [← Array.getElem?_toList, hgroup]
    rfl
  obtain ⟨node, hnode, hkind⟩ : ∃ node, (infer {} tunnelledIncrement).2.nodes[4]? = some node ∧
      node.kind = .border 2 (.terminateLifetimeTunnel 3) := by
    apply Option.map_eq_some_iff.mp
    decide +kernel
  obtain ⟨mutable, lifetime, hdecision⟩ := Decision.exists_of_any_isBorrow hborrow
  obtain ⟨borrow, terminate, -, -, hreturns⟩ :=
    hgroups 0 group mutable lifetime hget hdecision (by simp [hwired])
  obtain ⟨output, houtput, hreturn⟩ := hreturns 0 { port := 1, pairedOutput := some 2 }
    (by simp [hwired])
  cases houtput
  exact ⟨report, _, hinfer, ⟨borrow, terminate, hreturn⟩, htunnels 4 2 3 node hnode hkind⟩

end Graph

end BorrowFlow
