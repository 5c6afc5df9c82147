import BorrowFlow.Proofs.Inference.Freshness
import BorrowFlow.Proofs.Inference.Returning

/-!
# Borrows that are inserted

Every borrow node that inference adds belongs to a group that decided to borrow, and it gives the
members of the group what was decided for: references to the values that the node takes, or to what
these refer to. The references are mutable only if everything that the members were supplied with
could be lent mutably when the group was decided.
-/

namespace BorrowFlow

namespace Context

variable {g : Graph} {ctx : Context} {ws : Workspace}

theorem Realized.exists_lentThrough (h : ctx.Realized g ws) {n : NodeId} {node : Node}
    {mutable : Bool} {count : Nat} (hbase : g.nodes.size ≤ n)
    (hnode : ws.graph.nodes[n]? = some node)
    (hk : node.kind = .explicitBorrow mutable count) :
    ∃ (id : GroupId) (group : BorrowGroup) (lifetime : Lifetime),
      ctx.groups.groups[id]? = some group ∧ group.decision = some (.borrow mutable lifetime) ∧
        count = (group.wiredIn g).length ∧
          Insertion.LentThrough g ctx.facades mutable (group.wiredIn g) ws n := by
  obtain ⟨group, hgroup, output, houtput, sink, hfed, hsink⟩ := h.borrows hbase hnode hk
  obtain ⟨id, hid⟩ := Array.mem_iff_getElem?.mp (Array.mem_toList_iff.mp hgroup)
  obtain ⟨member, hmember, rfl⟩ := BorrowGroup.exists_of_mem_borrowedIn hsink
  obtain ⟨mutable', lifetime, hdecision⟩ : ∃ mutable lifetime,
      group.decision = some (.borrow mutable lifetime) := by
    unfold BorrowGroup.borrowedIn at hsink
    split at hsink
    · exact ⟨_, _, ‹_›⟩
    · cases hsink
  obtain ⟨m, hlent⟩ := (h.explicit id group mutable' lifetime hid hdecision).lent
    (List.ne_nil_of_mem hmember)
  -- what feeds the member is an output of this node and of the one that borrows for the group
  obtain ⟨index, hindex⟩ := List.mem_iff_getElem?.mp hmember
  obtain ⟨facade, -, input, output', hthrough, hfed'⟩ := hlent.2 index member hindex
  have hwoven := h.refined.woven
  rw [hwoven.consistent.mem_sinksAt_iff] at hfed hfed'
  obtain rfl : output = output' := Option.some.inj (hfed.symm.trans hfed')
  obtain ⟨found, hf, -, houtput'⟩ := hthrough.passes
  obtain rfl : n = m := hwoven.wellFormed.seated.node_unique .output .output hnode hf houtput
    (List.mem_of_getElem? houtput')
  have ⟨⟨_, data, hd, hdecided⟩, _⟩ := hlent
  cases hnode.symm.trans hd
  cases hk.symm.trans hdecided
  exact ⟨id, group, lifetime, hid, hdecision, rfl, hlent⟩

theorem Carries.type_eq {flow : FlowId} {term : TermId} (h : ctx.Carries True flow term)
    (hrendered : ctx.Rendered) (hclean : ctx.isClean = true) :
    (ctx.flows.get flow).type = ctx.terms.render term := by
  obtain ⟨found, hf, halike⟩ := h
  rw [(hrendered flow found hf).1]
  exact ((halike hclean).resembles.eq trivial).symm

theorem Concluded.exists_referent (h : ctx.Concluded True g) (hclean : ctx.isClean = true)
    {port : PortId} {facade : Facade} {mutable : Bool} (hloan : ctx.TakesLoan True mutable port)
    (hfacade : ctx.facades.get? port = some facade) :
    ∃ referent, (ctx.flows.get facade.nodeSide).type = .reference mutable referent ∧
      (referent = (ctx.flows.get facade.wireSide).type ∨ ∃ outer,
        (ctx.flows.get facade.wireSide).type = .reference outer referent) := by
  obtain ⟨found, term, reference, underlying, lifetime, hf, htaken, hgiven, hreference, hcase⟩ :=
    hloan
  cases hfacade.symm.trans hf
  rw [hgiven.type_eq h.rendered hclean, htaken.type_eq h.rendered hclean]
  refine ⟨ctx.terms.render underlying, h.typed.sound.render_reference hreference, ?_⟩
  rcases hcase with rfl | ⟨mutability, outer, hp⟩
  · exact .inl rfl
  · exact .inr ⟨_, h.typed.sound.render_reference hp⟩

end Context

/-- At one index, a borrow node feeds an input with a reference to the value that it takes, or to
what this refers to. -/
def Report.Borrows (report : Report) (g : Graph) (mutable : Bool) (n : NodeId) (index : Nat)
    (sink : PortId) : Prop :=
  ∃ input output taken given referent, g.inputPort n index = .ok input ∧
    g.outputPort n index = .ok output ∧ g.sourceOf sink = .ok (some output) ∧
      report.carried? input = some taken ∧ report.carried? output = some given ∧
        given.type = .reference mutable referent ∧
          (referent = taken.type ∨ ∃ outer, taken.type = .reference outer referent)

/-- When the last sink of the group had been unified, its wired members were supplied with mutable
references, or with owned values that are bound mutably. -/
def BorrowGroup.SuppliedMutably (group : BorrowGroup) (g : Graph) (moments : List Moment)
    (id : GroupId) : Prop :=
  ∃ source sink ctx data, .joins source sink ctx ∈ moments ∧ ctx.Completes sink id data ∧
    ∀ member ∈ group.wiredIn g, ∃ found : SuppliedMember, found.ReadsOff ctx member ∧
      ((∃ lifetime, found.supply = .reference true lifetime) ∨ found.supply = .owned true)

theorem Watch.Borrows.suppliedMutably {watch : Watch} {g : Graph} {start : Context} {id : GroupId}
    {group : BorrowGroup} {place : BoundedLifetime}
    (h : watch.Borrows g start id group true place) :
    group.SuppliedMutably g watch.moments id := by
  obtain ⟨source, sink, ctx, data, hmoment, hcompletes, hsupplied⟩ := h.supplied
  refine ⟨source, sink, ctx, data, hmoment, hcompletes, fun member hmember => ?_⟩
  obtain ⟨found, hread, hlends, -⟩ := hsupplied member hmember
  exact ⟨found, hread, Supply.lendsMutably_iff.mp (hlends rfl)⟩

namespace Graph

variable {graph after : Graph} {config : Config} {report : Report}

/-- If inference reports nothing, then every borrow node that it added belongs to a group. It has a
pair of ports for each wired member, and gives the member a reference of the mutability that the
group decided for. A group that borrows mutably takes mutable references, and all that its members
were supplied with could be lent so. -/
theorem Built.borrows_typed (hbuilt : graph.Built) (hmono : graph.Monomorphic)
    (hinfer : infer config graph = (.ok report, after)) (hclean : report.isClean = true) :
    ∃ faced unified moments, Run.facePorts { config, graph } = .ok () faced ∧
      Run.unifyWires faced = .ok () unified ∧
        Watched.unifyWires graph { context := faced.context } =
          .ok () { context := unified.context, moments } ∧
        ∀ (n : NodeId) (node : Node) (mutable : Bool) (count : Nat), graph.nodes.size ≤ n →
          after.nodes[n]? = some node → node.kind = .explicitBorrow mutable count →
            ∃ (id : GroupId) (group : BorrowGroup) (lifetime : Lifetime),
              unified.context.groups.groups[id]? = some group ∧
              group.decision = some (.borrow mutable lifetime) ∧
              count = (group.wiredIn graph).length ∧
              (∀ (index : Nat) (member : GroupMember), (group.wiredIn graph)[index]? = some member →
                report.Borrows after mutable n index member.port) ∧
              (mutable = true → group.policy ≠ .allowImmutable ∧
                group.SuppliedMutably graph moments id) := by
  obtain ⟨faced, unified, state, hfaced, hunified, hinserted, -, -, -, rfl, rfl⟩ :=
    exists_of_infer_ok hinfer
  obtain ⟨-, hconcluded⟩ := hbuilt.concluded (fun _ : True => hmono) hfaced hunified
  have hrealized := hbuilt.realized_of_eq_ok hfaced hunified hinserted
  have hclean' : unified.context.isClean = true := by
    rw [Context.isClean, ← hrealized.spares.diagnostics]
    exact hclean
  obtain ⟨moments, hwatched, hledger, hfollows⟩ := hbuilt.exists_ledger hfaced hunified
  refine ⟨faced, unified, moments, hfaced, hunified, hwatched, ?_⟩
  intro n node mutable count hbase hnode hkind
  obtain ⟨id, group, lifetime, hid, hdecision, hcount, -, hlent⟩ :=
    hrealized.exists_lentThrough hbase hnode hkind
  refine ⟨id, group, lifetime, hid, hdecision, hcount, ?_, ?_⟩
  · intro index member hmember
    obtain ⟨facade, hfacade, input, output, hthrough, hfed⟩ := hlent index member hmember
    obtain ⟨referent, hgiven, htaken⟩ := hconcluded.exists_referent hclean'
      (hconcluded.takes id group hid _ hdecision member (List.mem_of_getElem? hmember)) hfacade
    have hwoven := hrealized.refined.woven
    obtain ⟨hinput, houtput⟩ := hthrough.carried hwoven
    rw [hrealized.spares.flows] at hinput houtput
    exact ⟨input, output, _, _, referent, hthrough.ports.1, hthrough.ports.2,
      hwoven.consistent.sourceOf_of_mem hfed, hinput, houtput, hgiven, htaken⟩
  · rintro rfl
    obtain ⟨listed, place, -, hborrows⟩ := hledger.borrowed id true lifetime
      ((BorrowGroups.decisionOf?_of_get hid).trans hdecision)
    obtain ⟨_, hlisted, hstatic⟩ := hfollows.exists_static hid
    cases hlisted.symm.trans hborrows.listed
    obtain ⟨-, -, hpolicy, -⟩ := BorrowGroup.mk.inj hstatic
    obtain ⟨source, sink, ctx, waiting, hmoment, hcompletes, hsupplied⟩ := hborrows.suppliedMutably
    refine ⟨hpolicy ▸ hborrows.accepts rfl, source, sink, ctx, waiting, hmoment, hcompletes, ?_⟩
    rwa [BorrowGroup.wiredIn_of_static_eq hstatic]

theorem borrows_typed_twoIncrements : ∃ (report : Report) (after : Graph) (moments : List Moment)
    (id : GroupId) (group : BorrowGroup) (member : GroupMember),
    infer {} twoIncrements = (.ok report, after) ∧ report.isClean = true ∧
      (after.nodes[3]?).map Node.kind = some (.explicitBorrow true 1) ∧
        group.wiredIn twoIncrements = [member] ∧ report.Borrows after true 3 0 member.port ∧
          group.policy ≠ .allowImmutable ∧ group.SuppliedMutably twoIncrements moments id := by
  have hanswer : (infer {} twoIncrements).1.toOption.any Report.isClean = true := by decide +kernel
  obtain ⟨report, hinfer, hclean⟩ := exists_report_of_isClean hanswer
  obtain ⟨faced, unified, moments, -, -, -, hall⟩ :=
    built_twoIncrements.borrows_typed (by decide +kernel) hinfer hclean
  have hkind : ((infer {} twoIncrements).2.nodes[3]?).map Node.kind =
      some (.explicitBorrow true 1) := by decide +kernel
  obtain ⟨node, hnode, hnodeKind⟩ := Option.map_eq_some_iff.mp hkind
  obtain ⟨id, group, lifetime, -, -, hcount, htyped, hmutable⟩ :=
    hall 3 node true 1 (by decide +kernel) hnode hnodeKind
  obtain ⟨member, hwired⟩ := List.length_eq_one_iff.mp hcount.symm
  obtain ⟨haccepts, hsupplied⟩ := hmutable rfl
  exact ⟨report, _, moments, id, group, member, hinfer, hclean, hkind, hwired,
    htyped 0 member (by rw [hwired]; rfl), haccepts, hsupplied⟩

end Graph

end BorrowFlow
