import BorrowFlow.Proofs.Inference.Preservation

/-!
# Outputs that hand back what an input took

When wires have been unified, every group that something arrives at has been decided, and what it
decided has taken effect. An output that closes an input then shows the wires either the reference
that its node hands back or the value that the input was lent. A group knows one such output for
each of its members. If a signature pairs a second output with the same input, then that one takes
the place of the first, which is left as it was.
-/

namespace BorrowFlow

namespace Context

variable {fixed : Prop} {g : Graph} {start ctx : Context} {source : PortId}

/-- What is known when the first two passes are over: groups have been decided and what they decided
has taken effect, an input that is closed is known to its group as closed, nodes show what they
declare, and values that are duplicated are copyable. -/
structure Concluded (fixed : Prop) (g : Graph) (ctx : Context) : Prop where
  typed : ctx.Typed fixed
  rendered : ctx.Rendered
  ready : ctx.Ready fixed g
  wired : ∀ (id : GroupId) (group : BorrowGroup), ctx.groups.groups[id]? = some group →
    group.decision.isSome = true → group.wiredIn g ≠ []
  takes : ∀ (id : GroupId) (group : BorrowGroup), ctx.groups.groups[id]? = some group →
    ∀ decision, group.decision = some decision →
      ∀ member ∈ group.wiredIn g, ctx.Takes fixed decision member.port
  handsBack : ∀ (id : GroupId) (group : BorrowGroup), ctx.groups.groups[id]? = some group →
    ∀ member ∈ group.members, ∀ output, member.pairedOutput = some output →
      ctx.HandsBack g (group.decision.any Decision.isBorrow) member output
  closed : ∀ port nodeSide wireSide input,
    ctx.facades.get? port = some (.terminationOutput nodeSide wireSide input) →
      ∃ output, g.Pairs output input ∧ ctx.groups.Records input output
  presents : ∀ (n : NodeId) (node : Node), g.nodes[n]? = some node → ctx.Presents fixed g node
  copyable : ∀ source, g.Duplicates ctx.facades source → ctx.Copyable fixed source

theorem Unified.records {left : PortId → Prop} (h : ctx.Unified fixed g start left)
    {input output : PortId} (hrecords : start.groups.Records input output) :
    ctx.groups.Records input output := by
  obtain ⟨-, _, hstands, -⟩ := h
  obtain ⟨id, group, member, hgroup, hmember, hinput, houtput⟩ := hrecords
  obtain ⟨data, hd, hstatic⟩ := hstands.kept.follows.symm.exists_static hgroup
  rw [(BorrowGroup.of_static_eq hstatic).2.2.1] at hmember
  exact ⟨id, data, member, hd, hmember, hinput, houtput⟩

theorem Unified.copyable (h : ctx.Unified fixed g start fun _ => False)
    (hduplicates : g.Duplicates ctx.facades source) : ctx.Copyable fixed source := by
  rw [h.facades_eq] at hduplicates
  obtain ⟨-, done, -, hsettled, hcovers⟩ := h
  -- the wire has a sink, and every sink is done
  obtain ⟨sink, hsink⟩ :=
    List.exists_mem_of_length_pos (Nat.zero_lt_of_lt hduplicates.1)
  have hdone : sink ∈ done := (hcovers source sink hsink).resolve_right id
  exact (hsettled.wires sink hdone source hsink).2 hduplicates

/-- A group is decided by a value that arrives, so it has a wired member. -/
theorem Unified.wiredIn_ne_nil {left : PortId → Prop} (h : ctx.Unified fixed g start left)
    {id : GroupId} {group : BorrowGroup} (hgroup : ctx.groups.groups[id]? = some group)
    (hdecided : group.decision.isSome = true) : group.wiredIn g ≠ [] := by
  obtain ⟨-, _, hstands, -⟩ := h
  have hcounts := hstands.kept.counts id group hgroup
  obtain ⟨hwired, -⟩ := hcounts.decided.mp hdecided
  rw [hcounts.wired] at hwired
  exact List.ne_nil_of_length_pos hwired

theorem Unified.concluded (h : ctx.Unified fixed g start fun _ => False)
    (hc : g.Consistent) (harranged : g.Arranged start.facades start.groups)
    (hpresents : ∀ (n : NodeId) (node : Node), g.nodes[n]? = some node →
      start.Presents fixed g node)
    (hrendered : ctx.Rendered) : ctx.Concluded fixed g where
  typed := h.stands.typed
  rendered := hrendered
  ready := h.ready hc harranged hrendered
  wired _ _ hgroup := h.wiredIn_ne_nil hgroup
  takes id group hgroup := by
    obtain ⟨-, _, -, hsettled, -⟩ := h
    exact (hsettled.enacted id group hgroup).takes
  handsBack _ _ hgroup := h.handsBack hc harranged hgroup
  closed port nodeSide wireSide input hfacade := by
    rw [h.facades_eq] at hfacade
    obtain ⟨output, hpairs, hrecords⟩ := harranged.closed port nodeSide wireSide input hfacade
    exact ⟨output, hpairs, h.records hrecords⟩
  presents n node hnode := (hpresents n node hnode).of_grows h.1
  copyable _ := h.copyable

end Context

namespace Graph

variable {g graph : Graph} {config : Config} {faced unified : Inference}

theorem Built.concluded {fixed : Prop} (hb : g.Built) (hmono : fixed → g.Monomorphic)
    (hfaced : Run.facePorts { config, graph := g } = .ok () faced)
    (hunified : Run.unifyWires faced = .ok () unified) :
    unified.graph = g ∧ unified.context.Concluded fixed g := by
  have hw := hb.wellFormed
  have hc := hb.consistent
  obtain ⟨rfl, hstands, hord, hpresents⟩ :=
    (Run.ends_facePorts hw hc hb.layered hmono).of_eq_ok hfaced
  obtain ⟨hgraph, hdone, hrendered⟩ :=
    (Run.ends_unifyWires hw hc hstands hord).of_eq_ok hunified
  exact ⟨hgraph, hdone.concluded hc hstands.kept hpresents hrendered⟩

/-- Once wires are unified, an output that closes an input carries what its node hands back or what
the input was supplied with, unless another output that the signature pairs with the same input has
taken its place. -/
theorem Built.same_of_terminationOutput (hbuilt : graph.Built)
    (hfaced : Run.facePorts { config, graph } = .ok () faced)
    (hunified : Run.unifyWires faced = .ok () unified) :
    ∀ port nodeSide wireSide input,
      unified.context.facades.get? port = some (.terminationOutput nodeSide wireSide input) →
        (unified.context.flows.same wireSide nodeSide = true ∨
          ∃ taken, unified.context.facades.get? input = some taken ∧
            unified.context.flows.same wireSide taken.wireSide = true) ∨
        ∃ other, other ≠ port ∧ graph.Pairs other input ∧
          unified.context.groups.Records input other := by
  intro port nodeSide wireSide input hfacade
  have hconcluded : unified.context.Concluded False graph :=
    (hbuilt.concluded False.elim hfaced hunified).2
  obtain ⟨output, hpairs, hrecords⟩ :=
    hconcluded.closed port nodeSide wireSide input hfacade
  by_cases heq : output = port
  · subst heq
    left
    obtain ⟨id, group, member, hgroup, hmember, rfl, houtput⟩ := hrecords
    have hback := hconcluded.handsBack id group hgroup member hmember output houtput
    by_cases hlent : group.decision.any Decision.isBorrow = true ∧
        graph.isWired member.port = true
    · obtain ⟨facade, taken, hfacade', htaken, hsame⟩ := hback.lent hlent.1 hlent.2
      cases hfacade.symm.trans hfacade'
      exact .inr ⟨taken, htaken, hsame⟩
    · obtain ⟨facade, hfacade', hsame⟩ := hback.kept hlent
      cases hfacade.symm.trans hfacade'
      exact .inl hsame
  · exact .inr ⟨output, heq, hpairs, hrecords⟩

theorem same_of_terminationOutput_twoIncrements : ∃ faced unified,
    Run.facePorts { config := {}, graph := twoIncrements } = .ok () faced ∧
      Run.unifyWires faced = .ok () unified ∧
        unified.context.facades.get? 2 = some (.terminationOutput 3 4 1) ∧
          ((unified.context.flows.same 4 3 = true ∨
            ∃ taken, unified.context.facades.get? 1 = some taken ∧
              unified.context.flows.same 4 taken.wireSide = true) ∨
          ∃ other, other ≠ 2 ∧ twoIncrements.Pairs other 1 ∧
            unified.context.groups.Records 1 other) := by
  have hfaced := eq_ok_of_succeeds (x := Run.facePorts)
    (s := { config := {}, graph := twoIncrements }) (by decide +kernel)
  have hunified := eq_ok_of_succeeds (x := Run.unifyWires)
    (s := leaves Run.facePorts { config := {}, graph := twoIncrements }) (by decide +kernel)
  have hsame := built_twoIncrements.same_of_terminationOutput hfaced hunified 2 3 4 1
  refine ⟨_, _, hfaced, hunified, ?_, hsame ?_⟩
  · decide +kernel
  · decide +kernel

/-- Borrows a number, and hands the borrow back at two outputs. -/
def handBackTwice : Signature where
  name := "hand_back_twice"
  parameters :=
    [{ name := "taken", direction := .input, type := .reference .immutable 0 (.concrete .int32) },
      { name := "first", direction := .output,
        type := .reference .immutable 0 (.concrete .int32), pairsWith := some 0 },
      { name := "second", direction := .output,
        type := .reference .immutable 0 (.concrete .int32), pairsWith := some 0 }]

def oneHandBackTwice : Graph :=
  leaves (addNode rootScope (.functional handBackTwice) false) empty

/-- The first of two outputs that close one input carries neither what its node hands back nor what
the input was supplied with. -/
theorem apart_oneHandBackTwice : ∃ faced unified,
    Run.facePorts { config := {}, graph := oneHandBackTwice } = .ok () faced ∧
      Run.unifyWires faced = .ok () unified ∧
        ∃ nodeSide wireSide taken,
          unified.context.facades.get? 1 = some (.terminationOutput nodeSide wireSide 0) ∧
            unified.context.facades.get? 0 = some taken ∧
              unified.context.flows.same wireSide nodeSide = false ∧
                unified.context.flows.same wireSide taken.wireSide = false := by
  have hfaced := eq_ok_of_succeeds (x := Run.facePorts)
    (s := { config := {}, graph := oneHandBackTwice }) (by decide +kernel)
  have hunified := eq_ok_of_succeeds (x := Run.unifyWires)
    (s := leaves Run.facePorts { config := {}, graph := oneHandBackTwice }) (by decide +kernel)
  exact ⟨_, _, hfaced, hunified, 2, 3, .referenceInput 0 1 0, by decide +kernel⟩

end Graph

end BorrowFlow
