import BorrowFlow.Proofs.Inference.Unifying

/-!
# What the second pass ends with

Every wire is visited, so every sink is done in the end. A group with a wired member has then
received as many values as it has wired members, and so it has been decided. The types that are
rendered from type terms that are alike resemble each other.
-/

namespace BorrowFlow

variable {groups : BorrowGroups} {id : GroupId} {start ctx : Context} {data : BorrowGroup}
  {member : GroupMember} {fixed : Prop} {g : Graph}

/-! ## Wired members are counted first -/

namespace BorrowGroups

variable {groups' : BorrowGroups} {left : List GroupId}

/-- The groups that are not left know how many of their members have a wire. -/
structure Numbered (g : Graph) (groups : BorrowGroups) (left : List GroupId)
    (groups' : BorrowGroups) : Prop where
  follows : groups'.Follows groups
  undecided : ∀ (id : GroupId) (data : BorrowGroup), groups'.groups[id]? = some data →
    data.decision = none
  numbered : ∀ (id : GroupId) (data : BorrowGroup), groups'.groups[id]? = some data → id ∉ left →
    data.wired = (data.wiredIn g).length ∧ data.received = 0

theorem ends_countGroup (h : groups.Numbered g (id :: left) groups') :
    Yields (countGroup g id) groups' fun _ groups' => groups.Numbered g left groups' := by
  apply Ends.bind
  apply Ends.get
  refine Yields.lift_bind fun data hd => ?_
  refine Yields.lift_bind fun wired hwired => ?_
  obtain rfl := BorrowGroup.wiredMembers_eq hwired
  rw [get_eq_ok] at hd
  refine ⟨h.follows.modify id, ?_, ?_⟩
  · intro other found hf
    rcases BorrowGroups.of_getElem?_modify hf with ⟨-, old, hold, rfl⟩ | ⟨-, hf⟩
    · exact h.undecided id old hold
    · exact h.undecided other found hf
  · intro other found hf ho
    rcases BorrowGroups.of_getElem?_modify hf with ⟨-, old, hold, rfl⟩ | ⟨hne, hf⟩
    · cases hd.symm.trans hold
      exact ⟨rfl, rfl⟩
    · exact h.numbered other found hf (by simpa [ho] using Ne.symm hne)

theorem ends_countWired (hundecided : ∀ (id : GroupId) (data : BorrowGroup),
      groups.groups[id]? = some data → data.decision = none) :
    Yields (countWired g) groups fun _ groups' => groups.Numbered g [] groups' := by
  apply Ends.bind
  apply Ends.get
  apply Ends.forM (groups.Numbered g)
  · refine ⟨fun _ => rfl, hundecided, fun id data hd hid => absurd ?_ hid⟩
    exact List.mem_range.mpr (Array.getElem?_eq_some_iff.mp hd).1
  · intro id rest groups' h
    exact ends_countGroup h
  · exact fun _ h => h

theorem Numbered.counted (h : groups.Numbered g [] groups') (facades : Facades) :
    g.Counted facades groups [] facades groups' where
  facades_eq := rfl
  follows := h.follows
  counts id data hd := by
    obtain ⟨hwired, hreceived⟩ := h.numbered id data hd List.not_mem_nil
    refine ⟨hwired, by simpa using hreceived, ?_⟩
    rw [h.undecided id data hd, hreceived]
    exact ⟨nofun, fun ⟨hpos, hzero⟩ => absurd hpos (Nat.not_lt_of_le hzero)⟩

end BorrowGroups

theorem Context.Typed.of_follows (h : ctx.Typed fixed) (hfollows : groups.Follows ctx.groups) :
    ({ ctx with groups } : Context).Typed fixed where
  __ := h
  groups id data hd := by
    obtain ⟨data', hd', hstatic⟩ := hfollows.exists_static hd
    obtain ⟨-, -, -, ht⟩ := BorrowGroup.of_static_eq hstatic
    rw [ht]
    exact h.groups id data' hd'

namespace Pass

theorem countWired_eq (g : Graph) (ctx : Context) :
    countWired g ctx = within (fun groups => { ctx with groups })
      (BorrowGroups.countWired g ctx.groups) := by
  cases hrun : BorrowGroups.countWired g ctx.groups <;> simp [countWired, within, hrun]

theorem ends_countWired (h : ctx.Stands fixed g.Arranged) : Yields (countWired g) ctx
      fun _ ctx' => ctx.Grows fixed ctx' ∧ ctx'.Stands fixed (g.Counted ctx.facades ctx.groups []) ∧
          ∀ (id : GroupId) (data : BorrowGroup), ctx'.groups.groups[id]? = some data →
            data.decision = none := by
  apply Ends.of_part (countWired_eq g ctx)
  apply (BorrowGroups.ends_countWired h.kept.undecided).imp ?_
  intro _ groups hcount
  refine ⟨{ Context.Grows.refl ctx with groups := ?_ },
    ⟨h.typed.of_follows hcount.follows, hcount.counted _⟩, hcount.undecided⟩
  intro id data hd
  obtain ⟨data', hd', hstatic⟩ := hcount.follows.symm.exists_static hd
  obtain ⟨hnode, hscope, -⟩ := BorrowGroup.of_static_eq hstatic.symm
  exact ⟨data', hd', hnode, hscope⟩

theorem progress_settleUnwired {kept : Facades → BorrowGroups → Prop}
    (h : ctx.Stands fixed fun facades groups => kept facades groups ∧ groups = ctx.groups) :
    Progress fixed (fun facades groups => kept facades groups ∧ groups = ctx.groups)
      ((unwiredGroups ctx.groups).forM fun group => settleOutputs g group false) ctx
      fun _ ctx' => ∀ (id : GroupId) (data : BorrowGroup),
        ctx.groups.groups[id]? = some data → data.wired = 0 → ∀ member ∈ data.members,
          ∀ output, member.pairedOutput = some output → ctx'.HandsBack g false member output := by
  apply (Progress.forM (fun id ctx' => ∀ data : BorrowGroup,
    ctx.groups.groups[id]? = some data → ∀ member ∈ data.members, ∀ output,
      member.pairedOutput = some output → ctx'.HandsBack g false member output) h ?_ ?_).mono
  · intro _ ctx' _ _ hall id data hd hwired
    refine hall id (List.mem_filter.mpr ⟨?_, ?_⟩) data hd
    · exact List.mem_range.mpr (Array.getElem?_eq_some_iff.mp hd).1
    · simp [hd, hwired]
  · intro id _ _ hg hback data hd member hmember output houtput
    exact (hback data hd member hmember output houtput).of_grows hg
  · intro id hid ctx' _ hstands
    obtain ⟨hrange, -⟩ := List.mem_filter.mp hid
    have hd : ctx'.groups.groups[id]? = _ :=
      Array.getElem?_eq_getElem (by rw [hstands.kept.2]; exact List.mem_range.mp hrange)
    apply (progress_settleOutputs hstands hd).mono
    intro _ ctx'' _ _ hback data hd'
    rw [← hstands.kept.2, hd] at hd'
    cases hd'
    exact hback

/-! ## Every wire is visited -/

section Visits

variable {left : PortId → Prop}

theorem ends_unifyOutputs (hw : g.WellFormed) (hc : g.Consistent) {n : NodeId} {node : Node}
    (hnode : g.nodes[n]? = some node)
    (h : ctx.Unified fixed g start
      fun sink => (∃ output ∈ node.outputs, sink ∈ g.sinksAt output) ∨ left sink) :
    Yields (node.outputs.forM (unifyOutput g)) ctx
      fun _ ctx' => ctx'.Unified fixed g start left := by
  apply Ends.forM fun outputs ctx' => (∀ output ∈ outputs, output ∈ node.portsOn .output) ∧
    ctx'.Unified fixed g start fun sink => (∃ output ∈ outputs, sink ∈ g.sinksAt output) ∨ left sink
  · exact ⟨fun _ houtput => houtput, h⟩
  · rintro output rest ctx' ⟨houtputs, hunified⟩
    obtain ⟨houtput, hrest⟩ := List.forall_mem_cons.mp houtputs
    obtain ⟨index, hindex⟩ := List.mem_iff_getElem?.mp houtput
    obtain ⟨port, hport, -⟩ := hw.seated.seat hnode hindex
    have hunified' : ctx'.Unified fixed g start fun sink =>
        sink ∈ g.sinksAt output ∨ (∃ output ∈ rest, sink ∈ g.sinksAt output) ∨ left sink :=
      hunified.mono fun _ _ _ hsink => by simpa [or_assoc] using hsink
    apply (ends_unifyOutput hc hport hunified').imp ?_
    intro _ ctx'' hunified''
    exact ⟨hrest, hunified''⟩
  · rintro ctx' ⟨-, hunified⟩
    exact hunified.mono fun _ _ _ hsink => hsink.resolve_left (by simp)

theorem ends_unifyNodes (hw : g.WellFormed) (hc : g.Consistent) {order : List NodeId}
    (hord : g.visitOrder = .ok order)
    (h : ctx.Unified fixed g start fun _ => True) :
    Yields (order.forM fun n => show Pass Unit from do
        let node ← g.getNode n
        node.outputs.forM (unifyOutput g)) ctx
      fun _ ctx' => ctx'.Unified fixed g start fun _ => False := by
  apply Ends.forM fun nodes ctx' => ctx'.Unified fixed g start fun sink =>
    ∃ n ∈ nodes, ∃ node, g.nodes[n]? = some node ∧ ∃ output ∈ node.outputs, sink ∈ g.sinksAt output
  · -- the source of a wire is an output of a node, and every node is visited
    apply h.mono
    intro source sink hsink _
    obtain ⟨port, _, hport, -, houtput, -⟩ := hc.ends hsink
    obtain ⟨node, hnode, hlisted⟩ := hw.seated.listed hport
    rw [houtput] at hlisted
    exact ⟨port.node, hw.mem_visitOrder hord hnode, node, hnode, source,
      List.mem_of_getElem? hlisted, hsink⟩
  · intro n rest ctx' hunified
    refine Yields.lift_bind fun node hnode => ?_
    rw [Graph.getNode_eq_ok] at hnode
    apply ends_unifyOutputs hw hc hnode
    apply hunified.mono
    rintro source sink - ⟨m, hm, found, hf, hsink⟩
    rcases List.mem_cons.mp hm with rfl | hrest
    · cases hnode.symm.trans hf
      exact .inl hsink
    · exact .inr ⟨m, hrest, found, hf, hsink⟩
  · intro ctx' hunified
    exact hunified.mono (by simp)

end Visits

end Pass

/-! ## Wired groups have been decided -/

section Decided

variable {facades : Facades} {group : BorrowGroup}

theorem BorrowGroup.Placed.of_static_eq (h : group.Placed g facades id)
    (hstatic : data.static = group.static) : data.Placed g facades id := by
  obtain ⟨hnode, hscope, hmembers, -⟩ := BorrowGroup.of_static_eq hstatic
  refine ⟨?_, ?_, ?_, ?_, ?_, ?_⟩
  · rw [hnode, hscope, hmembers]
    exact h.inputs
  · rw [hnode, hmembers]
    exact h.node
  · rw [hnode, hscope, hmembers]
    exact h.outputs
  · rw [hmembers]
    exact h.nodup
  · rw [hmembers]
    exact h.takes
  · rw [hmembers]
    exact h.closes

theorem BorrowGroup.Placed.mem_wiredIn_iff (h : group.Placed g facades id)
    (hc : g.Consistent) (hmember : member ∈ group.members) :
    member ∈ group.wiredIn g ↔ ∃ source, member.port ∈ g.sinksAt source := by
  obtain ⟨port, hport, hinput, -⟩ := (h.inputs member hmember).port
  rw [BorrowGroup.wiredIn, List.mem_filter, hc.isWired_iff hport hinput]
  exact and_iff_right hmember

theorem BorrowGroup.Placed.nodup_wiredIn (h : group.Placed g facades id) :
    ((group.wiredIn g).map GroupMember.port).Nodup :=
  h.nodup.sublist (List.filter_sublist.map GroupMember.port)

section

variable {done : List PortId} (h : data.Counts g facades done id)
  (hplaced : data.Placed g facades id) (hdone : ∀ member ∈ data.wiredIn g, member.port ∈ done)
include h hplaced hdone

theorem BorrowGroup.Counts.wired_le_received : data.wired ≤ data.received := by
  -- the facade of a member names this group
  have hsubset : (data.wiredIn g).map GroupMember.port ⊆
      done.filter fun sink => (facades.get? sink).bind Facade.group? = some id := by
    intro sink hsink
    obtain ⟨member, hmember, rfl⟩ := List.mem_map.mp hsink
    obtain ⟨nodeSide, wireSide, hfacade⟩ := hplaced.takes member (List.mem_filter.mp hmember).1
    refine List.mem_filter.mpr ⟨hdone member hmember, ?_⟩
    simp [hfacade, Facade.group?]
  rw [h.wired, h.received, List.countP_eq_length_filter, ← List.length_map GroupMember.port]
  exact (hplaced.nodup_wiredIn.subperm hsubset).length_le

theorem BorrowGroup.Counts.isSome_decision (hmember : member ∈ data.wiredIn g) :
    data.decision.isSome = true := by
  refine h.decided.mpr ⟨?_, h.wired_le_received hplaced hdone⟩
  rw [h.wired]
  exact List.length_pos_of_mem hmember

end

end Decided

/-! ## Rendered types -/

theorem FlowStore.get_resolveAll (s : FlowStore) (terms : TermStore) (flow : FlowId) :
    (s.resolveAll terms).get flow = rendered terms (s.get flow) := by
  have hvalue : (s.resolveAll terms).classes.value? flow = _ :=
    s.classes.value?_mapValues (rendered terms) flow
  rw [get, get, hvalue]
  cases s.classes.value? flow <;> rfl

theorem FlowStore.term_rendered (terms : TermStore) (flow : Flow) :
    (rendered terms flow).term = flow.term := by
  unfold rendered
  split <;> rfl

namespace Context

variable {left right : FlowId}

/-- Flows show what is known of their type terms. -/
def Rendered (ctx : Context) : Prop :=
  ∀ flow term, (ctx.flows.get flow).term = some term →
    (ctx.flows.get flow).type = ctx.terms.render term ∧
      (ctx.flows.get flow).lifetime = ctx.terms.lifetimeOf term

theorem rendered_resolveAll (ctx : Context) :
    Rendered { ctx with flows := ctx.flows.resolveAll ctx.terms } := by
  intro flow term ht
  simp only [FlowStore.get_resolveAll, FlowStore.term_rendered] at ht ⊢
  rw [FlowStore.rendered, ht]
  exact ⟨rfl, rfl⟩

theorem Stands.of_resolveAll {kept : Facades → BorrowGroups → Prop} (h : ctx.Stands fixed kept) :
    ctx.Grows fixed { ctx with flows := ctx.flows.resolveAll ctx.terms } ∧
      ({ ctx with flows := ctx.flows.resolveAll ctx.terms } : Context).Stands fixed
        kept := by
  have ht : ∀ flow, ((ctx.flows.resolveAll ctx.terms).get flow).term =
      (ctx.flows.get flow).term := by
    intro flow
    rw [FlowStore.get_resolveAll, FlowStore.term_rendered]
  constructor
  · refine grows_of_flows (fun _ _ hsame => hsame) fun flow term hf => ?_
    exact ⟨term, (ht flow).trans hf, fun _ => .refl term⟩
  · exact h.of_flows fun flow term hf =>
      h.typed.flows flow term ((ht flow).symm.trans hf)

theorem Agreeing.resembles (h : ctx.Agreeing fixed left right) (hrendered : ctx.Rendered)
    (hclean : ctx.isClean = true) :
    (ctx.flows.get left).type.Resembles fixed (ctx.flows.get right).type := by
  obtain ⟨term, ⟨first, hfirst, halike⟩, second, hsecond, halike'⟩ := h
  rw [(hrendered left first hfirst).1, (hrendered right second hsecond).1]
  exact ((halike hclean).symm.trans (halike' hclean)).resembles

end Context

/-- The source and the sink of every wire show types that resemble each other. A sink that still has
to be borrowed shows what its wire supplies, and any other one what its node takes. A sink that has
been lent its value shows the very type that its wire supplies. -/
def Graph.Matched (fixed : Prop) (flows : FlowStore) (lent todo : List PortId) (g : Graph)
    (facades : Facades) : Prop :=
  ∀ source, ∀ sink ∈ g.sinksAt source, ∃ facade facade',
    facades.get? source = some facade ∧ facades.get? sink = some facade' ∧
      (flows.get facade.wireSide).type.Resembles (fixed ∨ sink ∈ lent ∧ sink ∉ todo)
        (flows.get (if sink ∈ todo then facade'.wireSide else facade'.nodeSide)).type

def Context.borrowedIn (ctx : Context) (g : Graph) : List PortId :=
  ctx.groups.groups.toList.flatMap (·.borrowedIn g)

section Unified

theorem Context.Unified.placed {left : PortId → Prop} (h : ctx.Unified fixed g start left)
    (harranged : g.Arranged start.facades start.groups)
    (hd : ctx.groups.groups[id]? = some data) : data.Placed g ctx.facades id := by
  rw [h.facades_eq]
  obtain ⟨-, done, hstands, -⟩ := h
  obtain ⟨group, hgroup, hstatic⟩ := hstands.kept.follows.exists_static hd
  exact (harranged.placed id group hgroup).of_static_eq hstatic

section

variable (h : ctx.Unified fixed g start fun _ => False) (hc : g.Consistent)
  (harranged : g.Arranged start.facades start.groups)
include h hc harranged

theorem Context.Unified.isSome_decision (hd : ctx.groups.groups[id]? = some data)
    (hmember : member ∈ data.wiredIn g) : data.decision.isSome = true := by
  have hplaced := h.placed harranged hd
  rw [h.facades_eq] at hplaced
  obtain ⟨-, done, hstands, -, hcovers⟩ := h
  refine (hstands.kept.counts id data hd).isSome_decision hplaced ?_ hmember
  intro other ho
  obtain ⟨source, hsource⟩ :=
    (hplaced.mem_wiredIn_iff hc (List.mem_filter.mp ho).1).mp ho
  exact (hcovers source other.port hsource).resolve_right fun hl => hl

theorem Context.Unified.handsBack (hd : ctx.groups.groups[id]? = some data) :
    ∀ member ∈ data.members, ∀ output, member.pairedOutput = some output →
      ctx.HandsBack g (data.decision.any Decision.isBorrow) member output := by
  have ⟨_, done, hstands, hsettled, _⟩ := h
  apply (hsettled.enacted id data hd).returns
  rcases hwired : data.wiredIn g with _ | ⟨member, rest⟩
  · rw [(hstands.kept.counts id data hd).wired, hwired]
    exact .inl rfl
  · exact .inr (h.isSome_decision hc harranged hd (hwired ▸ List.mem_cons_self))

theorem Context.Unified.matched (hrendered : ctx.Rendered) (hclean : ctx.isClean = true) :
    g.Matched fixed ctx.flows (ctx.borrowedIn g) (ctx.borrowedIn g) ctx.facades := by
  intro source sink hsink
  have ⟨_, done, hstands, hsettled, hcovers⟩ := h
  have hdone : sink ∈ done := (hcovers source sink hsink).resolve_right id
  obtain ⟨⟨facade, facade', hfacade, hfacade', hagree⟩, -⟩ :=
    hsettled.wires sink hdone source hsink
  refine ⟨facade, facade', hfacade, hfacade', DataType.Resembles.mono ?_
    fun hcase => hcase.resolve_right fun hlent => hlent.2 hlent.1⟩
  apply (hagree.resembles hrendered hclean).trans
  -- what is left is that the two sides of the sink agree, unless it is to be borrowed
  split
  · exact .refl fixed _
  rename_i hkeeps
  have hfaced : start.facades.get? sink = some facade' := h.facades_eq ▸ hfacade'
  cases hgroup : facade'.group? with
  | none =>
    obtain ⟨_, port, -, hport, -, hinput, -⟩ := hc.ends hsink
    rw [harranged.plain sink port facade' hport hinput hfaced hgroup]
    exact .refl fixed _
  | some id =>
    obtain ⟨nodeSide, wireSide, rfl⟩ := Facade.exists_of_group? hgroup
    obtain ⟨group, hf, member, hmember, rfl⟩ := harranged.joined hfaced
    obtain ⟨data, hd, hstatic⟩ := hstands.kept.follows.symm.exists_static hf
    rw [(BorrowGroup.of_static_eq hstatic).2.2.1] at hmember
    have hwired : member ∈ data.wiredIn g :=
      ((h.placed harranged hd).mem_wiredIn_iff hc hmember).mpr ⟨source, hsink⟩
    obtain ⟨decision, hdecision⟩ :=
      Option.isSome_iff_exists.mp (h.isSome_decision hc harranged hd hwired)
    cases decision with
    | borrow mutable lifetime =>
      refine absurd (List.mem_flatMap.mpr ⟨data, ?_, ?_⟩) hkeeps
      · exact Array.mem_toList_iff.mpr (Array.mem_of_getElem? hd)
      · rw [BorrowGroup.borrowedIn_of_borrow hdecision]
        exact List.mem_map_of_mem hwired
    | reuse lifetime =>
      obtain ⟨found, hf', htakes⟩ :=
        (hsettled.enacted id data hd).takes _ hdecision member hwired
      cases hfacade'.symm.trans hf'
      exact htakes.resembles hrendered hclean

end

end Unified

/-! ## The pass -/

/-- In the end every sink is done, and types are rendered from their terms. -/
theorem Pass.ends_unifyWires (hw : g.WellFormed) (hc : g.Consistent)
    (h : ctx.Stands fixed g.Arranged) (hord : g.visitOrder = .ok ctx.order) :
    Yields (unifyWires g) ctx fun _ ctx' =>
        ctx'.Unified fixed g ctx (fun _ => False) ∧ ctx'.Rendered := by
  apply (ends_countWired h).seq
  rintro _ ctx1 ⟨hg1, hstands1, hundecided⟩
  rw [← hg1.order] at hord
  apply Ends.bind
  apply Ends.get
  have hstands1' : ctx1.Stands fixed fun facades groups =>
      facades = ctx1.facades ∧ groups = ctx1.groups := hstands1.exact
  apply (progress_settleUnwired hstands1').bind_ends
  intro _ ctx2 hg2 hstands2 hunwired
  obtain ⟨hfacades2, hgroups2⟩ := hstands2.kept
  have hunified2 : ctx2.Unified fixed g ctx fun _ => True := by
    refine ⟨hg1.trans hg2, [], ⟨hstands2.typed, ?_⟩, ⟨?_, by simp⟩, fun _ _ _ => .inr trivial⟩
    · rw [hfacades2, hgroups2]
      exact hstands1.kept
    · intro id data hd
      rw [hgroups2] at hd
      have hnone := hundecided id data hd
      refine ⟨by simp [hnone], ?_⟩
      rw [hnone]
      exact fun hwired => hunwired id data hd (hwired.resolve_right (by simp))
  apply (ends_unifyNodes hw hc hord hunified2).seq
  intro _ ctx3 hunified3
  obtain ⟨hg4, hstands4⟩ := hunified3.stands.of_resolveAll
  exact ends_modify ⟨hunified3.of_grows hg4 hstands4, ctx3.rendered_resolveAll⟩

/-- What the first two passes have found out: groups are placed, and if nothing has been reported,
then types match along every wire. -/
structure Context.Ready (fixed : Prop) (g : Graph) (ctx : Context) : Prop where
  placed : ∀ (id : GroupId) (data : BorrowGroup), ctx.groups.groups[id]? = some data →
    data.Placed g ctx.facades id
  matched : ctx.isClean = true → g.Matched fixed ctx.flows
    (ctx.borrowedIn g) (ctx.borrowedIn g) ctx.facades

theorem Context.Unified.ready (h : ctx.Unified fixed g start fun _ => False) (hc : g.Consistent)
    (harranged : g.Arranged start.facades start.groups) (hrendered : ctx.Rendered) :
    ctx.Ready fixed g :=
  ⟨fun _ _ hd => h.placed harranged hd, h.matched hc harranged hrendered⟩

end BorrowFlow
