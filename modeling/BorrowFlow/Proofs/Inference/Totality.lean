import BorrowFlow.Proofs.Inference.Admission
import BorrowFlow.Proofs.Inference.Settling

/-!
# Unifying the wires does not fail

Once every port has its facade, the second pass finds everything that it asks for: both ends of a
wire are faced, the members of a group and the outputs paired with them are ports of the graph, and
no group is decided twice.
-/

namespace BorrowFlow

variable {groups groups' : BorrowGroups} {g : Graph} {facades : Facades} {ctx : Context}
  {borrowed mutable : Bool} {facade : Facade} {source : FlowId} {data : BorrowGroup} {id : GroupId}

theorem FlowStore.size_resolveAll (s : FlowStore) (terms : TermStore) :
    (s.resolveAll terms).size = s.size := by
  simp [resolveAll, size, Classes.size, Classes.mapValues]

theorem FlowStore.IsTyped.resolveAll {s : FlowStore} (h : s.IsTyped) (terms : TermStore) :
    (s.resolveAll terms).IsTyped := by
  intro flow hflow
  obtain ⟨term, ht⟩ := h flow hflow
  have hvalue : (s.resolveAll terms).classes.value? flow = _ :=
    s.classes.value?_mapValues (rendered terms) flow
  rw [value?_of_term ht] at hvalue
  refine ⟨term, ?_⟩
  rw [get, hvalue, Option.map_some, Option.getD_some, rendered, ht]

theorem BorrowGroups.Follows.size_le (h : groups.Follows groups') : groups'.size ≤ groups.size := by
  apply Nat.le_of_not_lt
  intro hlt
  obtain ⟨data, hd, -⟩ := h.symm.exists_static (Array.getElem?_eq_getElem hlt)
  exact Nat.lt_irrefl _ (Array.getElem?_eq_some_iff.mp hd).1

/-! ## What the second pass relies on -/

/-- The ports of the graph have facades, and no other ports have. A facade names a group that
exists, and groups have their members in the graph. -/
structure Graph.Assembled (g : Graph) (facades : Facades) (groups : BorrowGroups) : Prop where
  faced : ∀ port, port < g.ports.size → ∃ facade, facades.get? port = some facade
  known : ∀ port facade, facades.get? port = some facade → port < g.ports.size
  group : ∀ port facade id, facades.get? port = some facade → facade.group? = some id →
    id < groups.size
  scope : ∀ (id : GroupId) (data : BorrowGroup), groups.groups[id]? = some data →
    data.scope < g.scopes.size
  member : ∀ (id : GroupId) (data : BorrowGroup), groups.groups[id]? = some data →
    ∀ member ∈ data.members, member.port < g.ports.size ∧
      ∀ output, member.pairedOutput = some output → output < g.ports.size

namespace Graph

theorem Faces.lt_size {direction : Direction} {scope : ScopeId} {host : NodeId} {port : PortId}
    (h : g.Faces direction scope host port) : port < g.ports.size := by
  obtain ⟨data, hd, -⟩ := h.port
  exact lt_size_of_port hd

theorem Assembled.of_follows (h : g.Assembled facades groups)
    (hfollows : groups'.Follows groups) : g.Assembled facades groups' where
  __ := h
  group port facade id hfacade hgroup :=
    Nat.lt_of_lt_of_le (h.group port facade id hfacade hgroup) hfollows.size_le
  scope id data hd := by
    obtain ⟨found, hf, hstatic⟩ := hfollows.exists_static hd
    rw [(BorrowGroup.of_static_eq hstatic).2.1]
    exact h.scope id found hf
  member id data hd := by
    obtain ⟨found, hf, hstatic⟩ := hfollows.exists_static hd
    rw [(BorrowGroup.of_static_eq hstatic).2.2.1]
    exact h.member id found hf

theorem Assembled.modify (h : g.Assembled facades groups) {change : BorrowGroup → BorrowGroup}
    (hchange : ∀ data, (change data).static = data.static) (id : GroupId) :
    g.Assembled facades (groups.modify id change) :=
  h.of_follows (BorrowGroups.Follows.modify (fun _ => rfl) id hchange)

theorem exists_isConnected {port : PortId} (h : port < g.ports.size) :
    ∃ connected, g.isConnected port = .ok connected := by
  unfold isConnected getPort
  rw [Array.getElem?_eq_getElem h]
  exact ⟨_, rfl⟩

end Graph

theorem Draft.Ready.assembled {d : Draft} (h : d.Ready g []) (hw : g.WellFormed) :
    g.Assembled d.facades d.groups where
  faced port hport := h.awaits.faced port hport List.not_mem_nil
  known := h.awaits.known
  group port facade id hfacade hgroup := by
    obtain ⟨nodeSide, wireSide, rfl⟩ := Facade.exists_of_group? hgroup
    obtain ⟨group, hf, -⟩ := h.lawful.arranged.joined hfacade
    exact (Array.getElem?_eq_some_iff.mp hf).1
  scope id data hd := by
    obtain ⟨node, hnode, hscope⟩ := Option.map_eq_some_iff.mp (h.lawful.serves id data hd).2
    exact hscope ▸ hw.nested.scope_lt hnode
  member id data hd member hmember := by
    have hplaced := h.lawful.arranged.placed id data hd
    exact ⟨(hplaced.inputs member hmember).lt_size,
      fun output houtput => (hplaced.outputs member hmember output houtput).lt_size⟩

theorem BorrowGroup.wiredMembers_eq_ok {group : BorrowGroup}
    (h : ∀ member ∈ group.members, member.port < g.ports.size) :
    group.wiredMembers g = .ok (group.wiredIn g) := by
  obtain ⟨wired, hwired⟩ := exists_filterM_ok fun member hmember =>
    Graph.exists_isConnected (h member hmember)
  obtain rfl := BorrowGroup.wiredMembers_eq hwired
  exact hwired

theorem BorrowGroups.arrive_eq (hd : groups.groups[id]? = some data) :
    groups.arrive id = .ok (data.decision.isNone && data.received + 1 = data.wired,
      groups.modify id fun group => { group with received := data.received + 1 }) := by
  unfold arrive
  rw [get_eq_ok.mpr hd]
  rfl

theorem BorrowGroups.decide_eq (hd : groups.groups[id]? = some data)
    (hundecided : data.decision = none) (decision : Decision) :
    groups.decide id decision =
      .ok (groups.modify id fun data => { data with decision := some decision }) := by
  unfold decide
  rw [get_eq_ok.mpr hd]
  simp only [bind, Except.bind, hundecided]
  rfl

theorem LifetimeForest.hasGraph_addOutlives (forest : LifetimeForest) (longer shorter : Lifetime)
    (scope : ScopeId) :
    (forest.addOutlives longer shorter).hasGraph scope = forest.hasGraph scope := by
  unfold addOutlives
  split
  · split <;> rfl
  · rfl

namespace Pass

variable {kept : Facades → BorrowGroups → Prop} {failed : Fault → Prop}

/-! ## Outputs that hand something back -/

theorem covers_settleOutput {member : GroupMember} {output : PortId} {facade' : Facade}
    (hmember : member.port < g.ports.size)
    (hfacade : ctx.facades.get? member.port = some facade)
    (hfacade' : ctx.facades.get? output = some facade') :
    Covers g kept failed (settleOutput g borrowed member output) ctx [] fun _ _ => True := by
  apply Covers.of_awaits
  intro todo hawaits
  have hwire := (hawaits.sides member.port facade hfacade).2
  obtain ⟨hnode', hwire'⟩ := hawaits.sides output facade' hfacade'
  apply (Covers.ask (Facades.get_eq_ok.mpr hfacade')).step
  rintro _ _ - ⟨rfl, rfl⟩
  obtain ⟨connected, hconnected⟩ := Graph.exists_isConnected hmember
  apply (Covers.lift hconnected).step
  rintro _ _ - ⟨rfl, rfl⟩
  have hsettle : ∀ handedBack, handedBack < ctx.flows.size → Covers g kept failed (do
          let expected ← termOf facade'.wireSide
          let supplied ← termOf handedBack
          unifyAt output expected supplied
          modifyFlows (·.merge facade'.wireSide handedBack)) ctx [] fun _ _ => True := by
    intro handedBack hlt
    apply (covers_termOf hwire').step
    rintro expected _ - rfl
    apply (covers_termOf hlt).step
    rintro supplied _ - rfl
    apply covers_unifyAt.step
    intro _ ctx' hexpands _
    exact covers_modifyFlows (FlowStore.size_merge ..) fun htyped =>
      htyped.merge (Nat.lt_of_lt_of_le hwire' hexpands.flows)
      (Nat.lt_of_lt_of_le hlt hexpands.flows)
  split
  · apply (Covers.ask (Facades.wireSide_eq_ok.mpr ⟨facade, hfacade, rfl⟩)).step
    rintro _ _ - ⟨rfl, rfl⟩
    exact hsettle _ hwire
  · exact hsettle _ hnode'

theorem covers_settleOutputs (hassembled : g.Assembled ctx.facades ctx.groups)
    (hd : ctx.groups.groups[id]? = some data) :
    Covers g kept failed (settleOutputs g id borrowed) ctx [] fun _ _ => True := by
  apply (Covers.ask (BorrowGroups.get_eq_ok.mpr hd)).step
  rintro _ _ - ⟨rfl, rfl⟩
  apply Covers.forAll
  intro member hmember ctx' hexpands
  obtain ⟨hport, hpaired⟩ := hassembled.member id data hd member hmember
  split
  · rename_i output houtput
    obtain ⟨facade, hfacade⟩ := hassembled.faced member.port hport
    obtain ⟨facade', hfacade'⟩ := hassembled.faced output (hpaired output houtput)
    exact covers_settleOutput hport (hexpands.facades _ _ hfacade) (hexpands.facades _ _ hfacade')
  · exact .pure trivial

/-! ## Deciding groups -/

theorem covers_supplyOf {member : GroupMember}
    (hfacade : ctx.facades.get? member.port = some facade) :
    Covers g kept failed (supplyOf member) ctx []
      fun supplied ctx' => ∃ facade, ctx'.facades.get? supplied.port = some facade := by
  apply Covers.of_awaits
  intro todo hawaits
  apply (Covers.ask (Facades.wireSide_eq_ok.mpr ⟨facade, hfacade, rfl⟩)).step
  rintro _ _ - ⟨rfl, rfl⟩
  apply (covers_termOf (hawaits.sides member.port facade hfacade).2).step
  rintro term _ - rfl
  apply Covers.get.step
  rintro _ _ - ⟨rfl, rfl⟩
  exact .pure ⟨facade, hfacade⟩

theorem covers_beginBorrow {lifetime : Lifetime} {member : SuppliedMember} :
    Covers g kept failed (beginBorrow lifetime member) ctx [] fun _ _ => True := by
  unfold beginBorrow
  split
  · refine .of_ok rfl ⟨Nat.le_refl _, Nat.le_refl _, fun _ _ h => h⟩ (fun _ h => ?_) trivial
    refine h.of_lifetimes fun scope hscope => ?_
    rw [LifetimeForest.hasGraph_addOutlives]
    exact hscope
  · exact covers_interrupt

theorem covers_makeDecision {group : BorrowGroup} {supplied : List SuppliedMember}
    (hscope : group.scope < g.scopes.size) :
    Covers g kept failed (makeDecision group supplied) ctx [] fun _ _ => True := by
  have hresolve : ∀ {term lifetime ctx},
      Covers g kept failed (resolveLifetime term lifetime) ctx [] fun _ _ => True :=
    .of_frame rfl rfl rfl rfl rfl
  unfold makeDecision
  split
  · apply hresolve.step
    intro _ ctx1 _ _
    exact .pure trivial
  · apply (covers_carveLifetime hscope).step
    intro lifetime ctx1 _ _
    apply hresolve.step
    intro _ ctx2 _ _
    refine (Covers.forAll fun member _ ctx3 _ => covers_beginBorrow).step ?_
    intro _ ctx3 _ _
    exact .pure trivial

theorem covers_deriveReference {lifetimeTerm : TermId} {decision : Decision}
    {member : SuppliedMember} (hfacade : ctx.facades.get? member.port = some facade) :
    Covers g kept failed (deriveReference lifetimeTerm decision member) ctx [] fun _ _ => True := by
  apply Covers.of_awaits
  intro todo hawaits
  have hnode := (hawaits.sides member.port facade hfacade).1
  apply Covers.get.step
  rintro _ _ - ⟨rfl, rfl⟩
  have hderive : ∀ mutable underlying, Covers g kept failed (do
          let derived ← newTerm (·.newReference (.fixed mutable) underlying lifetimeTerm)
          let nodeSide ← ask (·.facades.nodeSide member.port)
          let expected ← termOf nodeSide
          unifyAt member.port expected derived) ctx [] fun _ _ => True := by
    intro mutable underlying
    apply covers_newTerm.step
    intro derived ctx1 hexpands1 _
    apply (Covers.ask
      (Facades.nodeSide_eq_ok.mpr ⟨facade, hexpands1.facades _ _ hfacade, rfl⟩)).step
    rintro _ _ - ⟨rfl, rfl⟩
    apply (covers_termOf (Nat.lt_of_lt_of_le hnode hexpands1.flows)).step
    rintro expected _ - rfl
    exact covers_unifyAt
  exact hderive _ _

theorem covers_decideGroup (hd : ctx.groups.groups[id]? = some data)
    (hundecided : data.decision = none) :
    Covers g g.Assembled failed (decideGroup g id) ctx [] fun _ _ => True := by
  apply Covers.of_awaits
  intro todo hawaits
  have hassembled := hawaits.kept
  have hwired := BorrowGroup.wiredMembers_eq_ok fun member hmember =>
    (hassembled.member id data hd member hmember).1
  apply (Covers.ask (BorrowGroups.get_eq_ok.mpr hd)).step
  rintro _ _ - ⟨rfl, rfl⟩
  apply (Covers.lift hwired).step
  rintro _ _ - ⟨rfl, rfl⟩
  -- up to the decision itself, groups stay as they are
  have hsupplied : Covers g (fun facades groups => facades = ctx.facades ∧ groups = ctx.groups)
      failed ((data.wiredIn g).mapM supplyOf) ctx []
      fun supplied ctx' => supplied.length = (data.wiredIn g).length ∧
        ∀ member ∈ supplied, ∃ facade, ctx'.facades.get? member.port = some facade := by
    refine Covers.mapAll (fun (member : SuppliedMember) ctx' =>
      ∃ facade, ctx'.facades.get? member.port = some facade) ?_ ?_
    · rintro _ _ _ hexpands ⟨facade, hfacade⟩
      exact ⟨facade, hexpands.facades _ _ hfacade⟩
    · intro member hmember ctx' hexpands
      obtain ⟨hport, -⟩ := hassembled.member id data hd member (List.mem_filter.mp hmember).1
      obtain ⟨facade, hfacade⟩ := hassembled.faced member.port hport
      exact covers_supplyOf (hexpands.facades _ _ hfacade)
  apply hsupplied.of_exact.step
  rintro supplied ctx1 _ ⟨hfacades1, hgroups1, -, hfaced⟩
  apply (covers_makeDecision (hassembled.scope id data hd)).of_exact.step
  rintro decision ctx2 hexpands2 ⟨hfacades2, hgroups2, -⟩
  have hderived : Covers g
      (fun facades groups => facades = ctx2.facades ∧ groups = ctx2.groups) failed
      (supplied.forM (deriveReference data.lifetimeTerm decision)) ctx2 []
      fun _ _ => True := by
    apply Covers.forAll
    intro member hmember ctx' hexpands
    obtain ⟨facade, hfacade⟩ := hfaced member hmember
    exact covers_deriveReference ((hexpands2.trans hexpands).facades _ _ hfacade)
  apply hderived.of_exact.step
  rintro _ ctx3 _ ⟨hfacades3, hgroups3, -⟩
  have hgroups : ctx3.groups = ctx.groups := hgroups3.trans (hgroups2.trans hgroups1)
  have hd3 : ctx3.groups.groups[id]? = some data := hgroups ▸ hd
  have hkept : g.Assembled ctx3.facades ctx3.groups → g.Assembled ctx3.facades
        (ctx3.groups.modify id fun data => { data with decision := some decision }) := by
    intro h
    apply h.modify
    exact fun _ => rfl
  apply (covers_changeGroups (BorrowGroups.decide_eq hd3 hundecided decision)
    (BorrowGroups.size_modify ..) hkept).step
  intro _ ctx4 _ hgroups4
  apply covers_count.of_exact.step
  rintro _ ctx5 _ ⟨-, hgroups5, -⟩
  have hd5 : ctx5.groups.groups[id]? = some { data with decision := some decision } := by
    rw [hgroups5, hgroups4, BorrowGroups.getElem?_modify_self hd3]
  apply Covers.of_awaits
  intro todo5 hawaits5
  exact covers_settleOutputs hawaits5.kept hd5

/-! ## Sinks -/

theorem covers_arriveAt (hgroup : id < ctx.groups.size) :
    Covers g g.Assembled failed (arriveAt g id) ctx [] fun _ _ => True := by
  obtain ⟨data, hd⟩ : ∃ data, ctx.groups.groups[id]? = some data :=
    ⟨_, Array.getElem?_eq_getElem hgroup⟩
  apply (Covers.ask (BorrowGroups.arrive_eq hd)).step
  rintro _ _ - ⟨rfl, rfl⟩
  have hkept : g.Assembled ctx.facades ctx.groups →
      g.Assembled ctx.facades (ctx.groups.modify id fun group =>
        { group with received := data.received + 1 }) := by
    intro h
    apply h.modify
    exact fun _ => rfl
  apply (covers_setGroups (BorrowGroups.size_modify ..) hkept).step
  intro _ ctx1 _ hgroups1
  split
  · rename_i hready
    have hundecided := Option.isNone_iff_eq_none.mp (Bool.and_eq_true_iff.mp hready).1
    have hd1 : ctx1.groups.groups[id]? =
        some { data with received := data.received + 1 } := by
      rw [hgroups1, BorrowGroups.getElem?_modify_self hd]
    exact covers_decideGroup hd1 hundecided
  · exact .pure trivial

theorem covers_joinSink {sink : FlowId} {shared : Bool} (hsource : source < ctx.flows.size)
    (hsink : sink < ctx.flows.size) :
    Covers g kept failed (joinSink source sink shared mutable) ctx [] fun _ _ => True := by
  unfold joinSink
  split
  · exact covers_modifyFlows (FlowStore.size_merge ..) fun htyped => htyped.merge hsink hsource
  · refine covers_modifyFlows (FlowStore.size_setMutable ..) fun htyped flow hflow => ?_
    rw [FlowStore.term_setMutable]
    exact htyped flow hflow

theorem covers_unifySink {shared : Bool} {supplied : TermId} {sink : PortId}
    (hsource : source < ctx.flows.size) (hsink : sink < g.ports.size) :
    Covers g g.Assembled failed (unifySink g source mutable shared supplied sink)
      ctx [] fun _ _ => True := by
  apply Covers.of_awaits
  intro todo hawaits
  obtain ⟨facade, hfacade⟩ := hawaits.kept.faced sink hsink
  have hwire := (hawaits.sides sink facade hfacade).2
  apply (Covers.ask (Facades.wireSide_eq_ok.mpr ⟨facade, hfacade, rfl⟩)).step
  rintro _ _ - ⟨rfl, rfl⟩
  apply (covers_termOf hwire).step
  rintro expected _ - rfl
  apply covers_unifyAt.step
  intro _ ctx1 hexpands1 _
  apply (covers_joinSink (Nat.lt_of_lt_of_le hsource hexpands1.flows)
    (Nat.lt_of_lt_of_le hwire hexpands1.flows)).step
  intro _ ctx2 hexpands2 _
  have hfacade2 := (hexpands1.trans hexpands2).facades sink facade hfacade
  apply (Covers.ask (Facades.get_eq_ok.mpr hfacade2)).step
  rintro _ _ - ⟨rfl, rfl⟩
  split
  · rename_i group hgroup
    apply Covers.of_awaits
    intro todo2 hawaits2
    apply (covers_arriveAt (hawaits2.kept.group sink facade group hfacade2 hgroup)).step
    intro _ ctx3 _ _
    exact .pure trivial
  · exact .pure trivial

/-! ## Wires -/

theorem covers_requireCopy {source : PortId} {term : TermId} :
    Covers g kept failed (requireCopy source term) ctx [] fun _ _ => True := by
  apply covers_newTerm.step
  intro copyable ctx1 _ _
  exact covers_unifyAt

theorem covers_unifySinks {term : TermId} {sinks : List PortId}
    (hsource : source < ctx.flows.size) (hsinks : ∀ sink ∈ sinks, sink < g.ports.size) :
    Covers g g.Assembled failed
      (match sinks with
        | [] => pure ()
        | first :: rest => do
          let firstTerm ← unifySink g source mutable true term first
          rest.forM fun sink =>
            discard (unifySink g source mutable borrowed firstTerm sink))
      ctx [] fun _ _ => True := by
  cases sinks with
  | nil => exact .pure trivial
  | cons first rest =>
    obtain ⟨hfirst, hrest⟩ := List.forall_mem_cons.mp hsinks
    apply (covers_unifySink hsource hfirst).step
    intro firstTerm ctx1 hexpands1 _
    apply Covers.forAll
    intro sink hsink ctx2 hexpands2 todo hawaits
    apply Meets.discard
    exact covers_unifySink
      (Nat.lt_of_lt_of_le hsource (hexpands1.trans hexpands2).flows) (hrest sink hsink) todo hawaits

theorem covers_unifyWire {source : PortId} {sinks : List PortId}
    (hsource : source < g.ports.size) (hsinks : ∀ sink ∈ sinks, sink < g.ports.size) :
    Covers g g.Assembled failed (unifyWire g source sinks) ctx [] fun _ _ => True := by
  apply Covers.of_awaits
  intro todo hawaits
  obtain ⟨facade, hfacade⟩ := hawaits.kept.faced source hsource
  have hwire := (hawaits.sides source facade hfacade).2
  apply (Covers.ask (Facades.wireSide_eq_ok.mpr ⟨facade, hfacade, rfl⟩)).step
  rintro _ _ - ⟨rfl, rfl⟩
  apply (covers_termOf hwire).step
  rintro term _ - rfl
  apply Covers.get.step
  rintro _ _ - ⟨rfl, rfl⟩
  dsimp only
  split
  · apply covers_requireCopy.step
    intro _ ctx1 hexpands1 _
    exact covers_unifySinks (Nat.lt_of_lt_of_le hwire hexpands1.flows) hsinks
  · exact covers_unifySinks hwire hsinks

theorem covers_unifyOutput (hc : g.Consistent) {output : PortId} {port : Port}
    (hport : g.ports[output]? = some port) :
    Covers g g.Assembled failed (unifyOutput g output) ctx [] fun _ _ => True := by
  apply (Covers.lift (hc.sinksOf_eq hport)).step
  rintro _ _ - ⟨rfl, rfl⟩
  split
  · refine (covers_unifyWire (Graph.lt_size_of_port hport) ?_).step ?_
    · intro sink hsink
      obtain ⟨_, found, -, hf, -⟩ := hc.ends hsink
      exact Graph.lt_size_of_port hf
    · intro _ ctx1 _ _
      exact covers_count
  · exact .pure trivial

/-! ## The pass -/

theorem meets_countGroup (hassembled : g.Assembled facades groups) (h : groups'.Follows groups)
    (hid : id < groups.size) :
    Meets (BorrowGroups.countGroup g id) groups' (fun _ counted => counted.Follows groups)
      fun _ _ => False := by
  obtain ⟨data, hd, -⟩ := h.symm.exists_static (Array.getElem?_eq_getElem hid)
  have hwired := BorrowGroup.wiredMembers_eq_ok fun member hmember =>
    ((hassembled.of_follows h).member id data hd member hmember).1
  apply Meets.bind
  apply Meets.bind
  apply Meets.lift
  · intro found hf
    cases (BorrowGroups.get_eq_ok.mpr hd).symm.trans hf
    apply Meets.bind
    apply Meets.lift
    · intro wired _
      exact h.modify id
    · intro fault hfault
      cases hwired.symm.trans hfault
  · intro fault hfault
    cases (BorrowGroups.get_eq_ok.mpr hd).symm.trans hfault

theorem covers_countWired : Covers g g.Assembled failed (countWired g) ctx []
      fun _ ctx' => ctx'.order = ctx.order := by
  intro todo hawaits
  apply Meets.of_part (countWired_eq g ctx)
  have hcount : Meets (BorrowGroups.countWired g) ctx.groups
      (fun _ groups => groups.Follows ctx.groups) fun _ _ => False := by
    apply Meets.bind
    apply Meets.forM fun ids groups => groups.Follows ctx.groups ∧ ∀ id ∈ ids, id < ctx.groups.size
    · exact ⟨fun _ => rfl, fun _ hid => List.mem_range.mp hid⟩
    · rintro id rest groups ⟨hfollows, hids⟩
      obtain ⟨hid, hrest⟩ := List.forall_mem_cons.mp hids
      apply (meets_countGroup hawaits.kept hfollows hid).mono ?_ fun _ _ => False.elim
      intro _ counted hcounted
      exact ⟨hcounted, hrest⟩
    · exact fun _ h => h.1
  apply hcount.mono ?_ fun _ _ => False.elim
  intro _ groups hfollows
  refine ⟨⟨Nat.le_refl _, ?_, fun _ _ h => h⟩, hawaits.of_groups ?_, rfl⟩
  · exact hfollows.size_le
  · exact hawaits.kept.of_follows hfollows

theorem meets_unifyWires (hw : g.WellFormed) (hc : g.Consistent) (hl : g.Layered)
    (h : g.Awaits g.Assembled [] ctx) (hord : g.visitOrder = .ok ctx.order) :
    Meets (unifyWires g) ctx (fun _ ctx' => g.Awaits g.Assembled [] ctx') fun _ _ => False := by
  have hcovers : Covers g g.Assembled (fun _ => False) (unifyWires g) ctx [] fun _ _ => True := by
    apply covers_countWired.step
    intro _ ctx1 _ hord1
    apply Covers.get.step
    rintro _ _ - ⟨rfl, rfl⟩
    have hsettle : Covers g g.Assembled (fun _ => False)
        ((unwiredGroups ctx1.groups).forM fun group => settleOutputs g group false)
        ctx1 [] fun _ _ => True := by
      apply Covers.forAll
      intro id hid ctx2 hexpands
      have hlt : id < ctx2.groups.size :=
        Nat.lt_of_lt_of_le (List.mem_range.mp (List.mem_filter.mp hid).1) hexpands.groups
      apply Covers.of_awaits
      intro todo hawaits
      exact covers_settleOutputs hawaits.kept (Array.getElem?_eq_getElem hlt)
    apply hsettle.step
    intro _ ctx2 _ _
    have hnodes : Covers g g.Assembled (fun _ => False)
        (ctx1.order.forM fun n => show Pass Unit from do
          let node ← g.getNode n
          node.outputs.forM (unifyOutput g)) ctx2 [] fun _ _ => True := by
      apply Covers.forAll
      intro n hn ctx3 _
      obtain ⟨node, hnode⟩ := hw.exists_of_mem_visitOrder hc hl hord (hord1 ▸ hn)
      apply (Covers.lift (Graph.getNode_eq_ok.mpr hnode)).step
      rintro _ _ - ⟨rfl, rfl⟩
      apply Covers.forAll
      intro output houtput ctx4 _
      change output ∈ node.portsOn .output at houtput
      obtain ⟨index, hindex⟩ := List.mem_iff_getElem?.mp houtput
      obtain ⟨port, hport, -⟩ := hw.seated.seat hnode hindex
      exact covers_unifyOutput hc hport
    apply hnodes.step
    intro _ ctx3 _ _
    refine .of_ok rfl ⟨Nat.le_of_eq (FlowStore.size_resolveAll ..).symm, Nat.le_refl _,
      fun _ _ hfacade => hfacade⟩ (fun _ hawaits => ?_) trivial
    exact hawaits.of_flows (Nat.le_of_eq (FlowStore.size_resolveAll ..).symm)
      (hawaits.typed.resolveAll _)
  apply (hcovers [] h).mono ?_ fun _ _ => id
  rintro _ ctx' ⟨-, hawaits, -⟩
  exact hawaits

end Pass

end BorrowFlow
