import BorrowFlow.Proofs.Inference.Accounting

/-!
# Every port is faced once and reported once

The first pass visits every node and faces every port: as many facades are counted as there are
ports. Members of borrow groups are the ports with a reference to take, each in one group. Insertion
faces the ports of the nodes that it adds, and shows them no flow that was not there before, so a
report has an entry for every port, read off the types and lifetimes that were known at the end.
-/

namespace BorrowFlow

variable {config : Config} {g : Graph} {ctx : Context} {report : Report} {facades : Facades}
  {port : PortId}

/-! ## Keys of maps -/

namespace IdMap

variable {α : Type} {map : IdMap α} {key : Nat}

def keys (map : IdMap α) : List Nat := map.entries.map Prod.fst

theorem nodup_keys (map : IdMap α) : map.keys.Nodup :=
  List.pairwise_map.mpr (map.ascending.imp Nat.ne_of_lt)

theorem contains_iff_mem_keys : map.contains key = true ↔ key ∈ map.keys := by
  simp [contains, get?, keys, List.find?_isSome]

theorem size_eq_length {keys : List Nat} (hnodup : keys.Nodup)
    (hm : ∀ key, map.contains key = true ↔ key ∈ keys) : map.size = keys.length := by
  have hperm : map.keys.Perm keys := (List.perm_ext_iff_of_nodup map.nodup_keys hnodup).mpr
    fun key => contains_iff_mem_keys.symm.trans (hm key)
  rw [size, ← hperm.length_eq, IdMap.keys, List.length_map]

theorem contains_insert (map : IdMap α) (key : Nat) (value : α) (other : Nat) :
    (map.insert key value).contains other = true ↔ other = key ∨ map.contains other = true := by
  unfold contains
  rw [get?_insert]
  split <;> simp [*]

theorem size_insert (map : IdMap α) (key : Nat) (value : α) :
    (map.insert key value).size = if map.contains key then map.size else map.size + 1 := by
  have hkeys : map.size = map.keys.length :=
    size_eq_length map.nodup_keys fun _ => contains_iff_mem_keys
  rw [hkeys]
  split <;> rename_i hcontains
  · refine size_eq_length map.nodup_keys fun other => ?_
    rw [contains_insert, ← contains_iff_mem_keys]
    refine or_iff_right_of_imp ?_
    rintro rfl
    exact hcontains
  · have hnodup : (key :: map.keys).Nodup :=
      List.nodup_cons.mpr ⟨contains_iff_mem_keys.not.mp hcontains, map.nodup_keys⟩
    refine size_eq_length hnodup fun other => ?_
    rw [contains_insert, List.mem_cons, contains_iff_mem_keys]

end IdMap

theorem Facades.size_set (table : Facades) (port : PortId) (facade : Facade) :
    (table.set port facade).size = if table.contains port then table.size else table.size + 1 :=
  table.byPort.size_insert port facade

/-! ## The numbers of the first pass -/

def Context.IsCounted (ctx : Context) : Prop :=
  ctx.stats.facadesCreated = ctx.facades.size

namespace Pass

theorem unfaced_isCounted : Unfaced Context.IsCounted where
  face port facade := by
    refine ⟨fun ctx => ?_⟩
    apply Ends.bind
    apply meets_insertFacade
    · intro hfresh
      refine ends_count (propext ?_)
      simp only [Context.IsCounted, Facades.size_set, hfresh]
      exact Nat.add_right_cancel_iff
    · intro htaken
      simp only [Context.IsCounted, Facades.size_set, htaken, if_true]
  shows hfacades hstats := by
    unfold Context.IsCounted
    rw [hfacades, hstats]

theorem keeps_isCounted_facePorts (config : Config) (g : Graph) :
    Keeps Context.IsCounted (facePorts config g) :=
  keeps_facePorts unfaced_isCounted (.count fun _ => rfl) config g

theorem unfaced_nodesVisited : Unfaced fun ctx => ctx.stats.nodesVisited where
  face port facade := by
    refine .bind ⟨fun ctx => ?_⟩ fun _ => .count fun _ => rfl
    exact ends_insertFacade (fun _ => rfl) rfl
  shows _ hstats := congrArg Stats.nodesVisited hstats

theorem ends_visitNode (config : Config) (g : Graph) (n : NodeId) (ctx : Context) :
    Yields (visitNode config g n) ctx
      fun _ ctx' => ctx'.stats.nodesVisited = ctx.stats.nodesVisited + 1 := by
  refine Yields.lift_bind fun node _ => ?_
  refine (keeps_faceNode unfaced_nodesVisited config g n node).bind_ends fun _ _ hfaced => ?_
  exact ends_count (congrArg (· + 1) hfaced)

theorem ends_visitNodes (config : Config) (g : Graph) (order : List NodeId) (ctx : Context) :
    Yields (order.forM (visitNode config g)) ctx fun _ ctx' =>
        ctx'.stats.nodesVisited = ctx.stats.nodesVisited + order.length := by
  induction order generalizing ctx with
  | nil => exact Ends.pure rfl
  | cons n rest ih =>
    refine Ends.bind (x := visitNode config g n) ?_
    apply (ends_visitNode config g n ctx).imp ?_
    intro _ ctx1 hvisited
    apply (ih ctx1).imp ?_
    intro _ ctx2 hrest
    rw [hrest, hvisited, List.length_cons]
    omega

theorem ends_facePorts_visits (config : Config) (g : Graph) : Yields (facePorts config g) {}
      fun _ ctx => ∃ order, g.visitOrder = .ok order ∧ ctx.stats.nodesVisited = order.length := by
  have hestablish : Keeps (fun ctx => ctx.stats)
      ((List.range g.scopes.size).forM (establishScope g)) :=
    .forM fun _ => (Keeps.lift _).bind fun _ => (Keeps.ask _).bind fun _ => .modify fun _ => rfl
  refine hestablish.bind_ends fun _ ctx1 hstats => ?_
  refine Yields.lift_bind fun order hord => ?_
  have hkeeps : Keeps (fun ctx => ctx.stats)
      (modify fun ctx => { ctx with order } : Pass PUnit) := .modify fun _ => rfl
  refine hkeeps.bind_ends fun _ ctx2 hstats' => ?_
  apply (ends_visitNodes config g order ctx2).imp ?_
  intro _ ctx3 hvisited
  refine ⟨order, hord, ?_⟩
  rw [hvisited, hstats', hstats, Nat.zero_add]

end Pass

theorem Run.ends_facePorts_visits :
    Yields facePorts { config, graph := g } fun _ state => ∃ order, g.visitOrder = .ok order ∧
        state.context.stats.nodesVisited = order.length :=
  (ends_facePorts_of (Pass.ends_facePorts_visits config g)).imp fun _ _ hvisits => hvisits.2

/-! ## Facades and members -/

/-- Every port of the graph has a facade and no other has, nodes and facades have been counted, and
reference inputs are the members of the groups: each of one group only, once, and on the node of
that group. -/
structure Context.FacesAll (ctx : Context) (g : Graph) : Prop where
  faced_iff : ∀ port, (∃ facade, ctx.facades.get? port = some facade) ↔ port < g.ports.size
  facadesCreated : ctx.stats.facadesCreated = g.ports.size
  nodesVisited : ctx.stats.nodesVisited = g.nodes.size
  member_iff : ∀ port (id : GroupId), (∃ nodeSide wireSide,
    ctx.facades.get? port = some (.referenceInput nodeSide wireSide id)) ↔ ctx.groups.Holds id port
  unique : ∀ port (id id' : GroupId), ctx.groups.Holds id port →
    ctx.groups.Holds id' port → id = id'
  once : ∀ (id : GroupId) (group : BorrowGroup), ctx.groups.groups[id]? = some group →
    (group.members.map GroupMember.port).Nodup ∧ ∀ member ∈ group.members,
      (g.ports[member.port]?).map Port.node = some group.node

namespace Graph

variable {after : Graph}

theorem Arranged.exists_referenceInput_iff {groups : BorrowGroups}
    (h : g.Arranged facades groups) (port : PortId) (id : GroupId) :
    (∃ nodeSide wireSide, facades.get? port = some (.referenceInput nodeSide wireSide id)) ↔
      groups.Holds id port := by
  constructor
  · intro hfacade
    obtain ⟨nodeSide, wireSide, hfacade⟩ := hfacade
    exact h.joined hfacade
  · intro hholds
    obtain ⟨group, hgroup, member, hmember, rfl⟩ := hholds
    exact (h.placed id group hgroup).takes member hmember

theorem Arranged.eq_of_holds {groups : BorrowGroups} (h : g.Arranged facades groups)
    {id id' : GroupId} (hid : groups.Holds id port) (hid' : groups.Holds id' port) : id = id' := by
  obtain ⟨_, _, hfacade⟩ := (h.exists_referenceInput_iff port id).mpr hid
  obtain ⟨_, _, hfacade'⟩ := (h.exists_referenceInput_iff port id').mpr hid'
  cases hfacade.symm.trans hfacade'
  rfl

theorem Built.facesAll (hb : g.Built) {faced : Inference}
    (hfaced : Run.facePorts { config, graph := g } = .ok () faced) :
    faced.context.FacesAll g := by
  have hw := hb.wellFormed
  have hc := hb.consistent
  have hl := hb.layered
  have hdone := (Run.meets_facePorts hw hc hl).of_eq_ok hfaced
  have hplaces := hdone.stands.kept
  have hcovered : ∀ port, (∃ facade, faced.context.facades.get? port = some facade) ↔
      port < g.ports.size := by
    intro port
    constructor
    · intro hfacade
      obtain ⟨facade, hfacade⟩ := hfacade
      exact hdone.awaits.known port facade hfacade
    · intro hport
      exact hdone.awaits.faced port hport List.not_mem_nil
  refine ⟨hcovered, ?_, ?_, hplaces.exists_referenceInput_iff, fun _ _ _ => hplaces.eq_of_holds,
    fun id group hgroup =>
      ⟨(hplaces.placed id group hgroup).nodup, (hplaces.placed id group hgroup).node⟩⟩
  · have hcounted :=
      (Run.ends_facePorts_keeps (Pass.keeps_isCounted_facePorts config g)).of_eq_ok hfaced
    have hfacades : faced.context.stats.facadesCreated = faced.context.facades.size :=
      hcounted.mpr rfl
    rw [hfacades, ← List.length_range (n := g.ports.size)]
    refine IdMap.size_eq_length List.nodup_range fun port => ?_
    rw [List.mem_range, ← hcovered port, IdMap.contains, Option.isSome_iff_exists]
    rfl
  · obtain ⟨order, hord, hvisits⟩ := Run.ends_facePorts_visits.of_eq_ok hfaced
    have hhierarchical := hw.isHierarchical hc hl hord
    have hperm : order.Perm (List.range g.nodes.size) :=
      (List.perm_ext_iff_of_nodup hhierarchical.nodup List.nodup_range).mpr fun n =>
        (hhierarchical.mem_iff n).trans List.mem_range.symm
    rw [hvisits, hperm.length_eq, List.length_range]

end Graph

/-! ## Reports -/

def Facades.ShowBelow (facades : Facades) (bound : Nat) : Prop :=
  ∀ port facade, facades.get? port = some facade → facade.nodeSide < bound ∧ facade.wireSide < bound

theorem Facades.ShowBelow.set {bound : Nat} (h : facades.ShowBelow bound) (port : PortId)
    {flow : FlowId} (hflow : flow < bound) : (facades.set port (.simple flow)).ShowBelow bound := by
  intro other facade hfacade
  rcases of_get?_set hfacade with ⟨-, rfl⟩ | ⟨-, hfacade⟩
  · exact ⟨hflow, hflow⟩
  · exact h other facade hfacade

theorem Insertion.kept_showBelow (before : Graph) (bound : Nat) :
    Kept before fun _ _ facades => facades.ShowBelow bound where
  settle _ _ _ h := h
  borrow _ _ _ _ hfacade h := by
    obtain ⟨hnode, hwire⟩ := h _ _ hfacade
    exact (h.set _ hwire).set _ hnode
  terminate _ _ _ _ hfacade h := by
    obtain ⟨hnode, hwire⟩ := h _ _ hfacade
    exact ((h.set _ hnode).set _ hnode).set _ hwire
  drop _ _ hfacade h := h.set _ (h _ _ hfacade).1

namespace Context

theorem map_fst_ports_report
    (h : ∀ port, port < g.ports.size → ∃ carried, ctx.carried? g port = some carried) :
    (ctx.report g).ports.map Prod.fst = List.range g.ports.size := by
  have hentry : ∀ port ∈ List.range g.ports.size,
      ((ctx.carried? g port).map (port, ·)).map Prod.fst = some port := by
    intro port hport
    obtain ⟨carried, hcarried⟩ := h port (List.mem_range.mp hport)
    rw [hcarried, Option.map_some, Option.map_some]
  rw [report, List.map_filterMap, List.filterMap_congr hentry, List.filterMap_some]

/-- What a report says of a port is read off the flow that the port shows, and the type and the
lifetime off the type term of that flow. -/
def ReportsAt (ctx : Context) (report : Report) (port : PortId) (data : Port) : Prop :=
  ∃ facade term carried, ctx.facades.get? port = some facade ∧ report.carried? port = some carried ∧
      carried.flow = (ctx.flows.get (facade.reported data.direction)).id ∧
        (ctx.flows.get (facade.reported data.direction)).term = some term ∧
          carried.type = ctx.terms.render term ∧ carried.lifetime = ctx.terms.lifetimeOf term

theorem Rendered.reportsAt (h : ctx.Rendered) (htyped : ctx.flows.IsTyped)
    (hbelow : ctx.facades.ShowBelow ctx.flows.size) {data : Port} {facade : Facade}
    (hport : g.ports[port]? = some data) (hfacade : ctx.facades.get? port = some facade) :
    ctx.ReportsAt (ctx.report g) port data := by
  have hshown : facade.reported data.direction < ctx.flows.size := by
    obtain ⟨hnode, hwire⟩ := hbelow port facade hfacade
    cases data.direction with
    | input => exact hnode
    | output => exact hwire
  obtain ⟨term, ht⟩ := htyped _ hshown
  obtain ⟨htype, hlifetime⟩ := h _ term ht
  exact ⟨facade, term, _, hfacade, Context.carried?_of_facade hport hfacade, rfl, ht, htype,
    hlifetime⟩

end Context

namespace Graph

variable {graph after : Graph}

theorem Woven.port_cases (h : g.Woven after) {data : Port}
    (hport : after.ports[port]? = some data) :
    port < g.ports.size ∨ g.nodes.size ≤ data.node ∧
      ∃ node, after.nodes[data.node]? = some node ∧ port ∈ node.portsOn data.direction := by
  obtain ⟨node, hnode, hseat⟩ := h.wellFormed.seated.listed hport
  rcases Nat.lt_or_ge data.node g.nodes.size with hold | hnew
  · left
    have hbefore := Array.getElem?_eq_getElem hold
    cases hnode.symm.trans (h.keeps.node hbefore)
    obtain ⟨found, hf, -⟩ := h.original.seated.seat hbefore hseat
    exact (Array.getElem?_eq_some_iff.mp hf).1
  · exact .inr ⟨hnew, node, hnode, List.mem_of_getElem? hseat⟩

theorem Built.reportsAll (hb : g.Built) (hinfer : infer config g = (.ok report, after)) :
    ∃ state, Run.all { config, graph := g } = .ok report state ∧ state.graph = after ∧
      report = state.context.report after ∧
        ∀ (port : PortId) (data : Port), after.ports[port]? = some data →
          state.context.ReportsAt report port data := by
  have hw := hb.wellFormed
  have hc := hb.consistent
  have hl := hb.layered
  obtain ⟨faced, unified, state, hfaced, hunified, hinserted, -, -, hrun, rfl, rfl⟩ :=
    exists_of_infer_ok hinfer
  have hdone := (Run.meets_facePorts hw hc hl).of_eq_ok hfaced
  have hdecided := (Run.meets_unifyWires hw hc hl hdone).of_eq_ok hunified
  have hadded := hb.inserted_of_eq_ok hfaced hunified hinserted
  obtain rfl := hdecided.graph_eq
  have hspares := (hb.realized_of_eq_ok hfaced hunified hinserted).spares
  have hbelow := ((Run.ends_insertBorrows (Insertion.kept_showBelow _ unified.context.flows.size)
    hw hc hdone.order hdecided.ready ⟨rfl, rfl, hdecided.awaits.sides⟩).of_eq_ok hinserted).2.holds
  -- insertion leaves flows and terms alone, so what was rendered still is
  have hflows : state.context.flows = unified.context.flows := hspares.flows
  have hterms : state.context.terms = unified.context.terms := hspares.terms
  have hrendered : state.context.Rendered := by
    intro flow term
    rw [hflows, hterms]
    exact hdecided.rendered flow term
  have htyped := hdecided.awaits.typed
  rw [← hflows] at htyped hbelow
  refine ⟨state, hrun, rfl, rfl, fun port data hport => ?_⟩
  have hshown : ∃ facade, state.context.facades.get? port = some facade := by
    rcases hadded.woven.port_cases hport with hold | hnew
    · obtain ⟨facade, hfacade⟩ := hdecided.awaits.faced port hold List.not_mem_nil
      obtain ⟨facade', hfacade', -⟩ := hspares.facades port facade hfacade
      exact ⟨facade', hfacade'⟩
    · obtain ⟨hbase, node, hnode, hm⟩ := hnew
      exact (hadded.equipped.faced _ node _ port hbase hnode hm).resolve_right id
  obtain ⟨facade, hfacade⟩ := hshown
  exact hrendered.reportsAt htyped hbelow hport hfacade

/-- Once every port has been faced, facades and groups go together port by port. If inference ends
with a report, then every port, also of a node that was added, has one entry in it, read off the
types and lifetimes that are known at the end. -/
theorem Built.ports_faced_reported (hbuilt : graph.Built) (config : Config) :
    (∀ faced, Run.facePorts { config, graph } = .ok () faced → faced.context.FacesAll graph) ∧
      ∀ report after, infer config graph = (.ok report, after) →
        report.ports.map Prod.fst = List.range after.ports.size ∧
          ∃ state, Run.all { config, graph } = .ok report state ∧ state.graph = after ∧
            ∀ (port : PortId) (data : Port), after.ports[port]? = some data →
              state.context.ReportsAt report port data := by
  refine ⟨fun faced hfaced => hbuilt.facesAll hfaced, fun report after hinfer => ?_⟩
  obtain ⟨state, hrun, hgraph, rfl, hports⟩ := hbuilt.reportsAll hinfer
  refine ⟨state.context.map_fst_ports_report fun port hport => ?_, state, hrun, hgraph, hports⟩
  obtain ⟨facade, _, carried, -, hcarried, -⟩ := hports port _ (Array.getElem?_eq_getElem hport)
  rw [Context.carried?_report] at hcarried
  exact ⟨carried, hcarried⟩

theorem ports_faced_reported_doubling :
    (∃ faced, Run.facePorts { config := {}, graph := doubling } = .ok () faced ∧
      faced.context.groups.size = 1 ∧ faced.context.FacesAll doubling) ∧
      ∃ report after, infer {} doubling = (.ok report, after) ∧ doubling.ports.size = 6 ∧
        report.ports.map Prod.fst = List.range 16 ∧
          ∃ state, Run.all { config := {}, graph := doubling } = .ok report state ∧
            ∀ (port : PortId) (data : Port), after.ports[port]? = some data →
              state.context.ReportsAt report port data := by
  have hfaced := eq_ok_of_succeeds (x := Run.facePorts)
    (s := { config := {}, graph := doubling }) (by decide +kernel)
  have hanswer : (infer {} doubling).1.toOption.any Report.isClean = true := by decide +kernel
  obtain ⟨report, hinfer, -⟩ := exists_report_of_isClean hanswer
  obtain ⟨hfaces, hreports⟩ := built_doubling.ports_faced_reported {}
  obtain ⟨hlisted, state, hrun, -, hports⟩ := hreports report _ hinfer
  have hsize : (infer {} doubling).2.ports.size = 16 := by decide +kernel
  rw [hsize] at hlisted
  exact ⟨⟨_, hfaced, by decide +kernel, hfaces _ hfaced⟩, report, _, hinfer, by decide +kernel,
    hlisted, state, hrun, hports⟩

end Graph

end BorrowFlow
