import BorrowFlow.Inference.Insertion
import BorrowFlow.Proofs.Graph.Stitching
import BorrowFlow.Proofs.Inference.Passes

/-!
# What inserting borrows does

Inserting the borrows of groups that fit the graph weaves nodes into it, and wherever it stops, the
nodes can still be ordered. What else is to be known of the graph and the facades is an assertion
that every step has to keep; it may speak of the inputs that still have to be borrowed.
-/

namespace BorrowFlow

variable {before g : Graph} {rest : List (PortId × Nat)} {index : Nat} {host terminate n : NodeId}
  {config : Config} {mutable : Bool} {scope : ScopeId} {group : BorrowGroup} {id : PortId}

/-! ## Groups that fit a graph -/

section Groups

def Graph.isWired (g : Graph) (id : PortId) : Bool :=
  ((g.ports[id]?).bind Port.wire).isSome

theorem Graph.isWired_of_isConnected {b : Bool} (h : g.isConnected id = .ok b) :
    g.isWired id = b := by
  unfold isConnected getPort at h
  unfold isWired
  cases hport : g.ports[id]? with
  | none => simp [hport, bind, Except.bind] at h
  | some port =>
    simp only [hport, bind, Except.bind, pure, Except.pure, Except.ok.injEq] at h
    exact h

theorem Graph.Consistent.isWired_iff (hc : g.Consistent) {port : Port}
    (hport : g.ports[id]? = some port) (hinput : port.direction = .input) :
    g.isWired id = true ↔ ∃ x, id ∈ g.sinksAt x := by
  unfold isWired
  rw [hport, Option.bind_some, Option.isSome_iff_exists]
  constructor
  · rintro ⟨w, hw⟩
    obtain ⟨wire, hwire, hm, -⟩ := hc.wire_of_input hport hinput hw
    exact ⟨wire.source, hc.sinksAt_source hwire (List.ne_nil_of_mem hm) ▸ hm⟩
  · rintro ⟨x, hx⟩
    cases hw : port.wire with
    | some w => exact ⟨w, rfl⟩
    | none => exact absurd hx (hc.not_mem_sinksAt hport hinput hw x)

def BorrowGroup.wiredIn (group : BorrowGroup) (g : Graph) : List GroupMember :=
  group.members.filter fun member => g.isWired member.port

theorem BorrowGroup.wiredMembers_eq {wired : List GroupMember}
    (h : group.wiredMembers g = .ok wired) : wired = group.wiredIn g :=
  eq_filter_of_filterM_ok (fun _ _ => Graph.isWired_of_isConnected) h

/-- The members of a group are inputs, and their partners outputs, of nodes for which one node
stands in the scope of the group. -/
structure BorrowGroup.Fits (group : BorrowGroup) (g : Graph) (host : NodeId) : Prop where
  inputs : ∀ member ∈ group.members, g.Faces .input group.scope host member.port
  outputs : ∀ member ∈ group.members, ∀ output, member.pairedOutput = some output →
    g.Faces .output group.scope host output
  inputs_nodup : (group.members.map GroupMember.port).Nodup
  outputs_nodup : (group.members.filterMap GroupMember.pairedOutput).Nodup

theorem BorrowGroup.Fits.wired (h : group.Fits g host) (wiring : Graph) :
    (∀ member ∈ group.wiredIn wiring, g.Faces .input group.scope host member.port) ∧
      ((group.wiredIn wiring).map GroupMember.port).Nodup := by
  have hsublist : (group.wiredIn wiring).Sublist group.members := List.filter_sublist
  refine ⟨fun member hmember => ?_, h.inputs_nodup.sublist (hsublist.map GroupMember.port)⟩
  exact h.inputs member (hsublist.subset hmember)

theorem BorrowGroup.Fits.paired (h : group.Fits g host) (wiring : Graph) :
    (∀ output ∈ (group.wiredIn wiring).filterMap GroupMember.pairedOutput,
      g.Faces .output group.scope host output) ∧
        ((group.wiredIn wiring).filterMap GroupMember.pairedOutput).Nodup := by
  have hsublist : (group.wiredIn wiring).Sublist group.members := List.filter_sublist
  refine ⟨fun output houtput => ?_,
    h.outputs_nodup.sublist (hsublist.filterMap GroupMember.pairedOutput)⟩
  obtain ⟨member, hmember, houtput⟩ := List.mem_filterMap.mp houtput
  exact h.outputs member (hsublist.subset hmember) output houtput

def BorrowGroup.borrowedIn (group : BorrowGroup) (g : Graph) : List PortId :=
  match group.decision with
  | some (.borrow ..) => (group.wiredIn g).map GroupMember.port
  | _ => []

theorem BorrowGroup.borrowedIn_of_borrow {lifetime : Lifetime}
    (h : group.decision = some (.borrow mutable lifetime)) :
    group.borrowedIn g = (group.wiredIn g).map GroupMember.port := by
  rw [borrowedIn, h]

theorem BorrowGroup.borrowedIn_of_not_borrow
    (h : ∀ mutable lifetime, group.decision ≠ some (.borrow mutable lifetime)) :
    group.borrowedIn g = [] := by
  unfold borrowedIn
  split
  · rename_i mutable lifetime hdecision
    exact absurd hdecision (h mutable lifetime)
  · rfl

end Groups

namespace Graph

/-- Nodes were woven into the graph, and the result can still be ordered. -/
structure Refined (before g : Graph) : Prop where
  woven : before.Woven g
  ranked : ∃ rank, g.Ranks rank

theorem Fronting.refined (h : before.Fronting g n scope host rest) : before.Refined g := by
  obtain ⟨rank, hrank, -⟩ := h.ranked
  exact ⟨h.woven, rank, hrank⟩

theorem Backing.refined (h : before.Backing g n scope host rest) : before.Refined g := by
  obtain ⟨rank, hrank, -⟩ := h.ranked
  exact ⟨h.woven, rank, hrank⟩

theorem Woven.isWired_eq (h : before.Woven g) (hc : before.Consistent)
    (hfaces : before.Faces .input scope host id) : g.isWired id = before.isWired id := by
  obtain ⟨port, hport, hinput, -⟩ := hfaces.port
  obtain ⟨wire, hport'⟩ := h.keeps.port hport
  rw [Bool.eq_iff_iff, hc.isWired_iff hport hinput, h.consistent.isWired_iff hport' hinput]
  exact h.fed_iff hc hport

end Graph

theorem BorrowGroup.Fits.wiredIn_eq (h : group.Fits before host)
    (hc : before.Consistent) (hwoven : before.Woven g) :
    group.wiredIn g = group.wiredIn before := by
  apply List.filter_congr
  intro member hmember
  exact hwoven.isWired_eq hc (h.inputs member hmember)

namespace Insertion

variable {ctx : Context} {assertion : Assertion} {todo : List PortId} {α : Type} {ws : Workspace}
  {post : α → Workspace → Prop}

/-! ## Rules for the steps -/

section Rules

variable {failed : Fault → Workspace → Prop}

theorem meets_askGraph {query : Graph → Except Fault α}
    (hok : ∀ a, query ws.graph = .ok a → post a ws)
    (hfailed : ∀ fault, query ws.graph = .error fault → failed fault ws) :
    Meets (askGraph query) ws post failed := by
  unfold askGraph
  apply Meets.bind
  exact Meets.lift hok hfailed

theorem meets_edit {change : Edit α}
    (h : Meets change ws.graph (fun a g => post a { ws with graph := g })
      fun fault g => failed fault { ws with graph := g }) :
    Meets (edit change) ws post failed := by
  refine Meets.of_part ?_ h
  cases hrun : change ws.graph <;> simp [edit, within, hrun]

theorem meets_infer {pass : Pass α}
    (h : Meets pass ws.context (fun a ctx => post a { ws with context := ctx })
      fun fault ctx => failed fault { ws with context := ctx }) :
    Meets (infer pass) ws post failed := by
  refine Meets.of_part ?_ h
  cases hrun : pass ws.context <;> simp [infer, within, hrun]

end Rules

variable {failed : Workspace → Prop}

theorem ends_askGraph {query : Graph → Except Fault α}
    (hok : ∀ a, query ws.graph = .ok a → post a ws) (hfailed : failed ws) :
    Ends (askGraph query) ws post failed :=
  meets_askGraph hok fun _ _ => hfailed

theorem ends_edit {change : Edit α}
    (h : Ends change ws.graph (fun a g => post a { ws with graph := g })
      fun g => failed { ws with graph := g }) :
    Ends (edit change) ws post failed :=
  meets_edit h

theorem ends_infer {pass : Pass α}
    (h : Ends pass ws.context (fun a ctx => post a { ws with context := ctx })
      fun ctx => failed { ws with context := ctx }) :
    Ends (infer pass) ws post failed :=
  meets_infer h

/-! ## Assertions -/

/-- What is asserted of the graph and the facades, given the inputs that still have to be
borrowed. -/
abbrev Assertion := List PortId → Graph → Facades → Prop

/-- An assertion that every step of the insertion keeps. -/
structure Kept (before : Graph) (assertion : Assertion) : Prop where
  settle : ∀ {todo : List PortId} {g : Graph} {facades : Facades} (scope : ScopeId)
    (kind : NodeKind), before.Woven g → assertion todo g facades →
      assertion todo (g.settle { scope, kind, inserted := true } 0 {}) facades
  borrow : ∀ {todo : List PortId} {g g' : Graph} {facades : Facades} {facade : Facade}
    {n host : NodeId} {scope : ScopeId} {index : Nat} {sink input output : PortId},
    before.Woven g → before.Vacancy g n scope index input output →
      before.Faces .input scope host sink → g.Spliced sink input output g' →
        facades.get? sink = some facade → assertion (sink :: todo) g facades →
          assertion todo g' ((facades.set input (.simple facade.wireSide)).set output
            (.simple facade.nodeSide))
  terminate : ∀ {todo : List PortId} {g g' : Graph} {facades : Facades} {facade : Facade}
    {n host : NodeId} {scope : ScopeId} {index : Nat} {source input output : PortId},
    before.Woven g → before.Vacancy g n scope index input output →
      before.Faces .output scope host source → g.SplicedAfter source input output g' →
        facades.get? source = some facade → assertion todo g facades →
          assertion todo g' (((facades.set source (.simple facade.nodeSide)).set input
            (.simple facade.nodeSide)).set output (.simple facade.wireSide))
  drop : ∀ {todo : List PortId} {g g' : Graph} {facades : Facades} {flow : FlowId}
    {input output : PortId}, before.Woven g → g.Joined output input g' →
      facades.get? output = some (.simple flow) → assertion todo g facades →
        assertion todo g' (facades.set input (.simple flow))

/-- The assertion holds, and nothing but facades has been changed of what inference knows. -/
structure Standing (ctx : Context) (assertion : Assertion) (todo : List PortId)
    (ws : Workspace) : Prop where
  flows : ws.context.flows = ctx.flows
  diagnostics : ws.context.diagnostics = ctx.diagnostics
  holds : assertion todo ws.graph ws.context.facades

/-- Of what inference knows, nothing but facades and numbers has changed. -/
structure Refaced (ws : Workspace) (facades : Facades) (ws' : Workspace) :
    Prop where
  terms : ws'.context.terms = ws.context.terms
  flows : ws'.context.flows = ws.context.flows
  diagnostics : ws'.context.diagnostics = ws.context.diagnostics
  facades_eq : ws'.context.facades = facades

/-- What feeds an input has been routed through a pair of ports of a node that was added. -/
structure Lends (before : Graph) (n : NodeId) (scope : ScopeId) (index : Nat)
    (sink input output : PortId) (facade : Facade) (ws ws' : Workspace) :
    Prop where
  vacancy : before.Vacancy ws.graph n scope index input output
  spliced : ws.graph.Spliced sink input output ws'.graph
  found : ws.context.facades.get? sink = some facade
  fresh : ws.context.facades.get? input = none ∧ ws.context.facades.get? output = none
  stats : ws'.context.stats = ws.context.stats
  refaced : Refaced ws ((ws.context.facades.set input
    (.simple facade.wireSide)).set output (.simple facade.nodeSide)) ws'

/-- What an output feeds has been routed through a pair of ports of a node that was added, and the
output shows the wires what its node hands back. -/
structure Terminates (before : Graph) (n : NodeId) (scope : ScopeId) (index : Nat)
    (source input output : PortId) (facade : Facade) (ws ws' : Workspace) :
    Prop where
  vacancy : before.Vacancy ws.graph n scope index input output
  spliced : ws.graph.SplicedAfter source input output ws'.graph
  found : ws.context.facades.get? source = some facade
  fresh : ws.context.facades.get? input = none ∧ ws.context.facades.get? output = none
  stats : ws'.context.stats = ws.context.stats
  refaced : Refaced ws (((ws.context.facades.set source
    (.simple facade.nodeSide)).set input (.simple facade.nodeSide)).set output
      (.simple facade.wireSide)) ws'

/-- An output feeds a drop node of its own. -/
structure Drops (scope : ScopeId) (output sink : PortId) (flow : FlowId)
    (ws ws' : Workspace) : Prop where
  scope_lt : scope < ws.graph.scopes.size
  input : (ws.graph.settle { scope, kind := .drop, inserted := true } 0 {}).inputPort
    ws.graph.nodes.size 0 = .ok sink
  joined : (ws.graph.settle { scope, kind := .drop, inserted := true } 0 {}).Joined
    output sink ws'.graph
  found : ws.context.facades.get? output = some (.simple flow)
  fresh : ws.context.facades.get? sink = none
  stats : ws'.context.stats = { ws.context.stats with
    dropsInserted := ws.context.stats.dropsInserted + 1 }
  refaced : Refaced ws (ws.context.facades.set sink (.simple flow)) ws'

/-- Whether nothing uses what an output hands back, and unused values are dropped. -/
def dropsUnused (config : Config) (g : Graph) (output : PortId) : Bool :=
  !g.isWired output && config.inference.insertImplicitDrops

theorem Standing.of_refaced {todo' : List PortId} {ws ws' : Workspace} {facades : Facades}
    (h : Standing ctx assertion todo ws)
    (hrefaced : Refaced ws facades ws')
    (hholds : assertion todo' ws'.graph facades) :
    Standing ctx assertion todo' ws' where
  flows := hrefaced.flows.trans h.flows
  diagnostics := hrefaced.diagnostics.trans h.diagnostics
  holds := hrefaced.facades_eq.symm ▸ hholds

section Steps

variable {paired : List PortId}

theorem passes_of_ports {input output : PortId} (hinput : g.inputPort n index = .ok input)
    (houtput : g.outputPort n index = .ok output) : g.Passes n index input output := by
  obtain ⟨node, hnode, hinput⟩ := Graph.inputPort_eq_ok.mp hinput
  obtain ⟨node', hnode', houtput⟩ := Graph.outputPort_eq_ok.mp houtput
  cases hnode.symm.trans hnode'
  exact ⟨node, hnode, hinput, houtput⟩

/-! ## Borrows -/

theorem lends_borrowMember {borrow : NodeId} {member : GroupMember}
    (h : before.Fronting ws.graph borrow scope host ((member.port, index) :: rest)) :
    Ends (borrowMember borrow index member) ws
      (fun _ ws' => before.Fronting ws'.graph borrow scope host rest ∧ ∃ input output facade,
          Lends before borrow scope index member.port input output facade ws ws')
      fun ws => before.Refined ws.graph := by
  unfold borrowMember
  apply Ends.bind
  apply ends_askGraph ?_ h.refined
  intro input hinput
  apply Ends.bind
  apply ends_askGraph ?_ h.refined
  intro output houtput
  have hv := h.pending.vacancy h.woven.wellFormed List.mem_cons_self
    (passes_of_ports hinput houtput)
  have hfaces := h.faces _ List.mem_cons_self
  apply Ends.bind
  apply ends_edit
  rcases hv.splice_cases h.woven.consistent (hfaces.of_keeps h.woven.original h.woven.keeps) with
    ⟨fault, hrun, -⟩ | ⟨g', hrun, hspliced⟩
  · exact Ends.of_error hrun h.refined
  apply Ends.of_ok hrun
  -- whatever happens from here on, the graph is spliced
  have hnext := h.of_spliced hv hspliced
  apply Ends.bind
  apply ends_infer
  apply Pass.ends_ask ?_ hnext.refined
  intro facade hfacade
  apply Ends.bind
  apply ends_infer
  apply Pass.ends_insertFacade ?_ hnext.refined
  intro hin
  apply ends_infer
  apply Pass.ends_insertFacade ?_ hnext.refined
  intro hout
  have hfresh := Facades.get?_of_not_contains hout
  rw [Facades.get?_set, if_neg (hv.input_faces.ne hv.output_faces).symm] at hfresh
  exact ⟨hnext, input, output, facade, hv, hspliced, Facades.get_eq_ok.mp hfacade,
    ⟨Facades.get?_of_not_contains hin, hfresh⟩, rfl, rfl, rfl, rfl, rfl⟩

theorem ends_borrowMember (hkept : Kept before assertion) {borrow : NodeId} {member : GroupMember}
    (h : before.Fronting ws.graph borrow scope host ((member.port, index) :: rest))
    (hstanding : Standing ctx assertion (member.port :: todo) ws) :
    Ends (borrowMember borrow index member) ws
      (fun _ ws => before.Fronting ws.graph borrow scope host rest ∧ Standing ctx assertion todo ws)
      fun ws => before.Refined ws.graph := by
  apply (lends_borrowMember h).mono ?_ fun _ hfailed => hfailed
  rintro _ ws' ⟨hnext, input, output, facade, hlends⟩
  exact ⟨hnext, hstanding.of_refaced hlends.refaced (hkept.borrow h.woven hlends.vacancy
    (h.faces _ List.mem_cons_self) hlends.spliced hlends.found hstanding.holds)⟩

def places (items : List (GroupMember × Nat)) : List (PortId × Nat) :=
  items.map fun item => (item.1.port, item.2)

theorem places_fst (items : List (GroupMember × Nat)) :
    (places items).map Prod.fst = (items.map Prod.fst).map GroupMember.port := by
  simp [places, Function.comp_def]

theorem places_snd (items : List (GroupMember × Nat)) :
    (places items).map Prod.snd = items.map Prod.snd := by
  simp [places, Function.comp_def]

theorem fronting_places {wired : List GroupMember} (hne : wired ≠ [])
    (hfaces : ∀ member ∈ wired, before.Faces .input scope host member.port)
    (hnodup : (wired.map GroupMember.port).Nodup) (h : before.Refined g)
    (hscope : scope < g.scopes.size) :
    before.Fronting (g.settle
      { scope, kind := .explicitBorrow mutable wired.length, inserted := true } 0 {})
        g.nodes.size scope host (places wired.zipIdx) := by
  obtain ⟨hwoven, rank, hrank⟩ := h
  apply hwoven.fronting hrank _ hscope rfl
  · intro item hitem
    obtain ⟨pair, hpair, rfl⟩ := List.mem_map.mp hitem
    exact hfaces pair.1 (List.fst_mem_of_mem_zipIdx hpair)
  · rwa [places_fst, List.zipIdx_map_fst]
  · rw [places_snd, List.zipIdx_map_snd]
    exact List.nodup_range' 1
  · simpa [places] using hne

theorem ends_insertBorrow (hkept : Kept before assertion) {wired : List GroupMember}
    (hne : wired ≠ []) (hfaces : ∀ member ∈ wired, before.Faces .input scope host member.port)
    (hnodup : (wired.map GroupMember.port).Nodup) (h : before.Refined ws.graph)
    (hstanding : Standing ctx assertion (wired.map GroupMember.port ++ todo) ws) :
    Ends (insertBorrow scope mutable wired) ws (fun _ ws => before.Refined ws.graph ∧
        Standing ctx assertion todo ws)
      fun ws => before.Refined ws.graph := by
  unfold insertBorrow
  apply Ends.bind
  apply ends_edit
  rcases Graph.addNode_cases ws.graph scope (.explicitBorrow mutable wired.length) true with
    ⟨fault, hrun⟩ | ⟨hscope, -, hrun⟩
  · exact Ends.of_error hrun h
  apply Ends.of_ok hrun
  apply Ends.bind
  apply Ends.forM fun items ws' =>
    before.Fronting ws'.graph ws.graph.nodes.size scope host (places items) ∧
      Standing ctx assertion ((items.map Prod.fst).map GroupMember.port ++ todo) ws'
  · refine ⟨fronting_places hne hfaces hnodup h hscope, hstanding.flows, hstanding.diagnostics, ?_⟩
    rw [List.zipIdx_map_fst]
    exact hkept.settle _ _ h.woven hstanding.holds
  · rintro ⟨member, index⟩ rest ws' ⟨hfront', hstanding'⟩
    exact ends_borrowMember hkept hfront' hstanding'
  · rintro ws' ⟨hfront', hflows, hdiagnostics, hholds⟩
    apply ends_infer
    exact Pass.ends_count ⟨hfront'.refined, hflows, hdiagnostics, hholds⟩

/-! ## Terminations -/

theorem drops_dropValue {input output : PortId} {flow : FlowId} (other : ScopeId)
    (h : before.Backing ws.graph terminate scope host rest)
    (hpasses : ws.graph.Passes terminate index input output)
    (hindex : index ∉ rest.map Prod.snd)
    (hflow : ws.context.facades.get? output = some (.simple flow)) :
    Ends (dropValue other output flow) ws
      (fun _ ws' => before.Backing ws'.graph terminate scope host rest ∧
        ∃ sink, Drops other output sink flow ws ws')
      fun ws => before.Refined ws.graph := by
  unfold dropValue
  apply Ends.bind
  apply ends_edit
  rcases Graph.addNode_cases ws.graph other .drop true with
    ⟨fault, hrun⟩ | ⟨hscope, -, hrun⟩
  · exact Ends.of_error hrun h.refined
  apply Ends.of_ok hrun
  obtain ⟨rank, hrank, -⟩ := h.ranked
  have hwoven := h.woven.settle .drop hscope rfl
  have hsettled : before.Refined
      (ws.graph.settle { scope := other, kind := .drop, inserted := true } 0 {}) :=
    ⟨hwoven, _, hrank.settle h.woven.wellFormed h.woven.consistent _ 0⟩
  apply Ends.bind
  apply ends_askGraph ?_ hsettled
  intro sink hsink
  obtain ⟨drop, hdrop, hm⟩ := Graph.inputPort_eq_ok.mp hsink
  apply Ends.bind
  apply ends_edit
  rcases hwoven.consistent.connect_cases output sink with
    ⟨fault, hrun'⟩ | ⟨w, g', hrun', hjoined⟩
  · exact Ends.of_error hrun' hsettled
  apply Ends.of_ok hrun'
  have hnext := h.of_dropped hpasses hindex hscope rfl hdrop (List.mem_of_getElem? hm) hjoined
  apply Ends.bind
  apply ends_infer
  apply Pass.ends_insertFacade ?_ hnext.refined
  intro hfresh
  apply ends_infer
  exact Pass.ends_count ⟨hnext, sink, hscope, hsink, hjoined, hflow,
    Facades.get?_of_not_contains hfresh, rfl, rfl, rfl, rfl, rfl⟩

theorem terminates_terminateReference {reference : PortId} (other : ScopeId)
    (h : before.Backing ws.graph terminate scope host ((reference, index) :: rest)) :
    Ends (terminateReference config other terminate index reference) ws
      (fun _ ws' => before.Backing ws'.graph terminate scope host rest ∧
        ∃ input output facade ended, Terminates before terminate scope index reference input output
          facade ws ended ∧ (dropsUnused config ws.graph reference = false ∧ ws' = ended ∨
              dropsUnused config ws.graph reference = true ∧
                ∃ sink, Drops other output sink facade.wireSide ended ws'))
      fun ws => before.Refined ws.graph := by
  unfold terminateReference
  apply Ends.bind
  apply ends_infer
  apply Pass.ends_ask ?_ h.refined
  intro handedBack hhandedBack
  obtain ⟨facade, hfacade, rfl⟩ := Facades.wireSide_eq_ok.mp hhandedBack
  apply Ends.bind
  apply ends_infer
  apply Pass.ends_ask ?_ h.refined
  intro collapsed hcollapse
  obtain rfl := Facades.eq_of_collapse_ok hfacade hcollapse
  apply Ends.bind
  apply ends_infer
  apply Pass.ends_modify
  apply Ends.bind
  apply ends_askGraph ?_ h.refined
  intro wiredOnward honward
  obtain rfl := Graph.isWired_of_isConnected honward
  apply Ends.bind
  apply ends_askGraph ?_ h.refined
  intro input hinput
  apply Ends.bind
  apply ends_askGraph ?_ h.refined
  intro output houtput
  have hpasses := passes_of_ports hinput houtput
  have hv := h.pending.vacancy h.woven.wellFormed List.mem_cons_self hpasses
  have hfaces := h.faces _ List.mem_cons_self
  obtain ⟨g', hrun, hspliced⟩ := hv.spliceAfter_ok h.woven.consistent
    (hfaces.of_keeps h.woven.original h.woven.keeps)
  apply Ends.bind
  apply ends_edit
  apply Ends.of_ok hrun
  have hnext := h.of_splicedAfter hv hspliced
  apply Ends.bind
  apply ends_infer
  apply Pass.ends_insertFacade ?_ hnext.refined
  intro hin
  apply Ends.bind
  apply ends_infer
  apply Pass.ends_insertFacade ?_ hnext.refined
  intro hout
  obtain ⟨port, hport, -⟩ := hfaces.port
  obtain ⟨hne, hne'⟩ := h.woven.ne_of_passes hport hv.base hpasses
  have hfresh := Facades.get?_of_not_contains hin
  rw [Facades.get?_set, if_neg hne.symm] at hfresh
  have hfresh' := Facades.get?_of_not_contains hout
  rw [Facades.get?_set, if_neg (hv.input_faces.ne hv.output_faces).symm, Facades.get?_set,
    if_neg hne'.symm] at hfresh'
  have hterminates : Terminates before terminate scope index reference input output facade
      ws { graph := g', context := { ws.context with
        facades := ((ws.context.facades.set reference (.simple facade.nodeSide)).set input
          (.simple facade.nodeSide)).set output (.simple facade.wireSide) } } :=
    ⟨hv, hspliced, hfacade, ⟨hfresh, hfresh'⟩, rfl, rfl, rfl, rfl, rfl⟩
  split
  · rename_i hdrop
    apply (drops_dropValue other hnext (hpasses.of_keeps hspliced.layout.keeps)
      (List.nodup_cons.mp h.indices_nodup).1 ?_).mono ?_ fun _ hfailed => hfailed
    · rw [Facades.get?_set, if_pos rfl]
    · rintro _ ws' ⟨hnext', hdrops⟩
      exact ⟨hnext', input, output, facade, _, hterminates, .inr ⟨hdrop, hdrops⟩⟩
  · rename_i hkeep
    exact Ends.pure ⟨hnext, input, output, facade, _, hterminates,
      .inl ⟨Bool.eq_false_iff.mpr hkeep, rfl⟩⟩

theorem ends_terminateReference (hkept : Kept before assertion) {reference : PortId}
    (other : ScopeId)
    (h : before.Backing ws.graph terminate scope host ((reference, index) :: rest))
    (hstanding : Standing ctx assertion todo ws) :
    Ends (terminateReference config other terminate index reference) ws
      (fun _ ws => before.Backing ws.graph terminate scope host rest ∧
        Standing ctx assertion todo ws)
      fun ws => before.Refined ws.graph := by
  apply (terminates_terminateReference other h).mono ?_ fun _ hfailed => hfailed
  rintro _ ws' ⟨hnext, input, output, facade, ended, hterminates, hrest⟩
  have hfaces := h.faces _ List.mem_cons_self
  have hended := hstanding.of_refaced hterminates.refaced (hkept.terminate h.woven
    hterminates.vacancy hfaces hterminates.spliced hterminates.found hstanding.holds)
  refine ⟨hnext, ?_⟩
  rcases hrest with ⟨-, rfl⟩ | ⟨-, sink, hdrops⟩
  · exact hended
  · obtain ⟨port, hport, -⟩ := hfaces.port
    have hwoven := h.woven.of_splicedAfter hterminates.vacancy hterminates.spliced hport
    exact hended.of_refaced hdrops.refaced (hkept.drop (hwoven.settle .drop hdrops.scope_lt rfl)
      hdrops.joined hdrops.found (hkept.settle _ _ hwoven hended.holds))

theorem backing_zipIdx (hne : paired ≠ [])
    (hfaces : ∀ output ∈ paired, before.Faces .output scope host output) (hnodup : paired.Nodup)
    (h : before.Refined g) (hscope : scope < g.scopes.size) :
    before.Backing (g.settle
      { scope, kind := .terminateLifetime paired.length paired.length, inserted := true } 0 {})
        g.nodes.size scope host paired.zipIdx := by
  obtain ⟨hwoven, rank, hrank⟩ := h
  apply hwoven.backing hrank _ hscope rfl
  · intro item hitem
    exact hfaces item.1 (List.fst_mem_of_mem_zipIdx hitem)
  · rwa [List.zipIdx_map_fst]
  · rw [List.zipIdx_map_snd]
    exact List.nodup_range' 1
  · simpa using hne

theorem ends_insertTermination (hkept : Kept before assertion)
    (hne : paired ≠ []) (hfaces : ∀ output ∈ paired, before.Faces .output scope host output)
    (hnodup : paired.Nodup) (h : before.Refined ws.graph)
    (hstanding : Standing ctx assertion todo ws) :
    Ends (insertTermination config scope paired) ws (fun _ ws => before.Refined ws.graph ∧
        Standing ctx assertion todo ws)
      fun ws => before.Refined ws.graph := by
  unfold insertTermination
  apply Ends.bind
  apply ends_edit
  rcases Graph.addNode_cases ws.graph scope
    (.terminateLifetime paired.length paired.length) true with ⟨fault, hrun⟩ | ⟨hscope, -, hrun⟩
  · exact Ends.of_error hrun h
  apply Ends.of_ok hrun
  apply Ends.bind
  apply Ends.forM fun items ws' =>
    before.Backing ws'.graph ws.graph.nodes.size scope host items ∧ Standing ctx assertion todo ws'
  · refine ⟨backing_zipIdx hne hfaces hnodup h hscope, hstanding.flows, hstanding.diagnostics, ?_⟩
    exact hkept.settle _ _ h.woven hstanding.holds
  · rintro ⟨reference, index⟩ rest ws' ⟨hback', hstanding'⟩
    exact ends_terminateReference hkept scope hback' hstanding'
  · rintro ws' ⟨hback', hflows, hdiagnostics, hholds⟩
    apply ends_infer
    exact Pass.ends_count ⟨hback'.refined, hflows, hdiagnostics, hholds⟩

/-! ## The pass -/

theorem eq_of_pairedOutputs_ok {node : NodeId} {wired : List GroupMember}
    (h : pairedOutputs node wired = .ok paired) :
    paired = wired.filterMap GroupMember.pairedOutput := by
  unfold pairedOutputs at h
  dsimp only at h
  split at h
  · cases h
  · exact (Except.ok.inj h).symm

theorem ends_insertGroup (hkept : Kept before assertion) (hc : before.Consistent)
    (hfits : group.Fits before host) (h : before.Refined ws.graph)
    (hstanding : Standing ctx assertion ((group.wiredIn before).map GroupMember.port ++ todo) ws) :
    Ends (insertGroup config group mutable) ws (fun _ ws => before.Refined ws.graph ∧
        Standing ctx assertion todo ws)
      fun ws => before.Refined ws.graph := by
  unfold insertGroup
  apply Ends.bind
  apply ends_askGraph ?_ h
  intro wired hwired
  obtain rfl : wired = group.wiredIn before := by
    rw [BorrowGroup.wiredMembers_eq hwired, hfits.wiredIn_eq hc h.woven]
  split
  · rename_i hsome
    have hne : group.wiredIn before ≠ [] := by simpa using hsome
    obtain ⟨hinputs, hnodup⟩ := hfits.wired before
    apply Ends.bind
    refine Ends.lift ?_ h
    intro paired hpaired
    obtain rfl := eq_of_pairedOutputs_ok hpaired
    apply Ends.bind
    apply (ends_insertBorrow hkept hne hinputs hnodup h hstanding).mono ?_ fun _ hfailed => hfailed
    rintro _ ws' ⟨hrefined, hstanding'⟩
    split
    · rename_i hpairs
      obtain ⟨houtputs, hnodup'⟩ := hfits.paired before
      exact ends_insertTermination hkept (by simpa using hpairs) houtputs hnodup' hrefined
        hstanding'
    · exact Ends.pure ⟨hrefined, hstanding'⟩
  · rename_i hnone
    have hempty : group.wiredIn before = [] := by simpa using hnone
    rw [hempty] at hstanding
    exact Ends.pure ⟨h, hstanding⟩

/-- Inserting borrows refines the graph, whether it fails or not, and keeps what is asserted. -/
theorem ends_insertBorrows (hkept : Kept before assertion) (hc : before.Consistent)
    (config : Config)
    (hfits : ∀ group ∈ ws.context.groups.groups.toList, ∃ host, group.Fits before host)
    (h : before.Refined ws.graph)
    (hstanding : Standing ctx assertion
      (ws.context.groups.groups.toList.flatMap (·.borrowedIn before)) ws) :
    Ends (insertBorrows config) ws (fun _ ws => before.Refined ws.graph ∧
        Standing ctx assertion [] ws)
      fun ws => before.Refined ws.graph := by
  unfold insertBorrows
  apply Ends.bind
  apply Ends.forM fun groups ws' => before.Refined ws'.graph ∧
    Standing ctx assertion (groups.flatMap (·.borrowedIn before)) ws' ∧
      ∀ group ∈ groups, ∃ host, group.Fits before host
  · exact ⟨h, hstanding, hfits⟩
  · rintro group rest ws' ⟨hrefined, hstanding', hfits'⟩
    obtain ⟨⟨host, hgroup⟩, hrest⟩ := List.forall_mem_cons.mp hfits'
    rw [List.flatMap_cons] at hstanding'
    split
    · rename_i mutable lifetime hdecision
      rw [BorrowGroup.borrowedIn_of_borrow hdecision] at hstanding'
      apply (ends_insertGroup hkept hc hgroup hrefined hstanding').mono ?_ fun _ hfailed => hfailed
      rintro _ ws'' ⟨hrefined', hstanding''⟩
      exact ⟨hrefined', hstanding'', hrest⟩
    · rename_i ho
      rw [BorrowGroup.borrowedIn_of_not_borrow ho] at hstanding'
      exact Ends.pure ⟨hrefined, hstanding', hrest⟩
  · rintro ws' ⟨hrefined, hstanding', -⟩
    exact ⟨hrefined, hstanding'⟩

end Steps

end Insertion

end BorrowFlow
