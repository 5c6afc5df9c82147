import BorrowFlow.Proofs.Inference.Totality

/-!
# Borrows that can be inserted

Inserting the borrow of a group succeeds whenever all of its wired members are handed back, or none
of them is. Every port that the insertion asks about has a facade, and a pair of ports that is not
wired yet has none, so no port is faced twice.
-/

namespace BorrowFlow

variable {before : Graph} {n : NodeId} {scope : ScopeId} {output port : PortId} {data : Port}
  {index : Nat}

/-! ## Facades while borrows are inserted -/

namespace Graph

variable {g g' : Graph} {facades : Facades} {source sink input : PortId}

/-- All ports that were there have facades. A pair of ports through which nothing is routed yet has
none. -/
structure Furnished (before g : Graph) (facades : Facades) : Prop where
  scopes : before.scopes.size ≤ g.scopes.size
  faced : ∀ port, port < before.ports.size → ∃ facade, facades.get? port = some facade
  known : ∀ port facade, facades.get? port = some facade → port < g.ports.size
  vacant : ∀ {n : NodeId} {index : Nat} {input output : PortId}, before.nodes.size ≤ n →
    g.Passes n index input output → (∀ x, input ∉ g.sinksAt x) →
      facades.get? input = none ∧ facades.get? output = none

section

variable (h : before.Furnished g facades)
include h

theorem Furnished.fresh (hport : g.ports.size ≤ port) : facades.get? port = none := by
  apply Option.eq_none_iff_forall_ne_some.mpr
  intro facade hfacade
  exact Nat.not_lt_of_le hport (h.known port facade hfacade)

theorem Furnished.of_keeps (hkeeps : g.Keeps g') (hscopes : g'.scopes.size = g.scopes.size)
    (hvacant : ∀ {n : NodeId} {index : Nat} {input output : PortId}, before.nodes.size ≤ n →
      g'.Passes n index input output → (∀ x, input ∉ g'.sinksAt x) →
        facades.get? input = none ∧ facades.get? output = none) :
    before.Furnished g' facades where
  scopes := hscopes ▸ h.scopes
  faced := h.faced
  known port facade hfacade := hkeeps.lt_size (h.known port facade hfacade)
  vacant := hvacant

/-- Wires may change where the inputs of added nodes that were fed still are. -/
theorem Furnished.of_sameLayout (hlayout : g.SameLayout g')
    (hfed : ∀ {n : NodeId} {index : Nat} {input output : PortId}, before.nodes.size ≤ n →
      g.Passes n index input output → ∀ x, input ∈ g.sinksAt x →
        ∃ y, input ∈ g'.sinksAt y) : before.Furnished g' facades := by
  refine h.of_keeps hlayout.keeps (by rw [hlayout.scopes]) fun hbase hpasses hfree => ?_
  rw [Passes, hlayout.nodes] at hpasses
  refine h.vacant hbase hpasses fun x hx => ?_
  obtain ⟨y, hy⟩ := hfed hbase hpasses x hx
  exact hfree y hy

theorem Furnished.set (hport : port < g.ports.size)
    (hvacant : ∀ {n : NodeId} {index : Nat} {input output : PortId}, before.nodes.size ≤ n →
      g.Passes n index input output → (∀ x, input ∉ g.sinksAt x) →
        input ≠ port ∧ output ≠ port) (facade : Facade) :
    before.Furnished g (facades.set port facade) where
  scopes := h.scopes
  faced other ho := by
    rw [Facades.get?_set]
    split
    · exact ⟨facade, rfl⟩
    · exact h.faced other ho
  known other found hf := by
    rcases Facades.of_get?_set hf with ⟨rfl, -⟩ | ⟨-, hf⟩
    · exact hport
    · exact h.known other found hf
  vacant hbase hpasses hfree := by
    obtain ⟨hin, hout⟩ := hvacant hbase hpasses hfree
    rw [Facades.get?_set, Facades.get?_set, if_neg hin, if_neg hout]
    exact h.vacant hbase hpasses hfree

theorem Furnished.set_original (hwoven : before.Woven g)
    (hport : before.ports[port]? = some data) (facade : Facade) :
    before.Furnished g (facades.set port facade) := by
  refine h.set (hwoven.keeps.lt_size (lt_size_of_port hport)) (fun hbase hpasses _ => ?_) facade
  obtain ⟨hin, hout⟩ := hwoven.ne_of_passes hport hbase hpasses
  exact ⟨hin.symm, hout.symm⟩

theorem Furnished.set_sink (hs : g.Seated) (hc : g.Consistent)
    (hsink : sink ∈ g.sinksAt source) (facade : Facade) :
    before.Furnished g (facades.set sink facade) := by
  obtain ⟨_, data, -, hd, -⟩ := hc.ends hsink
  refine h.set (lt_size_of_port hd) (fun _ hpasses hfree => ⟨?_, ?_⟩) facade
  · rintro rfl
    exact hfree source hsink
  · exact hpasses.ne_sink hs hc hsink

theorem Furnished.set_output (hs : g.Seated) (hpasses : g.Passes n index input output)
    (hinput : input ∈ g.sinksAt source) (facade : Facade) :
    before.Furnished g (facades.set output facade) := by
  obtain ⟨-, data, hd, -⟩ := hpasses.directions hs
  refine h.set (lt_size_of_port hd) (fun _ ho hfree => ⟨?_, ?_⟩) facade
  · exact ho.input_ne_output hpasses hs
  · rintro rfl
    obtain ⟨rfl, -⟩ := ho.input_unique hs hpasses
    exact hfree source hinput

/-! ## Every step keeps the facades in order -/

theorem Furnished.settle (hwoven : before.Woven g) (scope : ScopeId) (kind : NodeKind) :
    before.Furnished (g.settle { scope, kind, inserted := true } 0 {}) facades := by
  refine h.of_keeps (keeps_settle g _ 0 {}) ?_ ?_
  · simp [Graph.settle, placeNode, attach_eq]
  · intro n index input output hbase hpasses hfree
    by_cases hn : n = g.nodes.size
    · subst hn
      obtain ⟨node, hnode, hin, hout⟩ := hpasses.mem
      exact ⟨h.fresh (le_of_mem_settle rfl rfl .input hnode hin),
        h.fresh (le_of_mem_settle rfl rfl .output hnode hout)⟩
    · rw [Passes, getElem?_nodes_settle_eq, if_neg hn] at hpasses
      refine h.vacant hbase hpasses fun x hx => hfree x ?_
      rwa [(hwoven.consistent.settle _ 0 {}).2]

theorem Furnished.of_spliced (hwoven : before.Woven g)
    (hv : before.Vacancy g n scope index input output) (hsink : before.ports[sink]? = some data)
    (hspliced : g.Spliced sink input output g') (first second : Facade) :
    before.Furnished g' ((facades.set input first).set output second) := by
  have hs' : g'.Seated := (hwoven.wellFormed.of_sameLayout hspliced.layout).seated
  have hfed : ∃ x, input ∈ g'.sinksAt x := by
    obtain ⟨source, hsource⟩ := hspliced.wired
    have hm := hspliced.mem hv.output_free hsource
    rw [redirect, if_pos rfl] at hm
    exact ⟨source, hm⟩
  have hgraph : before.Furnished g' facades := by
    refine h.of_sameLayout hspliced.layout fun hbase hpasses x hx => ⟨x, ?_⟩
    have hm := hspliced.mem hv.output_free hx
    rwa [redirect, if_neg (hwoven.ne_of_passes hsink hbase hpasses).1.symm] at hm
  obtain ⟨x, hx⟩ := hfed
  exact (hgraph.set_sink hs' hspliced.consistent hx first).set_output hs'
    (hv.passes.of_keeps hspliced.layout.keeps) hx second

theorem Furnished.of_splicedAfter (hwoven : before.Woven g)
    (hv : before.Vacancy g n scope index input output)
    (hsource : before.ports[source]? = some data)
    (hspliced : g.SplicedAfter source input output g') (first second third : Facade) :
    before.Furnished g' (((facades.set source first).set input second).set output third) := by
  have hs' : g'.Seated := (hwoven.wellFormed.of_sameLayout hspliced.layout).seated
  have hfed := hspliced.input_mem
  have hgraph : before.Furnished g' facades := by
    apply h.of_sameLayout hspliced.layout
    intro _ _ _ _ _ _ x hx
    exact ⟨_, hspliced.mem hv.output_free hx⟩
  have hwoven' := hwoven.of_splicedAfter hv hspliced hsource
  exact ((hgraph.set_original hwoven' hsource first).set_sink hs' hspliced.consistent hfed
    second).set_output hs' (hv.passes.of_keeps hspliced.layout.keeps) hfed third

theorem Furnished.of_joined (hw : g.WellFormed) (hjoined : g.Joined source sink g')
    (facade : Facade) : before.Furnished g' (facades.set sink facade) := by
  have hgraph : before.Furnished g' facades := by
    apply h.of_sameLayout hjoined.layout
    intro _ _ _ _ _ _ x hx
    exact ⟨x, hjoined.mem hx⟩
  have hsink : sink ∈ g'.sinksAt source := by
    rw [hjoined.sinksAt, if_pos rfl]
    exact List.mem_append_right _ (List.mem_singleton_self sink)
  exact hgraph.set_sink (hw.of_sameLayout hjoined.layout).seated hjoined.consistent hsink facade

end

end Graph

theorem Facades.collapse_eq {table : Facades} {facade : Facade}
    (h : table.get? port = some facade) :
    table.collapse port = .ok (facade.nodeSide, table.set port (.simple facade.nodeSide)) := by
  unfold collapse
  rw [nodeSide_eq_ok.mpr ⟨facade, h, rfl⟩]
  rfl

/-- Whether some wired members of a group are handed back and others are not. -/
def BorrowGroup.IsUneven (group : BorrowGroup) (g : Graph) : Prop :=
  (∃ member ∈ group.wiredIn g, member.pairedOutput ≠ none) ∧
    ∃ member ∈ group.wiredIn g, member.pairedOutput = none

/-- Whether a group borrows, but nothing can end the borrow. -/
def BorrowGroup.CannotEnd (group : BorrowGroup) (g : Graph) : Prop :=
  (∃ mutable lifetime, group.decision = some (.borrow mutable lifetime)) ∧ group.IsUneven g

namespace Insertion

variable {ws : Workspace}

/-! ## Steps that succeed -/

section Rules

variable {α : Type} {post : α → Workspace → Prop} {failed : Fault → Workspace → Prop}

theorem meets_askGraph_of_ok {query : Graph → Except Fault α} {a : α}
    (ha : query ws.graph = .ok a) (h : post a ws) :
    Meets (askGraph query) ws post failed := by
  apply meets_askGraph
  · intro found hf
    cases ha.symm.trans hf
    exact h
  · intro fault hfault
    cases ha.symm.trans hfault

theorem meets_ask_of_ok {query : Context → Except Fault α} {a : α}
    (ha : query ws.context = .ok a) (h : post a ws) :
    Meets (infer (Pass.ask query)) ws post failed := by
  apply meets_infer
  apply Pass.meets_ask
  · intro found hf
    cases ha.symm.trans hf
    exact h
  · intro fault hfault
    cases ha.symm.trans hfault

theorem meets_faceSimply_of_fresh {flow : FlowId} {done : PUnit → Workspace → Prop}
    (hfresh : ws.context.facades.get? port = none)
    (h : done () { ws with context := { ws.context with
      facades := ws.context.facades.set port (.simple flow) } }) :
    Meets (faceSimply port flow) ws done failed := by
  apply meets_infer
  apply Pass.meets_insertFacade
  · exact fun _ => h
  · intro hcontains
    rw [Facades.contains_eq_false hfresh] at hcontains
    cases hcontains

end Rules

/-- What the given graph has is still there, and the facades are in order. -/
def furnishing (before start : Graph) : Assertion := fun _ g facades =>
  start.Keeps g ∧ before.Furnished g facades

theorem kept_furnishing (before start : Graph) : Kept before (furnishing before start) where
  settle := by
    rintro todo g facades scope kind hwoven ⟨hkeeps, hfurnished⟩
    exact ⟨hkeeps.trans (Graph.keeps_settle g _ 0 {}), hfurnished.settle hwoven scope kind⟩
  borrow := by
    rintro todo g g' facades facade n host scope index sink input output hwoven hv hfaces
      hspliced - ⟨hkeeps, hfurnished⟩
    obtain ⟨data, hd, -⟩ := hfaces.port
    exact ⟨hkeeps.trans hspliced.layout.keeps, hfurnished.of_spliced hwoven hv hd hspliced _ _⟩
  terminate := by
    rintro todo g g' facades facade n host scope index source input output hwoven hv hfaces
      hspliced - ⟨hkeeps, hfurnished⟩
    obtain ⟨data, hd, -⟩ := hfaces.port
    exact ⟨hkeeps.trans hspliced.layout.keeps, hfurnished.of_splicedAfter hwoven hv hd hspliced
      _ _ _⟩
  drop := by
    rintro todo g g' facades flow input output hwoven hjoined - ⟨hkeeps, hfurnished⟩
    exact ⟨hkeeps.trans hjoined.layout.keeps, hfurnished.of_joined hwoven.wellFormed hjoined _⟩

theorem pairedOutputs_eq_error_iff {node : NodeId} {wired : List GroupMember} {fault : Fault} :
    pairedOutputs node wired = .error fault ↔
      fault = .unevenPairing (wired.filterMap GroupMember.pairedOutput).length wired.length node ∧
        (∃ member ∈ wired, member.pairedOutput ≠ none) ∧
          ∃ member ∈ wired, member.pairedOutput = none := by
  have huneven : (!(wired.filterMap GroupMember.pairedOutput).isEmpty &&
      (wired.filterMap GroupMember.pairedOutput).length < wired.length) = true ↔
        (∃ member ∈ wired, member.pairedOutput ≠ none) ∧
          ∃ member ∈ wired, member.pairedOutput = none := by
    simp
  unfold pairedOutputs
  dsimp only
  split
  · rename_i hrefused
    constructor
    · intro h
      cases h
      exact ⟨rfl, huneven.mp hrefused⟩
    · rintro ⟨rfl, -⟩
      rfl
  · rename_i haccepted
    constructor
    · nofun
    · rintro ⟨-, h⟩
      exact absurd (huneven.mpr h) haccepted

section Steps

variable {host : NodeId} {rest : List (PortId × Nat)}
  (hfurnished : before.Furnished ws.graph ws.context.facades)
include hfurnished

/-! ## Borrows -/

theorem succeeds_borrowMember (hc : before.Consistent) {borrow : NodeId} {member : GroupMember}
    (h : before.Fronting ws.graph borrow scope host ((member.port, index) :: rest))
    (hports : ∃ input output, ws.graph.Passes borrow index input output)
    (hwired : before.isWired member.port = true) :
    Meets (borrowMember borrow index member) ws (fun _ _ => True) fun _ _ => False := by
  obtain ⟨input, output, hpasses⟩ := hports
  have hv := h.pending.vacancy h.woven.wellFormed List.mem_cons_self hpasses
  have hfaces := h.faces _ List.mem_cons_self
  obtain ⟨port, hport, hinput, -⟩ := hfaces.port
  obtain ⟨facade, hfacade⟩ := hfurnished.faced member.port (Graph.lt_size_of_port hport)
  obtain ⟨hin, hout⟩ := hfurnished.vacant hv.base hpasses hv.input_free
  have hfed := (h.woven.fed_iff hc hport).mpr ((hc.isWired_iff hport hinput).mp hwired)
  obtain ⟨g', hrun, -⟩ := hv.splice_ok h.woven.consistent
    (hfaces.of_keeps h.woven.original h.woven.keeps) hfed
  obtain ⟨node, hnode, hinput', houtput'⟩ := hpasses
  apply Meets.bind
  apply meets_askGraph_of_ok (Graph.inputPort_eq_ok.mpr ⟨node, hnode, hinput'⟩)
  apply Meets.bind
  apply meets_askGraph_of_ok (Graph.outputPort_eq_ok.mpr ⟨node, hnode, houtput'⟩)
  apply Meets.bind
  apply meets_edit
  apply Meets.of_ok hrun
  apply Meets.bind
  apply meets_ask_of_ok (Facades.get_eq_ok.mpr hfacade)
  apply Meets.bind
  apply meets_faceSimply_of_fresh
  · exact hin
  apply meets_faceSimply_of_fresh
  · rw [Facades.get?_set, if_neg (hv.input_faces.ne hv.output_faces).symm, hout]
  trivial

theorem succeeds_insertBorrow (hc : before.Consistent) (mutable : Bool) {wired : List GroupMember}
    (hne : wired ≠ []) (hfaces : ∀ member ∈ wired, before.Faces .input scope host member.port)
    (hnodup : (wired.map GroupMember.port).Nodup)
    (hwired : ∀ member ∈ wired, before.isWired member.port = true)
    (hscope : scope < before.scopes.size) (h : before.Refined ws.graph) :
    Meets (insertBorrow scope mutable wired) ws (fun _ _ => True) fun _ _ => False := by
  have hscope' := Nat.lt_of_lt_of_le hscope hfurnished.scopes
  apply Meets.bind
  apply meets_edit
  apply Meets.of_ok (Graph.addNode_ok hscope' rfl)
  apply Meets.bind
  apply Meets.forM fun items ws' => (∀ item ∈ items, item ∈ wired.zipIdx) ∧
    before.Fronting ws'.graph ws.graph.nodes.size scope host (places items) ∧ (ws.graph.settle
        { scope, kind := .explicitBorrow mutable wired.length, inserted := true } 0 {}).Keeps
          ws'.graph ∧ before.Furnished ws'.graph ws'.context.facades
  · exact ⟨fun _ hitem => hitem, fronting_places hne hfaces hnodup h hscope', .refl _,
      hfurnished.settle h.woven _ _⟩
  · rintro item rest ws' ⟨hitems, hfront, hkeeps, hfurnished'⟩
    obtain ⟨hitem, hrest⟩ := List.forall_mem_cons.mp hitems
    have hstanding : Standing ws'.context (furnishing before _) [item.1.port] ws' :=
      ⟨rfl, rfl, hkeeps, hfurnished'⟩
    obtain ⟨input, output, hpasses⟩ := h.woven.exists_passes_settle
      (.explicitBorrow mutable wired.length) hscope' rfl
      (fun direction => by cases direction <;> rfl) (List.snd_lt_of_mem_zipIdx hitem)
    have hsucceeds := succeeds_borrowMember hfurnished' hc hfront
      ⟨input, output, hpasses.of_keeps hkeeps⟩ (hwired item.1 (List.fst_mem_of_mem_zipIdx hitem))
    apply ((ends_borrowMember (kept_furnishing before _) hfront hstanding).and hsucceeds).mono
    · rintro _ ws'' ⟨⟨hfront', hstanding'⟩, -⟩
      exact ⟨hrest, hfront', hstanding'.holds⟩
    · exact fun _ _ hfailed => hfailed.2
  · intro _ _
    trivial

/-! ## Terminations -/

theorem succeeds_dropValue {flow : FlowId} (h : before.Woven ws.graph)
    (hfaces : ws.graph.Faces .output scope n output)
    (hscope : scope < ws.graph.scopes.size) :
    Meets (dropValue scope output flow) ws (fun _ _ => True) fun _ _ => False := by
  have hwoven := h.settle .drop hscope rfl
  have hkeeps := Graph.keeps_settle ws.graph { scope, kind := .drop, inserted := true } 0 {}
  obtain ⟨drop, hdrop, hdropScope, hk, hlen⟩ :=
    h.exists_port_settle .drop hscope rfl
  obtain ⟨input, hinput⟩ : ∃ input, (drop.portsOn .input)[0]? = some input := by
    refine ⟨_, List.getElem?_eq_getElem ?_⟩
    rw [hlen]
    exact Nat.zero_lt_one
  have hm := List.mem_of_getElem? hinput
  have hnew := Graph.le_of_mem_settle rfl rfl .input hdrop hm
  -- the input of the drop node is new, so nothing feeds it
  obtain ⟨sinkPort, hsink, -, hdirection, -⟩ := hwoven.wellFormed.seated.seat hdrop hinput
  have hsinkScope := hwoven.wellFormed.seated.scope_of_plain hdrop (by rw [hk]; rfl) hm hsink
  have hfree : sinkPort.wire = none := by
    apply hwoven.consistent.wire_eq_none_of_input hsink hdirection
    intro x
    rw [(h.consistent.settle _ 0 {}).2]
    exact (h.consistent.not_mem_of_new (Array.getElem?_eq_none hnew)).1 x
  obtain ⟨⟨sourcePort, hsource, houtput, hsourceScope⟩, -⟩ := hfaces.of_keeps h.wellFormed hkeeps
  obtain ⟨w, g', hrun, -⟩ := hwoven.consistent.connect_ok hsource hsink houtput hdirection
    (hsourceScope.trans (hsinkScope.trans hdropScope).symm) hfree
  apply Meets.bind
  apply meets_edit
  apply Meets.of_ok (Graph.addNode_ok hscope rfl)
  apply Meets.bind
  apply meets_askGraph_of_ok (Graph.inputPort_eq_ok.mpr ⟨drop, hdrop, hinput⟩)
  apply Meets.bind
  apply meets_edit
  apply Meets.of_ok hrun
  apply Meets.bind
  apply meets_faceSimply_of_fresh
  · exact hfurnished.fresh hnew
  trivial

theorem succeeds_terminateReference (config : Config) {terminate : NodeId} {reference : PortId}
    (h : before.Backing ws.graph terminate scope host ((reference, index) :: rest))
    (hports : ∃ input output, ws.graph.Passes terminate index input output)
    (hscope : scope < before.scopes.size) :
    Meets (terminateReference config scope terminate index reference) ws
      (fun _ _ => True) fun _ _ => False := by
  obtain ⟨input, output, hpasses⟩ := hports
  have hv := h.pending.vacancy h.woven.wellFormed List.mem_cons_self hpasses
  have hfaces := h.faces _ List.mem_cons_self
  obtain ⟨port, hport, -⟩ := hfaces.port
  obtain ⟨facade, hfacade⟩ := hfurnished.faced reference (Graph.lt_size_of_port hport)
  obtain ⟨hin, hout⟩ := hfurnished.vacant hv.base hpasses hv.input_free
  obtain ⟨hne, hne'⟩ := h.woven.ne_of_passes hport hv.base hpasses
  obtain ⟨connected, hconnected⟩ := Graph.exists_isConnected
    (h.woven.keeps.lt_size (Graph.lt_size_of_port hport))
  obtain ⟨g', hrun, hspliced⟩ := hv.spliceAfter_ok h.woven.consistent
    (hfaces.of_keeps h.woven.original h.woven.keeps)
  obtain ⟨node, hnode, hinput, houtput⟩ := id hpasses
  apply Meets.bind
  apply meets_ask_of_ok (Facades.wireSide_eq_ok.mpr ⟨facade, hfacade, rfl⟩)
  apply Meets.bind
  apply meets_ask_of_ok (Facades.collapse_eq hfacade)
  apply Meets.bind
  apply meets_infer
  apply Pass.ends_modify
  apply Meets.bind
  apply meets_askGraph_of_ok hconnected
  apply Meets.bind
  apply meets_askGraph_of_ok (Graph.inputPort_eq_ok.mpr ⟨node, hnode, hinput⟩)
  apply Meets.bind
  apply meets_askGraph_of_ok (Graph.outputPort_eq_ok.mpr ⟨node, hnode, houtput⟩)
  apply Meets.bind
  apply meets_edit
  apply Meets.of_ok hrun
  apply Meets.bind
  apply meets_faceSimply_of_fresh
  · rw [Facades.get?_set, if_neg hne.symm, hin]
  apply Meets.bind
  apply meets_faceSimply_of_fresh
  · rw [Facades.get?_set, if_neg (hv.input_faces.ne hv.output_faces).symm, Facades.get?_set,
      if_neg hne'.symm, hout]
  split
  · have hfurnished' := hfurnished.of_splicedAfter h.woven hv hport hspliced
      (.simple facade.nodeSide) (.simple facade.nodeSide) (.simple facade.wireSide)
    exact succeeds_dropValue hfurnished' (h.woven.of_splicedAfter hv hspliced hport)
      (hv.output_faces.of_keeps h.woven.wellFormed hspliced.layout.keeps)
      (Nat.lt_of_lt_of_le hscope hfurnished'.scopes)
  · trivial

theorem succeeds_insertTermination {config : Config} {paired : List PortId} (hne : paired ≠ [])
    (hfaces : ∀ output ∈ paired, before.Faces .output scope host output) (hnodup : paired.Nodup)
    (hscope : scope < before.scopes.size) (h : before.Refined ws.graph) :
    Meets (insertTermination config scope paired) ws (fun _ _ => True) fun _ _ => False := by
  have hscope' := Nat.lt_of_lt_of_le hscope hfurnished.scopes
  apply Meets.bind
  apply meets_edit
  apply Meets.of_ok (Graph.addNode_ok hscope' rfl)
  apply Meets.bind
  apply Meets.forM fun items ws' => (∀ item ∈ items, item ∈ paired.zipIdx) ∧
    before.Backing ws'.graph ws.graph.nodes.size scope host items ∧ (ws.graph.settle
        { scope, kind := .terminateLifetime paired.length paired.length, inserted := true } 0
          {}).Keeps ws'.graph ∧ before.Furnished ws'.graph ws'.context.facades
  · exact ⟨fun _ hitem => hitem, backing_zipIdx hne hfaces hnodup h hscope', .refl _,
      hfurnished.settle h.woven _ _⟩
  · rintro item rest ws' ⟨hitems, hback, hkeeps, hfurnished'⟩
    obtain ⟨hitem, hrest⟩ := List.forall_mem_cons.mp hitems
    have hstanding : Standing ws'.context (furnishing before _) [] ws' :=
      ⟨rfl, rfl, hkeeps, hfurnished'⟩
    obtain ⟨input, output, hpasses⟩ := h.woven.exists_passes_settle
      (.terminateLifetime paired.length paired.length) hscope' rfl
      (fun direction => by cases direction <;> rfl) (List.snd_lt_of_mem_zipIdx hitem)
    have hsucceeds := succeeds_terminateReference hfurnished' config hback
      ⟨input, output, hpasses.of_keeps hkeeps⟩ hscope
    apply ((ends_terminateReference (kept_furnishing before _) scope hback hstanding).and
      hsucceeds).mono
    · rintro _ ws'' ⟨⟨hback', hstanding'⟩, -⟩
      exact ⟨hrest, hback', hstanding'.holds⟩
    · exact fun _ _ hfailed => hfailed.2
  · intro _ _
    trivial

/-! ## Groups -/

theorem meets_insertGroup_uneven (hc : before.Consistent) {config : Config} {group : BorrowGroup}
    {mutable : Bool} (hfits : group.Fits before host) (hscope : group.scope < before.scopes.size)
    (h : before.Refined ws.graph) :
    Meets (insertGroup config group mutable) ws (fun _ _ => ¬group.IsUneven before)
      fun fault _ => fault.kind = .lifetimeTermination ∧ group.IsUneven before := by
  have hmembers : ∀ member ∈ group.members, member.port < ws.graph.ports.size := by
    intro member hmember
    exact h.woven.keeps.lt_size (hfits.inputs member hmember).lt_size
  have hwired := BorrowGroup.wiredMembers_eq_ok hmembers
  rw [hfits.wiredIn_eq hc h.woven] at hwired
  apply Meets.bind
  apply meets_askGraph_of_ok hwired
  split
  · rename_i hsome
    apply Meets.bind
    apply Meets.lift
    · intro paired hpaired
      have heven : ¬group.IsUneven before := by
        intro huneven
        cases hpaired.symm.trans (pairedOutputs_eq_error_iff.mpr ⟨rfl, huneven⟩)
      obtain rfl := eq_of_pairedOutputs_ok hpaired
      have hne : group.wiredIn before ≠ [] := by simpa using hsome
      obtain ⟨hinputs, hnodup⟩ := hfits.wired before
      have hstanding : Standing ws.context (furnishing before before)
          ((group.wiredIn before).map GroupMember.port ++ []) ws :=
        ⟨rfl, rfl, h.woven.keeps, hfurnished⟩
      have hborrow := succeeds_insertBorrow hfurnished hc mutable hne hinputs hnodup
        (fun member hmember => (List.mem_filter.mp hmember).2) hscope h
      apply Meets.bind
      apply ((ends_insertBorrow (kept_furnishing before before) hne hinputs hnodup h
        hstanding).and hborrow).mono
      · rintro _ ws' ⟨⟨hrefined, -, -, -, hfurnished'⟩, -⟩
        split
        · rename_i hpairs
          obtain ⟨houtputs, hnodup'⟩ := hfits.paired before
          apply (succeeds_insertTermination hfurnished' (by simpa using hpairs) houtputs hnodup'
            hscope hrefined).mono
          · exact fun _ _ _ => heven
          · exact fun _ _ => False.elim
        · exact heven
      · exact fun _ _ hfailed => hfailed.2.elim
    · intro fault hfault
      obtain ⟨rfl, huneven⟩ := pairedOutputs_eq_error_iff.mp hfault
      exact ⟨rfl, huneven⟩
  · rename_i hnone
    have hempty : group.wiredIn before = [] := by simpa using hnone
    rintro ⟨⟨member, hmember, -⟩, -⟩
    rw [hempty] at hmember
    cases hmember

/-- Inserting borrows fails if and only if some group borrows for members of which only some are
handed back. -/
theorem meets_insertBorrows_uneven (hc : before.Consistent) (config : Config)
    (hgroups : ∀ group ∈ ws.context.groups.groups.toList,
      group.scope < before.scopes.size ∧ ∃ host, group.Fits before host)
    (h : before.Refined ws.graph) :
    Meets (insertBorrows config) ws
      (fun _ _ => ∀ group ∈ ws.context.groups.groups.toList, ¬group.CannotEnd before)
      fun fault _ => fault.kind = .lifetimeTermination ∧
        ∃ group ∈ ws.context.groups.groups.toList, group.CannotEnd before := by
  apply Meets.bind
  apply Meets.forM fun groups ws' =>
    (∀ group ∈ groups, group ∈ ws.context.groups.groups.toList) ∧
      (∀ group ∈ ws.context.groups.groups.toList, group.CannotEnd before → group ∈ groups) ∧
        before.Refined ws'.graph ∧ before.Furnished ws'.graph ws'.context.facades
  · exact ⟨fun _ hgroup => hgroup, fun _ hgroup _ => hgroup, h, hfurnished⟩
  · rintro group rest ws' ⟨hall, hl, hrefined, hfurnished'⟩
    obtain ⟨hgroup, hrest⟩ := List.forall_mem_cons.mp hall
    obtain ⟨hscope, host, hfits⟩ := hgroups group hgroup
    -- a group that can be ended is done
    have hdone : ¬group.CannotEnd before →
        ∀ other ∈ ws.context.groups.groups.toList, other.CannotEnd before → other ∈ rest := by
      intro hends other ho hcannot
      refine (List.mem_cons.mp (hl other ho hcannot)).resolve_left ?_
      rintro rfl
      exact hends hcannot
    split
    · rename_i mutable lifetime hdecision
      have hstanding : Standing ws'.context (furnishing before before)
          ((group.wiredIn before).map GroupMember.port ++ []) ws' :=
        ⟨rfl, rfl, hrefined.woven.keeps, hfurnished'⟩
      apply ((ends_insertGroup (kept_furnishing before before) hc hfits hrefined hstanding).and
        (meets_insertGroup_uneven hfurnished' hc hfits hscope hrefined)).mono
      · rintro _ ws'' ⟨⟨hrefined', -, -, -, hfurnished''⟩, heven⟩
        exact ⟨hrest, hdone fun hcannot => heven hcannot.2, hrefined', hfurnished''⟩
      · rintro fault _ ⟨-, hk, huneven⟩
        exact ⟨hk, group, hgroup, ⟨mutable, lifetime, hdecision⟩, huneven⟩
    · rename_i ho
      refine ⟨hrest, hdone ?_, hrefined, hfurnished'⟩
      rintro ⟨⟨mutable, lifetime, hdecision⟩, -⟩
      exact ho mutable lifetime hdecision
  · rintro _ ⟨-, hl, -⟩ group hgroup hcannot
    cases hl group hgroup hcannot

end Steps

end Insertion

end BorrowFlow
