import BorrowFlow.Proofs.Inference.Arrangement

/-!
# Where values are routed

The borrow node of a group has a pair of ports for each wired member: its input shows what the wires
see of the member, and its output, which feeds the member, shows what the node takes. If members are
handed back, then the node that ends the borrow has a pair of ports for each of the outputs that
hand them back: its input, which the output feeds, shows what the node hands back, and its output
shows what the wires are to see. Inserting the borrows of other groups leaves all of this as it is,
because it leaves alone whatever is not on a wire of their own members.
-/

namespace BorrowFlow

variable {group : BorrowGroup} {g : Graph} {host : NodeId} {mutable : Bool} {port : PortId}

/-! ## Outputs that hand back what was borrowed -/

namespace BorrowGroup

variable {other : BorrowGroup}

/-- The outputs that hand back what is borrowed for a group. -/
def returnedIn (group : BorrowGroup) (g : Graph) : List PortId :=
  match group.decision with
  | some (.borrow ..) => (group.wiredIn g).filterMap GroupMember.pairedOutput
  | _ => []

theorem returnedIn_of_borrow {lifetime : Lifetime}
    (h : group.decision = some (.borrow mutable lifetime)) :
    group.returnedIn g = (group.wiredIn g).filterMap GroupMember.pairedOutput := by
  rw [returnedIn, h]

theorem exists_of_mem_borrowedIn (h : port ∈ group.borrowedIn g) :
    ∃ member ∈ group.wiredIn g, member.port = port := by
  unfold borrowedIn at h
  split at h
  · exact List.mem_map.mp h
  · cases h

theorem exists_of_mem_returnedIn (h : port ∈ group.returnedIn g) :
    ∃ member ∈ group.wiredIn g, member.pairedOutput = some port ∧
      member.port ∈ group.borrowedIn g := by
  unfold returnedIn at h
  split at h
  · rename_i mutable lifetime hdecision
    obtain ⟨member, hmember, hport⟩ := List.mem_filterMap.mp h
    rw [borrowedIn_of_borrow hdecision]
    exact ⟨member, hmember, hport, List.mem_map_of_mem hmember⟩
  · cases h

theorem Fits.faces_borrowedIn (h : group.Fits g host) (hport : port ∈ group.borrowedIn g) :
    g.Faces .input group.scope host port := by
  obtain ⟨member, hmember, rfl⟩ := exists_of_mem_borrowedIn hport
  exact (h.wired g).1 member hmember

theorem Fits.faces_returnedIn (h : group.Fits g host) (hport : port ∈ group.returnedIn g) :
    g.Faces .output group.scope host port := by
  obtain ⟨member, hmember, houtput, -⟩ := exists_of_mem_returnedIn hport
  exact (h.paired g).1 port (List.mem_filterMap.mpr ⟨member, hmember, houtput⟩)

/-- Two groups borrow for different inputs, and hand back at different outputs. -/
structure Apart (g : Graph) (group other : BorrowGroup) : Prop where
  inputs : ∀ port ∈ group.borrowedIn g, port ∉ other.borrowedIn g
  outputs : ∀ port ∈ group.returnedIn g, port ∉ other.returnedIn g

theorem Apart.not_mem_returnedIn {host' : NodeId} (h : group.Apart g other)
    (hfits : group.Fits g host) (hfits' : other.Fits g host')
    (hport : port ∈ other.borrowedIn g ∨ port ∈ other.returnedIn g) :
    port ∉ group.returnedIn g := by
  intro hreturned
  rcases hport with hborrowed | hreturned'
  · exact (hfits'.faces_borrowedIn hborrowed).ne (hfits.faces_returnedIn hreturned) rfl
  · exact h.outputs port hreturned hreturned'

end BorrowGroup

namespace Insertion

variable {before : Graph} {ws ws' ws'' : Workspace} {inputs outputs inputs' outputs' : List PortId}
  {n : NodeId} {scope : ScopeId} {index : Nat} {sink source input output : PortId} {facade : Facade}
  {flow taken given : FlowId}

/-! ## What a step leaves alone -/

/-- Everything but the given inputs and outputs has been left alone. The inputs may be fed by other
outputs than before, and the outputs may feed other inputs, and show the wires what their nodes hand
back. -/
structure Spares (inputs outputs : List PortId) (ws ws' : Workspace) : Prop where
  keeps : ws.graph.Keeps ws'.graph
  terms : ws'.context.terms = ws.context.terms
  flows : ws'.context.flows = ws.context.flows
  diagnostics : ws'.context.diagnostics = ws.context.diagnostics
  facades : ∀ port facade, ws.context.facades.get? port = some facade →
    ∃ facade', ws'.context.facades.get? port = some facade' ∧
      (facade' = facade ∨ port ∈ outputs ∧ facade' = .simple facade.nodeSide)
  sinks : ∀ source, ∀ sink ∈ ws.graph.sinksAt source, sink ∉ inputs → source ∉ outputs →
    sink ∈ ws'.graph.sinksAt source

theorem Spares.refl (inputs outputs : List PortId) (ws : Workspace) :
    Spares inputs outputs ws ws :=
  ⟨.refl _, rfl, rfl, rfl, fun _ facade hfacade => ⟨facade, hfacade, .inl rfl⟩,
    fun _ _ hsink _ _ => hsink⟩

section

variable (h : Spares inputs outputs ws ws')
include h

theorem Spares.trans (h' : Spares inputs outputs ws' ws'') : Spares inputs outputs ws ws'' where
  keeps := h.keeps.trans h'.keeps
  terms := h'.terms.trans h.terms
  flows := h'.flows.trans h.flows
  diagnostics := h'.diagnostics.trans h.diagnostics
  facades port facade hfacade := by
    obtain ⟨facade', hfacade', hcase⟩ := h.facades port facade hfacade
    obtain ⟨facade'', hfacade'', hcase'⟩ := h'.facades port facade' hfacade'
    refine ⟨facade'', hfacade'', ?_⟩
    -- what has collapsed once stays as it is
    rcases hcase with rfl | ⟨hport, rfl⟩
    · exact hcase'
    · rcases hcase' with rfl | ⟨-, rfl⟩
      · exact .inr ⟨hport, rfl⟩
      · exact .inr ⟨hport, rfl⟩
  sinks source sink hsink hinput houtput :=
    h'.sinks source sink (h.sinks source sink hsink hinput houtput) hinput houtput

theorem Spares.mono (hinputs : inputs ⊆ inputs') (houtputs : outputs ⊆ outputs') :
    Spares inputs' outputs' ws ws' where
  __ := h
  facades port facade hfacade := by
    obtain ⟨facade', hfacade', hcase⟩ := h.facades port facade hfacade
    exact ⟨facade', hfacade', hcase.imp_right fun ⟨hport, heq⟩ => ⟨houtputs hport, heq⟩⟩
  sinks source sink hsink hinput houtput :=
    h.sinks source sink hsink (fun hm => hinput (hinputs hm)) fun hm => houtput (houtputs hm)

theorem Spares.get?_of_not_mem (hfacade : ws.context.facades.get? port = some facade)
    (hport : port ∉ outputs) : ws'.context.facades.get? port = some facade := by
  obtain ⟨facade', hfacade', rfl | ⟨hm, -⟩⟩ := h.facades port facade hfacade
  · exact hfacade'
  · exact absurd hm hport

theorem Spares.get?_simple (hflow : ws.context.facades.get? port = some (.simple flow)) :
    ws'.context.facades.get? port = some (.simple flow) := by
  obtain ⟨facade', hfacade', rfl | ⟨-, rfl⟩⟩ := h.facades port (.simple flow) hflow
  · exact hfacade'
  · exact hfacade'

end

theorem spares_settle (hc : ws.graph.Consistent) (scope : ScopeId) (kind : NodeKind) :
    Spares [] [] ws { ws with
      graph := ws.graph.settle { scope, kind, inserted := true } 0 {} } where
  __ := Spares.refl [] [] ws
  keeps := Graph.keeps_settle ws.graph _ 0 {}
  sinks source sink hsink _ _ := by
    rw [(hc.settle _ 0 {}).2]
    exact hsink

theorem spares_count (ws : Workspace) (stats : Stats) :
    Spares [] [] ws { ws with context := { ws.context with stats } } where
  __ := Spares.refl [] [] ws

theorem Lends.spares (h : Lends before n scope index sink input output facade ws ws') :
    Spares [sink] [] ws ws' where
  __ := h.refaced
  keeps := h.spliced.layout.keeps
  facades port found hf := by
    obtain ⟨hin, hout⟩ := h.fresh
    refine ⟨found, ?_, .inl rfl⟩
    rw [h.refaced.facades_eq, Facades.get?_set, Facades.get?_set,
      if_neg (Facades.ne_of_fresh hout hf), if_neg (Facades.ne_of_fresh hin hf), hf]
  sinks origin other ho hsink _ := by
    have hm := h.spliced.mem h.vacancy.output_free ho
    rwa [Graph.redirect, if_neg (by simpa using hsink)] at hm

theorem Terminates.get?_source
    (h : Terminates before n scope index source input output facade ws ws') :
    ws'.context.facades.get? source = some (.simple facade.nodeSide) := by
  obtain ⟨hin, hout⟩ := h.fresh
  rw [h.refaced.facades_eq, Facades.get?_set, Facades.get?_set, Facades.get?_set,
    if_neg (Facades.ne_of_fresh hout h.found), if_neg (Facades.ne_of_fresh hin h.found), if_pos rfl]

theorem Terminates.spares (h : Terminates before n scope index source input output facade ws ws') :
    Spares [] [source] ws ws' where
  __ := h.refaced
  keeps := h.spliced.layout.keeps
  facades port found hf := by
    by_cases hport : port = source
    · subst hport
      cases hf.symm.trans h.found
      exact ⟨_, h.get?_source, .inr ⟨List.mem_singleton_self port, rfl⟩⟩
    · obtain ⟨hin, hout⟩ := h.fresh
      refine ⟨found, ?_, .inl rfl⟩
      rw [h.refaced.facades_eq, Facades.get?_set, Facades.get?_set, Facades.get?_set,
        if_neg (Facades.ne_of_fresh hout hf), if_neg (Facades.ne_of_fresh hin hf),
        if_neg hport, hf]
  sinks origin other ho _ hsource := by
    have hm := h.spliced.mem h.vacancy.output_free ho
    rwa [Graph.redirect, if_neg (by simpa using hsource)] at hm

theorem Drops.spares (h : Drops scope output sink flow ws ws')
    (hc : ws.graph.Consistent) : Spares [] [] ws ws' where
  __ := h.refaced
  keeps := (Graph.keeps_settle ws.graph _ 0 {}).trans h.joined.layout.keeps
  facades port found hf := by
    refine ⟨found, ?_, .inl rfl⟩
    rw [h.refaced.facades_eq]
    exact Facades.get?_set_of_fresh _ h.fresh port found hf
  sinks origin other ho _ _ := by
    apply h.joined.mem
    rwa [(hc.settle _ 0 {}).2]

/-! ## Values on their way through a node -/

/-- A pair of ports of a node that was added, with the flows that they show. -/
structure Through (before : Graph) (ws : Workspace) (n : NodeId) (index : Nat)
    (taken given : FlowId) (input output : PortId) : Prop where
  base : before.nodes.size ≤ n
  passes : ws.graph.Passes n index input output
  taken : ws.context.facades.get? input = some (.simple taken)
  given : ws.context.facades.get? output = some (.simple given)

theorem Through.of_spares (h : Through before ws n index taken given input output)
    (hspares : Spares inputs outputs ws ws') :
    Through before ws' n index taken given input output :=
  ⟨h.base, h.passes.of_keeps hspares.keeps, hspares.get?_simple h.taken,
    hspares.get?_simple h.given⟩

theorem Through.not_mem (h : Through before ws n index taken given input output)
    (hwoven : before.Woven ws.graph) {ports : List PortId}
    (hports : ∀ port ∈ ports, ∃ data, before.ports[port]? = some data) :
    input ∉ ports ∧ output ∉ ports := by
  constructor
  · intro hm
    obtain ⟨data, hd⟩ := hports input hm
    exact (hwoven.ne_of_passes hd h.base h.passes).1 rfl
  · intro hm
    obtain ⟨data, hd⟩ := hports output hm
    exact (hwoven.ne_of_passes hd h.base h.passes).2 rfl

def LentBy (before : Graph) (ws : Workspace) (n : NodeId) (index : Nat) (sink : PortId)
    (facade : Facade) : Prop :=
  ∃ input output, Through before ws n index facade.wireSide facade.nodeSide input output ∧
    sink ∈ ws.graph.sinksAt output

/-- An output feeds the given node, and shows the wires what its own node hands back. -/
def EndedBy (before : Graph) (ws : Workspace) (n : NodeId) (index : Nat) (source : PortId)
    (facade : Facade) : Prop :=
  ws.context.facades.get? source = some (.simple facade.nodeSide) ∧
    ∃ input output, Through before ws n index facade.nodeSide facade.wireSide input output ∧
      input ∈ ws.graph.sinksAt source

theorem LentBy.of_spares (h : LentBy before ws n index sink facade) (hwoven : before.Woven ws.graph)
    (houtputs : ∀ port ∈ outputs, ∃ data, before.ports[port]? = some data)
    (hspares : Spares inputs outputs ws ws') (hsink : sink ∉ inputs) :
    LentBy before ws' n index sink facade := by
  obtain ⟨input, output, hthrough, hfed⟩ := h
  exact ⟨input, output, hthrough.of_spares hspares,
    hspares.sinks output sink hfed hsink (hthrough.not_mem hwoven houtputs).2⟩

theorem EndedBy.of_spares (h : EndedBy before ws n index source facade)
    (hwoven : before.Woven ws.graph)
    (hinputs : ∀ port ∈ inputs, ∃ data, before.ports[port]? = some data)
    (hspares : Spares inputs outputs ws ws') (hsource : source ∉ outputs) :
    EndedBy before ws' n index source facade := by
  obtain ⟨hshows, input, output, hthrough, hfed⟩ := h
  exact ⟨hspares.get?_simple hshows, input, output, hthrough.of_spares hspares,
    hspares.sinks source input hfed (hthrough.not_mem hwoven hinputs).1 hsource⟩

theorem Lends.lentBy (h : Lends before n scope index sink input output facade ws ws') :
    LentBy before ws' n index sink facade := by
  refine ⟨input, output, ⟨h.vacancy.base, h.vacancy.passes.of_keeps h.spliced.layout.keeps, ?_,
    ?_⟩, ?_⟩
  · rw [h.refaced.facades_eq, Facades.get?_set,
      if_neg (h.vacancy.input_faces.ne h.vacancy.output_faces), Facades.get?_set, if_pos rfl]
  · rw [h.refaced.facades_eq, Facades.get?_set, if_pos rfl]
  · rw [h.spliced.sinksAt, if_pos rfl]
    exact List.mem_singleton_self sink

theorem Terminates.endedBy (h : Terminates before n scope index source input output facade ws ws') :
    EndedBy before ws' n index source facade := by
  refine ⟨h.get?_source, input, output,
    ⟨h.vacancy.base, h.vacancy.passes.of_keeps h.spliced.layout.keeps, ?_, ?_⟩, ?_⟩
  · rw [h.refaced.facades_eq, Facades.get?_set,
      if_neg (h.vacancy.input_faces.ne h.vacancy.output_faces), Facades.get?_set, if_pos rfl]
  · rw [h.refaced.facades_eq, Facades.get?_set, if_pos rfl]
  · rw [h.spliced.sinksAt, if_pos rfl]
    exact List.mem_singleton_self input

/-! ## Borrows -/

section Loops

variable {paired : List PortId} {wired : List GroupMember} {config : Config}

def Adds (before : Graph) (kind : NodeKind) (n : NodeId) (g : Graph) : Prop :=
  before.nodes.size ≤ n ∧ ∃ node, g.nodes[n]? = some node ∧ node.kind = kind

theorem Adds.of_keeps {kind : NodeKind} {g' : Graph} (h : Adds before kind n g)
    (hkeeps : g.Keeps g') : Adds before kind n g' := by
  obtain ⟨hbase, node, hnode, hk⟩ := h
  exact ⟨hbase, node, hkeeps.node hnode, hk⟩

theorem adds_settle (hwoven : before.Woven g) (scope : ScopeId)
    (kind : NodeKind) : Adds before kind g.nodes.size
      (g.settle { scope, kind, inserted := true } 0 {}) :=
  ⟨hwoven.size_le, _, Graph.node_settle_self .., rfl⟩

def SparesBorrows (g g' : Graph) : Prop :=
  ∀ {n : NodeId} {node : Node} {mutable : Bool} {count : Nat}, g'.nodes[n]? = some node →
    node.kind = .explicitBorrow mutable count → g.nodes[n]? = some node

theorem sparesBorrows_settle (g : Graph) (scope : ScopeId) (kind : NodeKind)
    (hk : ∀ mutable count, kind ≠ .explicitBorrow mutable count) :
    SparesBorrows g (g.settle { scope, kind, inserted := true } 0 {}) := by
  intro n node mutable count hnode hborrow
  rcases Graph.node_settle_cases hnode with ⟨-, rfl⟩ | hnode
  · exact absurd hborrow (hk mutable count)
  · exact hnode

/-- All wired members are fed through the given borrow node. -/
def LentThrough (before : Graph) (facades : Facades) (mutable : Bool) (wired : List GroupMember)
    (ws : Workspace) (n : NodeId) : Prop :=
  Adds before (.explicitBorrow mutable wired.length) n ws.graph ∧
    ∀ (index : Nat) (member : GroupMember), wired[index]? = some member →
      ∃ facade, facades.get? member.port = some facade ∧ LentBy before ws n index member.port facade

def Lent (before : Graph) (facades : Facades) (mutable : Bool) (wired : List GroupMember)
    (ws : Workspace) : Prop :=
  ∃ n, LentThrough before facades mutable wired ws n

/-- All outputs that hand something back feed one node that ends their borrow. -/
def Ended (before : Graph) (facades : Facades) (paired : List PortId) (ws : Workspace) :
    Prop :=
  ∃ n, Adds before (.terminateLifetime paired.length paired.length) n ws.graph ∧
    ∀ (index : Nat) (output : PortId), paired[index]? = some output →
      ∃ facade, facades.get? output = some facade ∧ EndedBy before ws n index output facade

/-- Items that are told apart differ from the one that is visited between them. -/
theorem apart_of_nodup {α β : Type} {f : α → β} {items done rest : List α} {item : α}
    (hnodup : (items.map f).Nodup) (hitems : done ++ item :: rest = items) :
    (∀ other ∈ done, f other ≠ f item) ∧ ∀ other ∈ rest, f other ≠ f item := by
  subst hitems
  rw [List.map_append, List.map_cons, List.nodup_append, List.nodup_cons] at hnodup
  obtain ⟨-, ⟨hrest, -⟩, hdone⟩ := hnodup
  constructor
  · intro other ho
    exact hdone _ (List.mem_map_of_mem ho) _ List.mem_cons_self
  · intro other ho heq
    exact hrest (heq ▸ List.mem_map_of_mem ho)

theorem ends_borrowMembers (h : before.Fronting ws.graph n scope host (places wired.zipIdx))
    (hfaced : ∀ member ∈ wired, ∃ facade, ws.context.facades.get? member.port = some facade) :
    Yields (wired.zipIdx.forM fun (member, index) => borrowMember n index member) ws
      fun _ ws' =>
        (before.Fronting ws'.graph n scope host [] ∧
          Spares (wired.map GroupMember.port) [] ws ws' ∧ ws'.graph.nodes = ws.graph.nodes) ∧
        ∀ item ∈ wired.zipIdx, ∃ facade, ws.context.facades.get? item.1.port = some facade ∧
            LentBy before ws' n item.2 item.1.port facade := by
  have hnodup : (wired.zipIdx.map fun item => item.1.port).Nodup := by
    simpa [places, Function.comp_def] using h.inputs_nodup
  refine Ends.forM_each (fun items ws' =>
    before.Fronting ws'.graph n scope host (places items) ∧
      Spares (wired.map GroupMember.port) [] ws ws' ∧ ws'.graph.nodes = ws.graph.nodes) _
        ⟨h, .refl _ _ ws, rfl⟩ ?_
  rintro done item rest current hitems ⟨hfront, hspares, hnodes⟩
  have hitem : item.1 ∈ wired :=
    List.fst_mem_of_mem_zipIdx (hitems ▸ List.mem_append_right done List.mem_cons_self)
  apply (lends_borrowMember hfront).yields
  rintro _ next ⟨hfront', input, output, facade, hlends⟩
  have hspares' := hlends.spares
  refine ⟨⟨hfront', hspares.trans (hspares'.mono ?_ (List.Subset.refl [])),
    hlends.spliced.layout.nodes.trans hnodes⟩, ?_, ?_⟩
  · simpa using ⟨item.1, hitem, rfl⟩
  · obtain ⟨found, hf⟩ := hfaced item.1 hitem
    have hsame := (hspares.get?_of_not_mem hf List.not_mem_nil).symm.trans hlends.found
    exact ⟨found, hf, Option.some.inj hsame ▸ hlends.lentBy⟩
  · rintro other ho ⟨found, hf, hlent⟩
    refine ⟨found, hf, hlent.of_spares hfront.woven (by simp) hspares' ?_⟩
    simpa using (apart_of_nodup hnodup hitems).1 other ho

theorem ends_insertBorrow_lent (hne : wired ≠ [])
    (hfaces : ∀ member ∈ wired, before.Faces .input scope host member.port)
    (hnodup : (wired.map GroupMember.port).Nodup) (h : before.Refined ws.graph)
    (hfaced : ∀ member ∈ wired, ∃ facade, ws.context.facades.get? member.port = some facade) :
    Yields (insertBorrow scope mutable wired) ws fun _ ws' => before.Refined ws'.graph ∧
        Spares (wired.map GroupMember.port) [] ws ws' ∧
          LentThrough before ws.context.facades mutable wired ws' ws.graph.nodes.size ∧
            ∀ n ≠ ws.graph.nodes.size, ws'.graph.nodes[n]? = ws.graph.nodes[n]? := by
  unfold insertBorrow
  apply Ends.bind
  apply ends_edit
  rcases Graph.addNode_cases ws.graph scope (.explicitBorrow mutable wired.length) true with
    ⟨fault, hrun⟩ | ⟨hscope, -, hrun⟩
  · exact Ends.of_error hrun trivial
  apply Ends.of_ok hrun
  have hnew := adds_settle h.woven scope (.explicitBorrow mutable wired.length)
  have hsettled :=
    (spares_settle h.woven.consistent scope (.explicitBorrow mutable wired.length)).mono
      (List.nil_subset (wired.map GroupMember.port)) (List.Subset.refl [])
  apply Ends.bind
  refine Ends.mono (ends_borrowMembers (fronting_places hne hfaces hnodup h hscope) ?_) ?_
    fun _ => id
  · exact hfaced
  rintro _ ws' ⟨⟨hfront, hspares, hnodes⟩, hlent⟩
  apply ends_infer
  apply Pass.ends_count
  have hcount := spares_count ws' { ws'.context.stats with
    borrowsInserted := ws'.context.stats.borrowsInserted + 1 }
  refine ⟨hfront.refined, (hsettled.trans hspares).trans (hcount.mono (List.nil_subset _)
    (List.Subset.refl [])), ⟨hnew.of_keeps hspares.keeps, fun index member hmember => ?_⟩,
    fun n hne => ?_⟩
  · obtain ⟨facade, hfacade, hlentBy⟩ :=
      hlent (member, index) (List.mem_zipIdx_iff_getElem?.mpr hmember)
    exact ⟨facade, hfacade, hlentBy.of_spares hfront.woven (by simp) hcount List.not_mem_nil⟩
  · rw [hnodes, Graph.getElem?_nodes_settle_eq, if_neg hne]

/-! ## Terminations -/

theorem ends_terminateReferences (h : before.Backing ws.graph n scope host paired.zipIdx)
    (hfaced : ∀ output ∈ paired, ∃ facade, ws.context.facades.get? output = some facade) :
    Yields (paired.zipIdx.forM fun (reference, index) =>
        terminateReference config scope n index reference) ws
      fun _ ws' => before.Backing ws'.graph n scope host [] ∧
        Spares [] paired ws ws' ∧ SparesBorrows ws.graph ws'.graph ∧
          ∀ item ∈ paired.zipIdx, ∃ facade, ws.context.facades.get? item.1 = some facade ∧
              EndedBy before ws' n item.2 item.1 facade := by
  -- outputs that are still to come have the facades that they had before the loop
  refine (Ends.forM_each (fun items ws' =>
    before.Backing ws'.graph n scope host items ∧ Spares [] paired ws ws' ∧
      SparesBorrows ws.graph ws'.graph ∧ ∀ item ∈ items, ws'.context.facades.get? item.1 =
          ws.context.facades.get? item.1) _
            ⟨h, .refl _ _ ws, fun hnode _ => hnode, fun _ _ => rfl⟩ ?_).imp
              fun _ _ ⟨⟨hback, hspares, hborrows, _⟩, hended⟩ => ⟨hback, hspares, hborrows, hended⟩
  rintro done item rest current hitems ⟨hback, hspares, hborrows, hl⟩
  have hitem : item.1 ∈ paired :=
    List.fst_mem_of_mem_zipIdx (hitems ▸ List.mem_append_right done List.mem_cons_self)
  obtain ⟨hdone, hrest⟩ := apart_of_nodup h.outputs_nodup hitems
  apply (terminates_terminateReference scope hback).yields
  rintro _ next ⟨hback', input, output, facade, ended, hterminates, hdrop⟩
  have hspares' : Spares [] [item.1] current next := by
    rcases hdrop with ⟨-, rfl⟩ | ⟨-, sink, hdrops⟩
    · exact hterminates.spares
    · exact hterminates.spares.trans ((hdrops.spares hterminates.spliced.consistent).mono
        (List.Subset.refl []) (List.nil_subset _))
  have hborrows' : SparesBorrows current.graph next.graph := by
    intro m node mutable count hnode hk
    rcases hdrop with ⟨-, rfl⟩ | ⟨-, sink, hdrops⟩
    · exact hterminates.spliced.layout.nodes ▸ hnode
    · rw [hdrops.joined.layout.nodes] at hnode
      exact hterminates.spliced.layout.nodes ▸ sparesBorrows_settle _ _ .drop (fun _ _ => nofun)
        hnode hk
  have hended : EndedBy before next n item.2 item.1 facade := by
    rcases hdrop with ⟨-, rfl⟩ | ⟨-, sink, hdrops⟩
    · exact hterminates.endedBy
    · obtain ⟨port, hport, -⟩ := (hback.faces item List.mem_cons_self).port
      have hwoven := hback.woven.of_splicedAfter hterminates.vacancy hterminates.spliced hport
      exact hterminates.endedBy.of_spares hwoven (by simp)
        (hdrops.spares hterminates.spliced.consistent) List.not_mem_nil
  obtain ⟨hf, hl'⟩ := List.forall_mem_cons.mp hl
  refine ⟨⟨hback', hspares.trans (hspares'.mono (List.Subset.refl []) ?_),
    fun hnode hk => hborrows (hborrows' hnode hk) hk, ?_⟩, ?_, ?_⟩
  · simpa using hitem
  · intro other ho
    have hm : other.1 ∈ paired := List.fst_mem_of_mem_zipIdx
      (hitems ▸ List.mem_append_right done (List.mem_cons_of_mem item ho))
    obtain ⟨found, ho'⟩ := hfaced other.1 hm
    rw [ho']
    exact hspares'.get?_of_not_mem ((hl' other ho).trans ho') (by simpa using hrest other ho)
  · exact ⟨facade, hf ▸ hterminates.found, hended⟩
  · rintro other ho ⟨found, hf, ho'⟩
    refine ⟨found, hf, ho'.of_spares hback.woven (by simp) hspares' ?_⟩
    simpa using hdone other ho

theorem ends_insertTermination_ended (hne : paired ≠ [])
    (hfaces : ∀ output ∈ paired, before.Faces .output scope host output) (hnodup : paired.Nodup)
    (h : before.Refined ws.graph)
    (hfaced : ∀ output ∈ paired, ∃ facade, ws.context.facades.get? output = some facade) :
    Yields (insertTermination config scope paired) ws fun _ ws' => before.Refined ws'.graph ∧
        Spares [] paired ws ws' ∧ SparesBorrows ws.graph ws'.graph ∧
          Ended before ws.context.facades paired ws' := by
  unfold insertTermination
  apply Ends.bind
  apply ends_edit
  rcases Graph.addNode_cases ws.graph scope
    (.terminateLifetime paired.length paired.length) true with ⟨fault, hrun⟩ | ⟨hscope, -, hrun⟩
  · exact Ends.of_error hrun trivial
  apply Ends.of_ok hrun
  have hnew := adds_settle h.woven scope (.terminateLifetime paired.length paired.length)
  have hsettled := (spares_settle h.woven.consistent scope
    (.terminateLifetime paired.length paired.length)).mono
      (List.Subset.refl []) (List.nil_subset paired)
  apply Ends.bind
  refine Ends.mono (ends_terminateReferences (backing_zipIdx hne hfaces hnodup h hscope) ?_) ?_
    fun _ => id
  · exact hfaced
  rintro _ ws' ⟨hback, hspares, hborrows, hended⟩
  apply ends_infer
  apply Pass.ends_count
  have hcount := spares_count ws' { ws'.context.stats with
    terminationsInserted := ws'.context.stats.terminationsInserted + 1 }
  refine ⟨hback.refined, (hsettled.trans hspares).trans (hcount.mono (List.Subset.refl [])
    (List.nil_subset _)),
    fun hnode hk => sparesBorrows_settle _ _ (.terminateLifetime _ _) (fun _ _ => nofun)
      (hborrows hnode hk) hk, ws.graph.nodes.size, hnew.of_keeps hspares.keeps, ?_⟩
  intro index output houtput
  obtain ⟨facade, hfacade, hendedBy⟩ :=
    hended (output, index) (List.mem_zipIdx_iff_getElem?.mpr houtput)
  exact ⟨facade, hfacade, hendedBy.of_spares hback.woven (by simp) hcount List.not_mem_nil⟩

/-! ## Groups -/

section Groups

variable {facades facades' : Facades}

theorem LentThrough.of_spares (h : LentThrough before facades mutable wired ws n)
    (hwoven : before.Woven ws.graph)
    (houtputs : ∀ port ∈ outputs, ∃ data, before.ports[port]? = some data)
    (hspares : Spares inputs outputs ws ws')
    (hwired : ∀ member ∈ wired, member.port ∉ inputs) :
    LentThrough before facades mutable wired ws' n := by
  obtain ⟨hadds, hlent⟩ := h
  refine ⟨hadds.of_keeps hspares.keeps, fun index member hmember => ?_⟩
  obtain ⟨facade, hfacade, hlentBy⟩ := hlent index member hmember
  exact ⟨facade, hfacade, hlentBy.of_spares hwoven houtputs hspares
    (hwired member (List.mem_of_getElem? hmember))⟩

theorem Ended.of_spares (h : Ended before facades paired ws) (hwoven : before.Woven ws.graph)
    (hinputs : ∀ port ∈ inputs, ∃ data, before.ports[port]? = some data)
    (hspares : Spares inputs outputs ws ws')
    (hpaired : ∀ output ∈ paired, output ∉ outputs) :
    Ended before facades paired ws' := by
  obtain ⟨n, hadds, hended⟩ := h
  refine ⟨n, hadds.of_keeps hspares.keeps, fun index output houtput => ?_⟩
  obtain ⟨facade, hfacade, hendedBy⟩ := hended index output houtput
  exact ⟨facade, hfacade, hendedBy.of_spares hwoven hinputs hspares
    (hpaired output (List.mem_of_getElem? houtput))⟩

theorem Lent.of_facades (h : Lent before facades mutable wired ws)
    (hsame : ∀ member ∈ wired, facades'.get? member.port = facades.get? member.port) :
    Lent before facades' mutable wired ws := by
  obtain ⟨n, hadds, hlent⟩ := h
  refine ⟨n, hadds, fun index member hmember => ?_⟩
  rw [hsame member (List.mem_of_getElem? hmember)]
  exact hlent index member hmember

theorem Ended.of_facades (h : Ended before facades paired ws)
    (hsame : ∀ output ∈ paired, facades'.get? output = facades.get? output) :
    Ended before facades' paired ws := by
  obtain ⟨n, hadds, hended⟩ := h
  refine ⟨n, hadds, fun index output houtput => ?_⟩
  rw [hsame output (List.mem_of_getElem? houtput)]
  exact hended index output houtput

/-- The borrow of a group is explicit: its wired members are fed through one borrow node, and either
none of them is handed back, or all are and the borrow ends at one node. -/
structure Explicit (before : Graph) (facades : Facades) (mutable : Bool) (wired : List GroupMember)
    (ws : Workspace) : Prop where
  lent : wired ≠ [] → Lent before facades mutable wired ws
  even : wired.filterMap GroupMember.pairedOutput ≠ [] →
    (wired.filterMap GroupMember.pairedOutput).length = wired.length
  ended : wired.filterMap GroupMember.pairedOutput ≠ [] →
    Ended before facades (wired.filterMap GroupMember.pairedOutput) ws

def Feeds (g : Graph) (node : Node) (inputs : List PortId) : Prop :=
  ∃ output ∈ node.outputs, ∃ sink ∈ g.sinksAt output, sink ∈ inputs

/-- A borrow node was there before, or it feeds one of the given inputs. -/
def BorrowsFeed (inputs : List PortId) (g g' : Graph) : Prop :=
  ∀ {n : NodeId} {node : Node} {mutable : Bool} {count : Nat}, g'.nodes[n]? = some node →
    node.kind = .explicitBorrow mutable count → g.nodes[n]? = some node ∨ Feeds g' node inputs

theorem LentThrough.feeds (h : LentThrough before facades mutable wired ws n) (hne : wired ≠ [])
    {node : Node} (hnode : ws.graph.nodes[n]? = some node) :
    Feeds ws.graph node (wired.map GroupMember.port) := by
  obtain ⟨first, rest, rfl⟩ := List.exists_cons_of_ne_nil hne
  obtain ⟨facade, -, input, output, hthrough, hfed⟩ := h.2 0 first rfl
  obtain ⟨found, hf, -, houtput⟩ := hthrough.passes
  cases hnode.symm.trans hf
  exact ⟨output, List.mem_of_getElem? houtput, first.port, hfed, List.mem_cons_self⟩

/-- If every member is handed back, then members and outputs have the same places. -/
theorem exists_pairedOutput
    (heven : (wired.filterMap GroupMember.pairedOutput).length = wired.length)
    {member : GroupMember} (hmember : wired[index]? = some member) :
    ∃ output, member.pairedOutput = some output ∧
      (wired.filterMap GroupMember.pairedOutput)[index]? = some output := by
  induction wired generalizing index with
  | nil => cases hmember
  | cons first rest ih =>
    cases hfirst : first.pairedOutput with
    | none =>
      rw [List.filterMap_cons_none hfirst, List.length_cons] at heven
      have hle := List.length_filterMap_le GroupMember.pairedOutput rest
      omega
    | some output =>
      rw [List.filterMap_cons_some hfirst] at heven ⊢
      cases index with
      | zero =>
        cases hmember
        exact ⟨output, hfirst, rfl⟩
      | succ index =>
        rw [List.length_cons, List.length_cons, Nat.add_right_cancel_iff] at heven
        exact ih heven hmember

theorem Explicit.of_spares (h : Explicit before facades mutable wired ws)
    (hwoven : before.Woven ws.graph)
    (hinputs : ∀ port ∈ inputs, ∃ data, before.ports[port]? = some data)
    (houtputs : ∀ port ∈ outputs, ∃ data, before.ports[port]? = some data)
    (hspares : Spares inputs outputs ws ws')
    (hwired : ∀ member ∈ wired, member.port ∉ inputs)
    (hpaired : ∀ output ∈ wired.filterMap GroupMember.pairedOutput, output ∉ outputs) :
    Explicit before facades mutable wired ws' where
  lent hne := (h.lent hne).imp fun _ hlent => hlent.of_spares hwoven houtputs hspares hwired
  even := h.even
  ended hne := (h.ended hne).of_spares hwoven hinputs hspares hpaired

theorem Explicit.of_facades (h : Explicit before facades mutable wired ws)
    (hwired : ∀ member ∈ wired, facades'.get? member.port = facades.get? member.port)
    (hpaired : ∀ output ∈ wired.filterMap GroupMember.pairedOutput,
      facades'.get? output = facades.get? output) :
    Explicit before facades' mutable wired ws where
  lent hne := (h.lent hne).of_facades hwired
  even := h.even
  ended hne := (h.ended hne).of_facades hpaired

theorem length_eq_of_pairedOutputs_ok {node : NodeId} (h : pairedOutputs node wired = .ok paired)
    (hne : paired ≠ []) : paired.length = wired.length := by
  obtain rfl := eq_of_pairedOutputs_ok h
  apply Nat.le_antisymm (List.length_filterMap_le _ _)
  unfold pairedOutputs at h
  dsimp only at h
  split at h
  · cases h
  · rename_i heven
    apply Nat.le_of_not_lt
    intro hlt
    exact heven (Bool.and_eq_true_iff.mpr ⟨by simpa using hne, decide_eq_true hlt⟩)

theorem ends_insertGroup_explicit (hc : before.Consistent) (hfits : group.Fits before host)
    (h : before.Refined ws.graph)
    (hmembers : ∀ member ∈ group.wiredIn before, ∃ facade,
      ws.context.facades.get? member.port = some facade)
    (hpaired : ∀ output ∈ (group.wiredIn before).filterMap GroupMember.pairedOutput, ∃ facade,
      ws.context.facades.get? output = some facade) :
    Yields (insertGroup config group mutable) ws fun _ ws' => before.Refined ws'.graph ∧
        Spares ((group.wiredIn before).map GroupMember.port)
          ((group.wiredIn before).filterMap GroupMember.pairedOutput) ws ws' ∧
            Explicit before ws.context.facades mutable (group.wiredIn before) ws' ∧
              BorrowsFeed ((group.wiredIn before).map GroupMember.port) ws.graph ws'.graph := by
  unfold insertGroup
  apply Ends.bind
  apply ends_askGraph ?_ trivial
  intro wired hwired
  obtain rfl : wired = group.wiredIn before := by
    rw [BorrowGroup.wiredMembers_eq hwired, hfits.wiredIn_eq hc h.woven]
  split
  · rename_i hsome
    have hne : group.wiredIn before ≠ [] := by simpa using hsome
    obtain ⟨hinputs, hnodup⟩ := hfits.wired before
    obtain ⟨houtputs, hnodup'⟩ := hfits.paired before
    apply Ends.bind
    refine Ends.lift ?_ trivial
    intro paired hevenly
    have heven := length_eq_of_pairedOutputs_ok hevenly
    obtain rfl := eq_of_pairedOutputs_ok hevenly
    apply (ends_insertBorrow_lent hne hinputs hnodup h hmembers).seq
    rintro _ ws1 ⟨hrefined1, hspares1, hlent1, hnodes1⟩
    have hfeeds : ∀ {ws' : Workspace}, SparesBorrows ws1.graph ws'.graph →
        LentThrough before ws.context.facades mutable (group.wiredIn before) ws'
          ws.graph.nodes.size →
        BorrowsFeed ((group.wiredIn before).map GroupMember.port) ws.graph ws'.graph := by
      intro ws' hborrows hlent n node mutable' count hnode hk
      by_cases hn : n = ws.graph.nodes.size
      · exact .inr (hlent.feeds hne (hn ▸ hnode))
      · exact .inl (hnodes1 n hn ▸ hborrows hnode hk)
    have hfacades : ∀ output ∈ (group.wiredIn before).filterMap GroupMember.pairedOutput,
        ∃ facade, ws.context.facades.get? output = some facade ∧
          ws1.context.facades.get? output = some facade := by
      intro output houtput
      obtain ⟨facade, hfacade⟩ := hpaired output houtput
      exact ⟨facade, hfacade, hspares1.get?_of_not_mem hfacade List.not_mem_nil⟩
    split
    · rename_i hpairs
      apply (ends_insertTermination_ended (by simpa using hpairs) houtputs hnodup' hrefined1
        fun output houtput => (hfacades output houtput).imp fun _ hfacade => hfacade.2).mono ?_
        fun _ => id
      rintro _ ws2 ⟨hrefined2, hspares2, hborrows2, hended2⟩
      have hlent2 := hlent1.of_spares hrefined1.woven
        (fun port hport => (houtputs port hport).port.imp fun _ hd => hd.1) hspares2 (by simp)
      refine ⟨hrefined2, (hspares1.mono (List.Subset.refl _) (List.nil_subset _)).trans
        (hspares2.mono (List.nil_subset _) (List.Subset.refl _)),
        ⟨fun _ => ⟨_, hlent2⟩, heven, fun _ => ?_⟩, hfeeds hborrows2 hlent2⟩
      · apply hended2.of_facades
        intro output houtput
        obtain ⟨facade, hfacade, hfacade1⟩ := hfacades output houtput
        rw [hfacade, hfacade1]
    · rename_i hnone
      have hnone' : (group.wiredIn before).filterMap GroupMember.pairedOutput = [] := by
        simpa using hnone
      exact Ends.pure ⟨hrefined1, hspares1.mono (List.Subset.refl _) (List.nil_subset _),
        ⟨fun _ => ⟨_, hlent1⟩, heven, fun hpairs => absurd hnone' hpairs⟩,
        hfeeds (fun hnode _ => hnode) hlent1⟩
  · rename_i hnone
    have hempty : group.wiredIn before = [] := by simpa using hnone
    refine Ends.pure ⟨h, .refl _ _ ws, ⟨fun hne => absurd hempty hne, ?_, ?_⟩,
      fun hnode _ => .inl hnode⟩
    · simp [hempty]
    · simp [hempty]

end Groups

/-! ## The pass -/

/-- The borrows of some groups are explicit, and those that are left find their ports as they
were. -/
structure Underway (before : Graph) (groups rest : List BorrowGroup)
    (ws ws' : Workspace) : Prop where
  refined : before.Refined ws'.graph
  spares : Spares (groups.flatMap (·.borrowedIn before)) (groups.flatMap (·.returnedIn before))
    ws ws'
  left : ∀ group ∈ rest, ∀ port, port ∈ group.borrowedIn before ∨ port ∈ group.returnedIn before →
    ∃ facade, ws.context.facades.get? port = some facade ∧
      ws'.context.facades.get? port = some facade
  borrows : ∀ {n : NodeId} {node : Node} {mutable : Bool} {count : Nat}, before.nodes.size ≤ n →
    ws'.graph.nodes[n]? = some node → node.kind = .explicitBorrow mutable count →
      ∃ group ∈ groups, Feeds ws'.graph node (group.borrowedIn before) ∧
        ∀ other ∈ rest, group.Apart before other

variable {groups done rest : List BorrowGroup}

theorem Underway.step (h : Underway before groups (group :: rest) ws ws')
    (hgroups : done ++ group :: rest = groups)
    (hfits : ∀ group ∈ groups, ∃ host, group.Fits before host)
    (hapart : groups.Pairwise (BorrowGroup.Apart before))
    (hrefined : before.Refined ws''.graph)
    (hspares : Spares (group.borrowedIn before) (group.returnedIn before) ws' ws'')
    (hfeeds : BorrowsFeed (group.borrowedIn before) ws'.graph ws''.graph) :
    Underway before groups rest ws ws'' := by
  subst hgroups
  have hgroup : group ∈ done ++ group :: rest := List.mem_append_right done List.mem_cons_self
  refine ⟨hrefined, h.spares.trans (hspares.mono ?_ ?_), ?_, ?_⟩
  · exact fun port hport => List.mem_flatMap.mpr ⟨group, hgroup, hport⟩
  · exact fun port hport => List.mem_flatMap.mpr ⟨group, hgroup, hport⟩
  swap
  · intro n node mutable count hbase hnode hk
    rcases hfeeds hnode hk with hnode' | hfaced
    · obtain ⟨owner, howner, ⟨output, houtput, sink, hfed, hsink⟩, hothers⟩ :=
        h.borrows hbase hnode' hk
      obtain ⟨hfirst, hothers⟩ := List.forall_mem_cons.mp hothers
      refine ⟨owner, howner, ⟨output, houtput, sink, ?_, hsink⟩, hothers⟩
      refine hspares.sinks output sink hfed (hfirst.inputs sink hsink) fun hm => ?_
      -- the output is one of a node that was added
      obtain ⟨host, hfits'⟩ := hfits group hgroup
      obtain ⟨port, hport, -⟩ := (hfits'.faces_returnedIn hm).port
      exact h.refined.woven.ne_of_added hport .output hbase hnode' houtput rfl
    · have hrest := (List.pairwise_append.mp hapart).2.1
      exact ⟨group, hgroup, hfaced, (List.pairwise_cons.mp hrest).1⟩
  intro other ho port hport
  obtain ⟨facade, hfacade, hfacade'⟩ := h.left other (List.mem_cons_of_mem group ho) port hport
  obtain ⟨host, hgroup'⟩ := hfits group hgroup
  obtain ⟨host', ho'⟩ :=
    hfits other (List.mem_append_right done (List.mem_cons_of_mem _ ho))
  have hgroups := (List.pairwise_append.mp hapart).2.1
  have hother := (List.pairwise_cons.mp hgroups).1 other ho
  exact ⟨facade, hfacade, hspares.get?_of_not_mem hfacade'
    (hother.not_mem_returnedIn hgroup' ho' hport)⟩

/-- Inserting borrows makes the borrow of every group explicit, and leaves alone whatever is not on
a wire of an input that is borrowed for or of an output that hands back. -/
theorem ends_insertBorrows_explicit (hc : before.Consistent) (config : Config)
    (hgroups : groups = ws.context.groups.groups.toList)
    (hfits : ∀ group ∈ groups, ∃ host, group.Fits before host)
    (hapart : groups.Pairwise (BorrowGroup.Apart before))
    (hfaced : ∀ group ∈ groups, ∀ port, port ∈ group.borrowedIn before ∨
      port ∈ group.returnedIn before → ∃ facade, ws.context.facades.get? port = some facade)
    (h : before.Refined ws.graph) (hgraph : ws.graph = before) :
    Yields (insertBorrows config) ws fun _ ws' => Underway before groups [] ws ws' ∧
        ∀ group ∈ groups, ∀ mutable lifetime, group.decision = some (.borrow mutable lifetime) →
          Explicit before ws.context.facades mutable (group.wiredIn before) ws' := by
  unfold insertBorrows
  apply Ends.bind
  apply Ends.get
  rw [← hgroups]
  refine Ends.forM_each (fun rest => Underway before groups rest ws) _
    ⟨h, .refl _ _ ws, fun group hgroup port hport => ?_, fun hbase hnode hk => ?_⟩ ?_
  · obtain ⟨facade, hfacade⟩ := hfaced group hgroup port hport
    exact ⟨facade, hfacade, hfacade⟩
  · exact absurd (Graph.lt_size_of_node hnode) (Nat.not_lt_of_le (hgraph ▸ hbase))
  intro done group rest current hitems hunderway
  have hgroup : group ∈ groups := hitems ▸ List.mem_append_right done List.mem_cons_self
  obtain ⟨host, hfits'⟩ := hfits group hgroup
  obtain ⟨hl, -⟩ := List.forall_mem_cons.mp hunderway.left
  split
  · rename_i mutable lifetime hdecision
    have hborrowed : group.borrowedIn before = _ := BorrowGroup.borrowedIn_of_borrow hdecision
    have hreturned : group.returnedIn before = _ := BorrowGroup.returnedIn_of_borrow hdecision
    rw [hborrowed, hreturned] at hl
    have hmembers : ∀ member ∈ group.wiredIn before, ∃ facade,
        ws.context.facades.get? member.port = some facade ∧
          current.context.facades.get? member.port = some facade :=
      fun member hmember => hl member.port (.inl (List.mem_map_of_mem hmember))
    have hpaired : ∀ output ∈ (group.wiredIn before).filterMap GroupMember.pairedOutput,
        ∃ facade, ws.context.facades.get? output = some facade ∧
          current.context.facades.get? output = some facade :=
      fun output houtput => hl output (.inr houtput)
    apply (ends_insertGroup_explicit hc hfits' hunderway.refined
      (fun member hmember => (hmembers member hmember).imp fun _ hfacade => hfacade.2)
      fun output houtput => (hpaired output houtput).imp fun _ hfacade => hfacade.2).mono ?_
      fun _ => id
    rintro _ next ⟨hrefined, hspares, hexplicit, hfeeds⟩
    rw [← hborrowed, ← hreturned] at hspares
    rw [← hborrowed] at hfeeds
    refine ⟨hunderway.step hitems hfits hapart hrefined hspares hfeeds, ?_, ?_⟩
    · intro mutable' lifetime' hdecision'
      cases hdecision.symm.trans hdecision'
      apply hexplicit.of_facades
      · intro member hmember
        obtain ⟨facade, hfacade, hfacade'⟩ := hmembers member hmember
        rw [hfacade, hfacade']
      · intro output houtput
        obtain ⟨facade, hfacade, hfacade'⟩ := hpaired output houtput
        rw [hfacade, hfacade']
    · intro other ho hdone mutable' lifetime' hdecision'
      subst hitems
      have hapart' := (List.pairwise_append.mp hapart).2.2 other ho group List.mem_cons_self
      refine (hdone mutable' lifetime' hdecision').of_spares hunderway.refined.woven
        (fun port hport => ?_) (fun port hport => ?_) hspares (fun member hmember => ?_)
        fun output houtput => ?_
      · exact (hfits'.faces_borrowedIn hport).port.imp fun _ hd => hd.1
      · exact (hfits'.faces_returnedIn hport).port.imp fun _ hd => hd.1
      · apply hapart'.inputs
        rw [BorrowGroup.borrowedIn_of_borrow hdecision']
        exact List.mem_map_of_mem hmember
      · apply hapart'.outputs
        rwa [BorrowGroup.returnedIn_of_borrow hdecision']
  · rename_i ho
    refine Ends.pure ⟨⟨hunderway.refined, hunderway.spares, ?_, ?_⟩, ?_, fun _ _ hdone => hdone⟩
    · exact fun other hm => hunderway.left other (List.mem_cons_of_mem group hm)
    · intro n node mutable count hbase hnode hk
      obtain ⟨owner, howner, hfeeds, hapart'⟩ := hunderway.borrows hbase hnode hk
      exact ⟨owner, howner, hfeeds, (List.forall_mem_cons.mp hapart').2⟩
    · exact fun mutable lifetime hdecision => absurd hdecision (ho mutable lifetime)

end Loops

end Insertion

end BorrowFlow
