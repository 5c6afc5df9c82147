import BorrowFlow.Proofs.Graph.Building
import BorrowFlow.Proofs.Graph.Erasure
import BorrowFlow.Proofs.Graph.Order
import BorrowFlow.Proofs.Graph.Splicing

/-!
# Weaving nodes into a graph

Nodes that end up between the nodes of a graph, through splices and by being fed, leave the program
as it was: what was there is there, and with the new nodes left out every input has its source and
every output its sinks. Each splice and each drop keeps this so. Numbers that grow along the wires
are kept too, if a new node gets a number between those of the nodes that it is put between.
-/

namespace BorrowFlow

variable {id : PortId}

def NodeKind.isWoven : NodeKind → Bool
  | explicitBorrow .. | terminateLifetime .. | drop => true
  | _ => false

theorem NodeKind.borderKind?_of_isWoven {kind : NodeKind} (h : kind.isWoven = true) :
    kind.borderKind? = none := by
  cases kind <;> first | rfl | cases h

namespace Graph

variable {before g g' : Graph} {n host : NodeId} {scope : ScopeId} {index : Nat}
  {sink source throughInput throughOutput : PortId} {port : Port}

/-- The second graph is the first one with nodes woven into it. -/
structure Woven (before g : Graph) : Prop where
  original : before.WellFormed
  wellFormed : g.WellFormed
  consistent : g.Consistent
  keeps : before.Keeps g
  added : ∀ {n : NodeId} {node : Node}, before.nodes.size ≤ n → g.nodes[n]? = some node →
    node.inserted = true ∧ node.kind.isWoven = true
  sinks : ∀ {id : PortId} {port : Port}, before.ports[id]? = some port →
    g.Reaches before.nodes.size (g.sinksAt id) (before.sinksAt id)
  fed : ∀ {id x : PortId} {port : Port}, before.ports[id]? = some port →
    id ∈ g.sinksAt x → ∃ y, id ∈ before.sinksAt y

theorem WellFormed.reaches_self (hw : g.WellFormed) (hc : g.Consistent) (id : PortId) :
    g.Reaches g.nodes.size (g.sinksAt id) (g.sinksAt id) := by
  suffices h : ∀ sinks : List PortId, (∀ sink ∈ sinks, sink ∈ g.sinksAt id) →
      g.Reaches g.nodes.size sinks sinks from h _ fun _ h => h
  intro sinks hall
  induction sinks with
  | nil => exact .nil
  | cons sink rest ih =>
    rw [List.forall_mem_cons] at hall
    obtain ⟨_, port, -, hport, -, hinput, -⟩ := hc.ends hall.1
    obtain ⟨node, hnode, hlisted⟩ := hw.seated.listed hport
    rw [hinput] at hlisted
    exact .kept hnode (lt_size_of_node hnode) (List.mem_of_getElem? hlisted) (ih hall.2)

theorem Woven.refl (hw : g.WellFormed) (hc : g.Consistent) : g.Woven g where
  original := hw
  wellFormed := hw
  consistent := hc
  keeps := .refl g
  added hle hnode := absurd (lt_size_of_node hnode) (Nat.not_lt_of_le hle)
  sinks _ := hw.reaches_self hc _
  fed _ h := ⟨_, h⟩

/-! ## Ports of the graph and ports that were added -/

section

variable (h : before.Woven g) (hport : before.ports[sink]? = some port)
include h hport

theorem Woven.owner : ∃ node, g.nodes[port.node]? = some node ∧ port.node < before.nodes.size ∧
      sink ∈ node.portsOn port.direction := by
  obtain ⟨node, hnode, hlisted⟩ := h.original.seated.listed hport
  exact ⟨node, h.keeps.node hnode, lt_size_of_node hnode, List.mem_of_getElem? hlisted⟩

theorem Woven.ne_of_added {node : Node} (direction : Direction) (hbase : before.nodes.size ≤ n)
    (hnode : g.nodes[n]? = some node) (hid : id ∈ node.portsOn direction) : sink ≠ id := by
  rintro rfl
  obtain ⟨owner, howner, hlt, hm⟩ := h.owner hport
  have hn := h.wellFormed.seated.node_unique _ direction howner hnode hm hid
  exact Nat.not_lt_of_le hbase (hn ▸ hlt)

theorem Woven.ne_of_passes (hbase : before.nodes.size ≤ n)
    (hpasses : g.Passes n index throughInput throughOutput) :
    sink ≠ throughInput ∧ sink ≠ throughOutput := by
  obtain ⟨node, hnode, hin, hout⟩ := hpasses.mem
  exact ⟨h.ne_of_added hport .input hbase hnode hin, h.ne_of_added hport .output hbase hnode hout⟩

end

theorem Woven.size_le (h : before.Woven g) : before.nodes.size ≤ g.nodes.size := by
  apply Nat.le_of_not_lt
  intro hlt
  have hnode := h.keeps.node (Array.getElem?_eq_getElem hlt)
  exact Nat.lt_irrefl _ (lt_size_of_node hnode)

/-- A port that faces a scope, in which the given node stands for its owner. -/
structure Faces (g : Graph) (direction : Direction) (scope : ScopeId) (host : NodeId)
    (id : PortId) : Prop where
  port : ∃ port, g.ports[id]? = some port ∧ port.direction = direction ∧ port.scope = scope
  host : g.standsFor id = some host

theorem Faces.of_keeps {direction : Direction} (h : g.Faces direction scope host id)
    (hw : g.WellFormed) (hkeeps : g.Keeps g') :
    g'.Faces direction scope host id := by
  obtain ⟨⟨port, hport, hdirection, hscope⟩, hhost⟩ := h
  obtain ⟨wire, hport'⟩ := hkeeps.port hport
  refine ⟨⟨_, hport', hdirection, hscope⟩, ?_⟩
  rw [hkeeps.standsFor hw hport, hhost]

theorem Faces.ne {input output : PortId} {host' : NodeId} {scope' : ScopeId}
    (h : g.Faces .input scope host input)
    (h' : g.Faces .output scope' host' output) : input ≠ output := by
  rintro rfl
  obtain ⟨port, hport, hinput, -⟩ := h.port
  obtain ⟨found, hf, houtput, -⟩ := h'.port
  cases hport.symm.trans hf
  cases hinput.symm.trans houtput

theorem Faces.ne_sink (h : g.Faces .output scope host id) (hc : g.Consistent)
    (hsink : sink ∈ g.sinksAt source) : sink ≠ id := by
  rintro rfl
  obtain ⟨port, hport, houtput, -⟩ := h.port
  obtain ⟨_, found, -, hf, -, hinput, -⟩ := hc.ends hsink
  cases hport.symm.trans hf
  cases houtput.symm.trans hinput

theorem Faces.ne_source (h : g.Faces .input scope host id) (hc : g.Consistent)
    (hsink : sink ∈ g.sinksAt source) : source ≠ id := by
  rintro rfl
  obtain ⟨port, hport, hinput, -⟩ := h.port
  obtain ⟨found, _, hf, -, houtput, -⟩ := hc.ends hsink
  cases hport.symm.trans hf
  cases hinput.symm.trans houtput

/-- A pair of ports of a node that was added, which is not wired yet. -/
structure Vacancy (before g : Graph) (n : NodeId) (scope : ScopeId) (index : Nat)
    (input output : PortId) : Prop where
  base : before.nodes.size ≤ n
  passes : g.Passes n index input output
  input_faces : g.Faces .input scope n input
  output_faces : g.Faces .output scope n output
  input_free : ∀ x, input ∉ g.sinksAt x
  output_free : g.sinksAt output = []

section

variable (hv : before.Vacancy g n scope index throughInput throughOutput) (hc : g.Consistent)
include hv hc

theorem Vacancy.splice_cases (hsink : g.Faces .input scope host sink) :
    (∃ fault, splice sink throughInput throughOutput g = .error fault g ∧ ∀ x, sink ∉ g.sinksAt x) ∨
      ∃ g', splice sink throughInput throughOutput g = .ok () g' ∧
        g.Spliced sink throughInput throughOutput g' := by
  obtain ⟨port, hport, hinput, rfl⟩ := hsink.port
  obtain ⟨inPort, hin, hinput', hscope⟩ := hv.input_faces.port
  obtain ⟨outPort, hout, houtput, hscope'⟩ := hv.output_faces.port
  exact hc.splice_cases hport hin hout hinput hinput' houtput hscope hscope' hv.input_free
    hv.output_free

theorem Vacancy.splice_ok (hsink : g.Faces .input scope host sink)
    (hwired : ∃ x, sink ∈ g.sinksAt x) :
    ∃ g', splice sink throughInput throughOutput g = .ok () g' ∧
      g.Spliced sink throughInput throughOutput g' := by
  obtain ⟨x, hx⟩ := hwired
  rcases hv.splice_cases hc hsink with ⟨_, -, hunwired⟩ | hspliced
  · exact absurd hx (hunwired x)
  · exact hspliced

theorem Vacancy.spliceAfter_ok (hsource : g.Faces .output scope host source) :
    ∃ g', spliceAfter source throughInput throughOutput g = .ok () g' ∧
      g.SplicedAfter source throughInput throughOutput g' := by
  obtain ⟨port, hport, houtput, rfl⟩ := hsource.port
  obtain ⟨inPort, hin, hinput, hscope⟩ := hv.input_faces.port
  obtain ⟨outPort, hout, houtput', hscope'⟩ := hv.output_faces.port
  have hfree := hc.wire_eq_none_of_input hin hinput hv.input_free
  have hfree' := hc.wire_eq_none_of_output hout houtput' hv.output_free
  exact hc.spliceAfter_ok hport hin hout houtput hinput houtput' hscope hscope' hfree hfree'

end

/-! ## Adding a node -/

theorem addNode_ok {kind : NodeKind} (hscope : scope < g.scopes.size)
    (hk : kind.isWoven = true) : addNode scope kind true g =
      .ok g.nodes.size (g.settle { scope, kind, inserted := true } 0 {}) := by
  rcases addNode_cases g scope kind true with ⟨fault, hfault⟩ | ⟨-, -, hrun⟩
  · rw [addNode_eq, Array.getElem?_eq_getElem hscope] at hfault
    cases kind <;> cases hk <;> cases hfault
  · exact hrun

section

variable (h : before.Woven g)
include h

theorem Woven.settle (kind : NodeKind) (hscope : scope < g.scopes.size) (hk : kind.isWoven = true) :
    before.Woven (g.settle { scope, kind, inserted := true } 0 {}) := by
  have hplain := NodeKind.borderKind?_of_isWoven hk
  have hkeeps := keeps_settle g { scope, kind, inserted := true } 0 {}
  obtain ⟨hconsistent, hsinks⟩ := h.consistent.settle { scope, kind, inserted := true } 0 {}
  refine ⟨h.original, h.wellFormed.settle hscope hplain rfl rfl rfl rfl, hconsistent,
    h.keeps.trans hkeeps, ?_, ?_, ?_⟩
  · intro n node hle hnode
    by_cases hn : n = g.nodes.size
    · rw [Graph.settle, placeNode, getElem?_nodes_attach, if_pos hn] at hnode
      cases hnode
      exact ⟨rfl, hk⟩
    · rw [Graph.settle, placeNode, getElem?_nodes_attach, if_neg hn] at hnode
      exact h.added hle hnode
  · intro id port hport
    rw [hsinks]
    apply (h.sinks hport).mono (fun _ => True) hkeeps
    · intro output sink _
      trivial
    · intro n index input output found _ _ _ hinside
      rwa [hsinks]
    · intro sink _
      trivial
  · intro id x port hport hx
    rw [hsinks] at hx
    exact h.fed hport hx

theorem Woven.exists_port_settle (kind : NodeKind) (hscope : scope < g.scopes.size)
    (hk : kind.isWoven = true) :
    ∃ node, (g.settle { scope, kind, inserted := true } 0 {}).nodes[g.nodes.size]? =
        some node ∧ node.scope = scope ∧ node.kind = kind ∧ ∀ direction,
          (node.portsOn direction).length = kind.portCount direction := by
  have hnode := node_settle_self g { scope, kind, inserted := true } 0 {}
  exact ⟨_, hnode, rfl, rfl, (h.settle kind hscope hk).wellFormed.seated.length_of_plain hnode
    (NodeKind.borderKind?_of_isWoven hk)⟩

theorem Woven.exists_passes_settle (kind : NodeKind) {count : Nat}
    (hscope : scope < g.scopes.size) (hk : kind.isWoven = true)
    (hcount : ∀ direction, kind.portCount direction = count) (hindex : index < count) :
    ∃ input output, (g.settle { scope, kind, inserted := true } 0 {}).Passes g.nodes.size
      index input output := by
  obtain ⟨node, hnode, -, -, hlen⟩ := h.exists_port_settle kind hscope hk
  have hports : ∀ direction, ∃ id, (node.portsOn direction)[index]? = some id := by
    intro direction
    refine ⟨_, List.getElem?_eq_getElem ?_⟩
    rw [hlen, hcount]
    exact hindex
  obtain ⟨input, hinput⟩ := hports .input
  obtain ⟨output, houtput⟩ := hports .output
  exact ⟨input, output, node, hnode, hinput, houtput⟩

/-! ## Splices -/

/-- Wires may change where every output still reaches what it fed, and no other input is fed. -/
theorem Woven.of_sameLayout (hlayout : g.SameLayout g') (hc : g'.Consistent)
    (hsinks : ∀ {id : PortId} {port : Port}, before.ports[id]? = some port →
      g'.Reaches before.nodes.size (g'.sinksAt id) (before.sinksAt id))
    (hfed : ∀ {id x : PortId} {port : Port}, before.ports[id]? = some port →
      id ∈ g'.sinksAt x → ∃ y, id ∈ g.sinksAt y) : before.Woven g' where
  original := h.original
  wellFormed := h.wellFormed.of_sameLayout hlayout
  consistent := hc
  keeps := h.keeps.trans hlayout.keeps
  added hle hnode := h.added hle (hlayout.nodes ▸ hnode)
  sinks := hsinks
  fed hport hx := by
    obtain ⟨y, hy⟩ := hfed hport hx
    exact h.fed hport hy

theorem Woven.of_spliced (hv : before.Vacancy g n scope index throughInput throughOutput)
    (hspliced : g.Spliced sink throughInput throughOutput g')
    (hport : before.ports[sink]? = some port) (hinput : port.direction = .input) :
    before.Woven g' := by
  obtain ⟨hbase, hpasses, -, -, hfree, -⟩ := hv
  have hkeeps := hspliced.layout.keeps
  obtain ⟨owner, howner, hlt, hmem⟩ := h.owner hport
  rw [hinput] at hmem
  -- the sink is what the inner input amounts to
  have hself : g'.Reaches before.nodes.size [throughInput] [sink] := by
    apply Reaches.passed hbase (hpasses.of_keeps hkeeps)
    rw [hspliced.sinksAt, if_pos rfl]
    exact .kept (hkeeps.node howner) hlt hmem .nil
  have hreaches : ∀ {sinks found}, g.Reaches before.nodes.size sinks found →
      (∀ x ∈ sinks, x ≠ throughInput) →
        g'.Reaches before.nodes.size (sinks.map (redirect sink throughInput)) found := by
    intro sinks found
    apply Reaches.transfer (· ≠ throughInput) (redirect sink throughInput) hkeeps
    · intro m node x hnode hm hx
      unfold redirect
      split
      · rename_i heq
        rw [heq]
        exact hself
      · exact .kept (hkeeps.node hnode) hm hx .nil
    · intro m node x hnode hm hx
      unfold redirect
      rw [if_neg (h.ne_of_added hport .input hm hnode hx).symm]
    · rintro output x hx rfl
      exact hfree output hx
    · intro m k input output inside hne hm ho hinside
      have houtput : output ≠ throughOutput := by
        rintro rfl
        exact hne (ho.input_unique h.wellFormed.seated hpasses).1
      rwa [hspliced.sinksAt, if_neg houtput]
  refine h.of_sameLayout hspliced.layout hspliced.consistent ?_ ?_
  · intro id other ho
    rw [hspliced.sinksAt, if_neg (h.ne_of_passes ho hbase hpasses).2]
    apply hreaches (h.sinks ho)
    rintro x hx rfl
    exact hfree id hx
  · intro id x other ho hx
    obtain ⟨-, rfl⟩ | ⟨-, ⟨rfl, -⟩ | ⟨-, hx⟩⟩ := hspliced.of_mem hx
    · exact hspliced.wired
    · exact absurd rfl (h.ne_of_passes ho hbase hpasses).1
    · exact ⟨x, hx⟩

theorem Woven.of_splicedAfter (hv : before.Vacancy g n scope index throughInput throughOutput)
    (hspliced : g.SplicedAfter source throughInput throughOutput g')
    (hport : before.ports[source]? = some port) : before.Woven g' := by
  obtain ⟨hbase, hpasses, -, -, hfree, -⟩ := hv
  have hkeeps := hspliced.layout.keeps
  have hreaches : ∀ {sinks found}, g.Reaches before.nodes.size sinks found →
      (∀ x ∈ sinks, x ≠ throughInput) → g'.Reaches before.nodes.size sinks found := by
    intro sinks found
    apply Reaches.mono (· ≠ throughInput) hkeeps
    · rintro output x hx rfl
      exact hfree output hx
    · intro m k input output inside hne hm ho hinside
      have houtput : output ≠ throughOutput := by
        rintro rfl
        exact hne (ho.input_unique h.wellFormed.seated hpasses).1
      have houtput' : output ≠ source := (h.ne_of_passes hport hm ho).2.symm
      rwa [hspliced.sinksAt, if_neg houtput', if_neg houtput]
  have hgood : ∀ id, ∀ x ∈ g.sinksAt id, x ≠ throughInput := by
    rintro id x hx rfl
    exact hfree id hx
  refine h.of_sameLayout hspliced.layout hspliced.consistent ?_ ?_
  · intro id other ho
    have houtput := (h.ne_of_passes ho hbase hpasses).2
    rw [hspliced.sinksAt]
    by_cases hid : id = source
    · subst hid
      rw [if_pos rfl]
      apply Reaches.passed hbase (hpasses.of_keeps hkeeps)
      rw [hspliced.sinksAt, if_neg houtput.symm, if_pos rfl]
      exact hreaches (h.sinks ho) (hgood id)
    · rw [if_neg hid, if_neg houtput]
      exact hreaches (h.sinks ho) (hgood id)
  · intro id x other ho hx
    obtain ⟨-, rfl⟩ | ⟨-, ⟨-, hx⟩ | ⟨-, hx⟩⟩ := hspliced.of_mem hx
    · exact absurd rfl (h.ne_of_passes ho hbase hpasses).1
    · exact ⟨source, hx⟩
    · exact ⟨x, hx⟩

theorem Woven.of_dropped (hjoined : g.Joined source sink g') {node drop : Node} {d : NodeId}
    (hnode : g.nodes[n]? = some node) (hbase : before.nodes.size ≤ n)
    (hsource : source ∈ node.outputs) (hdrop : g.nodes[d]? = some drop)
    (hk : drop.kind = .drop) (hbase' : before.nodes.size ≤ d) (hsink : sink ∈ drop.inputs) :
    before.Woven g' := by
  have hkeeps := hjoined.layout.keeps
  have hnothing : g'.Reaches before.nodes.size [sink] [] :=
    .dropped (hkeeps.node hdrop) hbase' hk hsink .nil
  refine h.of_sameLayout hjoined.layout hjoined.consistent ?_ ?_
  · intro id other ho
    rw [hjoined.sinksAt, if_neg (h.ne_of_added ho .output hbase hnode hsource)]
    apply (h.sinks ho).mono (fun _ => True) hkeeps
    · intro output x _
      trivial
    · intro m k input output inside _ _ _ hinside
      rw [hjoined.sinksAt]
      split
      · rename_i heq
        rw [heq] at hinside
        have hboth := hinside.append hnothing
        rwa [List.append_nil] at hboth
      · exact hinside
    · intro x _
      trivial
  · intro id x other ho hx
    obtain ⟨-, rfl⟩ | hx := hjoined.of_mem hx
    · exact absurd rfl (h.ne_of_added ho .input hbase' hdrop hsink)
    · exact ⟨x, hx⟩

/-! ## What feeds an input -/

theorem Woven.origin_sourceAt (hc : before.Consistent) (hport : before.ports[sink]? = some port) :
    g.Origin before.nodes.size sink (before.sourceAt sink) := by
  cases hsource : before.sourceAt sink with
  | none =>
    apply Origin.unwired
    apply Option.eq_none_iff_forall_ne_some.mpr
    intro x hx
    obtain ⟨y, hy⟩ := h.fed hport (h.consistent.mem_sinksAt_iff.mpr hx)
    cases hsource.symm.trans (hc.mem_sinksAt_iff.mp hy)
  | some source =>
    have hm := hc.mem_sinksAt_iff.mpr hsource
    obtain ⟨sourcePort, _, hsourcePort, -, houtput, -⟩ := hc.ends hm
    obtain ⟨node, hnode, hlt, houtputs⟩ := h.owner hsourcePort
    rw [houtput] at houtputs
    apply (h.sinks hsourcePort).origin h.consistent ?_ sink hm
    intro x hx
    exact .kept (h.consistent.mem_sinksAt_iff.mp hx) hnode hlt houtputs

theorem Woven.origin_iff (hc : before.Consistent) (hport : before.ports[sink]? = some port)
    {origin : Option PortId} :
    g.Origin before.nodes.size sink origin ↔ before.sourceAt sink = origin := by
  have hself := h.origin_sourceAt hc hport
  constructor
  · intro horigin
    exact hself.unique h.wellFormed.seated horigin
  · rintro rfl
    exact hself

theorem Woven.fed_iff (hc : before.Consistent) (hport : before.ports[sink]? = some port) :
    (∃ x, sink ∈ g.sinksAt x) ↔ ∃ y, sink ∈ before.sinksAt y := by
  constructor
  · rintro ⟨x, hx⟩
    exact h.fed hport hx
  · rintro ⟨y, hy⟩
    have horigin := h.origin_sourceAt hc hport
    rw [hc.mem_sinksAt_iff.mp hy] at horigin
    cases horigin with
    | kept hsource => exact ⟨_, h.consistent.mem_sinksAt_iff.mpr hsource⟩
    | through hsource => exact ⟨_, h.consistent.mem_sinksAt_iff.mpr hsource⟩

end

end Graph

end BorrowFlow
