import BorrowFlow.Graph.Edit
import BorrowFlow.Proofs.Effects

/-!
# The layout of a graph

What a graph looks like apart from its wires: every node has the ports that its kind asks for, each
facing the scope it should, every node but a border node stands in the list of its scope, border
nodes stand in the list of their structure, and bodies are later scopes than the one around them.
Adding nodes keeps this so, and rewiring does not touch it.
-/

namespace BorrowFlow

variable {node data : Node} {g : Graph} {n owner : NodeId} {id : PortId} {direction : Direction}
  {kind : BorderKind} {body : Scope} {count : Nat} {port : Port}

def Node.portsOn (node : Node) : Direction → List PortId
  | .input => node.inputs
  | .output => node.outputs

@[simp] theorem Node.portsOn_borders (node : Node) (borders : List NodeId) (direction : Direction) :
    ({ node with borders } : Node).portsOn direction = node.portsOn direction := by
  cases direction <;> rfl

def Node.withPorts (node : Node) (direction : Direction) (ports : List PortId) : Node :=
  match direction with
  | .input => { node with inputs := node.inputs ++ ports }
  | .output => { node with outputs := node.outputs ++ ports }

def Port.row (node : NodeId) (direction : Direction) (scopes : List ScopeId) : List Port :=
  scopes.zipIdx.map fun (scope, index) => { node, direction, index, scope }

theorem Port.length_row (node : NodeId) (direction : Direction) (scopes : List ScopeId) :
    (Port.row node direction scopes).length = scopes.length := by
  simp [Port.row]

theorem Port.getElem?_row (node : NodeId) (direction : Direction) (scopes : List ScopeId)
    (index : Nat) : (Port.row node direction scopes)[index]? =
      (scopes[index]?).map fun scope => { node, direction, index, scope } := by
  simp [Port.row, List.getElem?_zipIdx, Function.comp_def]

def Scope.unmarked (scope : Scope) : Scope := { scope with conditional := false }

def NodeKind.portCount (kind : NodeKind) (direction : Direction) : Nat :=
  match kind.arity?, direction with
  | some (inputs, _), .input => inputs
  | some (_, outputs), .output => outputs
  | none, _ => 0

def BorderKind.faced (kind : BorderKind) (outer : ScopeId) (bodies : List ScopeId)
    (direction : Direction) : List ScopeId :=
  if kind.side = direction then [outer]
  else if kind.side = .input ∧ !kind.feedsEveryBody then bodies.take 1
  else bodies

namespace Graph

theorem getScope_eq_ok {s : ScopeId} {scope : Scope} :
    g.getScope s = .ok scope ↔ g.scopes[s]? = some scope := by
  unfold getScope
  cases g.scopes[s]? <;> simp

theorem getNode_eq_ok : g.getNode n = .ok node ↔ g.nodes[n]? = some node := by
  unfold getNode
  cases g.nodes[n]? <;> simp

theorem inputPort_eq_ok {index : Nat} : g.inputPort n index = .ok id ↔
      ∃ node, g.nodes[n]? = some node ∧ node.inputs[index]? = some id := by
  unfold inputPort getNode
  cases g.nodes[n]? with
  | none => simp [bind, Except.bind]
  | some node =>
    cases hid : node.inputs[index]? <;>
      simp [bind, Except.bind, pure, Except.pure, throw, throwThe, MonadExceptOf.throw, hid]

theorem outputPort_eq_ok {index : Nat} : g.outputPort n index = .ok id ↔
      ∃ node, g.nodes[n]? = some node ∧ node.outputs[index]? = some id := by
  unfold outputPort getNode
  cases g.nodes[n]? with
  | none => simp [bind, Except.bind]
  | some node =>
    cases hid : node.outputs[index]? <;>
      simp [bind, Except.bind, pure, Except.pure, throw, throwThe, MonadExceptOf.throw, hid]

def bodiesAt (g : Graph) (node : NodeId) : List ScopeId :=
  ((g.nodes[node]?).map Node.bodies).getD []

def faced (g : Graph) (node : Node) (direction : Direction) : List ScopeId :=
  match node.kind with
  | .border owner kind => kind.faced node.scope (g.bodiesAt owner) direction
  | kind => List.replicate (kind.portCount direction) node.scope

theorem faced_of_plain (g : Graph) (h : node.kind.borderKind? = none) (direction : Direction) :
    g.faced node direction = List.replicate (node.kind.portCount direction) node.scope := by
  unfold faced
  split
  · rename_i owner kind hk
    rw [hk] at h
    cases h
  · rfl

/-- The node that stands for a node in the scope where it is placed. -/
def hostOf (g : Graph) (n : NodeId) : NodeId :=
  match (g.nodes[n]?).map Node.kind with
  | some (.border owner _) => owner
  | _ => n

/-- Ports and nodes name each other, and every port faces the scope that its node says. -/
structure Seated (g : Graph) : Prop where
  listed : ∀ {id : PortId} {port : Port}, g.ports[id]? = some port →
    ∃ node, g.nodes[port.node]? = some node ∧ (node.portsOn port.direction)[port.index]? = some id
  seat : ∀ {n : NodeId} {node : Node} {direction : Direction} {index : Nat} {id : PortId},
    g.nodes[n]? = some node → (node.portsOn direction)[index]? = some id →
      ∃ port : Port, g.ports[id]? = some port ∧ port.node = n ∧ port.direction = direction ∧
        port.index = index ∧ (g.faced node direction)[index]? = some port.scope
  length_eq : ∀ {n : NodeId} {node : Node}, g.nodes[n]? = some node → ∀ direction,
    (node.portsOn direction).length = (g.faced node direction).length

/-- Nodes stand in the lists of their scopes, border nodes in the lists of their structures, and
every scope but the root is a body of a node in an earlier scope. -/
structure Nested (g : Graph) : Prop where
  root : rootScope < g.scopes.size
  placed : ∀ {n : NodeId} {node : Node}, g.nodes[n]? = some node → node.kind.borderKind? = none →
      ∃ scope : Scope, g.scopes[node.scope]? = some scope ∧ n ∈ scope.nodes
  place : ∀ {s : ScopeId} {scope : Scope} {n : NodeId}, g.scopes[s]? = some scope →
    n ∈ scope.nodes → ∃ node : Node, g.nodes[n]? = some node ∧ node.scope = s ∧
      node.kind.borderKind? = none
  attached : ∀ {n owner : NodeId} {node : Node} {kind : BorderKind},
    g.nodes[n]? = some node → node.kind = .border owner kind →
      ∃ ownerNode structureKind, g.nodes[owner]? = some ownerNode ∧
        ownerNode.kind = .compound structureKind ∧ ownerNode.scope = node.scope ∧
          n ∈ ownerNode.borders
  body : ∀ {n : NodeId} {node : Node} {s : ScopeId}, g.nodes[n]? = some node →
    s ∈ node.bodies → node.scope < s ∧ s < g.scopes.size
  owned : ∀ {s : ScopeId}, s < g.scopes.size → s ≠ rootScope →
    ∃ (n : NodeId) (node : Node), g.nodes[n]? = some node ∧
      node.kind.borderKind? = none ∧ s ∈ node.bodies

structure WellFormed (g : Graph) : Prop where
  seated : g.Seated
  nested : g.Nested

section

variable (hs : g.Seated) (hnode : g.nodes[n]? = some node)
include hs hnode

theorem Seated.of_mem (hid : id ∈ node.portsOn direction) (hport : g.ports[id]? = some port) :
    port.node = n ∧ port.direction = direction ∧ port.scope ∈ g.faced node direction := by
  obtain ⟨index, hindex⟩ := List.mem_iff_getElem?.mp hid
  obtain ⟨found, hf, hn, hdirection, -, hfaced⟩ := hs.seat hnode hindex
  cases hport.symm.trans hf
  exact ⟨hn, hdirection, List.mem_of_getElem? hfaced⟩

theorem Seated.scope_of_plain (hplain : node.kind.borderKind? = none)
    (hid : id ∈ node.portsOn direction) (hport : g.ports[id]? = some port) :
    port.scope = node.scope := by
  obtain ⟨-, -, hfaced⟩ := hs.of_mem hnode hid hport
  rw [faced_of_plain g hplain] at hfaced
  exact List.eq_of_mem_replicate hfaced

theorem Seated.length_of_plain (hplain : node.kind.borderKind? = none) (direction : Direction) :
    (node.portsOn direction).length = node.kind.portCount direction := by
  rw [hs.length_eq hnode, faced_of_plain g hplain, List.length_replicate]

end

theorem Nested.scope_lt (hn : g.Nested) (hnode : g.nodes[n]? = some node) :
    node.scope < g.scopes.size := by
  have hplain : ∀ {m : NodeId} {other : Node}, g.nodes[m]? = some other →
      other.kind.borderKind? = none → other.scope < g.scopes.size := by
    intro m other ho hk
    obtain ⟨scope, hscope, -⟩ := hn.placed ho hk
    exact (Array.getElem?_eq_some_iff.mp hscope).1
  cases hk : node.kind with
  | border owner kind =>
    obtain ⟨ownerNode, structureKind, howner, hownerKind, hscope, -⟩ := hn.attached hnode hk
    rw [← hscope]
    exact hplain howner (by rw [hownerKind]; rfl)
  | _ => exact hplain hnode (by rw [hk]; rfl)

/-! ## Adding a node with its ports -/

/-- The graph with one more node, whose inputs and outputs face the given scopes. -/
def attach (g : Graph) (node : Node) (inputs outputs : List ScopeId) : Graph :=
  ((g.pushNode node).addPorts g.nodes.size .input inputs).addPorts g.nodes.size
    .output outputs

def withRows (g : Graph) (node : Node) (inputs outputs : List ScopeId) : Node :=
  (node.withPorts .input (List.range' g.ports.size inputs.length)).withPorts .output
    (List.range' (g.ports.size + inputs.length) outputs.length)

theorem addPorts_eq (g : Graph) (node : NodeId) (direction : Direction)
    (scopes : List ScopeId) : g.addPorts node direction scopes =
      { g with
        ports := g.ports ++ (Port.row node direction scopes).toArray
        nodes := g.nodes.modify node fun data =>
          data.withPorts direction (List.range' g.ports.size scopes.length) } := by
  suffices h : ∀ (seats : List (ScopeId × Nat)) (g : Graph),
      seats.foldl (fun g (scope, index) => g.addPort node direction index scope) g =
        { g with
          ports := g.ports ++ (seats.map fun (scope, index) =>
            ({ node, direction, index, scope } : Port)).toArray
          nodes := g.nodes.modify node fun data =>
            data.withPorts direction (List.range' g.ports.size seats.length) } by
    rw [addPorts, h, List.length_zipIdx]
    rfl
  intro seats
  induction seats with
  | nil =>
    intro g
    have hnodes : (g.nodes.modify node fun data => data.withPorts direction []) = g.nodes := by
      refine Array.ext_getElem? fun key => ?_
      rw [Array.getElem?_modify]
      split
      · cases direction <;> simp [Node.withPorts]
      · rfl
    simp [hnodes]
  | cons seat seats ih =>
    intro g
    rw [List.foldl_cons, ih]
    simp only [addPort, List.map_cons, List.length_cons, List.range'_succ, Array.size_push]
    congr 1
    · refine Array.ext_getElem? fun key => ?_
      simp only [Array.getElem?_modify]
      split
      · cases direction <;> simp [Node.withPorts, Function.comp_def]
      · rfl
    · simp

theorem modify_push_size {α : Type} (items : Array α) (item : α) (change : α → α) :
    (items.push item).modify items.size change = items.push (change item) := by
  refine Array.ext_getElem? fun key => ?_
  rw [Array.getElem?_modify, Array.getElem?_push, Array.getElem?_push]
  by_cases h : key = items.size
  · simp [h]
  · simp [h, Ne.symm h]

theorem attach_eq (g : Graph) (node : Node) (inputs outputs : List ScopeId) :
    g.attach node inputs outputs =
      { g with
        ports := g.ports ++ (Port.row g.nodes.size .input inputs ++
          Port.row g.nodes.size .output outputs).toArray
        nodes := g.nodes.push (g.withRows node inputs outputs) } := by
  rw [attach, addPorts_eq, addPorts_eq]
  simp [pushNode, withRows, Port.length_row, modify_push_size]

section Attach

variable {inputs outputs : List ScopeId}

theorem getElem?_nodes_attach (g : Graph) (node : Node) (inputs outputs : List ScopeId)
    (n : NodeId) : (g.attach node inputs outputs).nodes[n]? =
      if n = g.nodes.size then some (g.withRows node inputs outputs)
      else g.nodes[n]? := by
  rw [attach_eq, Array.getElem?_push]

theorem getElem?_ports_attach_of_lt (h : id < g.ports.size) :
    (g.attach node inputs outputs).ports[id]? = g.ports[id]? := by
  rw [attach_eq, Array.getElem?_append, if_pos h]

theorem getElem?_ports_attach (g : Graph) (node : Node) (inputs outputs : List ScopeId)
    (k : Nat) : (g.attach node inputs outputs).ports[g.ports.size + k]? =
      if k < inputs.length then
        (inputs[k]?).map fun scope => ⟨g.nodes.size, .input, k, scope, none⟩
      else (outputs[k - inputs.length]?).map fun scope =>
        ⟨g.nodes.size, .output, k - inputs.length, scope, none⟩ := by
  rw [attach_eq, Array.getElem?_append, if_neg (by omega), Nat.add_sub_cancel_left,
    List.getElem?_toArray, List.getElem?_append, Port.length_row, Port.getElem?_row,
    Port.getElem?_row]

theorem scopes_attach : (g.attach node inputs outputs).scopes = g.scopes := by
  rw [attach_eq]

theorem wires_attach : (g.attach node inputs outputs).wires = g.wires := by
  rw [attach_eq]

theorem lt_size_of_node (h : g.nodes[n]? = some data) : n < g.nodes.size :=
  (Array.getElem?_eq_some_iff.mp h).1

theorem lt_size_of_port {data : Port} (h : g.ports[id]? = some data) : id < g.ports.size :=
  (Array.getElem?_eq_some_iff.mp h).1

theorem faced_attach (h : ∀ owner kind, data.kind = .border owner kind → owner < g.nodes.size) :
    (g.attach node inputs outputs).faced data direction = g.faced data direction := by
  unfold faced
  split
  · rename_i owner kind hk
    have hne : owner ≠ g.nodes.size := Nat.ne_of_lt (h owner kind hk)
    rw [bodiesAt, getElem?_nodes_attach, if_neg hne, bodiesAt]
  · rfl

theorem faced_withRows {other : Graph} :
    other.faced (g.withRows data inputs outputs) direction = other.faced data direction :=
  rfl

theorem Nested.owner_lt (hn : g.Nested) (h : g.nodes[n]? = some data)
    (hk : data.kind = .border owner kind) : owner < g.nodes.size := by
  obtain ⟨_, _, howner, -⟩ := hn.attached h hk
  exact lt_size_of_node howner

theorem Seated.attach (hs : g.Seated) (hn : g.Nested) (hinputs : node.inputs = [])
    (houtputs : node.outputs = [])
    (howner : ∀ owner kind, node.kind = .border owner kind → owner < g.nodes.size) :
    (g.attach node (g.faced node .input) (g.faced node .output)).Seated where
  listed {id port} h := by
    by_cases hlt : id < g.ports.size
    · rw [getElem?_ports_attach_of_lt hlt] at h
      obtain ⟨data, hd, hlisted⟩ := hs.listed h
      have hne : port.node ≠ g.nodes.size := Nat.ne_of_lt (lt_size_of_node hd)
      exact ⟨data, by rw [getElem?_nodes_attach, if_neg hne, hd], hlisted⟩
    · obtain ⟨k, rfl⟩ := Nat.exists_eq_add_of_le (Nat.le_of_not_lt hlt)
      rw [getElem?_ports_attach] at h
      split at h
      · rename_i hk
        obtain ⟨scope, -, rfl⟩ := Option.map_eq_some_iff.mp h
        refine ⟨_, by rw [getElem?_nodes_attach, if_pos rfl], ?_⟩
        simp [Node.portsOn, withRows, Node.withPorts, hinputs, hk]
      · rename_i hk
        obtain ⟨scope, hscope, rfl⟩ := Option.map_eq_some_iff.mp h
        have hk' := (List.getElem?_eq_some_iff.mp hscope).1
        refine ⟨_, by rw [getElem?_nodes_attach, if_pos rfl], ?_⟩
        simp only [Node.portsOn, withRows, Node.withPorts, houtputs, List.nil_append]
        rw [List.getElem?_range' hk']
        congr 1
        omega
  seat {n data direction index id} hd hid := by
    rw [getElem?_nodes_attach] at hd
    split at hd
    · rename_i hn'
      cases hd
      rw [faced_withRows, faced_attach howner]
      cases direction with
      | input =>
        simp only [Node.portsOn, withRows, Node.withPorts, hinputs, List.nil_append] at hid
        obtain ⟨hlt, rfl⟩ := List.getElem?_eq_some_iff.mp hid
        rw [List.length_range'] at hlt
        refine ⟨⟨g.nodes.size, .input, index, (g.faced node .input)[index], none⟩, ?_,
          hn'.symm, rfl, rfl, List.getElem?_eq_getElem hlt⟩
        rw [List.getElem_range', Nat.one_mul, getElem?_ports_attach, if_pos hlt,
          List.getElem?_eq_getElem hlt, Option.map_some]
      | output =>
        simp only [Node.portsOn, withRows, Node.withPorts, houtputs, List.nil_append] at hid
        obtain ⟨hlt, rfl⟩ := List.getElem?_eq_some_iff.mp hid
        rw [List.length_range'] at hlt
        refine ⟨⟨g.nodes.size, .output, index, (g.faced node .output)[index], none⟩, ?_,
          hn'.symm, rfl, rfl, List.getElem?_eq_getElem hlt⟩
        rw [List.getElem_range', Nat.one_mul, Nat.add_assoc, getElem?_ports_attach,
          if_neg (by omega), Nat.add_sub_cancel_left, List.getElem?_eq_getElem hlt,
          Option.map_some]
    · obtain ⟨port, hport, hseat⟩ := hs.seat hd hid
      rw [faced_attach fun owner kind => hn.owner_lt hd]
      exact ⟨port, by rw [getElem?_ports_attach_of_lt (lt_size_of_port hport), hport], hseat⟩
  length_eq {n data} hd direction := by
    rw [getElem?_nodes_attach] at hd
    split at hd
    · cases hd
      rw [faced_withRows, faced_attach howner]
      cases direction <;> simp [Node.portsOn, withRows, Node.withPorts, hinputs, houtputs]
    · rw [faced_attach fun owner kind => hn.owner_lt hd]
      exact hs.length_eq hd direction

end Attach

/-! ## Changes that leave the layout alone -/

section Same

variable {g' : Graph}

/-- Nodes are the same but for their border nodes, and ports are the same but for their wires. -/
structure SameSeats (g g' : Graph) : Prop where
  node : ∀ n : NodeId, (g'.nodes[n]?).map (fun node => { node with borders := [] }) =
    (g.nodes[n]?).map fun node => { node with borders := [] }
  port : ∀ id : PortId, (g'.ports[id]?).map (fun port => { port with wire := none }) =
    (g.ports[id]?).map fun port => { port with wire := none }

theorem SameSeats.symm (h : g.SameSeats g') : g'.SameSeats g where
  node n := (h.node n).symm
  port id := (h.port id).symm

theorem SameSeats.getNode (h : g.SameSeats g') (hnode : g.nodes[n]? = some node) :
    ∃ borders, g'.nodes[n]? = some { node with borders } := by
  have heq := h.node n
  rw [hnode, Option.map_some, Option.map_eq_some_iff] at heq
  obtain ⟨node', hnode', heq⟩ := heq
  refine ⟨node'.borders, ?_⟩
  rw [hnode']
  cases node
  cases node'
  simp_all

theorem SameSeats.getPort (h : g.SameSeats g') (hport : g.ports[id]? = some port) :
    ∃ wire, g'.ports[id]? = some { port with wire } := by
  have heq := h.port id
  rw [hport, Option.map_some, Option.map_eq_some_iff] at heq
  obtain ⟨port', hport', heq⟩ := heq
  refine ⟨port'.wire, ?_⟩
  rw [hport']
  cases port
  cases port'
  simp_all

theorem SameSeats.faced (h : g.SameSeats g') (node : Node) (direction : Direction) :
    g'.faced node direction = g.faced node direction := by
  have hbodies : g'.bodiesAt = g.bodiesAt := by
    funext n
    have heq := congrArg (Option.map Node.bodies) (h.node n)
    rw [Option.map_map, Option.map_map] at heq
    rw [bodiesAt, bodiesAt]
    exact congrArg (·.getD []) heq
  unfold Graph.faced
  rw [hbodies]

theorem Seated.of_sameSeats (hs : g.Seated) (h : g.SameSeats g') : g'.Seated where
  listed hport := by
    obtain ⟨wire, hport'⟩ := h.symm.getPort hport
    obtain ⟨node, hnode, hlisted⟩ := hs.listed hport'
    obtain ⟨borders, hnode'⟩ := h.getNode hnode
    exact ⟨_, hnode', by rwa [Node.portsOn_borders]⟩
  seat {n node direction index id} hnode hid := by
    obtain ⟨borders, hnode'⟩ := h.symm.getNode hnode
    obtain ⟨port, hport, hseat⟩ := hs.seat hnode' hid
    obtain ⟨wire, hport'⟩ := h.getPort hport
    exact ⟨_, hport', by rw [h.faced]; exact hseat⟩
  length_eq {n node} hnode direction := by
    obtain ⟨borders, hnode'⟩ := h.symm.getNode hnode
    rw [h.faced, ← Node.portsOn_borders node borders]
    exact hs.length_eq hnode' direction

/-- Only wires differ, and which wires the ports name. -/
structure SameLayout (g g' : Graph) : Prop where
  scopes : g'.scopes = g.scopes
  nodes : g'.nodes = g.nodes
  port : ∀ id : PortId, (g'.ports[id]?).map (fun port => { port with wire := none }) =
    (g.ports[id]?).map fun port => { port with wire := none }

theorem SameLayout.refl (g : Graph) : g.SameLayout g :=
  ⟨rfl, rfl, fun _ => rfl⟩

theorem SameLayout.trans {g'' : Graph} (h : g.SameLayout g')
    (h' : g'.SameLayout g'') : g.SameLayout g'' where
  scopes := h'.scopes.trans h.scopes
  nodes := h'.nodes.trans h.nodes
  port id := (h'.port id).trans (h.port id)

theorem SameLayout.sameSeats (h : g.SameLayout g') : g.SameSeats g' :=
  ⟨fun n => by rw [h.nodes], h.port⟩

theorem WellFormed.of_sameLayout (hw : g.WellFormed) (h : g.SameLayout g') : g'.WellFormed where
  seated := hw.seated.of_sameSeats h.sameSeats
  nested := by
    obtain ⟨hroot, hplaced, hplace, hattached, hbody, howned⟩ := hw.nested
    rw [← h.scopes, ← h.nodes] at *
    exact ⟨hroot, hplaced, hplace, hattached, hbody, howned⟩

/-- All nodes are still there as they were, and all ports but for their wires. -/
structure Keeps (g g' : Graph) : Prop where
  node : ∀ {n : NodeId} {node : Node}, g.nodes[n]? = some node → g'.nodes[n]? = some node
  port : ∀ {id : PortId} {port : Port}, g.ports[id]? = some port →
    ∃ wire, g'.ports[id]? = some { port with wire }

theorem Keeps.refl (g : Graph) : g.Keeps g :=
  ⟨fun h => h, fun h => ⟨_, h⟩⟩

theorem Keeps.trans {g'' : Graph} (h : g.Keeps g') (h' : g'.Keeps g'') : g.Keeps g'' where
  node hnode := h'.node (h.node hnode)
  port hport := by
    obtain ⟨wire, hport'⟩ := h.port hport
    obtain ⟨wire', hport''⟩ := h'.port hport'
    exact ⟨wire', hport''⟩

theorem Keeps.lt_size (h : g.Keeps g') (hid : id < g.ports.size) : id < g'.ports.size := by
  obtain ⟨wire, hport⟩ := h.port (Array.getElem?_eq_getElem hid)
  exact lt_size_of_port hport

theorem SameLayout.keeps (h : g.SameLayout g') : g.Keeps g' where
  node hnode := by rwa [h.nodes]
  port hport := h.sameSeats.getPort hport

end Same

/-! ## The edits that add nodes -/

section Adding

/-- The graph with a node placed in a scope, and with new scopes for its bodies. -/
def settle (g : Graph) (node : Node) (count : Nat) (body : Scope) : Graph :=
  ({ g with scopes := g.scopes ++ Array.replicate count body }.attach node
    (g.faced node .input) (g.faced node .output)).placeNode node.scope g.nodes.size

theorem getElem?_scopes_settle {s : Nat} (hscope : node.scope < g.scopes.size) :
    (g.settle node count body).scopes[s]? =
      if s < g.scopes.size then
        (g.scopes[s]?).map fun data =>
          if s = node.scope then { data with nodes := data.nodes ++ [g.nodes.size] } else data
      else if s < g.scopes.size + count then some body else none := by
  rw [settle, placeNode, scopes_attach, Array.getElem?_modify, Array.getElem?_append]
  split
  · rename_i h
    subst h
    rw [if_pos hscope, if_pos hscope]
    simp
  · rename_i h
    split
    · simp [Ne.symm h]
    · rw [Array.getElem?_replicate]
      by_cases hlt : s < g.scopes.size + count
      · rw [if_pos (by omega), if_pos hlt]
      · rw [if_neg (by omega), if_neg hlt]

theorem getElem?_nodes_settle_eq (g : Graph) (node : Node) (count : Nat) (body : Scope)
    (n : NodeId) : (g.settle node count body).nodes[n]? =
      if n = g.nodes.size then
        some (g.withRows node (g.faced node .input) (g.faced node .output))
      else g.nodes[n]? :=
  getElem?_nodes_attach _ node _ _ n

theorem node_settle_self (g : Graph) (node : Node) (count : Nat) (body : Scope) :
    (g.settle node count body).nodes[g.nodes.size]? =
      some (g.withRows node (g.faced node .input) (g.faced node .output)) := by
  rw [getElem?_nodes_settle_eq, if_pos rfl]

theorem node_settle_cases (hd : (g.settle node count body).nodes[n]? = some data) :
    (n = g.nodes.size ∧ data = g.withRows node (g.faced node .input) (g.faced node .output)) ∨
        g.nodes[n]? = some data := by
  rw [getElem?_nodes_settle_eq] at hd
  split at hd
  · cases hd
    exact .inl ⟨‹_›, rfl⟩
  · exact .inr hd

theorem le_of_mem_settle {found : Node} (hinputs : node.inputs = []) (houtputs : node.outputs = [])
    (direction : Direction)
    (hf : (g.settle node count body).nodes[g.nodes.size]? = some found)
    (hid : id ∈ found.portsOn direction) : g.ports.size ≤ id := by
  cases (node_settle_self g node count body).symm.trans hf
  cases direction with
  | input =>
    simp only [Node.portsOn, withRows, Node.withPorts, hinputs, List.nil_append] at hid
    exact (List.mem_range'_1.mp hid).1
  | output =>
    simp only [Node.portsOn, withRows, Node.withPorts, houtputs, List.nil_append] at hid
    exact Nat.le_trans (Nat.le_add_right ..) (List.mem_range'_1.mp hid).1

theorem keeps_settle (g : Graph) (node : Node) (count : Nat) (body : Scope) :
    g.Keeps (g.settle node count body) where
  node {n data} hd := by
    rw [getElem?_nodes_settle_eq, if_neg (Nat.ne_of_lt (lt_size_of_node hd)), hd]
  port {id port} hport := by
    refine ⟨port.wire, ?_⟩
    rw [← hport]
    exact getElem?_ports_attach_of_lt (lt_size_of_port hport)

theorem size_scopes_settle (g : Graph) (node : Node) (count : Nat) (body : Scope) :
    (g.settle node count body).scopes.size = g.scopes.size + count := by
  simp [settle, placeNode, scopes_attach]

theorem Nested.settle (hn : g.Nested) (hscope : node.scope < g.scopes.size)
    (hk : node.kind.borderKind? = none)
    (hbodies : node.bodies = List.range' g.scopes.size count) (hbody : body.nodes = []) :
    (g.settle node count body).Nested where
  root := by
    rw [size_scopes_settle]
    exact Nat.lt_add_right _ hn.root
  placed {n data} hd hborder := by
    rcases node_settle_cases hd with ⟨rfl, rfl⟩ | hd
    · have hplace : (g.settle node count body).scopes[node.scope]? = _ :=
        getElem?_scopes_settle hscope
      rw [if_pos hscope, Array.getElem?_eq_getElem hscope] at hplace
      exact ⟨_, hplace, by simp⟩
    · obtain ⟨scope, hs, hm⟩ := hn.placed hd hborder
      have hlt := (Array.getElem?_eq_some_iff.mp hs).1
      rw [getElem?_scopes_settle hscope, if_pos hlt, hs]
      refine ⟨_, rfl, ?_⟩
      split
      · exact List.mem_append_left _ hm
      · exact hm
  place {s scope n} hs hm := by
    have hold : ∀ {data : Scope}, g.scopes[s]? = some data → n ∈ data.nodes → ∃ old : Node,
        (g.settle node count body).nodes[n]? = some old ∧ old.scope = s ∧
          old.kind.borderKind? = none := by
      intro data hd hm
      obtain ⟨old, hf, hold⟩ := hn.place hd hm
      exact ⟨old, (keeps_settle g node count body).node hf, hold⟩
    rw [getElem?_scopes_settle hscope] at hs
    split at hs
    · obtain ⟨data, hd, rfl⟩ := Option.map_eq_some_iff.mp hs
      split at hm
      · rename_i heq
        rcases List.mem_append.mp hm with hm | hm
        · exact hold hd hm
        · cases List.mem_singleton.mp hm
          exact ⟨_, node_settle_self g node count body, heq.symm, hk⟩
      · exact hold hd hm
    · split at hs
      · cases hs
        simp [hbody] at hm
      · cases hs
  attached {n owner data kind} hd hdataKind := by
    rcases node_settle_cases hd with ⟨rfl, rfl⟩ | hd
    · rw [show node.kind = .border owner kind from hdataKind] at hk
      cases hk
    · obtain ⟨ownerNode, structureKind, howner, hrest⟩ := hn.attached hd hdataKind
      exact ⟨ownerNode, structureKind, (keeps_settle g node count body).node howner, hrest⟩
  body {n data s} hd hs := by
    rw [size_scopes_settle]
    rcases node_settle_cases hd with ⟨rfl, rfl⟩ | hd
    · have hrange : s ∈ List.range' g.scopes.size count := hbodies ▸ hs
      rw [List.mem_range'_1] at hrange
      exact ⟨Nat.lt_of_lt_of_le hscope hrange.1, hrange.2⟩
    · obtain ⟨hlt, hlt'⟩ := hn.body hd hs
      exact ⟨hlt, Nat.lt_add_right _ hlt'⟩
  owned {s} hs hroot := by
    rw [size_scopes_settle] at hs
    by_cases hlt : s < g.scopes.size
    · obtain ⟨n, data, hd, hplain, hm⟩ := hn.owned hlt hroot
      exact ⟨n, data, (keeps_settle g node count body).node hd, hplain, hm⟩
    · refine ⟨g.nodes.size, _, node_settle_self g node count body, hk, ?_⟩
      change s ∈ node.bodies
      rw [hbodies, List.mem_range'_1]
      exact ⟨Nat.le_of_not_lt hlt, hs⟩

theorem WellFormed.settle (hw : g.WellFormed) (hscope : node.scope < g.scopes.size)
    (hk : node.kind.borderKind? = none) (hinputs : node.inputs = [])
    (houtputs : node.outputs = []) (hbodies : node.bodies = List.range' g.scopes.size count)
    (hbody : body.nodes = []) : (g.settle node count body).WellFormed where
  seated := by
    have hplain : ∀ owner kind, node.kind = .border owner kind → owner < g.nodes.size := by
      intro owner kind heq
      rw [heq] at hk
      cases hk
    refine (hw.seated.attach hw.nested hinputs houtputs hplain).of_sameSeats
      ⟨fun n => ?_, fun id => ?_⟩
    · simp only [Graph.settle, placeNode, attach_eq, withRows]
    · simp only [Graph.settle, placeNode, attach_eq]
  nested := hw.nested.settle hscope hk hbodies hbody

/-- The graph with a border node attached to its structure. -/
def fasten (g : Graph) (owner : NodeId) (node : Node) : Graph :=
  let attached := g.attach node (g.faced node .input) (g.faced node .output)
  { attached with
    nodes := attached.nodes.modify owner fun data =>
      { data with borders := data.borders ++ [g.nodes.size] } }

theorem getElem?_nodes_fasten (howner : owner < g.nodes.size) (node : Node) (n : NodeId) :
    (g.fasten owner node).nodes[n]? =
      if n = g.nodes.size then
        some (g.withRows node (g.faced node .input) (g.faced node .output))
      else if n = owner then (g.nodes[n]?).map fun data =>
        { data with borders := data.borders ++ [g.nodes.size] }
      else g.nodes[n]? := by
  refine (Array.getElem?_modify ..).trans ?_
  rw [getElem?_nodes_attach]
  by_cases hn : n = g.nodes.size
  · have hne : ¬owner = n := fun heq => Nat.ne_of_lt howner (heq.trans hn)
    rw [if_neg hne, if_pos hn, if_pos hn]
  · rw [if_neg hn, if_neg hn]
    by_cases heq : owner = n
    · rw [if_pos heq, if_pos heq.symm]
    · rw [if_neg heq, if_neg (Ne.symm heq)]

theorem scopes_fasten (g : Graph) (owner : NodeId) (node : Node) :
    (g.fasten owner node).scopes = g.scopes := by
  rw [Graph.fasten]
  exact scopes_attach

theorem node_fasten (howner : owner < g.nodes.size) (node : Node) (hd : g.nodes[n]? = some data) :
    ∃ borders, (g.fasten owner node).nodes[n]? = some { data with borders } ∧
      data.borders ⊆ borders ∧ (n = owner → g.nodes.size ∈ borders) := by
  rw [getElem?_nodes_fasten howner, if_neg (Nat.ne_of_lt (lt_size_of_node hd)), hd]
  split
  · exact ⟨_, rfl, List.subset_append_left .., by simp⟩
  · exact ⟨_, rfl, List.Subset.refl _, fun h => absurd h ‹_›⟩

theorem node_fasten_cases (howner : owner < g.nodes.size)
    (hd : (g.fasten owner node).nodes[n]? = some data) :
    (n = g.nodes.size ∧ data = g.withRows node (g.faced node .input) (g.faced node .output)) ∨
        ∃ old borders, g.nodes[n]? = some old ∧ data = { old with borders } ∧
          (borders = old.borders ∨ n = owner ∧ borders = old.borders ++ [g.nodes.size]) := by
  rw [getElem?_nodes_fasten howner] at hd
  split at hd
  · cases hd
    exact .inl ⟨‹_›, rfl⟩
  · split at hd
    · obtain ⟨old, hold, rfl⟩ := Option.map_eq_some_iff.mp hd
      exact .inr ⟨old, _, hold, rfl, .inr ⟨‹_›, rfl⟩⟩
    · exact .inr ⟨data, _, hd, rfl, .inl rfl⟩

theorem Nested.fasten (hn : g.Nested) {ownerNode : Node} {structureKind : StructureKind}
    (howner : g.nodes[owner]? = some ownerNode)
    (hownerKind : ownerNode.kind = .compound structureKind) :
    (g.fasten owner { scope := ownerNode.scope, kind := .border owner kind }).Nested := by
  have hlt := lt_size_of_node howner
  refine ⟨?_, ?_, ?_, ?_, ?_, ?_⟩
  · rw [scopes_fasten]
    exact hn.root
  · intro n data hd hborder
    rw [scopes_fasten]
    rcases node_fasten_cases hlt hd with ⟨-, rfl⟩ | ⟨old, _, hf, rfl, -⟩
    · cases hborder
    · exact (hn.placed hf hborder :)
  · intro s scope n hs hm
    rw [scopes_fasten] at hs
    obtain ⟨old, hf, hscope, hborder⟩ := hn.place hs hm
    obtain ⟨_, hd, -⟩ := node_fasten hlt _ hf
    exact ⟨_, hd, hscope, hborder⟩
  · intro n partner data other hd hkind
    rcases node_fasten_cases hlt hd with ⟨rfl, rfl⟩ | ⟨old, _, hf, rfl, -⟩
    · cases hkind
      obtain ⟨_, hd', -, hborders⟩ := node_fasten hlt _ howner
      exact ⟨_, structureKind, hd', hownerKind, rfl, hborders rfl⟩
    · obtain ⟨partnerNode, partnerKind, hpartner, hk, hs, hm⟩ := hn.attached hf hkind
      obtain ⟨_, hd', hborders, -⟩ := node_fasten hlt _ hpartner
      exact ⟨_, partnerKind, hd', hk, hs, hborders hm⟩
  · intro n data s hd hs
    rw [scopes_fasten]
    rcases node_fasten_cases hlt hd with ⟨-, rfl⟩ | ⟨old, _, hf, rfl, -⟩
    · cases hs
    · exact (hn.body hf hs :)
  · intro s hs hroot
    rw [scopes_fasten] at hs
    obtain ⟨n, old, hf, hplain, hm⟩ := hn.owned hs hroot
    obtain ⟨_, hd, -⟩ := node_fasten hlt _ hf
    exact ⟨n, _, hd, hplain, hm⟩

theorem WellFormed.fasten (hw : g.WellFormed) {ownerNode : Node} {structureKind : StructureKind}
    (howner : g.nodes[owner]? = some ownerNode)
    (hownerKind : ownerNode.kind = .compound structureKind) :
    (g.fasten owner
      { scope := ownerNode.scope, kind := .border owner kind }).WellFormed where
  seated := by
    refine (hw.seated.attach hw.nested rfl rfl ?_).of_sameSeats ⟨fun n => ?_, fun _ => rfl⟩
    · intro partner other heq
      cases heq
      exact lt_size_of_node howner
    · simp only [Graph.fasten, Array.getElem?_modify]
      split
      · rw [Option.map_map]
        rfl
      · rfl
  nested := hw.nested.fasten howner hownerKind

/-! ### Scopes that may not run -/

theorem makeConditional_eq (g : Graph) (marked : List ScopeId) :
    ∃ scopes, g.makeConditional marked = { g with scopes } ∧
      ∀ s : ScopeId, (scopes[s]?).map Scope.unmarked = (g.scopes[s]?).map Scope.unmarked := by
  induction marked generalizing g with
  | nil => exact ⟨g.scopes, rfl, fun _ => rfl⟩
  | cons scope marked ih =>
    obtain ⟨scopes, heq, hscopes⟩ := ih { g with
      scopes := g.scopes.modify scope fun data => { data with conditional := true } }
    refine ⟨scopes, heq, fun s => (hscopes s).trans ?_⟩
    rw [Array.getElem?_modify]
    split
    · rw [Option.map_map]
      rfl
    · rfl

theorem WellFormed.of_scopes (hw : g.WellFormed) {scopes : Array Scope} (hscopes : ∀ s : ScopeId,
      (scopes[s]?).map Scope.unmarked = (g.scopes[s]?).map Scope.unmarked) :
    ({ g with scopes } : Graph).WellFormed where
  seated := hw.seated.of_sameSeats ⟨fun _ => rfl, fun _ => rfl⟩
  nested := by
    have h : ∀ s : ScopeId, (scopes[s]?).map Scope.nodes = (g.scopes[s]?).map Scope.nodes := by
      intro s
      have heq := congrArg (Option.map Scope.nodes) (hscopes s)
      rwa [Option.map_map, Option.map_map] at heq
    have hsize : scopes.size = g.scopes.size := by
      refine Nat.le_antisymm (Nat.le_of_not_lt fun hlt => ?_) (Nat.le_of_not_lt fun hlt => ?_)
      · simpa [hlt] using h g.scopes.size
      · simpa [hlt] using h scopes.size
    refine ⟨?_, ?_, ?_, hw.nested.attached, ?_, ?_⟩
    · exact hsize ▸ hw.nested.root
    · intro n node hnode hk
      obtain ⟨scope, hs, hm⟩ := hw.nested.placed hnode hk
      have heq := h node.scope
      rw [hs, Option.map_some, Option.map_eq_some_iff] at heq
      obtain ⟨scope', hs', heq⟩ := heq
      exact ⟨scope', hs', heq ▸ hm⟩
    · intro s scope n hs hm
      have heq := h s
      rw [show scopes[s]? = some scope from hs, Option.map_some, eq_comm,
        Option.map_eq_some_iff] at heq
      obtain ⟨scope', hs', heq⟩ := heq
      exact hw.nested.place hs' (heq ▸ hm)
    · intro n node s hnode hs
      exact hsize ▸ hw.nested.body hnode hs
    · intro s hs hroot
      exact hw.nested.owned (hsize ▸ hs) hroot

end Adding

end Graph

end BorrowFlow
