import BorrowFlow.Proofs.Graph.Wiring

/-!
# Graphs that are built by edits

Every graph that is built from the empty one by adding nodes, structures and border nodes, by
connecting ports and by disconnecting inputs is well-formed and consistent. Edits that fail on the
way change nothing.
-/

namespace BorrowFlow

namespace Graph

/-- The graphs that can be built from the empty one. -/
inductive Built : Graph → Prop
  | empty : Built .empty
  | addNode {g : Graph} (h : Built g) (scope : ScopeId) (kind : NodeKind) :
    Built (leaves (addNode scope kind false) g)
  | addStructure {g : Graph} (h : Built g) (scope : ScopeId) (kind : StructureKind) :
    Built (leaves (addStructure scope kind) g)
  | addBorder {g : Graph} (h : Built g) (owner : NodeId) (kind : BorderKind) :
    Built (leaves (addBorder owner kind) g)
  | connect {g : Graph} (h : Built g) (source sink : PortId) :
    Built (leaves (connect source sink) g)
  | disconnect {g : Graph} (h : Built g) {sink : PortId} {port : Port}
    (hport : g.ports[sink]? = some port) (hinput : port.direction = .input) :
    Built (leaves (disconnect sink) g)

variable {g g' : Graph}

/-! ## Adding plain nodes and structures -/

theorem faced_of_arity? (g : Graph) {node : Node} {inputs outputs : Nat}
    (h : node.kind.arity? = some (inputs, outputs)) :
    g.faced node .input = List.replicate inputs node.scope ∧
      g.faced node .output = List.replicate outputs node.scope ∧ node.kind.borderKind? = none := by
  have hplain : node.kind.borderKind? = none := by
    cases hk : node.kind with
    | border owner kind => simp [hk, NodeKind.arity?] at h
    | _ => rfl
  rw [faced_of_plain g hplain, faced_of_plain g hplain]
  unfold NodeKind.portCount
  rw [h]
  exact ⟨rfl, rfl, hplain⟩

theorem addNode_eq (g : Graph) (scope : ScopeId) (kind : NodeKind) (inserted : Bool) :
    addNode scope kind inserted g =
      match g.scopes[scope]?, kind.arity? with
      | none, _ => .error (.unknownScope scope) g
      | some _, none => .error (.notPlain kind.name) g
      | some _, some (inputs, outputs) => .ok g.nodes.size
        ((g.attach { scope, kind, inserted } (List.replicate inputs scope)
          (List.replicate outputs scope)).placeNode scope g.nodes.size) := by
  simp only [addNode, getScope, bind, EStateM.bind, get, getThe, MonadStateOf.get, get_run,
    liftM, monadLift, MonadLift.monadLift]
  cases g.scopes[scope]? with
  | none => rfl
  | some data =>
    cases kind.arity? with
    | none => rfl
    | some arity => rfl

theorem addNode_cases (g : Graph) (scope : ScopeId) (kind : NodeKind) (inserted : Bool) :
    (∃ fault, addNode scope kind inserted g = .error fault g) ∨
      scope < g.scopes.size ∧ kind.borderKind? = none ∧ addNode scope kind inserted g =
          .ok g.nodes.size (g.settle { scope, kind, inserted } 0 {}) := by
  rw [addNode_eq]
  cases hs : g.scopes[scope]? with
  | none => exact .inl ⟨_, rfl⟩
  | some data =>
    cases harity : kind.arity? with
    | none => exact .inl ⟨_, rfl⟩
    | some arity =>
      have hk : ({ scope, kind, inserted } : Node).kind.arity? = some (arity.1, arity.2) :=
        harity
      obtain ⟨hinput, houtput, hborder⟩ := faced_of_arity? g hk
      refine .inr ⟨(Array.getElem?_eq_some_iff.mp hs).1, hborder, ?_⟩
      rw [settle, hinput, houtput]
      simp

theorem addStructure_cases (g : Graph) (scope : ScopeId) (kind : StructureKind) :
    (∃ fault, addStructure scope kind g = .error fault g) ∨
      scope < g.scopes.size ∧ ∃ body : Scope, body.nodes = [] ∧ body.parent = some scope ∧
        body.owner = some g.nodes.size ∧ addStructure scope kind g = .ok g.nodes.size (g.settle
            { scope, kind := .compound kind
              bodies := List.range' g.scopes.size kind.bodyCount } kind.bodyCount body) := by
  simp only [addStructure, getScope, bind, EStateM.bind, get, getThe, MonadStateOf.get,
    get_run, liftM, monadLift, MonadLift.monadLift]
  cases hs : g.scopes[scope]? with
  | none => exact .inl ⟨_, rfl⟩
  | some data =>
    refine .inr ⟨(Array.getElem?_eq_some_iff.mp hs).1,
      { parent := some scope, owner := some g.nodes.size,
        conditional := kind.isConditional }, rfl, rfl, rfl, ?_⟩
    rfl

/-! ## Adding border nodes -/

theorem addBorderPorts_eq (g : Graph) (owner : NodeId) (ownerNode : Node) (kind : BorderKind)
    (howner : g.nodes[owner]? = some ownerNode) :
    (g.pushNode { scope := ownerNode.scope, kind := .border owner kind }).addBorderPorts
        g.nodes.size kind ownerNode.scope ownerNode.bodies =
      g.attach { scope := ownerNode.scope, kind := .border owner kind }
        (g.faced { scope := ownerNode.scope, kind := .border owner kind } .input)
        (g.faced { scope := ownerNode.scope, kind := .border owner kind } .output) := by
  have hbodies : g.bodiesAt owner = ownerNode.bodies := by
    rw [bodiesAt, howner]
    rfl
  simp only [addBorderPorts, attach, faced, hbodies, BorderKind.faced]
  cases kind <;> rfl

theorem makeConditional_nodes (g : Graph) (nodes : Array Node) (marked : List ScopeId) :
    { g.makeConditional marked with nodes } =
      ({ g with nodes } : Graph).makeConditional marked := by
  induction marked generalizing g with
  | nil => rfl
  | cons scope marked ih => exact ih _

theorem nodes_makeConditional (g : Graph) (marked : List ScopeId) :
    (g.makeConditional marked).nodes = g.nodes := by
  obtain ⟨scopes, heq, -⟩ := makeConditional_eq g marked
  rw [heq]

theorem addBorder_cases (g : Graph) (owner : NodeId) (kind : BorderKind) :
    (∃ fault, addBorder owner kind g = .error fault g) ∨
      ∃ ownerNode structureKind marked, g.nodes[owner]? = some ownerNode ∧
        ownerNode.kind = .compound structureKind ∧
          g.admitsBorder owner structureKind kind = .ok true ∧
            addBorder owner kind g = .ok g.nodes.size ((g.fasten owner
              { scope := ownerNode.scope, kind := .border owner kind }).makeConditional
                marked) := by
  simp only [addBorder, getNode, bind, EStateM.bind, get, getThe, MonadStateOf.get, get_run,
    liftM, monadLift, MonadLift.monadLift]
  cases howner : g.nodes[owner]? with
  | none => exact .inl ⟨_, rfl⟩
  | some ownerNode =>
    simp only [pure, EStateM.pure]
    cases hk : ownerNode.kind with
    | compound structureKind =>
      dsimp only
      cases hadmitted : g.admitsBorder owner structureKind kind with
      | error fault => exact .inl ⟨_, rfl⟩
      | ok admitted =>
        cases admitted with
        | false => exact .inl ⟨_, rfl⟩
        | true =>
          refine .inr ⟨ownerNode, structureKind,
            if kind = .unwrapOptionTunnel then ownerNode.bodies else [], rfl, hk, hadmitted, ?_⟩
          have hports := addBorderPorts_eq g owner ownerNode kind howner
          change EStateM.Result.ok g.nodes.size _ = _
          rw [hports]
          split
          · rw [nodes_makeConditional]
            exact congrArg _ (makeConditional_nodes ..)
          · rfl
    | _ => exact .inl ⟨_, rfl⟩

/-! ## What building keeps -/

section

variable (h : g.Consistent)
include h

theorem Consistent.of_new_ports (hwires : g'.wires = g.wires)
    (hold : ∀ id : PortId, id < g.ports.size → g'.ports[id]? = g.ports[id]?)
    (hnew : ∀ (id : PortId) (port : Port), g.ports.size ≤ id →
      g'.ports[id]? = some port → port.wire = none) :
    g'.Consistent ∧ ∀ x, g'.sinksAt x = g.sinksAt x := by
  -- every port on a wire was there before
  have hsource : ∀ {w : WireId} {wire : Wire}, g.wires[w]? = some wire →
      wire.source < g.ports.size := by
    intro w wire hwire
    obtain ⟨port, hport, -⟩ := h.source hwire
    exact lt_size_of_port hport
  have hsink : ∀ {w : WireId} {wire : Wire} {id : PortId}, g.wires[w]? = some wire →
      id ∈ wire.sinks → id < g.ports.size := by
    intro w wire id hwire hm
    obtain ⟨port, hport, -⟩ := h.sink hwire hm
    exact lt_size_of_port hport
  have hconsistent : g'.Consistent := by
    refine ⟨?_, ?_, ?_, ?_, ?_⟩
    · intro id port hport hdirection w
      rw [hwires]
      by_cases hlt : id < g.ports.size
      · rw [hold id hlt] at hport
        exact h.output hport hdirection w
      · rw [hnew id port (Nat.le_of_not_lt hlt) hport]
        refine ⟨nofun, ?_⟩
        rintro ⟨wire, hwire, rfl, -⟩
        exact absurd (hsource hwire) hlt
    · intro id port hport hdirection w
      rw [hwires]
      by_cases hlt : id < g.ports.size
      · rw [hold id hlt] at hport
        exact h.input hport hdirection w
      · rw [hnew id port (Nat.le_of_not_lt hlt) hport]
        refine ⟨nofun, ?_⟩
        rintro ⟨wire, hwire, hm⟩
        exact absurd (hsink hwire hm) hlt
    · intro w wire hwire
      rw [hwires] at hwire
      exact h.nodup hwire
    · intro w wire hwire
      rw [hwires] at hwire
      rw [hold _ (hsource hwire)]
      exact h.source hwire
    · intro w wire id hwire hm
      rw [hwires] at hwire
      rw [hold _ (hsink hwire hm)]
      exact h.sink hwire hm
  exact ⟨hconsistent, fun x => h.sinksAt_congr hconsistent fun w wire _ => by rw [hwires]⟩

theorem Consistent.attach (node : Node) (inputs outputs : List ScopeId)
    (hwires : g'.wires = g.wires) (hports : g'.ports = (g.attach node inputs outputs).ports) :
    g'.Consistent ∧ ∀ x, g'.sinksAt x = g.sinksAt x := by
  refine h.of_new_ports hwires ?_ ?_
  · intro id hlt
    rw [hports, getElem?_ports_attach_of_lt hlt]
  · intro id port hle hport
    obtain ⟨k, rfl⟩ := Nat.exists_eq_add_of_le hle
    rw [hports, getElem?_ports_attach] at hport
    split at hport
    · obtain ⟨scope, -, rfl⟩ := Option.map_eq_some_iff.mp hport
      rfl
    · obtain ⟨scope, -, rfl⟩ := Option.map_eq_some_iff.mp hport
      rfl

theorem Consistent.settle (node : Node) (count : Nat) (body : Scope) :
    (g.settle node count body).Consistent ∧
      ∀ x, (g.settle node count body).sinksAt x = g.sinksAt x := by
  refine h.attach node (g.faced node .input) (g.faced node .output) ?_ ?_
  · exact wires_attach
  · simp only [Graph.settle, placeNode, attach_eq]

theorem Consistent.leaves_addNode (scope : ScopeId) (kind : NodeKind) (inserted : Bool) :
    (leaves (Graph.addNode scope kind inserted) g).Consistent := by
  rcases addNode_cases g scope kind inserted with ⟨fault, hrun⟩ | ⟨-, -, hrun⟩
  · rw [leaves, hrun]
    exact h
  · rw [leaves, hrun]
    exact (h.settle ..).1

theorem Consistent.leaves_addStructure (scope : ScopeId) (kind : StructureKind) :
    (leaves (Graph.addStructure scope kind) g).Consistent := by
  rcases addStructure_cases g scope kind with ⟨fault, hrun⟩ | ⟨-, body, -, -, -, hrun⟩
  · rw [leaves, hrun]
    exact h
  · rw [leaves, hrun]
    exact (h.settle ..).1

theorem Consistent.leaves_addBorder (owner : NodeId) (kind : BorderKind) :
    (leaves (Graph.addBorder owner kind) g).Consistent := by
  rcases addBorder_cases g owner kind with
    ⟨fault, hrun⟩ | ⟨ownerNode, structureKind, marked, -, -, -, hrun⟩
  · rw [leaves, hrun]
    exact h
  · rw [leaves, hrun]
    obtain ⟨scopes, heq, -⟩ := makeConditional_eq
      (g.fasten owner { scope := ownerNode.scope, kind := .border owner kind }) marked
    rw [heq]
    apply And.left
    apply h.attach { scope := ownerNode.scope, kind := .border owner kind }
      (g.faced { scope := ownerNode.scope, kind := .border owner kind } .input)
      (g.faced { scope := ownerNode.scope, kind := .border owner kind } .output)
    · exact wires_attach
    · rfl

theorem Consistent.leaves_connect (source sink : PortId) :
    (leaves (Graph.connect source sink) g).Consistent := by
  rcases h.connect_cases source sink with ⟨fault, hrun⟩ | ⟨w, g', hrun, hjoined⟩
  · rw [leaves, hrun]
    exact h
  · rw [leaves, hrun]
    exact hjoined.consistent

end

theorem consistent_empty : Graph.empty.Consistent :=
  ⟨nofun, nofun, nofun, nofun, nofun⟩

theorem Built.consistent (h : Built g) : g.Consistent := by
  induction h with
  | empty => exact consistent_empty
  | addNode _ scope kind ih => exact ih.leaves_addNode ..
  | addStructure _ scope kind ih => exact ih.leaves_addStructure ..
  | addBorder _ owner kind ih => exact ih.leaves_addBorder ..
  | connect _ source sink ih => exact ih.leaves_connect ..
  | disconnect _ hport hinput ih =>
    obtain ⟨source, g', hrun, -, hconsistent⟩ := ih.disconnect hport hinput
    rw [leaves, hrun]
    exact hconsistent

theorem wellFormed_empty : Graph.empty.WellFormed where
  seated := ⟨nofun, nofun, nofun⟩
  nested := by
    refine ⟨Nat.zero_lt_one, nofun, ?_, nofun, nofun, ?_⟩
    · intro s scope n hs hm
      have hlt := (Array.getElem?_eq_some_iff.mp hs).1
      obtain rfl := Nat.lt_one_iff.mp hlt
      cases Option.some.inj hs
      cases hm
    · intro s hs hroot
      exact absurd (Nat.lt_one_iff.mp hs) hroot

theorem Built.wellFormed (h : Built g) : g.WellFormed := by
  induction h with
  | empty => exact wellFormed_empty
  | @addNode g _ scope kind ih =>
    rcases addNode_cases g scope kind false with ⟨fault, hrun⟩ | ⟨hlt, hk, hrun⟩
    · rw [leaves, hrun]
      exact ih
    · rw [leaves, hrun]
      exact ih.settle hlt hk rfl rfl rfl rfl
  | @addStructure g _ scope kind ih =>
    rcases addStructure_cases g scope kind with ⟨fault, hrun⟩ | ⟨hlt, body, hbody, -, -, hrun⟩
    · rw [leaves, hrun]
      exact ih
    · rw [leaves, hrun]
      exact ih.settle hlt rfl rfl rfl rfl hbody
  | @addBorder g _ owner kind ih =>
    rcases addBorder_cases g owner kind with
      ⟨fault, hrun⟩ | ⟨ownerNode, structureKind, marked, howner, hk, -, hrun⟩
    · rw [leaves, hrun]
      exact ih
    · rw [leaves, hrun]
      obtain ⟨scopes, heq, hscopes⟩ := makeConditional_eq
        (g.fasten owner { scope := ownerNode.scope, kind := .border owner kind }) marked
      rw [heq]
      exact (ih.fasten howner hk).of_scopes hscopes
  | @connect g h source sink ih =>
    rcases h.consistent.connect_cases source sink with ⟨fault, hrun⟩ | ⟨w, g', hrun, hjoined⟩
    · rw [leaves, hrun]
      exact ih
    · rw [leaves, hrun]
      exact ih.of_sameLayout hjoined.layout
  | @disconnect g h sink port hport hinput ih =>
    obtain ⟨source, g', hrun, hlayout, -⟩ := h.consistent.disconnect hport hinput
    rw [leaves, hrun]
    exact ih.of_sameLayout hlayout

end Graph

end BorrowFlow
