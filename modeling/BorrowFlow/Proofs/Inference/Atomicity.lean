import BorrowFlow.Proofs.Graph.Requests
import BorrowFlow.Proofs.Inference.Preservation

/-!
# When inference leaves the graph alone

The first two passes only read the graph. The third one goes from group to group and adds a borrow
node for each group that needs one; nodes are never taken away again. So inference leaves the graph
as it was if and only if no borrow node was added before it ended. A fault in a later group comes
too late: the borrows of the groups before it stay in the graph.
-/

namespace BorrowFlow

variable {group : BorrowGroup} {state : Inference} {mutable : Bool} {g : Graph}

/-! ## Groups that get a borrow node -/

/-- Whether a group gets a borrow node: it decided to borrow, some of its members have a wire, and
neither its pairing nor its scope is refused. -/
def BorrowGroup.opens (g : Graph) (group : BorrowGroup) : Except Fault Bool :=
  match group.decision with
  | some (.borrow ..) => do
    let wired ← group.wiredMembers g
    if wired.isEmpty then
      return false
    else
      let _ ← Insertion.pairedOutputs group.node wired
      let _ ← g.getScope group.scope
      return true
  | _ => return false

theorem BorrowGroup.opens_of_borrow {lifetime : Lifetime}
    (h : group.decision = some (.borrow mutable lifetime)) :
    group.opens g = do
      let wired ← group.wiredMembers g
      if wired.isEmpty then
        return false
      else
        let _ ← Insertion.pairedOutputs group.node wired
        let _ ← g.getScope group.scope
        return true := by
  unfold opens
  rw [h]

theorem BorrowGroup.opens_of_not_borrow
    (h : ∀ mutable lifetime, group.decision ≠ some (.borrow mutable lifetime)) :
    group.opens g = .ok false := by
  unfold opens
  split
  · rename_i mutable lifetime hdecision
    exact absurd hdecision (h mutable lifetime)
  · rfl

/-- The first group that gets a borrow node, unless a fault comes up before it does. -/
def Graph.firstOpened? (g : Graph) (groups : List BorrowGroup) : Option BorrowGroup :=
  match groups.findM? (·.opens g) with
  | .ok found => found
  | .error _ => none

theorem Graph.firstOpened?_cons (g : Graph) (group : BorrowGroup) (rest : List BorrowGroup) :
    g.firstOpened? (group :: rest) =
      match group.opens g with
      | .ok true => some group
      | .ok false => g.firstOpened? rest
      | .error _ => none := by
  unfold firstOpened?
  rw [List.findM?]
  cases group.opens g with
  | error fault => rfl
  | ok opened =>
    cases opened with
    | true => rfl
    | false => rfl

/-! ## Nodes are never taken away -/

namespace Graph

variable (g : Graph)

theorem nodes_leaves_connect (source sink : PortId) :
    (leaves (connect source sink) g).nodes = g.nodes :=
  (extends_connect g source sink).layout.nodes

theorem nodes_leaves_splice (sink throughInput throughOutput : PortId) :
    (leaves (splice sink throughInput throughOutput) g).nodes = g.nodes := by
  by_cases h : ∃ sinkPort inPort : Port, g.ports[sink]? = some sinkPort ∧
      g.ports[throughInput]? = some inPort ∧ sinkPort.wire ≠ none ∧ inPort.wire = none
  · obtain ⟨sinkPort, inPort, hsink, hin, hwired, hfree⟩ := h
    obtain ⟨w, hw⟩ := Option.ne_none_iff_exists'.mp hwired
    rw [leaves_splice hsink hw hin hfree, nodes_leaves_connect]
    rfl
  · rw [leaves_splice_of_refused h]

theorem nodes_leaves_spliceAfter (source throughInput throughOutput : PortId) :
    (leaves (spliceAfter source throughInput throughOutput) g).nodes = g.nodes := by
  by_cases h : ∃ sourcePort outPort : Port, g.ports[source]? = some sourcePort ∧
      g.ports[throughOutput]? = some outPort ∧ outPort.wire = none ∧
        outPort.scope = sourcePort.scope
  · obtain ⟨sourcePort, outPort, hsource, hout, hfree, hscope⟩ := h
    rw [leaves_spliceAfter hsource hout hfree hscope, nodes_leaves_connect]
    cases sourcePort.wire <;> rfl
  · rw [leaves_spliceAfter_of_refused h]

end Graph

namespace Insertion

variable {α β : Type} {n : Nat} {ws : Workspace}

/-- The graph never has fewer nodes than it is known to have. -/
def Widens (n : Nat) (x : Insertion α) : Prop :=
  ∀ ws : Workspace, n ≤ ws.graph.nodes.size → Ends x ws (fun _ ws' => n ≤ ws'.graph.nodes.size)
      fun ws' => n ≤ ws'.graph.nodes.size

theorem Widens.bind {x : Insertion α} {f : α → Insertion β} (hx : Widens n x)
    (hf : ∀ a, Widens n (f a)) : Widens n (x >>= f) := by
  intro ws h
  apply Ends.bind
  exact (hx ws h).mono (fun a ws' h' => hf a ws' h') fun _ h' => h'

theorem Widens.pure (a : α) : Widens n (Pure.pure a) :=
  fun _ h => h

theorem Widens.forM {items : List β} {body : β → Insertion PUnit}
    (h : ∀ item, Widens n (body item)) : Widens n (items.forM body) := by
  intro ws hle
  exact Ends.forM (fun _ ws' => n ≤ ws'.graph.nodes.size) hle
    (fun item _ ws' hle' => h item ws' hle') fun _ hle' => hle'

theorem Widens.askGraph (query : Graph → Except Fault α) : Widens n (askGraph query) :=
  fun _ h => ends_askGraph (fun _ _ => h) h

theorem Widens.lift (answer : Except Fault α) : Widens n (liftM answer : Insertion α) :=
  fun _ h => Ends.lift (fun _ _ => h) h

theorem Widens.infer (pass : Pass α) : Widens n (infer pass) := by
  intro ws h
  apply ends_infer
  cases hrun : pass ws.context with
  | ok a ctx => exact Ends.of_ok hrun h
  | error fault ctx => exact Ends.of_error hrun h

theorem Widens.edit {change : Edit α} (hchange : ∀ g, g.nodes.size ≤ (leaves change g).nodes.size) :
    Widens n (edit change) := by
  intro ws h
  have hle := Nat.le_trans h (hchange ws.graph)
  unfold leaves at hle
  apply ends_edit
  cases hrun : change ws.graph with
  | ok a g =>
    rw [hrun] at hle
    exact Ends.of_ok hrun hle
  | error fault g =>
    rw [hrun] at hle
    exact Ends.of_error hrun hle

theorem Widens.addNode (scope : ScopeId) (kind : NodeKind) :
    Widens n (Insertion.edit (Graph.addNode scope kind true)) := by
  apply Widens.edit
  intro g
  rcases Graph.addNode_cases g scope kind true with ⟨fault, hrun⟩ | ⟨-, -, hrun⟩
  · rw [leaves, hrun]
  · rw [leaves, hrun]
    simp [Graph.settle, Graph.placeNode, Graph.attach_eq]

theorem widens_borrowMember (borrow : NodeId) (index : Nat) (member : GroupMember) :
    Widens n (borrowMember borrow index member) := by
  refine .bind (.askGraph _) fun input => .bind (.askGraph _) fun output => .bind ?_ fun _ => ?_
  · exact .edit fun g => Nat.le_of_eq (by rw [Graph.nodes_leaves_splice])
  · exact .bind (.infer _) fun facade => .bind (.infer _) fun _ => .infer _

theorem widens_insertBorrow (scope : ScopeId) (mutable : Bool) (wired : List GroupMember) :
    Widens n (insertBorrow scope mutable wired) :=
  .bind (.addNode _ _) fun _ => .bind (.forM fun _ => widens_borrowMember _ _ _) fun _ => .infer _

theorem widens_dropValue (scope : ScopeId) (output : PortId) (flow : FlowId) :
    Widens n (dropValue scope output flow) := by
  refine .bind (.addNode _ _) fun drop => .bind (.askGraph _) fun input => .bind ?_ fun _ => ?_
  · exact .edit fun g => Nat.le_of_eq (by rw [Graph.nodes_leaves_connect])
  · exact .bind (.infer _) fun _ => .infer _

theorem widens_terminateReference (config : Config) (scope : ScopeId) (terminate : NodeId)
    (index : Nat) (reference : PortId) :
    Widens n (terminateReference config scope terminate index reference) := by
  refine .bind (.infer _) fun handedBack => .bind (.infer _) fun collapsed =>
    .bind (.infer _) fun _ => .bind (.askGraph _) fun wiredOnward =>
      .bind (.askGraph _) fun input => .bind (.askGraph _) fun output => .bind ?_ fun _ =>
        .bind (.infer _) fun _ => .bind (.infer _) fun _ => ?_
  · exact .edit fun g => Nat.le_of_eq (by rw [Graph.nodes_leaves_spliceAfter])
  · split
    · exact widens_dropValue _ _ _
    · exact .pure _

theorem widens_insertTermination (config : Config) (scope : ScopeId) (paired : List PortId) :
    Widens n (insertTermination config scope paired) :=
  .bind (.addNode _ _) fun _ =>
    .bind (.forM fun _ => widens_terminateReference _ _ _ _ _) fun _ => .infer _

theorem widens_insertGroup (config : Config) (group : BorrowGroup) (mutable : Bool) :
    Widens n (insertGroup config group mutable) := by
  refine .bind (.askGraph _) fun wired => ?_
  split
  · refine .bind (.lift _) fun paired => .bind (widens_insertBorrow _ _ _) fun _ => ?_
    split
    · exact widens_insertTermination _ _ _
    · exact .pure _
  · exact .pure _

/-! ## The third pass -/

theorem meets_insertBorrow {scope : ScopeId} {wired : List GroupMember} :
    Meets (insertBorrow scope mutable wired) ws
      (fun _ ws' => (∃ data, ws.graph.getScope scope = .ok data) ∧
        ws.graph.nodes.size < ws'.graph.nodes.size)
      fun fault ws' => (∃ data, ws.graph.getScope scope = .ok data) ∧
          ws.graph.nodes.size < ws'.graph.nodes.size ∨
        ws.graph.getScope scope = .error fault ∧ ws'.graph = ws.graph := by
  have hrun := Graph.addNode_eq ws.graph scope (.explicitBorrow mutable wired.length) true
  apply Meets.bind
  apply meets_edit
  unfold Graph.getScope
  cases hscope : ws.graph.scopes[scope]? with
  | none =>
    rw [hscope] at hrun
    exact Meets.of_error hrun (.inr ⟨rfl, rfl⟩)
  | some data =>
    rw [hscope] at hrun
    apply Meets.of_ok hrun
    have hrest : Widens (ws.graph.nodes.size + 1) (do
        wired.zipIdx.forM fun item => borrowMember ws.graph.nodes.size item.2 item.1
        count fun stats => { stats with borrowsInserted := stats.borrowsInserted + 1 }) :=
      .bind (.forM fun item => widens_borrowMember _ _ _) fun _ => .infer _
    apply Meets.mono (hrest _ ?_)
    · intro _ _ hlt
      exact ⟨⟨data, rfl⟩, hlt⟩
    · intro _ _ hlt
      exact .inl ⟨⟨data, rfl⟩, hlt⟩
    · simp [Graph.placeNode, Graph.attach_eq]

theorem meets_insertGroup {config : Config} {lifetime : Lifetime}
    (hdecision : group.decision = some (.borrow mutable lifetime)) :
    Meets (insertGroup config group mutable) ws (fun _ ws' => group.opens ws.graph = .ok true ∧
          ws.graph.nodes.size < ws'.graph.nodes.size ∨
        group.opens ws.graph = .ok false ∧ ws'.graph = ws.graph)
      fun fault ws' => group.opens ws.graph = .ok true ∧
          ws.graph.nodes.size < ws'.graph.nodes.size ∨
        group.opens ws.graph = .error fault ∧ ws'.graph = ws.graph := by
  have hopens : group.opens ws.graph = _ := BorrowGroup.opens_of_borrow hdecision
  apply Meets.bind
  apply meets_askGraph
  · intro wired hwired
    rw [hwired] at hopens
    change group.opens ws.graph = if wired.isEmpty then _ else _ at hopens
    split
    · rename_i hsome
      have hempty : wired.isEmpty = false := by simpa using hsome
      rw [hempty] at hopens
      apply Meets.bind
      apply Meets.lift
      · intro paired hpaired
        rw [hpaired] at hopens
        apply Meets.bind
        apply meets_insertBorrow.mono
        · rintro _ ws' ⟨⟨data, hd⟩, hlt⟩
          rw [hd] at hopens
          have hrest : Widens (ws.graph.nodes.size + 1)
              (if !paired.isEmpty then insertTermination config group.scope paired
                else Pure.pure PUnit.unit) := by
            split
            · exact widens_insertTermination _ _ _
            · exact .pure _
          apply Meets.mono (hrest ws' hlt)
          · exact fun _ _ hlt' => .inl ⟨hopens, hlt'⟩
          · exact fun _ _ hlt' => .inl ⟨hopens, hlt'⟩
        · rintro fault ws' (⟨⟨data, hd⟩, hlt⟩ | ⟨hfault, hsame⟩)
          · rw [hd] at hopens
            exact .inl ⟨hopens, hlt⟩
          · rw [hfault] at hopens
            exact .inr ⟨hopens, hsame⟩
      · intro fault hfault
        refine .inr ⟨?_, rfl⟩
        rw [hopens, hfault]
        rfl
    · rename_i hnone
      have hempty : wired.isEmpty = true := by simpa using hnone
      rw [hempty] at hopens
      exact .inr ⟨hopens, rfl⟩
  · intro fault hfault
    refine .inr ⟨?_, rfl⟩
    rw [hopens, hfault]
    rfl

def Touched (g : Graph) (opened : Option BorrowGroup) (ws : Workspace) : Prop :=
  opened = none ∧ ws.graph = g ∨ opened ≠ none ∧ g.nodes.size < ws.graph.nodes.size

theorem Touched.graph_eq_iff {opened : Option BorrowGroup} (h : Touched g opened ws) :
    ws.graph = g ↔ opened = none := by
  rcases h with ⟨hnone, hsame⟩ | ⟨hsome, hlt⟩
  · exact iff_of_true hsame hnone
  · refine iff_of_false ?_ hsome
    rintro rfl
    exact Nat.lt_irrefl _ hlt

def handleGroup (config : Config) (group : BorrowGroup) : Insertion Unit :=
  match group.decision with
  | some (.borrow mutable _) => insertGroup config group mutable
  | _ => pure ()

theorem widens_handleGroup (config : Config) (group : BorrowGroup) :
    Widens n (handleGroup config group) := by
  unfold handleGroup
  split
  · exact widens_insertGroup _ _ _
  · exact .pure _

theorem meets_handleGroup (config : Config) (group : BorrowGroup) :
    Meets (handleGroup config group) ws (fun _ ws' => group.opens ws.graph = .ok true ∧
          ws.graph.nodes.size < ws'.graph.nodes.size ∨
        group.opens ws.graph = .ok false ∧ ws'.graph = ws.graph)
      fun fault ws' => group.opens ws.graph = .ok true ∧
          ws.graph.nodes.size < ws'.graph.nodes.size ∨
        group.opens ws.graph = .error fault ∧ ws'.graph = ws.graph := by
  unfold handleGroup
  split
  · rename_i mutable lifetime hdecision
    exact meets_insertGroup hdecision
  · rename_i ho
    exact .inr ⟨BorrowGroup.opens_of_not_borrow ho, rfl⟩

theorem ends_handleGroups (config : Config) (groups : List BorrowGroup) :
    Ends (groups.forM (handleGroup config)) ws
      (fun _ => Touched ws.graph (ws.graph.firstOpened? groups))
      (Touched ws.graph (ws.graph.firstOpened? groups)) := by
  induction groups generalizing ws with
  | nil => exact .inl ⟨rfl, rfl⟩
  | cons group rest ih =>
    rw [Graph.firstOpened?_cons]
    apply Ends.bind
    apply (meets_handleGroup config group).mono
    · rintro _ ws' (⟨hopens, hlt⟩ | ⟨hopens, hsame⟩)
      · rw [hopens]
        apply Ends.mono (Widens.forM (fun other => widens_handleGroup config other) ws' hlt)
        · exact fun _ _ hlt' => .inr ⟨nofun, hlt'⟩
        · exact fun _ hlt' => .inr ⟨nofun, hlt'⟩
      · rw [hopens, ← hsame]
        exact ih
    · rintro fault ws' (⟨hopens, hlt⟩ | ⟨hopens, hsame⟩)
      · rw [hopens]
        exact .inr ⟨nofun, hlt⟩
      · rw [hopens]
        exact .inl ⟨rfl, hsame⟩

theorem ends_insertBorrows_touched (config : Config) : Ends (insertBorrows config) ws
      (fun _ => Touched ws.graph (ws.graph.firstOpened? ws.context.groups.groups.toList))
      (Touched ws.graph (ws.graph.firstOpened? ws.context.groups.groups.toList)) := by
  apply Ends.bind
  exact ends_handleGroups config _

end Insertion

/-! ## The whole run -/

namespace Run

/-- The passes up to the one that decides every group. -/
def decideGroups : Run Unit := do
  facePorts
  unifyWires

theorem all_eq : all = (do decideGroups; insertBorrows; report) := by
  simp [all, decideGroups]

theorem ends_reading {step : Step} {run : Config → Graph → Pass Unit} {phase : Phase} : Ends (do
        require step
        pass run
        enter phase) state
      (fun _ state' => state'.graph = state.graph ∧ state'.phase = phase ∧
        state'.config = state.config)
      fun state' => state'.graph = state.graph := by
  apply Ends.bind
  refine ends_require ?_ ?_
  · apply Ends.bind
    apply ends_pass
    cases hrun : run state.config state.graph state.context with
    | ok _ ctx => exact Ends.of_ok hrun ⟨rfl, rfl, rfl⟩
    | error fault ctx => exact Ends.of_error hrun rfl
  · rfl

theorem ends_decideGroups : Ends decideGroups state
      (fun _ state' => state'.graph = state.graph ∧ state'.phase = .edgesUnified ∧
        state'.config = state.config)
      fun state' => state'.graph = state.graph := by
  apply Ends.bind
  apply ends_reading.mono
  · rintro _ faced ⟨hgraph, -, hconfig⟩
    rw [← hgraph, ← hconfig]
    exact ends_reading
  · exact fun _ hgraph => hgraph

theorem ends_insertBorrows_touched (hphase : state.phase = .edgesUnified) :
    Ends (do insertBorrows; report) state
      (fun _ state' => state'.graph = state.graph ↔
        state.graph.firstOpened? state.context.groups.groups.toList = none)
      fun state' => state'.graph = state.graph ↔
        state.graph.firstOpened? state.context.groups.groups.toList = none := by
  apply Ends.bind
  apply Ends.bind
  apply meets_require
  · intro _
    apply Ends.bind
    apply ends_changing
    apply (Insertion.ends_insertBorrows_touched state.config).mono
    · intro _ ws htouched
      have hgraph := htouched.graph_eq_iff
      exact ends_enter (ends_report hgraph hgraph)
    · intro ws htouched
      exact htouched.graph_eq_iff
  · intro ho
    exact absurd hphase ho

end Run

/-- What is known once every group has been decided, if inference gets that far. -/
def Inference.decided? (config : Config) (g : Graph) : Option Context :=
  match Run.decideGroups { config, graph := g } with
  | .ok _ state => some state.context
  | .error .. => none

def failure? : Except Fault Report → Option ErrorKind
  | .ok _ => none
  | .error fault => some fault.kind

theorem infer_snd (config : Config) (g : Graph) :
    (infer config g).2 = (leaves Run.all { config, graph := g }).graph := by
  unfold infer leaves
  cases Run.all { config, graph := g } <;> rfl

/-- Inference leaves the graph alone, whether it fails or not, if and only if it ends before any
group gets a borrow node. -/
theorem infer_graph_eq_iff (config : Config) (graph : Graph) :
    (infer config graph).2 = graph ↔ ∀ context, Inference.decided? config graph = some context →
      graph.firstOpened? context.groups.groups.toList = none := by
  rw [infer_snd, Run.all_eq]
  refine Ends.leaves (p := fun state : Inference => state.graph = graph ↔ _) ?_
  apply Ends.bind
  unfold Inference.decided?
  cases hrun : Run.decideGroups { config, graph } with
  | error fault state =>
    have hgraph := Run.ends_decideGroups.of_eq_error hrun
    apply Ends.of_error hrun
    simp [hgraph]
  | ok _ state =>
    obtain ⟨hgraph, hphase, -⟩ := Run.ends_decideGroups.of_eq_ok hrun
    apply Ends.of_ok hrun
    have htouched := Run.ends_insertBorrows_touched hphase
    rw [show state.graph = graph from hgraph] at htouched
    simpa using htouched

/-- Borrows two numbers together, and hands back only one of them. -/
def handBackOne : Signature where
  name := "hand_back_one"
  parameters :=
    [{ name := "kept", direction := .input, type := .reference .immutable 0 (.concrete .int32) },
      { name := "taken", direction := .input, type := .reference .immutable 0 (.concrete .int32) },
      { name := "back", direction := .output, type := .reference .immutable 0 (.concrete .int32),
        pairsWith := some 0 }]

/-- A number that is borrowed and only half handed back, next to one that is incremented. -/
def Graph.halfHandedBack : Graph :=
  leaves (connect 4 5) (leaves (connect 0 2) (leaves (connect 0 1)
    (leaves (addNode rootScope (.functional .increment) false)
      (leaves (addNode rootScope (.constant .int32 true) false)
        (leaves (addNode rootScope (.functional handBackOne) false)
          (leaves (addNode rootScope (.constant .int32 false) false) empty))))))

/-- The increment is borrowed for, and then the other borrow turns out not to end. -/
theorem infer_halfHandedBack :
    failure? (infer {} Graph.halfHandedBack).1 = some .lifetimeTermination ∧
      (infer {} Graph.halfHandedBack).2 ≠ Graph.halfHandedBack := by
  decide +kernel

end BorrowFlow
