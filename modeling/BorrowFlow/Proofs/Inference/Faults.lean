import BorrowFlow.Proofs.Inference.Atomicity
import BorrowFlow.Proofs.Inference.Furnishing

/-!
# When inference fails

On a graph that was built step by step, inference fails in four cases and in no others: the graph
has a cycle, a node that ends a lifetime, a signature that is not valid, or a borrow that cannot
end. The first three are found while the ports are faced, and the last one while borrows are
inserted. Unifying the wires never fails.
-/

namespace BorrowFlow

variable {g : Graph}

/-! ## Graphs that are refused -/

namespace Graph

/-- Whether the graph has a cycle, a node that ends a lifetime, or a signature that is not valid. -/
inductive Refused (g : Graph) : Prop
  | cycle {scope : ScopeId} {node : NodeId}
    (h : g.visitOrder = .error (.dataflowCycle scope node))
  | termination {n : NodeId} {node : Node} {inputs outputs : Nat}
    (hnode : g.nodes[n]? = some node) (hkind : node.kind = .terminateLifetime inputs outputs)
  | signature {n : NodeId} {node : Node} {signature : Signature}
    (hnode : g.nodes[n]? = some node) (hkind : node.kind = .functional signature)
    (h : ¬signature.Valid)

theorem refused_iff_not_accepted (hw : g.WellFormed) (hc : g.Consistent) :
    g.Refused ↔ ¬g.Accepted := by
  constructor
  · rintro (h | ⟨hnode, hk⟩ | ⟨hnode, hk, hinvalid⟩) ⟨⟨order, hord⟩, hadmitted⟩
    · cases hord.symm.trans h
    · have h := hadmitted _ _ hnode
      rw [hk] at h
      exact h
    · have h := hadmitted _ _ hnode
      rw [hk] at h
      exact hinvalid h
  · intro h
    by_contra hrefused
    apply h
    constructor
    · cases hord : g.visitOrder with
      | ok order => exact ⟨order, rfl⟩
      | error fault =>
        obtain ⟨scope, node, rfl⟩ := hw.of_visitOrder_eq_error hc hord
        exact absurd (.cycle hord) hrefused
    · intro n node hnode
      cases hk : node.kind with
      | functional signature =>
        by_contra hinvalid
        exact hrefused (.signature hnode hk hinvalid)
      | terminateLifetime inputs outputs => exact absurd (.termination hnode hk) hrefused
      | constant | explicitBorrow | drop | compound | border => trivial

theorem Assembled.furnished {facades : Facades} {groups : BorrowGroups}
    (h : g.Assembled facades groups) : g.Furnished g facades where
  scopes := Nat.le_refl _
  __ := h
  vacant hbase hpasses _ := by
    obtain ⟨node, hnode, -⟩ := hpasses
    exact absurd (lt_size_of_node hnode) (Nat.not_lt_of_le hbase)

end Graph

/-! ## The passes -/

namespace Run

variable {config : Config}

/-- What is known once the ports are faced. -/
structure Faced (g : Graph) (state : Inference) : Prop where
  graph_eq : state.graph = g
  phase : state.phase = .facadesConstructed
  accepted : g.Accepted
  stands : state.context.Stands False g.Arranged
  awaits : g.Awaits g.Assembled [] state.context
  order : g.visitOrder = .ok state.context.order

theorem meets_facePorts (hw : g.WellFormed) (hc : g.Consistent) (hl : g.Layered) :
    Meets facePorts { config, graph := g } (fun _ state => Faced g state)
      fun fault _ => fault.kind = .compiler ∧ ¬g.Accepted := by
  apply Meets.bind
  apply meets_require
  · intro _
    apply Meets.bind
    apply meets_pass
    apply (Pass.meets_facePorts hw hc hl).mono
    · rintro _ _ ⟨haccepted, d, rfl, hr, hord, -⟩
      exact ⟨rfl, rfl, haccepted, hr.lawful.stands False.elim,
        hr.awaits.of_groups (hr.assembled hw), hord⟩
    · exact fun _ _ hfailed => hfailed
  · intro hphase
    exact absurd rfl hphase

/-- What is known once every group has been decided. -/
structure Decided (g : Graph) (state : Inference) : Prop where
  graph_eq : state.graph = g
  phase : state.phase = .edgesUnified
  accepted : g.Accepted
  ready : state.context.Ready False g
  awaits : g.Awaits g.Assembled [] state.context
  rendered : state.context.Rendered

theorem meets_unifyWires (hw : g.WellFormed) (hc : g.Consistent) (hl : g.Layered)
    {state : Inference} (h : Faced g state) :
    Meets unifyWires state (fun _ state' => Decided g state') fun _ _ => False := by
  obtain ⟨rfl, hphase, haccepted, hstands, hawaits, hord⟩ := h
  apply Meets.bind
  apply meets_require
  · intro _
    apply Meets.bind
    apply meets_pass
    apply ((Pass.meets_unifyWires hw hc hl hawaits hord).and
      (Pass.ends_unifyWires hw hc hstands hord)).mono
    · rintro _ ctx ⟨hawaits', hunified, hrendered⟩
      exact ⟨rfl, rfl, haccepted, hunified.ready hc hstands.kept hrendered, hawaits', hrendered⟩
    · exact fun _ _ hfailed => hfailed.1
  · intro ho
    exact absurd hphase ho

theorem meets_decideGroups (hw : g.WellFormed) (hc : g.Consistent) (hl : g.Layered) :
    Meets decideGroups { config, graph := g } (fun _ state => Decided g state)
      fun fault _ => fault.kind = .compiler ∧ ¬g.Accepted := by
  apply Meets.bind
  apply (meets_facePorts hw hc hl).mono
  · intro _ state hfaced
    exact (meets_unifyWires hw hc hl hfaced).mono (fun _ _ h => h) fun _ _ => False.elim
  · exact fun _ _ hfailed => hfailed

theorem meets_insertBorrows (hw : g.WellFormed) (hc : g.Consistent) {state : Inference}
    (h : Decided g state) :
    Meets (do insertBorrows; report) state
      (fun _ _ => ∀ group ∈ state.context.groups.groups.toList, ¬group.CannotEnd g)
      fun fault _ => fault.kind = .lifetimeTermination ∧
        ∃ group ∈ state.context.groups.groups.toList, group.CannotEnd g := by
  obtain ⟨rfl, hphase, ⟨⟨order, hord⟩, -⟩, hready, hawaits⟩ := h
  have hassembled := hawaits.kept
  have hgroups : ∀ group ∈ state.context.groups.groups.toList,
      group.scope < state.graph.scopes.size ∧ ∃ host, group.Fits state.graph host := by
    intro group hgroup
    obtain ⟨id, hid⟩ := Array.mem_iff_getElem?.mp (Array.mem_toList_iff.mp hgroup)
    exact ⟨hassembled.scope id group hid, _, (hready.placed id group hid).fits⟩
  have hrefined : state.graph.Refined state.graph := ⟨.refl hw hc, hw.exists_ranks hc hord⟩
  have hinsert : Meets (Insertion.insertBorrows state.config)
      { graph := state.graph, context := state.context } _ _ :=
    Insertion.meets_insertBorrows_uneven hassembled.furnished hc state.config hgroups hrefined
  apply Meets.bind
  apply Meets.bind
  apply meets_require
  · intro _
    apply Meets.bind
    apply meets_changing
    apply hinsert.mono
    · exact fun _ _ hends => hends
    · exact fun _ _ hfailed => hfailed
  · intro ho
    exact absurd hphase ho

end Run

/-! ## The whole run -/

/-- How inference of a graph can end, given what has been decided if it gets that far. -/
inductive Graph.Outcome (g : Graph) (decided : Option Context) : Option ErrorKind → Prop
  | refused (h : g.Refused) : Outcome g decided (some .compiler)
  | stuck {ctx : Context} (h : ¬g.Refused) (hdecided : decided = some ctx)
    (hcannot : ∃ group ∈ ctx.groups.groups.toList, group.CannotEnd g) :
    Outcome g decided (some .lifetimeTermination)
  | finished {ctx : Context} (h : ¬g.Refused) (hdecided : decided = some ctx)
    (hends : ∀ group ∈ ctx.groups.groups.toList, ¬group.CannotEnd g) :
    Outcome g decided none

theorem Run.meets_all (hb : g.Built) (config : Config) :
    Meets all { config, graph := g } (fun _ _ => g.Outcome (Inference.decided? config g) none)
      fun fault _ => g.Outcome (Inference.decided? config g) (some fault.kind) := by
  have hw := hb.wellFormed
  have hc := hb.consistent
  have hrefused := Graph.refused_iff_not_accepted hw hc
  have hdecide : Meets decideGroups { config, graph := g } _ _ :=
    meets_decideGroups hw hc hb.layered
  rw [all_eq]
  apply Meets.bind
  unfold Inference.decided?
  cases hrun : decideGroups { config, graph := g } with
  | error fault state =>
    obtain ⟨hk, hfailed⟩ := hdecide.of_eq_error hrun
    apply Meets.of_error hrun
    rw [hk]
    exact .refused (hrefused.mpr hfailed)
  | ok _ state =>
    have hdecided := hdecide.of_eq_ok hrun
    have haccepted : ¬g.Refused := fun h => hrefused.mp h hdecided.accepted
    apply Meets.of_ok hrun
    apply (meets_insertBorrows hw hc hdecided).mono
    · intro _ _ hends
      exact .finished haccepted rfl hends
    · rintro fault _ ⟨hk, hcannot⟩
      rw [hk]
      exact .stuck haccepted rfl hcannot

theorem Graph.Built.outcome (hb : g.Built) (config : Config) :
    g.Outcome (Inference.decided? config g) (failure? (infer config g).1) := by
  have hall := Run.meets_all hb config
  unfold infer
  cases hrun : Run.all { config, graph := g } with
  | ok report state => exact hall.of_eq_ok hrun
  | error fault state => exact hall.of_eq_error hrun

/-- Inference fails with a compiler error on a graph that it refuses, and with an error about the
end of a lifetime if it decides on a borrow that cannot end. It does not fail otherwise, and the
wires can be unified whenever the ports were faced. -/
theorem Graph.Built.infer_fails_iff {graph : Graph} (hbuilt : graph.Built) (config : Config) :
    (failure? (infer config graph).1 = some .compiler ↔ graph.Refused) ∧
    (failure? (infer config graph).1 = some .lifetimeTermination ↔
      ¬graph.Refused ∧ ∃ context, Inference.decided? config graph = some context ∧
        ∃ group ∈ context.groups.groups.toList, group.CannotEnd graph) ∧
    (failure? (infer config graph).1 = none ↔
      ¬graph.Refused ∧ ∃ context, Inference.decided? config graph = some context ∧
        ∀ group ∈ context.groups.groups.toList, ¬group.CannotEnd graph) ∧
    ∀ faced, Run.facePorts { config, graph } = .ok () faced →
      ∃ unified, Run.unifyWires faced = .ok () unified := by
  have hw := hbuilt.wellFormed
  have hc := hbuilt.consistent
  have hl := hbuilt.layered
  have houtcome := hbuilt.outcome config
  rw [← and_assoc, ← and_assoc]
  constructor
  · generalize failure? (infer config graph).1 = failure at houtcome ⊢
    cases houtcome with
    | refused h => simp [h]
    | stuck h hdecided hcannot => simpa [h, hdecided] using hcannot
    | finished h hdecided hends => simpa [h, hdecided] using hends
  · intro faced hrun
    have hfaced := (Run.meets_facePorts hw hc hl).of_eq_ok hrun
    have hunify := Run.meets_unifyWires hw hc hl hfaced
    cases hunified : Run.unifyWires faced with
    | ok _ unified => exact ⟨unified, rfl⟩
    | error fault unified => exact (hunify.of_eq_error hunified).elim

theorem Graph.infer_fails_iff_halfHandedBack : halfHandedBack.Built ∧
    failure? (infer {} halfHandedBack).1 = some .lifetimeTermination ∧ ¬halfHandedBack.Refused ∧
      ∃ context, Inference.decided? {} halfHandedBack = some context ∧
        ∃ group ∈ context.groups.groups.toList, group.CannotEnd halfHandedBack := by
  have hbuilt : halfHandedBack.Built :=
    .connect (.connect (.connect (.addNode (.addNode (.addNode (.addNode .empty _ _) _ _) _ _) _ _)
      _ _) _ _) _ _
  have hfails : failure? (infer {} halfHandedBack).1 = some .lifetimeTermination := by
    decide +kernel
  exact ⟨hbuilt, hfails, (hbuilt.infer_fails_iff {}).2.1.mp hfails⟩

end BorrowFlow
