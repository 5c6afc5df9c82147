import BorrowFlow.Inference.Run
import BorrowFlow.Proofs.Inference.Settling
import BorrowFlow.Signature.Catalogue

/-!
# Inserting borrows preserves the program

On a graph that was built step by step, the third pass leaves all nodes as they were, and with the
nodes that it added left out every input has the source and every output the sinks that it had. The
wiring stays consistent and the nodes can still be ordered. All of this holds also if the pass fails
in the middle of its work.
-/

namespace BorrowFlow

variable {done : PUnit → Inference → Prop}

/-! ## Runs of the passes -/

namespace Run

variable {α : Type} {state : Inference} {post : α → Inference → Prop}

section Rules

variable {failed : Fault → Inference → Prop}

theorem meets_require {step : Step} (h : state.phase = step.requires → done () state)
    (hfailed : state.phase ≠ step.requires → failed (.outOfPhase step state.phase) state) :
    Meets (require step) state done failed := by
  apply Meets.bind
  change Meets (if state.phase ≠ step.requires then throw (Fault.outOfPhase step state.phase)
    else pure () : Run Unit) state done failed
  split
  · rename_i hphase
    exact hfailed hphase
  · rename_i hphase
    exact h (not_not.mp hphase)

theorem meets_pass {run : Config → Graph → Pass α}
    (h : Meets (run state.config state.graph) state.context
      (fun a ctx => post a { state with context := ctx })
      fun fault ctx => failed fault { state with context := ctx }) :
    Meets (pass run) state post failed := by
  refine Meets.of_part ?_ h
  cases hrun : run state.config state.graph state.context <;> simp [pass, within, hrun]

theorem meets_changing {run : Config → Insertion α}
    (h : Meets (run state.config) { graph := state.graph, context := state.context }
      (fun a ws => post a { state with graph := ws.graph, context := ws.context })
      fun fault ws => failed fault { state with graph := ws.graph, context := ws.context }) :
    Meets (changing run) state post failed := by
  refine Meets.of_part ?_ h
  cases hrun : run state.config { graph := state.graph, context := state.context } <;>
    simp [changing, within, hrun]

end Rules

variable {failed : Inference → Prop}

theorem ends_require {step : Step} (h : done () state) (hfailed : failed state) :
    Ends (require step) state done failed :=
  meets_require (fun _ => h) fun _ => hfailed

theorem ends_enter {phase : Phase} (h : done () { state with phase }) :
    Ends (enter phase) state done failed :=
  h

theorem ends_pass {run : Config → Graph → Pass α}
    (h : Ends (run state.config state.graph) state.context
      (fun a ctx => post a { state with context := ctx })
      fun ctx => failed { state with context := ctx }) :
    Ends (pass run) state post failed :=
  meets_pass h

theorem ends_changing {run : Config → Insertion α}
    (h : Ends (run state.config) { graph := state.graph, context := state.context }
      (fun a ws => post a { state with graph := ws.graph, context := ws.context })
      fun ws => failed { state with graph := ws.graph, context := ws.context }) :
    Ends (changing run) state post failed :=
  meets_changing h

theorem ends_report {post : Report → Inference → Prop}
    (h : post (state.context.report state.graph) state) (hfailed : failed state) :
    Ends report state post failed := by
  apply Ends.bind
  apply ends_require ?_ hfailed
  apply Ends.bind
  exact Ends.get (Ends.pure h)

variable {fixed : Prop} {g graph : Graph} {config : Config}

theorem ends_facePorts_of {established : Context → Prop}
    (h : Yields (Pass.facePorts config g) {} fun _ => established) :
    Yields facePorts { config, graph := g }
      fun _ state => state.graph = g ∧ established state.context := by
  apply Ends.bind
  apply ends_require ?_ trivial
  apply Ends.bind
  apply ends_pass
  exact h.imp fun _ _ hcontext => ends_enter ⟨rfl, hcontext⟩

theorem ends_unifyWires_of {established : Context → Prop}
    (h : Yields (Pass.unifyWires state.graph) state.context fun _ => established) :
    Yields unifyWires state
      fun _ state' => state'.graph = state.graph ∧ established state'.context := by
  apply Ends.bind
  apply ends_require ?_ trivial
  apply Ends.bind
  apply ends_pass
  exact h.imp fun _ _ hcontext => ends_enter ⟨rfl, hcontext⟩

theorem ends_facePorts (hw : g.WellFormed) (hc : g.Consistent) (hl : g.Layered)
    (hmono : fixed → g.Monomorphic) :
    Yields facePorts { config, graph := g }
      fun _ state => state.graph = g ∧ state.context.Stands fixed g.Arranged ∧
        g.visitOrder = .ok state.context.order ∧
          ∀ (n : NodeId) (node : Node), g.nodes[n]? = some node →
            state.context.Presents fixed g node :=
  ends_facePorts_of (Pass.ends_facePorts hw hc hl hmono)

theorem ends_unifyWires (hw : state.graph.WellFormed) (hc : state.graph.Consistent)
    (h : state.context.Stands fixed state.graph.Arranged)
    (hord : state.graph.visitOrder = .ok state.context.order) :
    Yields unifyWires state fun _ state' => state'.graph = state.graph ∧
        state'.context.Unified fixed state.graph state.context (fun _ => False) ∧
          state'.context.Rendered :=
  ends_unifyWires_of (Pass.ends_unifyWires hw hc h hord)

theorem ends_insertBorrows {assertion : Insertion.Assertion} {ctx : Context}
    (hkept : Insertion.Kept state.graph assertion) (hw : state.graph.WellFormed)
    (hc : state.graph.Consistent) {order : List NodeId}
    (hord : state.graph.visitOrder = .ok order)
    (hready : state.context.Ready fixed state.graph)
    (hstanding : Insertion.Standing ctx assertion
      (state.context.groups.groups.toList.flatMap (·.borrowedIn state.graph))
      { graph := state.graph, context := state.context }) :
    Ends insertBorrows state
      (fun _ state' => state.graph.Refined state'.graph ∧ Insertion.Standing ctx assertion []
        { graph := state'.graph, context := state'.context })
      fun state' => state.graph.Refined state'.graph := by
  have hrefined : state.graph.Refined state.graph :=
    ⟨.refl hw hc, hw.exists_ranks hc hord⟩
  apply Ends.bind
  apply ends_require ?_ hrefined
  apply Ends.bind
  apply ends_changing
  refine (Insertion.ends_insertBorrows hkept hc state.config ?_ hrefined hstanding).mono ?_
    fun _ => id
  · intro group hgroup
    obtain ⟨id, hid⟩ := Array.mem_iff_getElem?.mp (Array.mem_toList_iff.mp hgroup)
    exact ⟨_, (hready.placed id group hid).fits⟩
  · intro _ ws hdone
    exact ends_enter hdone

end Run

/-! ## The program is preserved -/

namespace Graph

/-- The second graph is the first one with borrows, terminations and drops added to it: no node has
changed, and with the added nodes left out every port is wired as it was. -/
structure Preserved (before after : Graph) : Prop where
  nodes : ∀ (n : NodeId) (node : Node), before.nodes[n]? = some node → after.nodes[n]? = some node
  added : ∀ (n : NodeId) (node : Node), before.nodes.size ≤ n → after.nodes[n]? = some node →
    node.inserted = true ∧ node.kind.isWoven = true
  sources : ∀ (input : PortId) (port : Port), before.ports[input]? = some port →
    port.direction = .input → ∀ origin,
      after.Origin before.nodes.size input origin ↔ before.sourceOf input = .ok origin
  sinks : ∀ (output : PortId) (port : Port), before.ports[output]? = some port →
    port.direction = .output → ∃ sinks, after.sinksOf output = .ok sinks ∧ ∀ found,
      after.Reaches before.nodes.size sinks found ↔ before.sinksOf output = .ok found
  consistent : after.Consistent
  ordered : ∃ order, after.visitOrder = .ok order

variable {before after : Graph}

theorem Refined.preserved (h : before.Refined after) (hc : before.Consistent) :
    before.Preserved after := by
  obtain ⟨hwoven, rank, hrank⟩ := h
  refine ⟨fun _ _ => hwoven.keeps.node, fun _ _ => hwoven.added, ?_, ?_, hwoven.consistent,
    hrank.exists_visitOrder hwoven.wellFormed hwoven.consistent⟩
  · intro input port hport _ origin
    rw [hc.sourceOf_eq hport, Except.ok.injEq]
    exact hwoven.origin_iff hc hport
  · intro output port hport _
    obtain ⟨wire, hport'⟩ := hwoven.keeps.port hport
    refine ⟨after.sinksAt output, hwoven.consistent.sinksOf_eq hport', fun found => ?_⟩
    rw [hc.sinksOf_eq hport, Except.ok.injEq]
    have hsinks := hwoven.sinks hport
    constructor
    · intro hf
      exact hsinks.unique hwoven.wellFormed.seated hf
    · rintro rfl
      exact hsinks

/-- If the first two passes succeed, the third one preserves the program, wherever it stops. -/
theorem Built.preserved_insertBorrows (hbuilt : before.Built) {config : Config}
    {faced unified : Inference}
    (hfaced : Run.facePorts { config, graph := before } = .ok () faced)
    (hunified : Run.unifyWires faced = .ok () unified) :
    before.Preserved (leaves Run.insertBorrows unified).graph := by
  have hw := hbuilt.wellFormed
  have hc := hbuilt.consistent
  obtain ⟨rfl, hstands, horder, -⟩ :=
    (Run.ends_facePorts hw hc hbuilt.layered False.elim).of_eq_ok hfaced
  obtain ⟨hgraph, hdone, hrendered⟩ :=
    (Run.ends_unifyWires hw hc hstands horder).of_eq_ok hunified
  have hready := hdone.ready hc hstands.kept hrendered
  rw [← hgraph] at hw hc horder hready ⊢
  -- nothing is asserted of the facades
  have hkept : Insertion.Kept unified.graph fun _ _ _ => True :=
    ⟨fun _ _ _ _ => trivial, fun _ _ _ _ _ _ => trivial, fun _ _ _ _ _ _ => trivial,
      fun _ _ _ _ => trivial⟩
  have hends := Run.ends_insertBorrows hkept hw hc horder hready ⟨rfl, rfl, trivial⟩
  have hrefined : unified.graph.Refined (leaves Run.insertBorrows unified).graph :=
    Ends.leaves (hends.imp fun _ _ hdone => hdone.1)
  exact hrefined.preserved hc

/-- Two increments, one after the other, of a number that can be changed. -/
def twoIncrements : Graph :=
  leaves (connect 2 3) (leaves (connect 0 1)
    (leaves (addNode rootScope (.functional .increment) false)
      (leaves (addNode rootScope (.functional .increment) false)
        (leaves (addNode rootScope (.constant .int32 true) false) empty))))

theorem built_twoIncrements : twoIncrements.Built :=
  .connect (.connect (.addNode (.addNode (.addNode .empty _ _) _ _) _ _) _ _) _ _

theorem preserved_insertBorrows_twoIncrements : ∃ faced unified,
    Run.facePorts { config := {}, graph := twoIncrements } = .ok () faced ∧
      Run.unifyWires faced = .ok () unified ∧
        (leaves Run.insertBorrows unified).graph.nodes.size = 8 ∧
          twoIncrements.Preserved (leaves Run.insertBorrows unified).graph := by
  have hfaced := eq_ok_of_succeeds (x := Run.facePorts)
    (s := { config := {}, graph := twoIncrements }) (by decide +kernel)
  have hunified := eq_ok_of_succeeds (x := Run.unifyWires)
    (s := leaves Run.facePorts { config := {}, graph := twoIncrements }) (by decide +kernel)
  exact ⟨_, _, hfaced, hunified, by decide +kernel,
    built_twoIncrements.preserved_insertBorrows hfaced hunified⟩

end Graph

end BorrowFlow
