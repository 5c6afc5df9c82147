import BorrowFlow.Proofs.Graph.Requests

/-!
# What a splice touches

A splice in front of an input changes what feeds the input and what its source feeds, and nothing
that other ports feed or are fed by. A splice behind an output also changes what feeds the inputs
that the output fed, since another port takes its place.
-/

namespace BorrowFlow

namespace Graph

variable {g g' : Graph} {x source sink throughInput throughOutput : PortId} {port : Port}
  {direction : Direction} {scope : ScopeId}

def OpensOnto (g : Graph) (scope : ScopeId) (direction : Direction) (id : PortId) : Prop :=
  ∃ port : Port, g.ports[id]? = some port ∧ port.direction = direction ∧ port.scope = scope

theorem OpensOnto.of_unconnected (h : g.OpensOnto scope direction x)
    (hfree : g.isConnected x = .ok false) :
    ∃ port : Port, g.ports[x]? = some port ∧ port.direction = direction ∧ port.scope = scope ∧
      port.wire = none := by
  obtain ⟨port, hport, hdirection, hscope⟩ := h
  refine ⟨port, hport, hdirection, hscope, ?_⟩
  rw [isConnected, getPort, hport] at hfree
  change Except.ok port.wire.isSome = _ at hfree
  simpa using hfree

theorem Consistent.sourceAt_congr (h : g.Consistent) (h' : g'.Consistent)
    (hsinks : ∀ y, x ∈ g'.sinksAt y ↔ x ∈ g.sinksAt y) : g'.sourceAt x = g.sourceAt x := by
  apply Option.ext
  intro y
  rw [← h'.mem_sinksAt_iff, ← h.mem_sinksAt_iff, hsinks y]

/-- Apart from the wires nothing has changed, wires and ports still agree, and the queries have
other answers for the listed ports only. -/
structure Frames (g g' : Graph) (fed feeding : List PortId) : Prop where
  layout : g.SameLayout g'
  coherent : g'.Coherent
  sourceOf : ∀ x ∉ fed, g'.sourceOf x = g.sourceOf x
  sinksOf : ∀ x ∉ feeding, g'.sinksOf x = g.sinksOf x

section

variable (h : g.Consistent) (h' : g'.Consistent) (hlayout : g.SameLayout g')
include h' hlayout

theorem SameLayout.sourceOf_eq (hport : g.ports[x]? = some port) :
    g'.sourceOf x = .ok (g'.sourceAt x) := by
  obtain ⟨_, hport'⟩ := hlayout.sameSeats.getPort hport
  exact h'.sourceOf_eq hport'

theorem SameLayout.sinksOf_eq (hport : g.ports[x]? = some port) :
    g'.sinksOf x = .ok (g'.sinksAt x) := by
  obtain ⟨_, hport'⟩ := hlayout.sameSeats.getPort hport
  exact h'.sinksOf_eq hport'

include h in
theorem SameLayout.frames {fed feeding : List PortId}
    (hfed : ∀ x ∉ fed, ∀ y, x ∈ g'.sinksAt y ↔ x ∈ g.sinksAt y)
    (hfeeding : ∀ x ∉ feeding, g'.sinksAt x = g.sinksAt x) : g.Frames g' fed feeding := by
  have hnone : ∀ x : PortId, g.ports[x]? = none → g'.ports[x]? = none := by
    intro x hport
    have heq := hlayout.port x
    rwa [hport, Option.map_none, Option.map_eq_none_iff] at heq
  refine ⟨hlayout, h'.coherent, fun x hx => ?_, fun x hx => ?_⟩
  · cases hport : g.ports[x]? with
    | none => rw [Graph.sourceOf, Graph.sourceOf, getPort, getPort, hport, hnone x hport]; rfl
    | some port =>
      rw [hlayout.sourceOf_eq h' hport, h.sourceOf_eq hport, h.sourceAt_congr h' (hfed x hx)]
  · cases hport : g.ports[x]? with
    | none => rw [Graph.sinksOf, Graph.sinksOf, getPort, getPort, hport, hnone x hport]; rfl
    | some port => rw [hlayout.sinksOf_eq h' hport, h.sinksOf_eq hport, hfeeding x hx]

end

theorem Spliced.frames (hspliced : g.Spliced sink throughInput throughOutput g') (h : g.Consistent)
    (hfree : g.sinksAt throughOutput = []) (hsource : g.sourceAt sink = some source) :
    g.Frames g' [throughInput, sink] [source, throughOutput] := by
  refine hspliced.layout.frames h hspliced.consistent (fun x hx y => ?_) fun x hx => ?_
  · simp only [List.mem_cons, List.not_mem_nil, or_false, not_or] at hx
    constructor
    · intro hm
      have hcases := hspliced.of_mem hm
      tauto
    · intro hm
      have hm' := hspliced.mem hfree hm
      rwa [redirect, if_neg hx.2] at hm'
  · simp only [List.mem_cons, List.not_mem_nil, or_false, not_or] at hx
    rw [hspliced.sinksAt, if_neg hx.2]
    -- no other port feeds the sink
    refine map_redirect_of_not_mem fun hm => hx.1 ?_
    exact Option.some.inj ((h.mem_sinksAt_iff.mp hm).symm.trans hsource)

theorem SplicedAfter.frames (hspliced : g.SplicedAfter source throughInput throughOutput g')
    (h : g.Consistent) (hfree : g.sinksAt throughOutput = []) :
    g.Frames g' (throughInput :: g.sinksAt source) [source, throughOutput] := by
  refine hspliced.layout.frames h hspliced.consistent (fun x hx y => ?_) fun x hx => ?_
  · simp only [List.mem_cons, not_or] at hx
    constructor
    · intro hm
      have hcases := hspliced.of_mem hm
      tauto
    · intro hm
      have hm' := hspliced.mem hfree hm
      rwa [redirect, if_neg] at hm'
      rintro rfl
      exact hx.2 hm
  · simp only [List.mem_cons, List.not_mem_nil, or_false, not_or] at hx
    rw [hspliced.sinksAt, if_neg hx.1, if_neg hx.2]

/-- A splice in front of an input routes what feeds it through two ports, and the input that is put
in between takes the place of the other one. A splice behind an output hands what it feeds on to
another output, which feeds these inputs from then on. In both cases wires and ports agree, and only
the ports that are named here have another source or feed other inputs than before. -/
theorem Coherent.splices_frame (h : g.Coherent)
    (hin : g.OpensOnto scope .input throughInput) (hfree : g.isConnected throughInput = .ok false)
    (hout : g.OpensOnto scope .output throughOutput)
    (hfree' : g.isConnected throughOutput = .ok false) :
    (∀ sink source, g.OpensOnto scope .input sink → g.sourceOf sink = .ok (some source) →
        ∃ g' sinks, splice sink throughInput throughOutput g = .ok () g' ∧
          g'.sourceOf throughInput = .ok (some source) ∧
            g'.sourceOf sink = .ok (some throughOutput) ∧ g.sinksOf source = .ok sinks ∧
              g'.sinksOf source = .ok (sinks.map (redirect sink throughInput)) ∧
                g'.sinksOf throughOutput = .ok [sink] ∧
                  g.Frames g' [throughInput, sink] [source, throughOutput]) ∧
      ∀ source, g.OpensOnto scope .output source → throughOutput ≠ source →
        ∃ g' sinks, spliceAfter source throughInput throughOutput g = .ok () g' ∧
          g.sinksOf source = .ok sinks ∧ g'.sinksOf throughOutput = .ok sinks ∧
            g'.sinksOf source = .ok [throughInput] ∧
              g'.sourceOf throughInput = .ok (some source) ∧
                (∀ sink ∈ sinks, g'.sourceOf sink = .ok (some throughOutput)) ∧
                  g.Frames g' (throughInput :: sinks) [source, throughOutput] := by
  have hc := h.toConsistent
  obtain ⟨inPort, hin, hinput, hscope, hunwired⟩ := hin.of_unconnected hfree
  obtain ⟨outPort, hout, houtput, hscope', hunwired'⟩ := hout.of_unconnected hfree'
  have hidle := sinksAt_of_unwired hout hunwired'
  refine ⟨fun sink source hsink hsource => ?_, fun source hsource' hne => ?_⟩
  · obtain ⟨sinkPort, hsink, hinput', hscope''⟩ := hsink
    have hsource := Except.ok.inj ((hc.sourceOf_eq hsink).symm.trans hsource)
    have hm := hc.mem_sinksAt_iff.mpr hsource
    obtain ⟨sourcePort, -, -, hsource', -⟩ := mem_sinksAt hm
    obtain ⟨w, hw⟩ : ∃ w, sinkPort.wire = some w := by
      refine Option.ne_none_iff_exists'.mp fun hnone => ?_
      exact hc.not_mem_sinksAt hsink hinput' hnone source hm
    have hne : source ≠ throughOutput := by
      rintro rfl
      rw [hidle] at hm
      cases hm
    obtain ⟨g', hrun, hspliced⟩ := hc.splice_ok hsink hin hout hinput' hinput houtput
      (hscope.trans hscope''.symm) (hscope'.trans hscope''.symm) hw hunwired hunwired'
    have hc' := hspliced.consistent
    refine ⟨g', g.sinksAt source, hrun, ?_, ?_, hc.sinksOf_eq hsource', ?_, ?_,
      hspliced.frames hc hidle hsource⟩
    · rw [hspliced.layout.sourceOf_eq hc' hin]
      refine congrArg _ (hc'.mem_sinksAt_iff.mp ?_)
      rw [hspliced.sinksAt, if_neg hne]
      exact mem_map_redirect.mpr (.inl ⟨rfl, hm⟩)
    · rw [hspliced.layout.sourceOf_eq hc' hsink]
      refine congrArg _ (hc'.mem_sinksAt_iff.mp ?_)
      rw [hspliced.sinksAt, if_pos rfl]
      exact List.mem_singleton_self sink
    · rw [hspliced.layout.sinksOf_eq hc' hsource', hspliced.sinksAt, if_neg hne]
    · rw [hspliced.layout.sinksOf_eq hc' hout, hspliced.sinksAt, if_pos rfl]
  · obtain ⟨sourcePort, hsource', houtput', hscope''⟩ := hsource'
    obtain ⟨g', hrun, hspliced⟩ := hc.spliceAfter_ok hsource' hin hout houtput' hinput houtput
      (hscope.trans hscope''.symm) (hscope'.trans hscope''.symm) hunwired hunwired'
    have hc' := hspliced.consistent
    refine ⟨g', g.sinksAt source, hrun, hc.sinksOf_eq hsource', ?_, ?_, ?_, fun sink hm => ?_,
      hspliced.frames hc hidle⟩
    · rw [hspliced.layout.sinksOf_eq hc' hout, hspliced.sinksAt, if_neg hne, if_pos rfl]
    · rw [hspliced.layout.sinksOf_eq hc' hsource', hspliced.sinksAt, if_pos rfl]
    · rw [hspliced.layout.sourceOf_eq hc' hin, hc'.mem_sinksAt_iff.mp hspliced.input_mem]
    · obtain ⟨_, sinkPort, -, hsink, -⟩ := hc.ends hm
      rw [hspliced.layout.sourceOf_eq hc' hsink]
      refine congrArg _ (hc'.mem_sinksAt_iff.mp ?_)
      rwa [hspliced.sinksAt, if_neg hne, if_pos rfl]

/-- A number that is dropped, and a node that a splice is to put between the two. -/
def droppedNumber : Graph :=
  leaves (addNode rootScope (.terminateLifetime 1 1) false) (leaves (connect 0 1)
    (leaves (addNode rootScope .drop false)
      (leaves (addNode rootScope (.constant .int32 false) false) empty)))

theorem coherent_droppedNumber : droppedNumber.Coherent :=
  (Built.addNode (.connect (.addNode (.addNode .empty _ _) _ _) _ _) _ _).consistent.coherent

theorem splices_frame_droppedNumber :
    droppedNumber.Coherent ∧ ∃ after, spliceAfter 0 2 3 droppedNumber = .ok () after ∧
      after.sinksOf 0 = .ok [2] ∧ after.sinksOf 3 = .ok [1] ∧ after.sourceOf 1 = .ok (some 3) ∧
        droppedNumber.Frames after [2, 1] [0, 3] := by
  refine ⟨coherent_droppedNumber, ?_⟩
  have hin : droppedNumber.OpensOnto 0 .input 2 := ⟨_, rfl, rfl, rfl⟩
  have hout : droppedNumber.OpensOnto 0 .output 3 := ⟨_, rfl, rfl, rfl⟩
  obtain ⟨-, hafter⟩ := coherent_droppedNumber.splices_frame hin rfl hout rfl
  obtain ⟨after, sinks, hrun, hsinks, hsinks', hsinks'', -, hsource, hframes⟩ :=
    hafter 0 ⟨_, rfl, rfl, rfl⟩ (by decide)
  cases hsinks
  exact ⟨after, hrun, hsinks'', hsinks', hsource 1 (by decide), hframes⟩

/-- A splice behind an output does not leave alone what feeds the inputs that the output fed. -/
theorem not_frame_spliceAfter_droppedNumber :
    ¬∀ (g : Graph) (scope : ScopeId) (source throughInput throughOutput : PortId), g.Coherent →
      g.OpensOnto scope .output source → g.OpensOnto scope .input throughInput →
        g.isConnected throughInput = .ok false → g.OpensOnto scope .output throughOutput →
          g.isConnected throughOutput = .ok false → throughOutput ≠ source →
            ∃ g', spliceAfter source throughInput throughOutput g = .ok () g' ∧
              ∀ x, x ≠ source → x ≠ throughInput → x ≠ throughOutput →
                g'.sourceOf x = g.sourceOf x := by
  intro h
  obtain ⟨after, hrun, hsame⟩ := h droppedNumber 0 0 2 3 coherent_droppedNumber ⟨_, rfl, rfl, rfl⟩
    ⟨_, rfl, rfl, rfl⟩ rfl ⟨_, rfl, rfl, rfl⟩ rfl (by decide)
  have hafter : after = leaves (spliceAfter 0 2 3) droppedNumber := by
    rw [leaves, hrun]
  have hmoved := hsame 1 (by decide) (by decide) (by decide)
  rw [hafter] at hmoved
  revert hmoved
  decide

end Graph

end BorrowFlow
