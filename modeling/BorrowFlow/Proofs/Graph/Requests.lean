import BorrowFlow.Proofs.Graph.Building
import BorrowFlow.Proofs.Graph.Splicing

/-!
# Edits that are asked of any port

An edit names its ports by number, and only connecting checks everything about them. The others can
be asked to take a wire from an output as if it were an input, or to put a port on a wire at the
wrong end or in the wrong scope. Wires and ports agree after every edit of a sequence if and only
if no edit of it was asked to do that.
-/

namespace BorrowFlow

namespace Graph

/-- Wires and ports agree, an input is listed once, and wires that feed anything share no port. -/
structure Coherent (g : Graph) : Prop extends Consistent g where
  listed_once : ∀ {w : WireId} {wire : Wire} {id : PortId}, g.wires[w]? = some wire →
    id ∈ wire.sinks → wire.sinks.count id = 1
  source_unshared : ∀ {v w : WireId} {first second : Wire}, g.wires[v]? = some first →
    g.wires[w]? = some second → first.sinks ≠ [] → second.sinks ≠ [] →
      first.source = second.source → v = w
  sink_unshared : ∀ {v w : WireId} {first second : Wire} {id : PortId},
    g.wires[v]? = some first → g.wires[w]? = some second → id ∈ first.sinks →
      id ∈ second.sinks → v = w

/-- An edit with everything it is asked with. -/
inductive Request where
  | addNode (scope : ScopeId) (kind : NodeKind) (inserted : Bool)
  | addStructure (scope : ScopeId) (kind : StructureKind)
  | addBorder (owner : NodeId) (kind : BorderKind)
  | connect (source sink : PortId)
  | disconnect (sink : PortId)
  | splice (sink throughInput throughOutput : PortId)
  | spliceAfter (source throughInput throughOutput : PortId)

/-- The graph that an edit leaves, whether it fails or not. -/
def Request.apply (g : Graph) : Request → Graph
  | addNode scope kind inserted => leaves (Graph.addNode scope kind inserted) g
  | addStructure scope kind => leaves (Graph.addStructure scope kind) g
  | addBorder owner kind => leaves (Graph.addBorder owner kind) g
  | connect source sink => leaves (Graph.connect source sink) g
  | disconnect sink => leaves (Graph.disconnect sink) g
  | splice sink throughInput throughOutput =>
    leaves (Graph.splice sink throughInput throughOutput) g
  | spliceAfter source throughInput throughOutput =>
    leaves (Graph.spliceAfter source throughInput throughOutput) g

def after (g : Graph) (requests : List Request) : Graph := requests.foldl Request.apply g

/-- The edit changes a wire at the wrong end, or puts a port of another scope on it. It does so only
if the checks that it makes let it get that far. -/
def Request.Miswires (g : Graph) : Request → Prop
  | disconnect sink => ∃ port : Port, g.ports[sink]? = some port ∧ port.wire ≠ none ∧
      port.direction = .output
  | splice sink throughInput _ => ∃ sinkPort inPort : Port,
      g.ports[sink]? = some sinkPort ∧ g.ports[throughInput]? = some inPort ∧
        sinkPort.wire ≠ none ∧ inPort.wire = none ∧
          (sinkPort.direction = .output ∨ inPort.direction = .output ∨
            inPort.scope ≠ sinkPort.scope)
  | spliceAfter source _ throughOutput => ∃ sourcePort outPort : Port,
      g.ports[source]? = some sourcePort ∧ g.ports[throughOutput]? = some outPort ∧
        sourcePort.wire ≠ none ∧ outPort.wire = none ∧ outPort.scope = sourcePort.scope ∧
          (sourcePort.direction = .input ∨ outPort.direction = .input)
  | _ => False

variable {g g' : Graph} {source sink throughInput throughOutput : PortId}
  {sourcePort sinkPort inPort outPort : Port} {w : WireId} {wire : Wire}

theorem Consistent.coherent (h : g.Consistent) : g.Coherent where
  toConsistent := h
  listed_once hwire hm := by
    rw [(h.nodup hwire).count, if_pos hm]
  source_unshared := by
    intro v w first second hfirst hsecond hlive hlive' hsame
    obtain ⟨port, hport, houtput, -⟩ := h.source hfirst
    have hv := (h.output hport houtput v).mpr ⟨first, hfirst, rfl, hlive⟩
    have hw := (h.output hport houtput w).mpr ⟨second, hsecond, hsame.symm, hlive'⟩
    exact Option.some.inj (hv.symm.trans hw)
  sink_unshared := by
    intro v w first second id hfirst hsecond hm hm'
    obtain ⟨port, hport, hinput, -⟩ := h.sink hfirst hm
    have hv := (h.input hport hinput v).mpr ⟨first, hfirst, hm⟩
    have hw := (h.input hport hinput w).mpr ⟨second, hsecond, hm'⟩
    exact Option.some.inj (hv.symm.trans hw)

theorem coherent_iff : g.Coherent ↔ g.Consistent :=
  ⟨fun h => h.toConsistent, fun h => h.coherent⟩

/-! ## Connecting -/

theorem leaves_connect_from_input (hsource : g.ports[source]? = some sourcePort)
    (h : sourcePort.direction = .input) : leaves (connect source sink) g = g := by
  unfold leaves
  rw [connect_eq, hsource]
  cases g.ports[sink]? with
  | none => rfl
  | some sinkPort => simp [h]

theorem leaves_connect_to_output (hsink : g.ports[sink]? = some sinkPort)
    (h : sinkPort.direction = .output) : leaves (connect source sink) g = g := by
  unfold leaves
  rw [connect_eq, hsink]
  cases g.ports[source]? with
  | none => rfl
  | some sourcePort => simp [h]

/-- No port has moved, and no wire has changed its scope, moved its source or lost a sink. -/
structure Extends (g g' : Graph) : Prop where
  layout : g.SameLayout g'
  wire : ∀ {w : WireId} {wire : Wire}, g.wires[w]? = some wire →
    ∃ wire' : Wire, g'.wires[w]? = some wire' ∧ wire'.source = wire.source ∧
      wire'.scope = wire.scope ∧ ∀ id ∈ wire.sinks, id ∈ wire'.sinks

theorem Extends.refl (g : Graph) : g.Extends g where
  layout := .refl g
  wire hwire := ⟨_, hwire, rfl, rfl, fun _ hm => hm⟩

theorem extends_extend (g : Graph) (v : WireId) (sink : PortId) :
    g.Extends ((g.modifyWire v fun data =>
      { data with sinks := data.sinks ++ [sink] }).setWire sink (some v)) where
  layout := (sameLayout_modifyWire ..).trans (sameLayout_setWire ..)
  wire {w wire} hwire := by
    have hwires := getElem?_wires_modifyWire g v
      (fun data => { data with sinks := data.sinks ++ [sink] }) w
    rw [hwire] at hwires
    by_cases hv : w = v
    · rw [if_pos hv] at hwires
      exact ⟨_, hwires, rfl, rfl, fun id hm => List.mem_append_left _ hm⟩
    · rw [if_neg hv] at hwires
      exact ⟨_, hwires, rfl, rfl, fun _ hm => hm⟩

theorem extends_begin (g : Graph) (new : Wire) (v : WireId) (source sink : PortId) :
    g.Extends (({ g with wires := g.wires.push new }.setWire source (some v)).setWire
      sink (some v)) where
  layout := by
    have hpush : g.SameLayout { g with wires := g.wires.push new } :=
      ⟨rfl, rfl, fun _ => rfl⟩
    exact hpush.trans ((sameLayout_setWire ..).trans (sameLayout_setWire ..))
  wire {w wire} hwire := by
    have hne : w ≠ g.wires.size := Nat.ne_of_lt (Array.getElem?_eq_some_iff.mp hwire).1
    refine ⟨wire, ?_, rfl, rfl, fun _ hm => hm⟩
    exact (Array.getElem?_push.trans (if_neg hne)).trans hwire

theorem extends_connect (g : Graph) (source sink : PortId) :
    g.Extends (leaves (connect source sink) g) := by
  unfold leaves
  rw [connect_eq]
  cases g.ports[source]? with
  | none => exact .refl g
  | some sourcePort =>
    cases g.ports[sink]? with
    | none => exact .refl g
    | some sinkPort =>
      dsimp only
      by_cases hdirections : sourcePort.direction ≠ .output ∨ sinkPort.direction ≠ .input
      · rw [if_pos hdirections]
        exact .refl g
      · rw [if_neg hdirections]
        by_cases hscopes : sourcePort.scope ≠ sinkPort.scope
        · rw [if_pos hscopes]
          exact .refl g
        · rw [if_neg hscopes]
          cases sinkPort.wire with
          | some occupied => exact .refl g
          | none =>
            cases sourcePort.wire with
            | some v => exact extends_extend g v sink
            | none => exact extends_begin ..

/-- A wire whose source is an input, or that has a sink that is an output or faces another scope,
stays so while the graph is extended. -/
theorem Extends.not_consistent (h : g.Extends g') (hwire : g.wires[w]? = some wire)
    (hwrong : (∃ port : Port, g.ports[wire.source]? = some port ∧ port.direction = .input) ∨
      ∃ id ∈ wire.sinks, ∃ port : Port, g.ports[id]? = some port ∧
        (port.direction = .output ∨ port.scope ≠ wire.scope)) : ¬g'.Consistent := by
  intro hc
  obtain ⟨wire', hwire', hsource, hscope, hsinks⟩ := h.wire hwire
  rcases hwrong with ⟨port, hport, hinput⟩ | ⟨id, hm, port, hport, hwrong⟩
  · obtain ⟨other, ho, houtput, -⟩ := hc.source hwire'
    obtain ⟨wired, hport'⟩ := h.layout.sameSeats.getPort hport
    rw [hsource, hport'] at ho
    cases Option.some.inj ho
    cases hinput.symm.trans houtput
  · obtain ⟨other, ho, hinput, hsame⟩ := hc.sink hwire' (hsinks id hm)
    obtain ⟨wired, hport'⟩ := h.layout.sameSeats.getPort hport
    rw [hport'] at ho
    cases Option.some.inj ho
    rcases hwrong with houtput | hscope'
    · cases hinput.symm.trans houtput
    · exact hscope' (hsame.trans hscope)

theorem not_consistent_of_lost_source (hport : g.ports[source]? = some sourcePort)
    (houtput : sourcePort.direction = .output) (hfree : sourcePort.wire = none)
    (hwire : g.wires[w]? = some wire) (hsource : wire.source = source)
    (hlive : wire.sinks ≠ []) : ¬g.Consistent := by
  intro h
  have hw := (h.output hport houtput w).mpr ⟨wire, hwire, hsource, hlive⟩
  cases hfree.symm.trans hw

/-! ## Disconnecting -/

/-- A wire can only be taken from an input: an output loses a wire that still feeds what it fed. -/
theorem Consistent.leaves_disconnect_iff (h : g.Consistent) (port : PortId) :
    (leaves (Graph.disconnect port) g).Consistent ↔ ¬(Request.disconnect port).Miswires g := by
  cases hport : g.ports[port]? with
  | none =>
    have hrun : leaves (Graph.disconnect port) g = g := by
      rw [leaves, disconnect_eq, hport]
    rw [hrun]
    simp [h, Request.Miswires, hport]
  | some data =>
    cases hdirection : data.direction with
    | input =>
      obtain ⟨source, g', hrun, -, hconsistent⟩ := h.disconnect hport hdirection
      rw [leaves, hrun]
      simp [hconsistent, Request.Miswires, hport, hdirection]
    | output =>
      cases hw : data.wire with
      | none =>
        have hrun : leaves (Graph.disconnect port) g = g := by
          rw [leaves, disconnect_eq, hport]
          simp only [hw]
        rw [hrun]
        simp [h, Request.Miswires, hport, hw]
      | some w =>
        have hmiswires : (Request.disconnect port).Miswires g :=
          ⟨data, hport, by rw [hw]; exact Option.some_ne_none w, hdirection⟩
        refine iff_of_false ?_ (not_not_intro hmiswires)
        obtain ⟨wire, hwire, rfl, -, hlive⟩ := h.wire_of_output hport hdirection hw
        have hkept : wire.sinks.filter (· ≠ wire.source) = wire.sinks := by
          refine List.filter_eq_self.mpr fun id hm => ?_
          obtain ⟨sinkPort, hid, hinput, -⟩ := h.sink hwire hm
          rw [decide_eq_true_eq]
          rintro rfl
          rw [hport] at hid
          cases Option.some.inj hid
          cases hdirection.symm.trans hinput
        have hempty : wire.sinks.isEmpty = false := List.isEmpty_eq_false_iff.mpr hlive
        have hlost : ((g.modifyWire w fun data =>
            { data with sinks := wire.sinks }).setWire wire.source none).ports[wire.source]? =
              some { data with wire := none } := by
          rw [getElem?_ports_setWire, if_pos rfl, modifyWire, hport, Option.map_some]
        have hstays : ((g.modifyWire w fun data =>
            { data with sinks := wire.sinks }).setWire wire.source none).wires[w]? =
              some wire := by
          exact (getElem?_wires_modifyWire_of_some hwire ..).trans (if_pos rfl)
        rw [leaves, disconnect_eq, hport]
        simp only [hw, hwire, hkept, hempty]
        exact not_consistent_of_lost_source hlost hdirection rfl hstays rfl hlive

/-! ## Splicing in front of an input -/

/-- The inner input has to be an input of the scope that the sink faces, and the sink an input. -/
theorem Consistent.leaves_splice_iff (h : g.Consistent) (sink throughInput throughOutput : PortId) :
    (leaves (Graph.splice sink throughInput throughOutput) g).Consistent ↔
      ¬(Request.splice sink throughInput throughOutput).Miswires g := by
  by_cases hready : ∃ sinkPort inPort : Port, g.ports[sink]? = some sinkPort ∧
      g.ports[throughInput]? = some inPort ∧ sinkPort.wire ≠ none ∧ inPort.wire = none
  · obtain ⟨sinkPort, inPort, hsink, hin, hwired, hfree⟩ := hready
    obtain ⟨w, hw⟩ := Option.ne_none_iff_exists'.mp hwired
    have hmiswires : (Request.splice sink throughInput throughOutput).Miswires g ↔
        sinkPort.direction = .output ∨ inPort.direction = .output ∨
          inPort.scope ≠ sinkPort.scope := by
      simp [Request.Miswires, hsink, hin, hw, hfree]
    rw [leaves_splice hsink hw hin hfree, hmiswires]
    have hports := getElem?_ports_withSink hsink hw hin hfree
    have hsink' := (hports sink).trans (if_pos rfl)
    have hne : throughInput ≠ sink := by
      rintro rfl
      cases Option.some.inj (hsink.symm.trans hin)
      exact hwired hfree
    cases hdirection : sinkPort.direction with
    | output =>
      refine iff_of_false ?_ (not_not_intro (.inl rfl))
      -- nothing is connected to an output, so it stays without the wire that it is the source of
      rw [leaves_connect_to_output hsink' hdirection]
      obtain ⟨wire, hwire, hsource, -, hlive⟩ := h.wire_of_output hsink hdirection hw
      have hwire' : (g.withSink w sink throughInput).wires[w]? = _ :=
        (getElem?_wires_withSink hwire w).trans (if_pos rfl)
      exact not_consistent_of_lost_source hsink' hdirection rfl hwire' hsource
        fun hnil => hlive (List.map_eq_nil_iff.mp hnil)
    | input =>
      by_cases hfits : inPort.direction = .input ∧ inPort.scope = sinkPort.scope
      · refine iff_of_true ?_ (by simp [hfits])
        exact (h.withSink hsink hw hin hfree hdirection hfits.1 hfits.2).1.leaves_connect ..
      · -- the inner input is the wrong kind of sink from now on
        have hwrong : inPort.direction = .output ∨ inPort.scope ≠ sinkPort.scope := by
          cases hin' : inPort.direction with
          | output => exact .inl rfl
          | input => exact .inr fun hscope => hfits ⟨hin', hscope⟩
        refine iff_of_false ?_ (not_not_intro (.inr hwrong))
        obtain ⟨wire, hwire, hm, hscope⟩ := h.wire_of_input hsink hdirection hw
        have hwire' : (g.withSink w sink throughInput).wires[w]? = _ :=
          (getElem?_wires_withSink hwire w).trans (if_pos rfl)
        have hin' := (hports throughInput).trans ((if_neg hne).trans (if_pos rfl))
        refine (extends_connect ..).not_consistent hwire' (.inr ⟨throughInput, ?_, _, hin', ?_⟩)
        · exact mem_map_redirect.mpr (.inl ⟨rfl, hm⟩)
        · rw [hscope]
          exact hwrong
  · rw [leaves_splice_of_refused hready]
    refine iff_of_true h ?_
    rintro ⟨sinkPort, inPort, hsink, hin, hwired, hfree, -⟩
    exact hready ⟨sinkPort, inPort, hsink, hin, hwired, hfree⟩

/-! ## Splicing behind an output -/

/-- Both the source and the output that takes over its wire have to be outputs. -/
theorem Consistent.leaves_spliceAfter_iff (h : g.Consistent)
    (source throughInput throughOutput : PortId) :
    (leaves (Graph.spliceAfter source throughInput throughOutput) g).Consistent ↔
      ¬(Request.spliceAfter source throughInput throughOutput).Miswires g := by
  by_cases hready : ∃ sourcePort outPort : Port, g.ports[source]? = some sourcePort ∧
      g.ports[throughOutput]? = some outPort ∧ outPort.wire = none ∧
        outPort.scope = sourcePort.scope
  · obtain ⟨sourcePort, outPort, hsource, hout, hfree, hscope⟩ := hready
    rw [leaves_spliceAfter hsource hout hfree hscope]
    cases hw : sourcePort.wire with
    | none =>
      refine iff_of_true (h.leaves_connect ..) ?_
      rintro ⟨found, -, hf, -, hwired, -⟩
      cases Option.some.inj (hsource.symm.trans hf)
      exact hwired hw
    | some w =>
      have hmiswires : (Request.spliceAfter source throughInput throughOutput).Miswires g ↔
          sourcePort.direction = .input ∨ outPort.direction = .input := by
        simp [Request.Miswires, hsource, hout, hw, hfree, hscope]
      rw [hmiswires]
      have hports := getElem?_ports_withSource hsource hw hout hfree
      have hsource' := (hports source).trans (if_pos rfl)
      have hne : throughOutput ≠ source := by
        rintro rfl
        cases Option.some.inj (hsource.symm.trans hout)
        cases hfree.symm.trans hw
      cases hdirection : sourcePort.direction with
      | input =>
        refine iff_of_false ?_ (not_not_intro (.inl rfl))
        -- nothing is connected from an input, so it stays on the wire that it does not name
        rw [leaves_connect_from_input hsource' hdirection]
        obtain ⟨wire, hwire, hm, -⟩ := h.wire_of_input hsource hdirection hw
        have hwire' : (g.withSource w source throughOutput).wires[w]? = _ :=
          (getElem?_wires_withSource hwire w).trans (if_pos rfl)
        intro hc
        cases (hc.input hsource' hdirection w).mpr ⟨_, hwire', hm⟩
      | output =>
        cases hdirection' : outPort.direction with
        | output =>
          refine iff_of_true ?_ (by simp)
          obtain ⟨hconsistent, -⟩ :=
            h.withSource hsource hw hout hfree hdirection hdirection' hscope
          exact hconsistent.leaves_connect ..
        | input =>
          refine iff_of_false ?_ (not_not_intro (.inr rfl))
          obtain ⟨wire, hwire, -⟩ := h.wire_of_output hsource hdirection hw
          have hwire' : (g.withSource w source throughOutput).wires[w]? = _ :=
            (getElem?_wires_withSource hwire w).trans (if_pos rfl)
          have hout' := (hports throughOutput).trans ((if_neg hne).trans (if_pos rfl))
          exact (extends_connect ..).not_consistent hwire' (.inl ⟨_, hout', hdirection'⟩)
  · rw [leaves_spliceAfter_of_refused hready]
    refine iff_of_true h ?_
    rintro ⟨sourcePort, outPort, hsource, hout, -, hfree, hscope, -⟩
    exact hready ⟨sourcePort, outPort, hsource, hout, hfree, hscope⟩

/-! ## Sequences of edits -/

/-- An edit keeps wires and ports in agreement if and only if it miswires no port. -/
theorem Consistent.apply_iff (h : g.Consistent) (request : Request) :
    (request.apply g).Consistent ↔ ¬request.Miswires g := by
  cases request with
  | addNode scope kind inserted => exact iff_of_true (h.leaves_addNode ..) not_false
  | addStructure scope kind => exact iff_of_true (h.leaves_addStructure ..) not_false
  | addBorder owner kind => exact iff_of_true (h.leaves_addBorder ..) not_false
  | connect source sink => exact iff_of_true (h.leaves_connect source sink) not_false
  | disconnect sink => exact h.leaves_disconnect_iff sink
  | splice sink throughInput throughOutput => exact h.leaves_splice_iff ..
  | spliceAfter source throughInput throughOutput => exact h.leaves_spliceAfter_iff ..

theorem Consistent.after_iff (h : g.Consistent) (requests : List Request) :
    (∀ n, (g.after (requests.take n)).Consistent) ↔
      ∀ (n : Nat) (request : Request), requests[n]? = some request →
        ¬request.Miswires (g.after (requests.take n)) := by
  induction requests generalizing g with
  | nil => simp [h, after]
  | cons request requests ih =>
    constructor
    · intro hall
      have hfirst : (request.apply g).Consistent := hall 1
      intro n other ho
      cases n with
      | zero =>
        cases ho
        exact (h.apply_iff request).mp hfirst
      | succ n => exact (ih hfirst).mp (fun n => hall (n + 1)) n other ho
    · intro hall n
      cases n with
      | zero => exact h
      | succ n =>
        have hfirst := (h.apply_iff request).mpr (hall 0 request rfl)
        exact (ih hfirst).mpr (fun n other ho => hall (n + 1) other ho) n

/-- Whatever edits are made one after the other from the empty graph, failed ones among them, wires
and ports agree after each of them if and only if none was asked to miswire a port. -/
theorem coherent_after_iff (requests : List Request) :
    (∀ n, (empty.after (requests.take n)).Coherent) ↔
      ∀ (n : Nat) (request : Request), requests[n]? = some request →
        ¬request.Miswires (empty.after (requests.take n)) := by
  simp only [coherent_iff]
  exact consistent_empty.after_iff requests

/-- A constant that feeds a drop node is disconnected as if it were the sink. -/
theorem not_coherent_after_disconnect :
    ¬(empty.after [.addNode rootScope (.constant .int32 false) false,
      .addNode rootScope .drop false, .connect 0 1, .disconnect 0]).Coherent := by
  intro h
  have hport : (empty.after [.addNode rootScope (.constant .int32 false) false,
      .addNode rootScope .drop false, .connect 0 1, .disconnect 0]).ports[0]? =
        some { node := 0, direction := .output, index := 0, scope := 0, wire := none } := by
    decide
  have hwire : (empty.after [.addNode rootScope (.constant .int32 false) false,
      .addNode rootScope .drop false, .connect 0 1, .disconnect 0]).wires[0]? =
        some { scope := 0, source := 0, sinks := [1] } := by
    decide
  exact not_consistent_of_lost_source hport rfl rfl hwire rfl (by decide) h.toConsistent

end Graph

end BorrowFlow
