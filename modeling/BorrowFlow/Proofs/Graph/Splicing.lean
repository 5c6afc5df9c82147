import BorrowFlow.Proofs.Graph.Wiring

/-!
# Splices

A splice routes a value through a pair of ports. Each one rewires a single port and then connects,
so under the conditions that the insertion of borrows provides the connection cannot fail, and what
every output feeds changes in one place.
-/

namespace BorrowFlow

namespace Graph

variable {g g' : Graph} {source sink throughInput throughOutput : PortId}
  {sourcePort sinkPort inPort outPort : Port} {w : WireId}

theorem getElem?_ports_handOver {old free : PortId} {oldPort freePort : Port}
    (hold : g.ports[old]? = some oldPort) (hw : oldPort.wire = some w)
    (hnew : g.ports[free]? = some freePort) (hfree : freePort.wire = none)
    (change : Wire → Wire) (x : PortId) :
    (((g.modifyWire w change).setWire free (some w)).setWire old none).ports[x]? =
      if x = old then some { oldPort with wire := none }
      else if x = free then some { freePort with wire := some w } else g.ports[x]? := by
  rw [getElem?_ports_setWire, getElem?_ports_setWire]
  by_cases hx : x = old
  · have hne : x ≠ free := by
      rintro rfl
      rw [hx, hold] at hnew
      cases Option.some.inj hnew
      cases hfree.symm.trans hw
    rw [if_pos hx, if_pos hx, if_neg hne, hx, modifyWire, hold, Option.map_some]
  · rw [if_neg hx, if_neg hx]
    by_cases hx' : x = free
    · rw [if_pos hx', if_pos hx', hx', modifyWire, hnew, Option.map_some]
    · rw [if_neg hx', if_neg hx']
      rfl

/-! ## In front of an input -/

/-- The value that fed an input goes through a pair of ports first. -/
structure Spliced (g : Graph) (sink throughInput throughOutput : PortId) (g' : Graph) :
    Prop where
  wired : ∃ source, sink ∈ g.sinksAt source
  layout : g.SameLayout g'
  consistent : g'.Consistent
  sinksAt : ∀ x, g'.sinksAt x =
    if x = throughOutput then [sink]
    else (g.sinksAt x).map (redirect sink throughInput)

section

variable {x id : PortId} (h : g.Spliced sink throughInput throughOutput g')
include h

theorem Spliced.of_mem (hid : id ∈ g'.sinksAt x) :
    x = throughOutput ∧ id = sink ∨ x ≠ throughOutput ∧
      (id = throughInput ∧ sink ∈ g.sinksAt x ∨ id ≠ sink ∧ id ∈ g.sinksAt x) := by
  rw [h.sinksAt] at hid
  split at hid
  · rename_i heq
    exact .inl ⟨heq, List.mem_singleton.mp hid⟩
  · rename_i hne
    exact .inr ⟨hne, mem_map_redirect.mp hid⟩

theorem Spliced.mem (hfree : g.sinksAt throughOutput = []) (hid : id ∈ g.sinksAt x) :
    redirect sink throughInput id ∈ g'.sinksAt x := by
  rw [h.sinksAt, if_neg]
  · exact List.mem_map_of_mem hid
  · rintro rfl
    rw [hfree] at hid
    cases hid

end

/-- The graph in which the inner input stands on the wire in the place of the sink. -/
def withSink (g : Graph) (w : WireId) (sink throughInput : PortId) : Graph :=
  ((g.modifyWire w fun data =>
    { data with
      sinks := data.sinks.map fun port => if port = sink then throughInput else port }).setWire
        throughInput (some w)).setWire sink none

/-- What a splice does before it connects takes place only if both ports are there, the sink has a
wire and the inner input has none. -/
theorem splice_eq (g : Graph) (sink throughInput throughOutput : PortId) :
    splice sink throughInput throughOutput g =
      match g.ports[sink]? with
      | none => .error (.unknownPort sink) g
      | some sinkPort =>
        match sinkPort.wire, g.ports[throughInput]? with
        | none, _ => .error (.spliceUnconnected sink) g
        | some _, none => .error (.unknownPort throughInput) g
        | some w, some inPort =>
          match inPort.wire with
          | some _ => .error (.spliceInputOccupied throughInput) g
          | none => EStateM.bind (connect throughOutput sink) (fun _ => EStateM.pure ())
              (g.withSink w sink throughInput) := by
  simp only [splice, getPort, bind, EStateM.bind, get, getThe, MonadStateOf.get, get_run,
    liftM, monadLift, MonadLift.monadLift]
  cases g.ports[sink]? with
  | none => rfl
  | some sinkPort =>
    simp only [pure, EStateM.pure]
    cases sinkPort.wire with
    | none => rfl
    | some w =>
      cases g.ports[throughInput]? with
      | none => rfl
      | some inPort =>
        obtain ⟨_, _, _, _, wire⟩ := inPort
        cases wire with
        | none => rfl
        | some v => rfl

section

variable (hsink : g.ports[sink]? = some sinkPort) (hw : sinkPort.wire = some w)
  (hin : g.ports[throughInput]? = some inPort) (hfree : inPort.wire = none)
include hsink hw hin hfree

theorem splice_of_connect {v : WireId}
    (hconnect : connect throughOutput sink (g.withSink w sink throughInput) = .ok v g') :
    splice sink throughInput throughOutput g = .ok () g' := by
  rw [splice_eq, hsink]
  simp only [hw, hin, hfree, EStateM.bind, hconnect]
  rfl

theorem leaves_splice : leaves (splice sink throughInput throughOutput) g =
      leaves (connect throughOutput sink) (g.withSink w sink throughInput) := by
  rw [← leaves_bind_pure (connect throughOutput sink) (), leaves, splice_eq, hsink]
  simp only [hw, hin, hfree]
  rfl

end

theorem leaves_splice_of_refused (h : ¬∃ sinkPort inPort : Port,
      g.ports[sink]? = some sinkPort ∧ g.ports[throughInput]? = some inPort ∧
        sinkPort.wire ≠ none ∧ inPort.wire = none) :
    leaves (splice sink throughInput throughOutput) g = g := by
  rw [leaves, splice_eq]
  cases hsink : g.ports[sink]? with
  | none => rfl
  | some sinkPort =>
    dsimp only
    cases hw : sinkPort.wire with
    | none => rfl
    | some w =>
      cases hin : g.ports[throughInput]? with
      | none => rfl
      | some inPort =>
        dsimp only
        cases hfree : inPort.wire with
        | some v => rfl
        | none => exact absurd ⟨sinkPort, inPort, hsink, hin, by simp [hw], hfree⟩ h

section Sink

variable (hsink : g.ports[sink]? = some sinkPort) (hw : sinkPort.wire = some w)
  (hin : g.ports[throughInput]? = some inPort) (hfree : inPort.wire = none)

include hsink hw hin hfree

theorem getElem?_ports_withSink (x : PortId) : (g.withSink w sink throughInput).ports[x]? =
      if x = sink then some { sinkPort with wire := none }
      else if x = throughInput then some { inPort with wire := some w }
      else g.ports[x]? :=
  getElem?_ports_handOver hsink hw hin hfree _ x

omit hsink hw hin hfree in
theorem getElem?_wires_withSink {wire : Wire} (hwire : g.wires[w]? = some wire) (v : WireId) :
    (g.withSink w sink throughInput).wires[v]? =
      if v = w then some { wire with sinks := wire.sinks.map (redirect sink throughInput) }
      else g.wires[v]? :=
  getElem?_wires_modifyWire_of_some hwire _ v

theorem Consistent.withSink (h : g.Consistent) (hinput : sinkPort.direction = .input)
    (hinput' : inPort.direction = .input) (hscope : inPort.scope = sinkPort.scope) :
    (g.withSink w sink throughInput).Consistent ∧ ∀ x, (g.withSink w sink throughInput).sinksAt x =
        (g.sinksAt x).map (redirect sink throughInput) := by
  obtain ⟨wire, hwire, -⟩ := h.wire_of_input hsink hinput hw
  exact h.replaceSink hsink hin hinput hinput' hscope hfree hw hwire
    (getElem?_ports_withSink hsink hw hin hfree) (getElem?_wires_withSink hwire)

end Sink

section

variable (h : g.Consistent) (hsink : g.ports[sink]? = some sinkPort)
  (hin : g.ports[throughInput]? = some inPort) (hout : g.ports[throughOutput]? = some outPort)
  (hinput : sinkPort.direction = .input) (hinput' : inPort.direction = .input)
  (houtput : outPort.direction = .output) (hscope : inPort.scope = sinkPort.scope)
  (hscope' : outPort.scope = sinkPort.scope)
include h hsink hin hout hinput hinput' houtput hscope hscope'

theorem Consistent.splice_ok (hw : sinkPort.wire = some w) (hfree : inPort.wire = none)
    (hfree' : outPort.wire = none) :
    ∃ g', splice sink throughInput throughOutput g = .ok () g' ∧
      g.Spliced sink throughInput throughOutput g' := by
  obtain ⟨wire, hwire, hm, -⟩ := h.wire_of_input hsink hinput hw
  have hsource := h.sinksAt_source hwire (List.ne_nil_of_mem hm)
  have hports := getElem?_ports_withSink hsink hw hin hfree
  obtain ⟨hconsistent, hsinks⟩ := h.withSink hsink hw hin hfree hinput hinput' hscope
  have hlayout : g.SameLayout (g.withSink w sink throughInput) :=
    ((sameLayout_modifyWire ..).trans (sameLayout_setWire ..)).trans (sameLayout_setWire ..)
  -- the output is neither of the two inputs, so the connection finds it as it was
  have hout' : (g.withSink w sink throughInput).ports[throughOutput]? = some outPort := by
    have hne : throughOutput ≠ sink ∧ throughOutput ≠ throughInput := by
      grind
    rw [hports, if_neg hne.1, if_neg hne.2, hout]
  have hsink' : (g.withSink w sink throughInput).ports[sink]? =
      some { sinkPort with wire := none } := by
    rw [hports, if_pos rfl]
  obtain ⟨v, g', hconnect, hjoined⟩ :=
    hconsistent.connect_ok hout' hsink' houtput hinput hscope' rfl
  refine ⟨g', splice_of_connect hsink hw hin hfree hconnect, ⟨wire.source, hsource ▸ hm⟩,
    hlayout.trans hjoined.layout, hjoined.consistent, fun x => ?_⟩
  rw [hjoined.sinksAt, hsinks, hsinks, sinksAt_of_unwired hout hfree']
  rfl

/-- A splice in front of an input that has no wire is refused, and every other one is made. -/
theorem Consistent.splice_cases (hfree : ∀ x, throughInput ∉ g.sinksAt x)
    (hfree' : g.sinksAt throughOutput = []) :
    (∃ fault, splice sink throughInput throughOutput g = .error fault g ∧ ∀ x, sink ∉ g.sinksAt x) ∨
      ∃ g', splice sink throughInput throughOutput g = .ok () g' ∧
        g.Spliced sink throughInput throughOutput g' := by
  have hin' := h.wire_eq_none_of_input hin hinput' hfree
  have hout' := h.wire_eq_none_of_output hout houtput hfree'
  cases hw : sinkPort.wire with
  | none =>
    refine .inl ⟨.spliceUnconnected sink, ?_, h.not_mem_sinksAt hsink hinput hw⟩
    rw [splice_eq, hsink]
    simp only [hw]
  | some w =>
    exact .inr (h.splice_ok hsink hin hout hinput hinput' houtput hscope hscope' hw hin' hout')

end

/-! ## Behind an output -/

/-- Everything that an output fed is fed through a pair of ports. -/
structure SplicedAfter (g : Graph) (source throughInput throughOutput : PortId)
    (g' : Graph) : Prop where
  layout : g.SameLayout g'
  consistent : g'.Consistent
  sinksAt : ∀ x, g'.sinksAt x =
    if x = source then [throughInput]
    else if x = throughOutput then g.sinksAt source else g.sinksAt x

section

variable {x id : PortId} (h : g.SplicedAfter source throughInput throughOutput g')
include h

theorem SplicedAfter.of_mem (hid : id ∈ g'.sinksAt x) :
    x = source ∧ id = throughInput ∨ x ≠ source ∧ (x = throughOutput ∧ id ∈ g.sinksAt source ∨
        x ≠ throughOutput ∧ id ∈ g.sinksAt x) := by
  rw [h.sinksAt] at hid
  split at hid
  · rename_i heq
    exact .inl ⟨heq, List.mem_singleton.mp hid⟩
  · rename_i hne
    refine .inr ⟨hne, ?_⟩
    split at hid
    · rename_i heq
      exact .inl ⟨heq, hid⟩
    · rename_i hne'
      exact .inr ⟨hne', hid⟩

theorem SplicedAfter.input_mem : throughInput ∈ g'.sinksAt source := by
  rw [h.sinksAt, if_pos rfl]
  exact List.mem_singleton_self throughInput

theorem SplicedAfter.mem (hfree : g.sinksAt throughOutput = []) (hid : id ∈ g.sinksAt x) :
    id ∈ g'.sinksAt (redirect source throughOutput x) := by
  have hne : x ≠ throughOutput := by
    rintro rfl
    rw [hfree] at hid
    cases hid
  rw [redirect]
  split
  · rename_i heq
    subst heq
    rwa [h.sinksAt, if_neg hne.symm, if_pos rfl]
  · rename_i ho
    rwa [h.sinksAt, if_neg ho, if_neg hne]

end

/-- The graph in which the inner output has taken over the wire of the source. -/
def withSource (g : Graph) (w : WireId) (source throughOutput : PortId) : Graph :=
  ((g.modifyWire w fun data => { data with source := throughOutput }).setWire throughOutput
    (some w)).setWire source none

theorem spliceAfter_eq (g : Graph) (source throughInput throughOutput : PortId) :
    spliceAfter source throughInput throughOutput g =
      match g.ports[throughOutput]? with
      | none => .error (.unknownPort throughOutput) g
      | some outPort =>
        match outPort.wire, g.ports[source]? with
        | some _, _ => .error (.spliceOutputOccupied throughOutput) g
        | none, none => .error (.unknownPort source) g
        | none, some sourcePort =>
          if outPort.scope ≠ sourcePort.scope then
            .error (.spliceAcrossScopes throughOutput source) g
          else EStateM.bind (connect source throughInput) (fun _ => EStateM.pure ())
            (match sourcePort.wire with
              | some w => g.withSource w source throughOutput
              | none => g) := by
  simp only [spliceAfter, getPort, bind, EStateM.bind, get, getThe, MonadStateOf.get, get_run,
    liftM, monadLift, MonadLift.monadLift]
  cases g.ports[throughOutput]? with
  | none => rfl
  | some outPort =>
    obtain ⟨_, _, _, scope, wire⟩ := outPort
    cases wire with
    | some v => rfl
    | none =>
      cases g.ports[source]? with
      | none => rfl
      | some sourcePort =>
        simp only [pure, EStateM.pure, EStateM.bind, Option.isSome_none, Bool.false_eq_true,
          ↓reduceIte]
        by_cases hscope : scope = sourcePort.scope
        · rw [if_neg (not_not_intro hscope), if_neg (not_not_intro hscope)]
          cases sourcePort.wire with
          | none => rfl
          | some w => rfl
        · rw [if_pos hscope, if_pos hscope]
          rfl

section

variable (hsource : g.ports[source]? = some sourcePort)
  (hout : g.ports[throughOutput]? = some outPort)
  (hfree : outPort.wire = none) (hscope : outPort.scope = sourcePort.scope)
include hsource hout hfree hscope

theorem spliceAfter_of_connect {v : WireId}
    (hconnect : connect source throughInput (match sourcePort.wire with
      | some w => g.withSource w source throughOutput
      | none => g) = .ok v g') :
    spliceAfter source throughInput throughOutput g = .ok () g' := by
  rw [spliceAfter_eq, hout, hsource]
  simp only [hfree, hscope, ne_eq, not_true_eq_false, ↓reduceIte, EStateM.bind, hconnect]
  rfl

theorem leaves_spliceAfter : leaves (spliceAfter source throughInput throughOutput) g =
      leaves (connect source throughInput) (match sourcePort.wire with
        | some w => g.withSource w source throughOutput
        | none => g) := by
  rw [← leaves_bind_pure (connect source throughInput) (), leaves, spliceAfter_eq, hout, hsource]
  simp only [hfree, hscope, ne_eq, not_true_eq_false, ↓reduceIte]
  rfl

end

theorem leaves_spliceAfter_of_refused (h : ¬∃ sourcePort outPort : Port,
      g.ports[source]? = some sourcePort ∧ g.ports[throughOutput]? = some outPort ∧
        outPort.wire = none ∧ outPort.scope = sourcePort.scope) :
    leaves (spliceAfter source throughInput throughOutput) g = g := by
  rw [leaves, spliceAfter_eq]
  cases hout : g.ports[throughOutput]? with
  | none => rfl
  | some outPort =>
    dsimp only
    cases hfree : outPort.wire with
    | some v => rfl
    | none =>
      cases hsource : g.ports[source]? with
      | none => rfl
      | some sourcePort =>
        have hscope : outPort.scope ≠ sourcePort.scope := fun hscope =>
          h ⟨sourcePort, outPort, hsource, hout, hfree, hscope⟩
        simp only [if_pos hscope]

section Source

variable (hsource : g.ports[source]? = some sourcePort) (hw : sourcePort.wire = some w)
  (hout : g.ports[throughOutput]? = some outPort) (hfree : outPort.wire = none)

include hsource hw hout hfree

theorem getElem?_ports_withSource (x : PortId) : (g.withSource w source throughOutput).ports[x]? =
      if x = source then some { sourcePort with wire := none }
      else if x = throughOutput then some { outPort with wire := some w }
      else g.ports[x]? :=
  getElem?_ports_handOver hsource hw hout hfree _ x

omit hsource hw hout hfree in
theorem getElem?_wires_withSource {wire : Wire} (hwire : g.wires[w]? = some wire)
    (v : WireId) : (g.withSource w source throughOutput).wires[v]? =
      if v = w then some { wire with source := throughOutput } else g.wires[v]? :=
  getElem?_wires_modifyWire_of_some hwire _ v

theorem Consistent.withSource (h : g.Consistent) (houtput : sourcePort.direction = .output)
    (houtput' : outPort.direction = .output) (hscope : outPort.scope = sourcePort.scope) :
    (g.withSource w source throughOutput).Consistent ∧
      ∀ x, (g.withSource w source throughOutput).sinksAt x =
        if x = source then []
        else if x = throughOutput then g.sinksAt source else g.sinksAt x := by
  obtain ⟨wire, hwire, -⟩ := h.wire_of_output hsource houtput hw
  exact h.moveSource hsource hout houtput houtput' hscope hfree hw hwire
    (getElem?_ports_withSource hsource hw hout hfree) (getElem?_wires_withSource hwire)

end Source

theorem Consistent.spliceAfter_ok (h : g.Consistent) (hsource : g.ports[source]? = some sourcePort)
    (hin : g.ports[throughInput]? = some inPort)
    (hout : g.ports[throughOutput]? = some outPort) (houtput : sourcePort.direction = .output)
    (hinput : inPort.direction = .input) (houtput' : outPort.direction = .output)
    (hscope : inPort.scope = sourcePort.scope) (hscope' : outPort.scope = sourcePort.scope)
    (hfree : inPort.wire = none) (hfree' : outPort.wire = none) :
    ∃ g', spliceAfter source throughInput throughOutput g = .ok () g' ∧
      g.SplicedAfter source throughInput throughOutput g' := by
  cases hw : sourcePort.wire with
  | none =>
    obtain ⟨v, g', hconnect, hjoined⟩ :=
      h.connect_ok hsource hin houtput hinput hscope.symm hfree
    refine ⟨g', spliceAfter_of_connect hsource hout hfree' hscope' (by rw [hw]; exact hconnect),
      hjoined.layout, hjoined.consistent, fun x => ?_⟩
    rw [hjoined.sinksAt, sinksAt_of_unwired hsource hw]
    by_cases hx : x = throughOutput
    · rw [if_pos hx, hx, sinksAt_of_unwired hout hfree']
      rfl
    · rw [if_neg hx]
      rfl
  | some w =>
    have hports := getElem?_ports_withSource hsource hw hout hfree'
    obtain ⟨hconsistent, hsinks⟩ := h.withSource hsource hw hout hfree' houtput houtput' hscope'
    have hlayout : g.SameLayout (g.withSource w source throughOutput) :=
      ((sameLayout_modifyWire ..).trans (sameLayout_setWire ..)).trans (sameLayout_setWire ..)
    have hsource' : (g.withSource w source throughOutput).ports[source]? =
        some { sourcePort with wire := none } := by
      rw [hports, if_pos rfl]
    have hin' : (g.withSource w source throughOutput).ports[throughInput]? = some inPort := by
      have ho : throughInput ≠ source ∧ throughInput ≠ throughOutput := by
        grind
      rw [hports, if_neg ho.1, if_neg ho.2, hin]
    obtain ⟨v, g', hconnect, hjoined⟩ :=
      hconsistent.connect_ok hsource' hin' houtput hinput hscope.symm hfree
    refine ⟨g', spliceAfter_of_connect hsource hout hfree' hscope' (by rw [hw]; exact hconnect),
      hlayout.trans hjoined.layout, hjoined.consistent, fun x => ?_⟩
    rw [hjoined.sinksAt, hsinks, hsinks, if_pos rfl]
    by_cases hx : x = source
    · rw [if_pos hx, if_pos hx]
      rfl
    · rw [if_neg hx, if_neg hx, if_neg hx]

end Graph

end BorrowFlow
