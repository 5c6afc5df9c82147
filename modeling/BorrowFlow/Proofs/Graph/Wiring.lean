import BorrowFlow.Proofs.Graph.Layout
import Mathlib.Data.List.Basic

/-!
# Wires and ports that agree

A graph records its wiring twice: a port names its wire, and a wire names its ports. The two agree
after every edit that is asked of the right ports. What the wiring means is which inputs every
output feeds, in order, and each edit is described by what it does to these lists.
-/

namespace BorrowFlow

variable {free : PortId} {sinks : List PortId}

namespace Graph

/-- An output names the wire that it is the source of, if the wire feeds anything, and an input the
wire that it is a sink of. Wires lead from outputs to inputs, all facing the scope of the wire. -/
structure Consistent (g : Graph) : Prop where
  output : ∀ {id : PortId} {port : Port}, g.ports[id]? = some port →
    port.direction = .output → ∀ w : WireId, port.wire = some w ↔
      ∃ wire : Wire, g.wires[w]? = some wire ∧ wire.source = id ∧ wire.sinks ≠ []
  input : ∀ {id : PortId} {port : Port}, g.ports[id]? = some port →
    port.direction = .input → ∀ w : WireId, port.wire = some w ↔
      ∃ wire : Wire, g.wires[w]? = some wire ∧ id ∈ wire.sinks
  nodup : ∀ {w : WireId} {wire : Wire}, g.wires[w]? = some wire → wire.sinks.Nodup
  source : ∀ {w : WireId} {wire : Wire}, g.wires[w]? = some wire →
    ∃ port : Port, g.ports[wire.source]? = some port ∧ port.direction = .output ∧
      port.scope = wire.scope
  sink : ∀ {w : WireId} {wire : Wire} {id : PortId}, g.wires[w]? = some wire →
    id ∈ wire.sinks → ∃ port : Port, g.ports[id]? = some port ∧ port.direction = .input ∧
      port.scope = wire.scope

/-- The inputs that an output feeds, none for any other port. -/
def sinksAt (g : Graph) (id : PortId) : List PortId :=
  match g.ports[id]? with
  | some { direction := .output, wire := some w, .. } =>
    ((g.wires[w]?).map Wire.sinks).getD []
  | _ => []

/-- The output that feeds an input, none for any other port. -/
def sourceAt (g : Graph) (id : PortId) : Option PortId :=
  match g.ports[id]? with
  | some { direction := .input, wire := some w, .. } => (g.wires[w]?).map Wire.source
  | _ => none

variable {g g' : Graph} {source sink : PortId} {sourcePort sinkPort : Port} {w : WireId}
  {wire : Wire}

/-! ## What the wiring means -/

theorem sinksAt_of_wire (hport : g.ports[source]? = some sourcePort)
    (hdirection : sourcePort.direction = .output) (hw : sourcePort.wire = some w)
    (hwire : g.wires[w]? = some wire) : g.sinksAt source = wire.sinks := by
  obtain ⟨_, _, _, _, _⟩ := sourcePort
  obtain rfl : _ = Direction.output := hdirection
  obtain rfl : _ = some w := hw
  rw [sinksAt, hport]
  simp [hwire]

theorem sinksAt_of_unwired (hport : g.ports[source]? = some sourcePort)
    (hw : sourcePort.wire = none) : g.sinksAt source = [] := by
  obtain ⟨_, direction, _, _, _⟩ := sourcePort
  obtain rfl : _ = none := hw
  rw [sinksAt, hport]
  cases direction <;> rfl

theorem sinksAt_of_input (hport : g.ports[sink]? = some sinkPort)
    (hinput : sinkPort.direction = .input) : g.sinksAt sink = [] := by
  obtain ⟨_, direction, _, _, _⟩ := sinkPort
  obtain rfl : _ = Direction.input := hinput
  rw [sinksAt, hport]

theorem mem_sinksAt (h : sink ∈ g.sinksAt source) :
    ∃ port w wire, g.ports[source]? = some port ∧ port.direction = .output ∧
      port.wire = some w ∧ g.wires[w]? = some wire ∧ g.sinksAt source = wire.sinks := by
  unfold sinksAt at h
  split at h
  · rename_i n index scope w hport
    cases hwire : g.wires[w]? with
    | none => simp [hwire] at h
    | some wire =>
      exact ⟨_, w, wire, hport, rfl, rfl, hwire, sinksAt_of_wire hport rfl rfl hwire⟩
  · cases h

theorem Consistent.mem_sinksAt_iff (h : g.Consistent) :
    sink ∈ g.sinksAt source ↔ g.sourceAt sink = some source := by
  constructor
  · intro hm
    obtain ⟨port, w, wire, hport, hdirection, hw, hwire, hsinks⟩ := mem_sinksAt hm
    obtain ⟨found, hf, hsource, -⟩ := (h.output hport hdirection w).mp hw
    cases hwire.symm.trans hf
    rw [hsinks] at hm
    obtain ⟨sinkPort, hsinkPort, hinput, -⟩ := h.sink hwire hm
    have hsinkWire := (h.input hsinkPort hinput w).mpr ⟨wire, hwire, hm⟩
    obtain ⟨_, _, _, _, _⟩ := sinkPort
    obtain rfl : _ = Direction.input := hinput
    obtain rfl : _ = some w := hsinkWire
    rw [sourceAt, hsinkPort]
    simp [hwire, hsource]
  · intro hsource
    unfold sourceAt at hsource
    split at hsource
    · rename_i n index scope w hport
      obtain ⟨wire, hwire, rfl⟩ := Option.map_eq_some_iff.mp hsource
      obtain ⟨found, hf, hm⟩ := (h.input hport rfl w).mp rfl
      cases hwire.symm.trans hf
      obtain ⟨sourcePort, hsourcePort, houtput, -⟩ := h.source hwire
      have hw := (h.output hsourcePort houtput w).mpr ⟨wire, hwire, rfl, List.ne_nil_of_mem hm⟩
      rwa [sinksAt_of_wire hsourcePort houtput hw hwire]
    · cases hsource

theorem Consistent.ends (h : g.Consistent) (hm : sink ∈ g.sinksAt source) :
    ∃ sourcePort sinkPort, g.ports[source]? = some sourcePort ∧
      g.ports[sink]? = some sinkPort ∧ sourcePort.direction = .output ∧
        sinkPort.direction = .input ∧ sourcePort.scope = sinkPort.scope := by
  obtain ⟨port, w, wire, hport, hdirection, hw, hwire, hsinks⟩ := mem_sinksAt hm
  obtain ⟨found, hf, rfl, -⟩ := (h.output hport hdirection w).mp hw
  cases hwire.symm.trans hf
  rw [hsinks] at hm
  obtain ⟨sourcePort, hsourcePort, -, hscope⟩ := h.source hwire
  obtain ⟨sinkPort, hsinkPort, hinput, hscope'⟩ := h.sink hwire hm
  cases hport.symm.trans hsourcePort
  exact ⟨port, sinkPort, hport, hsinkPort, hdirection, hinput, hscope.trans hscope'.symm⟩

theorem Consistent.sinksAt_source (h : g.Consistent) (hwire : g.wires[w]? = some wire)
    (hsinks : wire.sinks ≠ []) : g.sinksAt wire.source = wire.sinks := by
  obtain ⟨port, hport, hdirection, -⟩ := h.source hwire
  have hw := (h.output hport hdirection w).mpr ⟨wire, hwire, rfl, hsinks⟩
  exact sinksAt_of_wire hport hdirection hw hwire

theorem Consistent.sinksAt_eq_nil (h : g.Consistent)
    (hidle : ∀ (w : WireId) (wire : Wire), g.wires[w]? = some wire → wire.source = source →
      wire.sinks = []) : g.sinksAt source = [] := by
  by_contra hne
  obtain ⟨sink, hsink⟩ := List.exists_mem_of_ne_nil _ hne
  obtain ⟨port, w, wire, hport, hdirection, hw, hwire, hsinks⟩ := mem_sinksAt hsink
  obtain ⟨found, hf, hsource, -⟩ := (h.output hport hdirection w).mp hw
  cases hwire.symm.trans hf
  exact hne (hsinks.trans (hidle w wire hwire hsource))

theorem Consistent.sinksAt_congr (h : g.Consistent) (h' : g'.Consistent)
    (hwires : ∀ (w : WireId) (wire : Wire), wire.source = source →
      (g'.wires[w]? = some wire ↔ g.wires[w]? = some wire)) :
    g'.sinksAt source = g.sinksAt source := by
  by_cases hidle : ∀ (w : WireId) (wire : Wire), g.wires[w]? = some wire →
      wire.source = source → wire.sinks = []
  · rw [h.sinksAt_eq_nil hidle]
    exact h'.sinksAt_eq_nil fun w wire hwire hsource =>
      hidle w wire ((hwires w wire hsource).mp hwire) hsource
  · simp only [not_forall] at hidle
    obtain ⟨w, wire, hwire, rfl, hne⟩ := hidle
    rw [h.sinksAt_source hwire hne, h'.sinksAt_source ((hwires w wire rfl).mpr hwire) hne]

/-! ## Changes of single wires and ports -/

theorem getElem?_ports_setWire (g : Graph) (id : PortId) (new : Option WireId) (x : PortId) :
    (g.setWire id new).ports[x]? =
      if x = id then (g.ports[x]?).map fun port => { port with wire := new }
      else g.ports[x]? := by
  rw [setWire, Array.getElem?_modify]
  by_cases h : id = x
  · rw [if_pos h, if_pos h.symm]
  · rw [if_neg h, if_neg (Ne.symm h)]

theorem getElem?_wires_modifyWire (g : Graph) (w : WireId) (change : Wire → Wire)
    (v : WireId) : (g.modifyWire w change).wires[v]? =
      if v = w then (g.wires[v]?).map change else g.wires[v]? := by
  rw [modifyWire, Array.getElem?_modify]
  by_cases h : w = v
  · rw [if_pos h, if_pos h.symm]
  · rw [if_neg h, if_neg (Ne.symm h)]

theorem getElem?_wires_modifyWire_of_some (hwire : g.wires[w]? = some wire)
    (change : Wire → Wire) (v : WireId) : (g.modifyWire w change).wires[v]? =
      if v = w then some (change wire) else g.wires[v]? := by
  rw [getElem?_wires_modifyWire]
  split
  · rename_i hv
    rw [hv, hwire, Option.map_some]
  · rfl

theorem sameLayout_setWire (g : Graph) (id : PortId) (new : Option WireId) :
    g.SameLayout (g.setWire id new) where
  scopes := rfl
  nodes := rfl
  port x := by
    rw [getElem?_ports_setWire]
    split
    · rw [Option.map_map]
      rfl
    · rfl

theorem sameLayout_modifyWire (g : Graph) (w : WireId) (change : Wire → Wire) :
    g.SameLayout (g.modifyWire w change) :=
  ⟨rfl, rfl, fun _ => rfl⟩

/-! ## Single steps of rewiring

Each step is given by what it makes of every port and every wire. -/

section

variable (h : g.Consistent)
include h

theorem Consistent.not_mem_sinks (hsink : g.ports[sink]? = some sinkPort)
    (hinput : sinkPort.direction = .input) (hfree : sinkPort.wire = none) (v : WireId) (data : Wire)
    (hd : g.wires[v]? = some data) : sink ∉ data.sinks := by
  intro hm
  have hoccupied := (h.input hsink hinput v).mpr ⟨data, hd, hm⟩
  rw [hfree] at hoccupied
  cases hoccupied

theorem Consistent.not_mem_sinksAt (hsink : g.ports[sink]? = some sinkPort)
    (hinput : sinkPort.direction = .input) (hfree : sinkPort.wire = none) (x : PortId) :
    sink ∉ g.sinksAt x := by
  intro hm
  obtain ⟨_, v, data, -, -, -, hd, hsinks⟩ := mem_sinksAt hm
  exact h.not_mem_sinks hsink hinput hfree v data hd (hsinks ▸ hm)

theorem Consistent.sinks_eq_nil (hsource : g.ports[source]? = some sourcePort)
    (houtput : sourcePort.direction = .output) (hnone : sourcePort.wire = none) (v : WireId)
    (data : Wire) (hd : g.wires[v]? = some data) (heq : data.source = source) :
    data.sinks = [] := by
  by_contra hlive
  have hw := (h.output hsource houtput v).mpr ⟨data, hd, heq, hlive⟩
  rw [hnone] at hw
  cases hw

theorem Consistent.wire_of_output (hsource : g.ports[source]? = some sourcePort)
    (houtput : sourcePort.direction = .output) (hw : sourcePort.wire = some w) :
    ∃ wire, g.wires[w]? = some wire ∧
      wire.source = source ∧ wire.scope = sourcePort.scope ∧ wire.sinks ≠ [] := by
  obtain ⟨wire, hwire, rfl, hlive⟩ := (h.output hsource houtput w).mp hw
  obtain ⟨port, hport, -, hscope⟩ := h.source hwire
  cases hsource.symm.trans hport
  exact ⟨wire, hwire, rfl, hscope.symm, hlive⟩

theorem Consistent.wire_of_input (hsink : g.ports[sink]? = some sinkPort)
    (hinput : sinkPort.direction = .input) (hw : sinkPort.wire = some w) :
    ∃ wire, g.wires[w]? = some wire ∧ sink ∈ wire.sinks ∧ wire.scope = sinkPort.scope := by
  obtain ⟨wire, hwire, hm⟩ := (h.input hsink hinput w).mp hw
  obtain ⟨port, hport, -, hscope⟩ := h.sink hwire hm
  cases hsink.symm.trans hport
  exact ⟨wire, hwire, hm, hscope.symm⟩

theorem Consistent.sinksOf_eq (hport : g.ports[source]? = some sourcePort) :
    g.sinksOf source = .ok (g.sinksAt source) := by
  unfold sinksOf getPort
  rw [hport]
  simp only [bind, Except.bind]
  split
  · rename_i w hdirection hw
    obtain ⟨wire, hwire, -⟩ := h.wire_of_output hport hdirection hw
    rw [getWire, hwire, sinksAt_of_wire hport hdirection hw hwire]
    rfl
  · rename_i ho
    cases hdirection : sourcePort.direction with
    | input => rw [sinksAt_of_input hport hdirection]; rfl
    | output =>
      cases hw : sourcePort.wire with
      | none => rw [sinksAt_of_unwired hport hw]; rfl
      | some w => exact absurd hw (ho w hdirection)

theorem Consistent.sourceOf_eq (hport : g.ports[sink]? = some sinkPort) :
    g.sourceOf sink = .ok (g.sourceAt sink) := by
  obtain ⟨node, direction, index, scope, wire⟩ := sinkPort
  unfold sourceOf getPort
  rw [hport, sourceAt, hport]
  simp only [bind, Except.bind]
  cases direction with
  | output => rfl
  | input =>
    cases wire with
    | none => rfl
    | some w =>
      obtain ⟨found, hf, -⟩ := h.wire_of_input hport rfl rfl
      simp only [getWire, hf]
      rfl

end

def redirect (sink free port : PortId) : PortId := if port = sink then free else port

theorem map_redirect_of_not_mem (h : sink ∉ sinks) : sinks.map (redirect sink free) = sinks := by
  refine (List.map_congr_left fun port hport => ?_).trans (List.map_id sinks)
  have hne : port ≠ sink := by
    rintro rfl
    exact h hport
  exact if_neg hne

theorem mem_map_redirect {id : PortId} : id ∈ sinks.map (redirect sink free) ↔
      (id = free ∧ sink ∈ sinks) ∨ (id ≠ sink ∧ id ∈ sinks) := by
  grind [redirect]

theorem nodup_map_redirect (h : sinks.Nodup) (hfree : free ∉ sinks) :
    (sinks.map (redirect sink free)).Nodup := by
  induction sinks with
  | nil => exact .nil
  | cons port sinks ih =>
    rw [List.nodup_cons] at h
    rw [List.map_cons, List.nodup_cons]
    refine ⟨?_, ih h.2 fun hm => hfree (List.mem_cons_of_mem _ hm)⟩
    intro hm
    grind [redirect]

theorem Consistent.replaceSink (h : g.Consistent) {freePort : Port}
    (hsink : g.ports[sink]? = some sinkPort) (hfree : g.ports[free]? = some freePort)
    (hinput : sinkPort.direction = .input) (hinput' : freePort.direction = .input)
    (hscope : freePort.scope = sinkPort.scope) (hnone : freePort.wire = none)
    (hw : sinkPort.wire = some w) (hwire : g.wires[w]? = some wire)
    (hports : ∀ x : PortId, g'.ports[x]? =
      if x = sink then some { sinkPort with wire := none }
      else if x = free then some { freePort with wire := some w } else g.ports[x]?)
    (hwires : ∀ v : WireId, g'.wires[v]? =
      if v = w then some { wire with sinks := wire.sinks.map (redirect sink free) }
      else g.wires[v]?) :
    g'.Consistent ∧ ∀ x, g'.sinksAt x = (g.sinksAt x).map (redirect sink free) := by
  obtain ⟨found, hf, hm, hwireScope⟩ := h.wire_of_input hsink hinput hw
  cases hwire.symm.trans hf
  have hfresh := h.not_mem_sinks hfree hinput' hnone
  have hne : free ≠ sink := by
    rintro rfl
    rw [hfree] at hsink
    cases Option.some.inj hsink
    cases hnone.symm.trans hw
  have hlive : wire.sinks.map (redirect sink free) ≠ [] := by
    intro hnil
    rw [List.map_eq_nil_iff.mp hnil] at hm
    cases hm
  have hconsistent : g'.Consistent := by
    refine ⟨?_, ?_, ?_, ?_, ?_⟩
    · intro id port hport hdirection v
      have hid : id ≠ sink ∧ id ≠ free := by
        rw [hports] at hport
        grind
      rw [hports, if_neg hid.1, if_neg hid.2] at hport
      rw [h.output hport hdirection, hwires]
      grind
    · intro id port hport hdirection v
      have ho := h.input hsink hinput v
      rw [hports] at hport
      rw [hwires]
      grind [h.input, mem_map_redirect]
    · intro v data hd
      rw [hwires] at hd
      split at hd
      · cases hd
        exact nodup_map_redirect (h.nodup hwire) (hfresh w wire hwire)
      · exact h.nodup hd
    · intro v data hd
      rw [hwires] at hd
      rw [hports]
      grind [h.source]
    · intro v data id hd hid
      rw [hwires] at hd
      rw [hports]
      grind [h.sink, mem_map_redirect]
  refine ⟨hconsistent, fun x => ?_⟩
  by_cases hx : x = wire.source
  · have hold := h.sinksAt_source hwire (List.ne_nil_of_mem hm)
    have hnew := hconsistent.sinksAt_source (show g'.wires[w]? = some _ by rw [hwires, if_pos rfl])
      hlive
    rw [hx, hold]
    exact hnew
  · -- an input feeds nothing, and any other output is not the source of the wire
    have hnot : sink ∉ g.sinksAt x := by
      intro hin
      have hsame : sink ∈ g.sinksAt wire.source := by
        rw [h.sinksAt_source hwire (List.ne_nil_of_mem hm)]
        exact hm
      rw [h.mem_sinksAt_iff] at hin hsame
      exact hx (Option.some.inj (hin.symm.trans hsame))
    rw [map_redirect_of_not_mem hnot]
    apply h.sinksAt_congr hconsistent
    intro v data hd
    rw [hwires]
    grind

theorem Consistent.moveSource (h : g.Consistent) {freePort : Port}
    (hsource : g.ports[source]? = some sourcePort) (hfree : g.ports[free]? = some freePort)
    (houtput : sourcePort.direction = .output) (houtput' : freePort.direction = .output)
    (hscope : freePort.scope = sourcePort.scope) (hnone : freePort.wire = none)
    (hw : sourcePort.wire = some w) (hwire : g.wires[w]? = some wire)
    (hports : ∀ x : PortId, g'.ports[x]? =
      if x = source then some { sourcePort with wire := none }
      else if x = free then some { freePort with wire := some w } else g.ports[x]?)
    (hwires : ∀ v : WireId, g'.wires[v]? =
      if v = w then some { wire with source := free } else g.wires[v]?) :
    g'.Consistent ∧ ∀ x, g'.sinksAt x =
      if x = source then [] else if x = free then g.sinksAt source else g.sinksAt x := by
  obtain ⟨found, hf, hwireSource, hwireScope, hlive⟩ := h.wire_of_output hsource houtput hw
  cases hwire.symm.trans hf
  have hne : free ≠ source := by
    rintro rfl
    rw [hfree] at hsource
    cases Option.some.inj hsource
    cases hnone.symm.trans hw
  have hconsistent : g'.Consistent := by
    refine ⟨?_, ?_, ?_, ?_, ?_⟩
    · intro id port hport hdirection v
      have hold := h.output hsource houtput v
      have hidle := h.output hfree houtput' v
      rw [hports] at hport
      rw [hwires]
      grind [h.output]
    · intro id port hport hdirection v
      have hid : id ≠ source ∧ id ≠ free := by
        rw [hports] at hport
        grind
      rw [hports, if_neg hid.1, if_neg hid.2] at hport
      rw [h.input hport hdirection, hwires]
      grind
    · intro v data hd
      rw [hwires] at hd
      split at hd
      · cases hd
        have hnodup := h.nodup hwire
        exact hnodup
      · exact h.nodup hd
    · intro v data hd
      rw [hwires] at hd
      rw [hports]
      grind [h.source]
    · intro v data id hd hid
      rw [hwires] at hd
      rw [hports]
      grind [h.sink]
  refine ⟨hconsistent, fun x => ?_⟩
  split
  · rename_i hx
    have hport : g'.ports[source]? = some { sourcePort with wire := none } := by
      rw [hports, if_pos rfl]
    rw [hx]
    exact sinksAt_of_unwired hport rfl
  · split
    · rename_i hx
      have hmoved : g'.wires[w]? = some { wire with source := free } := by
        rw [hwires, if_pos rfl]
      rw [hx, ← hwireSource, h.sinksAt_source hwire hlive]
      exact hconsistent.sinksAt_source hmoved hlive
    · apply h.sinksAt_congr hconsistent
      intro v data hd
      rw [hwires]
      grind

/-- A sink leaves its wire. The source of a wire that feeds nothing any more has no wire. -/
theorem Consistent.detach (h : g.Consistent) (hsink : g.ports[sink]? = some sinkPort)
    (hsource : g.ports[wire.source]? = some sourcePort) (hinput : sinkPort.direction = .input)
    (hw : sinkPort.wire = some w) (hwire : g.wires[w]? = some wire)
    (hports : ∀ x : PortId, g'.ports[x]? =
      if x = sink then some { sinkPort with wire := none }
      else if x = wire.source ∧ wire.sinks.filter (· ≠ sink) = [] then
        some { sourcePort with wire := none }
      else g.ports[x]?)
    (hwires : ∀ v : WireId, g'.wires[v]? =
      if v = w then some { wire with sinks := wire.sinks.filter (· ≠ sink) }
      else g.wires[v]?) :
    g'.Consistent := by
  obtain ⟨found, hf, hm, hwireScope⟩ := h.wire_of_input hsink hinput hw
  cases hwire.symm.trans hf
  have houtput : sourcePort.direction = .output := by
    obtain ⟨port, hport, hdirection, -⟩ := h.source hwire
    rwa [Option.some.inj (hsource.symm.trans hport)]
  refine ⟨?_, ?_, ?_, ?_, ?_⟩
  · intro id port hport hdirection v
    have hold := h.output hsource houtput v
    rw [hports] at hport
    rw [hwires]
    grind [h.output]
  · intro id port hport hdirection v
    have hold := h.input hsink hinput v
    rw [hports] at hport
    rw [hwires]
    grind [h.input]
  · intro v data hd
    rw [hwires] at hd
    split at hd
    · cases hd
      exact (h.nodup hwire).filter _
    · exact h.nodup hd
  · intro v data hd
    rw [hwires] at hd
    rw [hports]
    grind [h.source]
  · intro v data id hd hid
    rw [hwires] at hd
    rw [hports]
    grind [h.sink]

theorem Consistent.wire_eq_none_of_output (h : g.Consistent)
    (hport : g.ports[source]? = some sourcePort) (houtput : sourcePort.direction = .output)
    (hfree : g.sinksAt source = []) : sourcePort.wire = none := by
  cases hw : sourcePort.wire with
  | none => rfl
  | some w =>
    obtain ⟨wire, hwire, -, hne⟩ := (h.output hport houtput w).mp hw
    exact absurd ((sinksAt_of_wire hport houtput hw hwire).symm.trans hfree) hne

theorem Consistent.wire_eq_none_of_input (h : g.Consistent)
    (hport : g.ports[sink]? = some sinkPort) (hinput : sinkPort.direction = .input)
    (hfree : ∀ x, sink ∉ g.sinksAt x) : sinkPort.wire = none := by
  cases hw : sinkPort.wire with
  | none => rfl
  | some w =>
    obtain ⟨wire, hwire, hm⟩ := (h.input hport hinput w).mp hw
    have hsinks := h.sinksAt_source hwire (List.ne_nil_of_mem hm)
    exact absurd (hsinks ▸ hm) (hfree wire.source)

/-! ## Connecting -/

/-- The second graph is the first one with one more sink for an output. -/
structure Joined (g : Graph) (source sink : PortId) (g' : Graph) : Prop where
  free : ∀ x, sink ∉ g.sinksAt x
  layout : g.SameLayout g'
  consistent : g'.Consistent
  sinksAt : ∀ x, g'.sinksAt x =
    if x = source then g.sinksAt source ++ [sink] else g.sinksAt x

section

variable {g' : Graph} {x id : PortId} (h : g.Joined source sink g')
include h

theorem Joined.of_mem (hid : id ∈ g'.sinksAt x) : x = source ∧ id = sink ∨ id ∈ g.sinksAt x := by
  rw [h.sinksAt] at hid
  split at hid
  · rename_i heq
    subst heq
    rcases List.mem_append.mp hid with hid | hid
    · exact .inr hid
    · exact .inl ⟨rfl, List.mem_singleton.mp hid⟩
  · exact .inr hid

theorem Joined.mem (hid : id ∈ g.sinksAt x) : id ∈ g'.sinksAt x := by
  rw [h.sinksAt]
  split
  · rename_i heq
    exact List.mem_append_left _ (heq ▸ hid)
  · exact hid

end

theorem connect_eq (g : Graph) (source sink : PortId) : connect source sink g =
      match g.ports[source]?, g.ports[sink]? with
      | none, _ => .error (.unknownPort source) g
      | some _, none => .error (.unknownPort sink) g
      | some sourcePort, some sinkPort =>
        if sourcePort.direction ≠ .output ∨ sinkPort.direction ≠ .input then
          .error (.wireDirection source sink) g
        else if sourcePort.scope ≠ sinkPort.scope then
          .error (.wireAcrossScopes source sink sourcePort.scope sinkPort.scope sinkPort.node) g
        else match sinkPort.wire, sourcePort.wire with
          | some occupied, _ => .error (.sinkOccupied sink occupied sinkPort.node) g
          | none, some wire => .ok wire ((g.modifyWire wire fun data =>
              { data with sinks := data.sinks ++ [sink] }).setWire sink (some wire))
          | none, none => .ok g.wires.size
            (({ g with
              wires := g.wires.push
                { scope := sourcePort.scope, source, sinks := [sink] } }.setWire source
                  (some g.wires.size)).setWire sink (some g.wires.size)) := by
  simp only [connect, getPort, bind, EStateM.bind, get, getThe, MonadStateOf.get, get_run,
    liftM, monadLift, MonadLift.monadLift]
  cases g.ports[source]? with
  | none => rfl
  | some sourcePort =>
    cases g.ports[sink]? with
    | none => rfl
    | some sinkPort =>
      simp only [pure, EStateM.pure]
      split
      · rfl
      · split
        · rfl
        · cases sinkPort.wire with
          | some occupied => rfl
          | none =>
            cases sourcePort.wire with
            | some wire => rfl
            | none => rfl

section Connect

variable (h : g.Consistent) (hsource : g.ports[source]? = some sourcePort)
  (hsink : g.ports[sink]? = some sinkPort) (houtput : sourcePort.direction = .output)
  (hinput : sinkPort.direction = .input) (hscope : sourcePort.scope = sinkPort.scope)
  (hfree : sinkPort.wire = none)

include h hsource hsink houtput hinput hscope hfree

theorem Consistent.extend (hw : sourcePort.wire = some w)
    (hwire : g.wires[w]? = some wire) (hlayout : g.SameLayout g')
    (hports : ∀ x : PortId, g'.ports[x]? =
      if x = sink then some { sinkPort with wire := some w } else g.ports[x]?)
    (hwires : ∀ v : WireId, g'.wires[v]? =
      if v = w then some { wire with sinks := wire.sinks ++ [sink] } else g.wires[v]?) :
    g.Joined source sink g' := by
  obtain ⟨found, hf, hwireSource, hwireScope, hlive⟩ := h.wire_of_output hsource houtput hw
  cases hwire.symm.trans hf
  have hfresh := h.not_mem_sinks hsink hinput hfree
  have hconsistent : g'.Consistent := by
    refine ⟨?_, ?_, ?_, ?_, ?_⟩
    · intro id port hport hdirection v
      rw [hports] at hport
      split at hport
      · cases hport
        cases hinput.symm.trans hdirection
      · rw [h.output hport hdirection, hwires]
        grind
    · intro id port hport hdirection v
      rw [hports] at hport
      rw [hwires]
      split at hport
      · cases hport
        grind
      · rw [h.input hport hdirection]
        grind
    · intro v data hd
      rw [hwires] at hd
      split at hd
      · cases hd
        have hnodup := h.nodup hwire
        have hnew := hfresh w wire hwire
        grind
      · exact h.nodup hd
    · intro v data hd
      rw [hwires] at hd
      rw [hports]
      grind [h.source]
    · intro v data id hd hm
      rw [hwires] at hd
      rw [hports]
      grind [h.sink]
  refine ⟨h.not_mem_sinksAt hsink hinput hfree, hlayout, hconsistent, fun x => ?_⟩
  split
  · rename_i hx
    rw [hx, ← hwireSource, h.sinksAt_source hwire hlive]
    exact hconsistent.sinksAt_source (show g'.wires[w]? = some _ by rw [hwires, if_pos rfl])
      (List.append_ne_nil_of_right_ne_nil _ (List.cons_ne_nil _ _))
  · apply h.sinksAt_congr hconsistent
    intro v data hd
    rw [hwires]
    grind

theorem Consistent.joined_extend (hw : sourcePort.wire = some w) :
    g.Joined source sink ((g.modifyWire w fun data =>
      { data with sinks := data.sinks ++ [sink] }).setWire sink (some w)) := by
  obtain ⟨wire, hwire, -⟩ := h.wire_of_output hsource houtput hw
  refine h.extend hsource hsink houtput hinput hscope hfree hw hwire
    ((sameLayout_modifyWire ..).trans (sameLayout_setWire ..)) (fun x => ?_)
    (getElem?_wires_modifyWire_of_some hwire _)
  rw [getElem?_ports_setWire]
  split
  · rename_i hx
    rw [hx, modifyWire, hsink, Option.map_some]
  · rfl

theorem Consistent.begin (hnone : sourcePort.wire = none) (hlayout : g.SameLayout g')
    (hports : ∀ x : PortId, g'.ports[x]? =
      if x = sink then some { sinkPort with wire := some g.wires.size }
      else if x = source then some { sourcePort with wire := some g.wires.size }
      else g.ports[x]?)
    (hwires : ∀ v : WireId, g'.wires[v]? =
      if v = g.wires.size then some { scope := sourcePort.scope, source, sinks := [sink] }
      else g.wires[v]?) :
    g.Joined source sink g' := by
  have hend : g.wires[g.wires.size]? = none := by simp
  have hne : source ≠ sink := by
    rintro rfl
    rw [hsource] at hsink
    cases Option.some.inj hsink
    cases houtput.symm.trans hinput
  have hidle := h.sinks_eq_nil hsource houtput hnone
  have hconsistent : g'.Consistent := by
    refine ⟨?_, ?_, ?_, ?_, ?_⟩
    · intro id port hport hdirection v
      rw [hports] at hport
      rw [hwires]
      grind [h.output]
    · intro id port hport hdirection v
      rw [hports] at hport
      rw [hwires]
      grind [h.input]
    · intro v data hd
      rw [hwires] at hd
      split at hd
      · cases hd
        simp
      · exact h.nodup hd
    · intro v data hd
      rw [hwires] at hd
      rw [hports]
      grind [h.source]
    · intro v data id hd hm
      rw [hwires] at hd
      rw [hports]
      grind [h.sink]
  refine ⟨h.not_mem_sinksAt hsink hinput hfree, hlayout, hconsistent, fun x => ?_⟩
  split
  · rename_i hx
    rw [hx, h.sinksAt_eq_nil hidle]
    exact hconsistent.sinksAt_source
      (show g'.wires[g.wires.size]? = some _ by rw [hwires, if_pos rfl]) (List.cons_ne_nil _ _)
  · apply h.sinksAt_congr hconsistent
    intro v data hd
    rw [hwires]
    grind

theorem Consistent.joined_begin (hnone : sourcePort.wire = none) : g.Joined source sink
      (({ g with
        wires := g.wires.push
          { scope := sourcePort.scope, source, sinks := [sink] } }.setWire source
            (some g.wires.size)).setWire sink (some g.wires.size)) := by
  have hpush : g.SameLayout { g with
      wires := g.wires.push { scope := sourcePort.scope, source, sinks := [sink] } } :=
    ⟨rfl, rfl, fun _ => rfl⟩
  refine h.begin hsource hsink houtput hinput hscope hfree hnone
    (hpush.trans ((sameLayout_setWire ..).trans (sameLayout_setWire ..))) (fun x => ?_)
    (fun v => Array.getElem?_push)
  rw [getElem?_ports_setWire, getElem?_ports_setWire]
  by_cases hx : x = sink
  · have hne : x ≠ source := by
      rintro rfl
      rw [hx, hsink] at hsource
      cases Option.some.inj hsource
      cases houtput.symm.trans hinput
    rw [if_pos hx, if_pos hx, if_neg hne, hx, hsink, Option.map_some]
  · rw [if_neg hx, if_neg hx]
    by_cases hx' : x = source
    · rw [if_pos hx', if_pos hx', hx', hsource, Option.map_some]
    · rw [if_neg hx', if_neg hx']

end Connect

theorem Consistent.connect_cases (h : g.Consistent) (source sink : PortId) :
    (∃ fault, connect source sink g = .error fault g) ∨
      ∃ w g', connect source sink g = .ok w g' ∧ g.Joined source sink g' := by
  rw [connect_eq]
  cases hsource : g.ports[source]? with
  | none => exact .inl ⟨_, rfl⟩
  | some sourcePort =>
    cases hsink : g.ports[sink]? with
    | none => exact .inl ⟨_, rfl⟩
    | some sinkPort =>
      dsimp only
      split
      · exact .inl ⟨_, rfl⟩
      · rename_i hdirections
        obtain ⟨houtput, hinput⟩ := not_or.mp hdirections
        split
        · exact .inl ⟨_, rfl⟩
        · rename_i hscope
          cases hfree : sinkPort.wire with
          | some occupied => exact .inl ⟨_, rfl⟩
          | none =>
            cases hw : sourcePort.wire with
            | some w =>
              exact .inr ⟨_, _, rfl, h.joined_extend hsource hsink (Decidable.not_not.mp houtput)
                (Decidable.not_not.mp hinput) (Decidable.not_not.mp hscope) hfree hw⟩
            | none =>
              exact .inr ⟨_, _, rfl, h.joined_begin hsource hsink (Decidable.not_not.mp houtput)
                (Decidable.not_not.mp hinput) (Decidable.not_not.mp hscope) hfree hw⟩

theorem Consistent.connect_ok (h : g.Consistent) (hsource : g.ports[source]? = some sourcePort)
    (hsink : g.ports[sink]? = some sinkPort) (houtput : sourcePort.direction = .output)
    (hinput : sinkPort.direction = .input) (hscope : sourcePort.scope = sinkPort.scope)
    (hfree : sinkPort.wire = none) :
    ∃ w g', connect source sink g = .ok w g' ∧ g.Joined source sink g' := by
  rcases h.connect_cases source sink with ⟨fault, hfault⟩ | hok
  · rw [connect_eq, hsource, hsink] at hfault
    cases hw : sourcePort.wire <;> simp [houtput, hinput, hscope, hfree, hw] at hfault
  · exact hok

/-! ## Disconnecting -/

theorem disconnect_eq (g : Graph) (sink : PortId) : disconnect sink g =
      match g.ports[sink]? with
      | none => .error (.unknownPort sink) g
      | some sinkPort =>
        match sinkPort.wire with
        | none => .ok none g
        | some w =>
          match g.wires[w]? with
          | none => .error (.unknownWire w) g
          | some wire =>
            let sinks := wire.sinks.filter (· ≠ sink)
            let changed := g.modifyWire w fun data => { data with sinks }
            .ok (some wire.source) ((if sinks.isEmpty then changed.setWire wire.source none
              else changed).setWire sink none) := by
  simp only [disconnect, getPort, getWire, bind, EStateM.bind, get, getThe, MonadStateOf.get,
    get_run, liftM, monadLift, MonadLift.monadLift]
  cases g.ports[sink]? with
  | none => rfl
  | some sinkPort =>
    simp only [pure, EStateM.pure]
    cases sinkPort.wire with
    | none => rfl
    | some w =>
      dsimp only
      cases g.wires[w]? with
      | none => rfl
      | some wire => rfl

theorem Consistent.disconnect (h : g.Consistent)
    (hsink : g.ports[sink]? = some sinkPort) (hinput : sinkPort.direction = .input) :
    ∃ source g', disconnect sink g = .ok source g' ∧ g.SameLayout g' ∧ g'.Consistent := by
  rw [disconnect_eq, hsink]
  dsimp only
  cases hw : sinkPort.wire with
  | none => exact ⟨_, _, rfl, .refl g, h⟩
  | some w =>
    obtain ⟨wire, hwire, hm, -⟩ := h.wire_of_input hsink hinput hw
    obtain ⟨sourcePort, hsource, houtput, -⟩ := h.source hwire
    have hne : sink ≠ wire.source := by
      intro heq
      rw [← heq, hsink] at hsource
      cases Option.some.inj hsource
      cases houtput.symm.trans hinput
    simp only [hwire]
    refine ⟨_, _, rfl, ?_, ?_⟩
    · refine SameLayout.trans ?_ (sameLayout_setWire ..)
      split
      · exact (sameLayout_modifyWire ..).trans (sameLayout_setWire ..)
      · exact sameLayout_modifyWire ..
    · refine h.detach hsink hsource hinput hw hwire ?_ ?_
      · intro x
        rw [getElem?_ports_setWire]
        by_cases hx : x = sink
        · subst hx
          rw [if_pos rfl, if_pos rfl]
          split
          · rw [getElem?_ports_setWire, if_neg hne, modifyWire, hsink, Option.map_some]
          · rw [modifyWire, hsink, Option.map_some]
        · rw [if_neg hx, if_neg hx]
          split
          · rename_i hempty
            rw [getElem?_ports_setWire, List.isEmpty_iff.mp hempty]
            by_cases hx' : x = wire.source
            · rw [if_pos hx', if_pos ⟨hx', rfl⟩, modifyWire, hx', hsource, Option.map_some]
            · rw [if_neg hx', if_neg fun hand => hx' hand.1]
              rfl
          · rename_i hempty
            rw [if_neg fun hand => hempty (List.isEmpty_iff.mpr hand.2)]
            rfl
      · intro v
        refine Eq.trans ?_ (getElem?_wires_modifyWire_of_some hwire
          (fun data => { data with sinks := wire.sinks.filter (· ≠ sink) }) v)
        split <;> rfl

end Graph

end BorrowFlow
