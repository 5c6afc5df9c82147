import BorrowFlow.Proofs.Graph.Erasure
import BorrowFlow.Proofs.Graph.Hierarchy
import Mathlib.Data.List.Flatten

/-!
# Outputs in the order of visits

Going through the nodes in the order in which they are visited, and for each node through its
outputs, one meets every output once. What feeds a node comes before the outputs of that node, and
every wire that feeds anything is met once.
-/

namespace BorrowFlow

namespace Graph

variable {g : Graph} {order : List NodeId} {n : NodeId} {source output sink : PortId}

def outputsAt (g : Graph) (n : NodeId) : List PortId :=
  ((g.nodes[n]?).map Node.outputs).getD []

theorem outputsAt_of_node {node : Node} (hnode : g.nodes[n]? = some node) :
    g.outputsAt n = node.portsOn .output := by
  rw [outputsAt, hnode, Option.map_some, Option.getD_some, Node.portsOn]

theorem Seated.mem_outputsAt_iff (hs : g.Seated) : output ∈ g.outputsAt n ↔
    ∃ port, g.ports[output]? = some port ∧ port.node = n ∧ port.direction = .output := by
  constructor
  · intro hm
    cases hnode : g.nodes[n]? with
    | none => simp [outputsAt, hnode] at hm
    | some node =>
      rw [outputsAt_of_node hnode] at hm
      obtain ⟨index, hindex⟩ := List.mem_iff_getElem?.mp hm
      obtain ⟨port, hport, hn, hdirection, -⟩ := hs.seat hnode hindex
      exact ⟨port, hport, hn, hdirection⟩
  · rintro ⟨port, hport, rfl, hdirection⟩
    obtain ⟨node, hnode, hlisted⟩ := hs.listed hport
    rw [hdirection] at hlisted
    rw [outputsAt_of_node hnode]
    exact List.mem_of_getElem? hlisted

theorem Seated.nodup_outputsAt (hs : g.Seated) (n : NodeId) : (g.outputsAt n).Nodup := by
  cases hnode : g.nodes[n]? with
  | none => simp [outputsAt, hnode]
  | some node =>
    rw [outputsAt_of_node hnode]
    exact hs.nodup_portsOn hnode .output

theorem Seated.nodup_flatMap_outputsAt (hs : g.Seated) (hnodup : order.Nodup) :
    (order.flatMap g.outputsAt).Nodup := by
  rw [List.nodup_flatMap]
  refine ⟨fun n _ => hs.nodup_outputsAt n, hnodup.imp fun {n m} hne output hn hm => hne ?_⟩
  obtain ⟨port, hport, rfl, -⟩ := hs.mem_outputsAt_iff.mp hn
  obtain ⟨port', hport', rfl, -⟩ := hs.mem_outputsAt_iff.mp hm
  rw [Option.some.inj (hport.symm.trans hport')]

theorem Consistent.nodup_sinksAt (hc : g.Consistent) (source : PortId) :
    (g.sinksAt source).Nodup := by
  cases hsinks : g.sinksAt source with
  | nil => exact .nil
  | cons first rest =>
    have hfirst : first ∈ g.sinksAt source := hsinks ▸ List.mem_cons_self
    obtain ⟨port, w, wire, -, -, -, hwire, heq⟩ := mem_sinksAt hfirst
    rw [← hsinks, heq]
    exact hc.nodup hwire

theorem Consistent.source_unique (hc : g.Consistent) (h : sink ∈ g.sinksAt source)
    (h' : sink ∈ g.sinksAt output) : output = source := by
  rw [hc.mem_sinksAt_iff] at h h'
  exact Option.some.inj (h'.symm.trans h)

theorem Consistent.nodup_flatMap_sinksAt (hc : g.Consistent) {outputs : List PortId}
    (hnodup : outputs.Nodup) : (outputs.flatMap g.sinksAt).Nodup := by
  rw [List.nodup_flatMap]
  refine ⟨fun source _ => hc.nodup_sinksAt source, hnodup.imp fun hne sink h h' => hne ?_⟩
  exact hc.source_unique h' h

def liveWires (g : Graph) : List Wire :=
  g.wires.toList.filter fun wire => 1 ≤ wire.sinks.length

theorem mem_liveWires {wire : Wire} : wire ∈ g.liveWires ↔
    (∃ w : WireId, g.wires[w]? = some wire) ∧ wire.sinks ≠ [] := by
  rw [liveWires, List.mem_filter, Array.mem_toList_iff, Array.mem_iff_getElem?,
    decide_eq_true_iff, Nat.succ_le_iff, List.length_pos_iff]

theorem Consistent.mem_sources_iff (hc : g.Consistent) :
    source ∈ g.liveWires.map Wire.source ↔ g.sinksAt source ≠ [] := by
  constructor
  · intro hm
    obtain ⟨wire, hwire, rfl⟩ := List.mem_map.mp hm
    obtain ⟨⟨w, hw⟩, hsinks⟩ := mem_liveWires.mp hwire
    rwa [hc.sinksAt_source hw hsinks]
  · intro hne
    obtain ⟨sink, hsink⟩ := List.exists_mem_of_ne_nil _ hne
    obtain ⟨port, w, wire, hport, houtput, hw, -⟩ := mem_sinksAt hsink
    obtain ⟨wire, hwire, rfl, hsinks⟩ := (hc.output hport houtput w).mp hw
    exact List.mem_map_of_mem (mem_liveWires.mpr ⟨⟨w, hwire⟩, hsinks⟩)

theorem Consistent.nodup_sources (hc : g.Consistent) : (g.liveWires.map Wire.source).Nodup := by
  have hpairs : g.wires.toList.Pairwise fun first second =>
      first.sinks ≠ [] → second.sinks ≠ [] → first.source ≠ second.source := by
    rw [List.pairwise_iff_getElem]
    intro i j hi hj hlt hfirst hsecond heq
    have hi' : g.wires[i]? = some g.wires.toList[i] := by simp
    have hj' : g.wires[j]? = some g.wires.toList[j] := by simp
    obtain ⟨port, hport, houtput, -⟩ := hc.source hi'
    have hwire := (hc.output hport houtput i).mpr ⟨_, hi', rfl, hfirst⟩
    have hwire' := (hc.output hport houtput j).mpr ⟨_, hj', heq.symm, hsecond⟩
    exact hlt.ne (Option.some.inj (hwire.symm.trans hwire'))
  rw [List.Nodup, List.pairwise_map]
  apply (hpairs.filter _).imp_of_mem
  intro first second hfirst hsecond hne
  exact hne (mem_liveWires.mp hfirst).2 (mem_liveWires.mp hsecond).2

/-! ## Visits -/

section Visits

variable {before after : List PortId}

theorem WellFormed.mem_flatMap_outputsAt (hw : g.WellFormed) (hc : g.Consistent)
    (hord : g.visitOrder = .ok order) (hsink : sink ∈ g.sinksAt source) :
    source ∈ order.flatMap g.outputsAt := by
  obtain ⟨port, -, hport, -, houtput, -⟩ := hc.ends hsink
  obtain ⟨node, hnode, -⟩ := hw.seated.listed hport
  exact List.mem_flatMap.mpr ⟨port.node, hw.mem_visitOrder hord hnode,
    hw.seated.mem_outputsAt_iff.mpr ⟨port, hport, rfl, houtput⟩⟩

theorem WellFormed.nodup_flatMap_outputsAt (hw : g.WellFormed) (hc : g.Consistent)
    (hl : g.Layered) (hord : g.visitOrder = .ok order) :
    (order.flatMap g.outputsAt).Nodup :=
  hw.seated.nodup_flatMap_outputsAt (hw.isHierarchical hc hl hord).nodup

theorem mem_of_pair_sublist {α : Type} {before after : List α} {x y : α}
    (hnodup : (before ++ y :: after).Nodup) (h : [x, y].Sublist (before ++ y :: after)) :
    x ∈ before := by
  classical
  have hy : y ∉ before := fun hy => List.disjoint_of_nodup_append hnodup hy List.mem_cons_self
  have hlt := idxOf_lt_of_pair_sublist hnodup h
  by_contra hx
  rw [List.idxOf_append_of_notMem hx, List.idxOf_append_of_notMem hy, List.idxOf_cons_self] at hlt
  omega

theorem WellFormed.mem_before_of_feeds (hw : g.WellFormed) (hc : g.Consistent)
    (hl : g.Layered) (hord : g.visitOrder = .ok order)
    (hsplit : order.flatMap g.outputsAt = before ++ output :: after)
    (hsink : sink ∈ g.sinksAt source)
    (hnode : (g.ports[sink]?).map Port.node = (g.ports[output]?).map Port.node) :
    source ∈ before := by
  obtain ⟨sourcePort, sinkPort, hsource, hsinkPort, houtput, -⟩ := hc.ends hsink
  have hm : output ∈ order.flatMap g.outputsAt := hsplit ▸ List.mem_append_cons_self
  obtain ⟨n, -, hn⟩ := List.mem_flatMap.mp hm
  obtain ⟨port, hport, rfl, -⟩ := hw.seated.mem_outputsAt_iff.mp hn
  have hnodes : sinkPort.node = port.node := by simpa [hsinkPort, hport] using hnode
  have hpair := hw.pair_sublist_visitOrder hc hl hord hsink hsource hsinkPort
  rw [hnodes] at hpair
  have hnodup := hw.nodup_flatMap_outputsAt hc hl hord
  rw [hsplit] at hnodup
  apply mem_of_pair_sublist hnodup
  rw [← hsplit]
  have hsource' : source ∈ g.outputsAt sourcePort.node :=
    hw.seated.mem_outputsAt_iff.mpr ⟨sourcePort, hsource, rfl, houtput⟩
  have hparts : [source, output].Sublist ([sourcePort.node, port.node].flatMap g.outputsAt) := by
    simpa using pair_sublist_append hsource' hn
  exact hparts.trans (hpair.flatMap g.outputsAt)

theorem WellFormed.length_liveWires (hw : g.WellFormed) (hc : g.Consistent)
    (hl : g.Layered) (hord : g.visitOrder = .ok order) :
    g.liveWires.length =
      ((order.flatMap g.outputsAt).filter fun output => g.sinksAt output ≠ []).length := by
  have hnodup := hw.nodup_flatMap_outputsAt hc hl hord
  have hperm : (g.liveWires.map Wire.source).Perm
      ((order.flatMap g.outputsAt).filter fun output => g.sinksAt output ≠ []) := by
    rw [List.perm_ext_iff_of_nodup hc.nodup_sources (hnodup.filter _)]
    intro source
    rw [hc.mem_sources_iff, List.mem_filter, decide_eq_true_iff, iff_and_self]
    intro hne
    obtain ⟨sink, hsink⟩ := List.exists_mem_of_ne_nil _ hne
    exact hw.mem_flatMap_outputsAt hc hord hsink
  rw [← hperm.length_eq, List.length_map]

end Visits

end Graph

end BorrowFlow
