import BorrowFlow.Proofs.Graph.Weaving

/-!
# Nodes that are added, and whether they are wired

The outline of a graph says of each node where it stands, what it is and whether it was added. Only
adding a node changes it. A port is on a wire if it feeds something or is fed. Splices and
connections take no port off its wires, so whatever is to hold of all ports of the nodes that are
woven in can be followed with the ports that are still to come as exceptions.
-/

namespace BorrowFlow

/-- Where a node stands, what it is, and whether it was added. -/
def Node.outline (node : Node) : ScopeId × NodeKind × Bool := (node.scope, node.kind, node.inserted)

namespace Graph

variable {before g g' : Graph} {n : NodeId} {scope : ScopeId} {index : Nat}
  {sink source input output id : PortId} {port : Port}

def outline (g : Graph) : List (ScopeId × NodeKind × Bool) :=
  g.nodes.toList.map Node.outline

theorem outline_settle (g : Graph) (node : Node) (count : Nat) (body : Scope) :
    (g.settle node count body).outline = g.outline ++ [node.outline] := by
  have hnodes : (g.settle node count body).nodes =
      g.nodes.push (g.withRows node (g.faced node .input) (g.faced node .output)) := by
    apply Array.ext_getElem?
    intro n
    rw [getElem?_nodes_settle_eq, Array.getElem?_push]
  rw [outline, hnodes, Array.toList_push, List.map_append]
  rfl

theorem SameLayout.outline_eq (h : g.SameLayout g') : g'.outline = g.outline := by
  rw [outline, h.nodes, outline]

/-! ## Ports on wires -/

def OnWire (g : Graph) (id : PortId) : Prop :=
  g.sinksAt id ≠ [] ∨ ∃ source, id ∈ g.sinksAt source

theorem OnWire.isConnected (h : g.OnWire id) (hc : g.Consistent)
    (hport : g.ports[id]? = some port) : g.isConnected id = .ok true := by
  have hwire : port.wire.isSome = true := by
    apply Option.isSome_iff_ne_none.mpr
    intro hnone
    rcases h with hsinks | ⟨source, hsource⟩
    · exact hsinks (sinksAt_of_unwired hport hnone)
    · obtain ⟨_, found, -, hf, -, hinput, -⟩ := hc.ends hsource
      cases hport.symm.trans hf
      exact hc.not_mem_sinksAt hport hinput hnone source hsource
  rw [Graph.isConnected, getPort, hport]
  exact congrArg Except.ok hwire

theorem OnWire.of_spliced (h : g.OnWire id) (hspliced : g.Spliced sink input output g')
    (hfree : g.sinksAt output = []) : g'.OnWire id := by
  rcases h with hsinks | ⟨source, hsource⟩
  · obtain ⟨x, hx⟩ := List.exists_mem_of_ne_nil _ hsinks
    exact .inl (List.ne_nil_of_mem (hspliced.mem hfree hx))
  · right
    by_cases heq : id = sink
    · refine ⟨output, ?_⟩
      rw [hspliced.sinksAt, if_pos rfl, heq]
      exact List.mem_singleton_self sink
    · have hm := hspliced.mem hfree hsource
      rw [redirect, if_neg heq] at hm
      exact ⟨source, hm⟩

theorem Spliced.onWire (h : g.Spliced sink input output g')
    (hfree : g.sinksAt output = []) : g'.OnWire input ∧ g'.OnWire output := by
  constructor
  · right
    obtain ⟨source, hsource⟩ := h.wired
    have hm := h.mem hfree hsource
    rw [redirect, if_pos rfl] at hm
    exact ⟨source, hm⟩
  · left
    rw [h.sinksAt, if_pos rfl]
    exact List.cons_ne_nil sink []

theorem OnWire.of_splicedAfter (h : g.OnWire id) (hspliced : g.SplicedAfter source input output g')
    (hfree : g.sinksAt output = []) : g'.OnWire id := by
  rcases h with hsinks | ⟨origin, horigin⟩
  · left
    have hne : id ≠ output := by
      rintro rfl
      exact hsinks hfree
    rw [hspliced.sinksAt, if_neg hne]
    split
    · exact List.cons_ne_nil input []
    · exact hsinks
  · exact .inr ⟨_, hspliced.mem hfree horigin⟩

theorem SplicedAfter.onWire (h : g.SplicedAfter source input output g') (hne : output ≠ source) :
    g'.OnWire input ∧ (g.sinksAt source ≠ [] → g'.OnWire output) := by
  constructor
  · exact .inr ⟨source, h.input_mem⟩
  · intro hsinks
    left
    rw [h.sinksAt, if_neg hne, if_pos rfl]
    exact hsinks

theorem OnWire.of_joined (h : g.OnWire id) (hjoined : g.Joined source sink g') : g'.OnWire id := by
  rcases h with hsinks | ⟨origin, horigin⟩
  · obtain ⟨x, hx⟩ := List.exists_mem_of_ne_nil _ hsinks
    exact .inl (List.ne_nil_of_mem (hjoined.mem hx))
  · exact .inr ⟨origin, hjoined.mem horigin⟩

theorem Joined.onWire (h : g.Joined source sink g') : g'.OnWire source ∧ g'.OnWire sink := by
  have hsinks : g'.sinksAt source = g.sinksAt source ++ [sink] := by
    rw [h.sinksAt, if_pos rfl]
  constructor
  · left
    rw [hsinks]
    exact List.append_ne_nil_of_right_ne_nil _ (List.cons_ne_nil sink [])
  · refine .inr ⟨source, ?_⟩
    rw [hsinks]
    exact List.mem_append_right _ (List.mem_singleton_self sink)

/-! ## All ports of the nodes that were added -/

/-- Something holds of every port of a node that was added, with some exceptions. -/
def Complete (before g : Graph) (holds except : PortId → Prop) : Prop :=
  ∀ (n : NodeId) (node : Node) (direction : Direction) (id : PortId), before.nodes.size ≤ n →
    g.nodes[n]? = some node → id ∈ node.portsOn direction → holds id ∨ except id

def PortAt (g : Graph) (n : NodeId) (indices : List Nat) (id : PortId) : Prop :=
  ∃ node direction, g.nodes[n]? = some node ∧
    ∃ index ∈ indices, (node.portsOn direction)[index]? = some id

theorem not_portAt_nil : ¬g.PortAt n [] id := by
  rintro ⟨_, _, _, _, hindex, _⟩
  cases hindex

theorem PortAt.of_cons {indices : List Nat} (h : g.PortAt n (index :: indices) id)
    (hpasses : g.Passes n index input output) :
    id = input ∨ id = output ∨ g.PortAt n indices id := by
  obtain ⟨node, direction, hnode, i, hi, hid⟩ := h
  rcases List.mem_cons.mp hi with rfl | hi
  · obtain ⟨found, hf, hinput, houtput⟩ := hpasses
    cases hnode.symm.trans hf
    cases direction with
    | input => exact .inl (Option.some.inj (hid.symm.trans hinput))
    | output => exact .inr (.inl (Option.some.inj (hid.symm.trans houtput)))
  · exact .inr (.inr ⟨node, direction, hnode, i, hi, hid⟩)

theorem PortAt.of_keeps {indices : List Nat} (h : g.PortAt n indices id)
    (hkeeps : g.Keeps g') : g'.PortAt n indices id := by
  obtain ⟨node, direction, hnode, hid⟩ := h
  exact ⟨node, direction, hkeeps.node hnode, hid⟩

variable {holds holds' except except' : PortId → Prop}

theorem complete_self (g : Graph) (holds except : PortId → Prop) : g.Complete g holds except :=
  fun _ _ _ _ hbase hnode _ => absurd (lt_size_of_node hnode) (Nat.not_lt_of_le hbase)

theorem Complete.of_sameLayout (h : before.Complete g holds except)
    (hlayout : g.SameLayout g') (hholds : ∀ id, holds id → holds' id)
    (hexcept : ∀ id, except id → holds' id ∨ except' id) :
    before.Complete g' holds' except' := by
  intro n node direction id hbase hnode hid
  rw [hlayout.nodes] at hnode
  rcases h n node direction id hbase hnode hid with hf | hcase
  · exact .inl (hholds id hf)
  · exact hexcept id hcase

theorem Complete.of_portAt_nil (h : before.Complete g holds (g.PortAt n [])) :
    before.Complete g holds fun _ => False :=
  h.of_sameLayout (.refl g) (fun _ => id) fun _ hat => absurd hat not_portAt_nil

theorem Complete.settle (h : before.Complete g holds except) (node : Node) (count : Nat)
    (body : Scope)
    (hnew : ∀ data direction id, (g.settle node count body).nodes[g.nodes.size]? = some data →
        id ∈ data.portsOn direction → except' id)
    (hholds : ∀ id, holds id → holds' id) (hexcept : ∀ id, except id → except' id) :
    before.Complete (g.settle node count body) holds' except' := by
  intro n data direction id hbase hd hid
  by_cases hn : n = g.nodes.size
  · exact .inr (hnew data direction id (hn ▸ hd) hid)
  · rw [getElem?_nodes_settle_eq, if_neg hn] at hd
    exact (h n data direction id hbase hd hid).imp (hholds id) (hexcept id)

theorem Complete.settle_portAt (h : before.Complete g holds fun _ => False)
    (hwoven : before.Woven g) {kind : NodeKind} {count : Nat}
    (hscope : scope < g.scopes.size) (hk : kind.isWoven = true)
    (hcount : ∀ direction, kind.portCount direction = count)
    (hholds : ∀ id, holds id → holds' id) :
    before.Complete (g.settle { scope, kind, inserted := true } 0 {}) holds'
      (PortAt (g.settle { scope, kind, inserted := true } 0 {}) g.nodes.size
        (List.range count)) := by
  refine h.settle _ _ _ ?_ hholds fun _ => False.elim
  intro data direction id hd hid
  obtain ⟨node, hnode, -, -, hlen⟩ := hwoven.exists_port_settle kind hscope hk
  cases hd.symm.trans hnode
  obtain ⟨index, hlt, hindex⟩ := List.getElem_of_mem hid
  refine ⟨data, direction, hd, index, ?_, List.getElem?_eq_some_iff.mpr ⟨hlt, hindex⟩⟩
  rw [hlen, hcount] at hlt
  exact List.mem_range.mpr hlt

theorem Woven.eq_of_mem_drop (h : before.Woven g) (hscope : scope < g.scopes.size)
    {data : Node} {direction : Direction}
    (hd : (g.settle { scope, kind := .drop, inserted := true } 0 {}).nodes[
      g.nodes.size]? = some data) (hid : id ∈ data.portsOn direction)
    (hinput : (g.settle { scope, kind := .drop, inserted := true } 0 {}).inputPort
      g.nodes.size 0 = .ok input) : id = input := by
  obtain ⟨found, hf, hfirst⟩ := inputPort_eq_ok.mp hinput
  cases hd.symm.trans hf
  obtain ⟨node, hnode, -, -, hlen⟩ := h.exists_port_settle .drop hscope rfl
  cases hd.symm.trans hnode
  obtain ⟨index, hlt, hindex⟩ := List.getElem_of_mem hid
  cases direction with
  | input =>
    have hone : index < 1 := lt_of_lt_of_eq hlt (hlen .input)
    obtain rfl : index = 0 := by omega
    exact Option.some.inj ((List.getElem?_eq_some_iff.mpr ⟨hlt, hindex⟩).symm.trans hfirst)
  | output =>
    have hnone : index < 0 := lt_of_lt_of_eq hlt (hlen .output)
    omega

theorem OnWire.settle (h : g.OnWire id) (hc : g.Consistent) (node : Node) (count : Nat)
    (body : Scope) : (g.settle node count body).OnWire id := by
  simpa only [OnWire, (hc.settle node count body).2] using h

end Graph

end BorrowFlow
