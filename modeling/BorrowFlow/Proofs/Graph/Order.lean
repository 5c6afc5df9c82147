import BorrowFlow.Proofs.Graph.Sorting
import BorrowFlow.Proofs.Graph.Wiring

/-!
# Graphs that can be visited in order

A well-formed graph has a visit order if and only if its nodes can be numbered so that the numbers
grow along every wire, with structures in the place of their border nodes. The order then has every
node in it.
-/

namespace BorrowFlow

variable {order : List NodeId} {rank : NodeId → Nat} {n : NodeId} {id : PortId} {node : Node}
  {depth : Nat} {port : Port}

namespace Graph

variable {inside : List NodeId} {g : Graph} {scope : ScopeId}

/-! ## Hosts -/

theorem hostOf_of_plain (hnode : g.nodes[n]? = some node)
    (hplain : node.kind.borderKind? = none) : g.hostOf n = n := by
  unfold hostOf
  rw [hnode, Option.map_some]
  split
  · rename_i hk
    rw [Option.some.injEq] at hk
    rw [hk] at hplain
    cases hplain
  · rfl

theorem hostOf_of_border {owner : NodeId} {kind : BorderKind} (hnode : g.nodes[n]? = some node)
    (hk : node.kind = .border owner kind) : g.hostOf n = owner := by
  simp [hostOf, hnode, hk]

theorem Nested.exists_host (hn : g.Nested) (hnode : g.nodes[n]? = some node) :
    ∃ host, g.nodes[g.hostOf n]? = some host ∧
      host.scope = node.scope ∧ host.kind.borderKind? = none := by
  cases hk : node.kind with
  | border owner kind =>
    obtain ⟨host, _, hhost, hhostKind, hscope, -⟩ := hn.attached hnode hk
    rw [hostOf_of_border hnode hk]
    exact ⟨host, hhost, hscope, by rw [hhostKind]; rfl⟩
  | _ =>
    have hplain : node.kind.borderKind? = none := by rw [hk]; rfl
    rw [hostOf_of_plain hnode hplain]
    exact ⟨node, hnode, rfl, hplain⟩

/-! ## What the wires of a scope connect -/

theorem mem_connectionsIn {source target : NodeId} : (source, target) ∈ g.connectionsIn scope ↔
      ∃ (w : WireId) (wire : Wire), g.wires[w]? = some wire ∧ wire.scope = scope ∧
        g.representative? scope wire.source = some source ∧
          ∃ sink ∈ wire.sinks, g.representative? scope sink = some target := by
  unfold connectionsIn wiresIn
  rw [List.mem_flatMap]
  constructor
  · rintro ⟨wire, hwire, hpair⟩
    rw [List.mem_filter, Bool.and_eq_true, decide_eq_true_eq] at hwire
    obtain ⟨w, hw⟩ := List.mem_iff_getElem?.mp hwire.1
    rw [Array.getElem?_toList] at hw
    split at hpair
    · cases hpair
    · rename_i found hsource
      obtain ⟨other, ho, heq⟩ := List.mem_map.mp hpair
      obtain ⟨sink, hsink, htarget⟩ := List.mem_filterMap.mp ho
      cases heq
      exact ⟨w, wire, hw, hwire.2.1, hsource, sink, hsink, htarget⟩
  · rintro ⟨w, wire, hw, hscope, hsource, sink, hsink, htarget⟩
    refine ⟨wire, ?_, ?_⟩
    · rw [List.mem_filter, Bool.and_eq_true, decide_eq_true_eq]
      refine ⟨List.mem_iff_getElem?.mpr ⟨w, by rw [Array.getElem?_toList, hw]⟩, hscope, ?_⟩
      cases hsinks : wire.sinks with
      | nil => simp [hsinks] at hsink
      | cons => rfl
    · simp only [hsource]
      exact List.mem_map.mpr ⟨target, List.mem_filterMap.mpr ⟨sink, hsink, htarget⟩, rfl⟩

theorem Consistent.mem_connectionsIn_iff (h : g.Consistent) {source target : NodeId} :
    (source, target) ∈ g.connectionsIn scope ↔
      ∃ output input port, input ∈ g.sinksAt output ∧ g.ports[output]? = some port ∧
        port.scope = scope ∧ g.representative? scope output = some source ∧
          g.representative? scope input = some target := by
  rw [mem_connectionsIn]
  constructor
  · rintro ⟨w, wire, hwire, rfl, hsource, sink, hsink, htarget⟩
    obtain ⟨port, hport, -, hscope⟩ := h.source hwire
    have hsinks := h.sinksAt_source hwire (List.ne_nil_of_mem hsink)
    exact ⟨wire.source, sink, port, hsinks ▸ hsink, hport, hscope, hsource, htarget⟩
  · rintro ⟨output, input, port, hm, hport, rfl, hsource, htarget⟩
    obtain ⟨found, w, wire, hf, hdirection, hw, hwire, hsinks⟩ := mem_sinksAt hm
    cases hport.symm.trans hf
    obtain ⟨data, hd, hdataSource, hscope, -⟩ := h.wire_of_output hport hdirection hw
    cases hwire.symm.trans hd
    exact ⟨w, wire, hwire, hscope, hdataSource ▸ hsource, input, hsinks ▸ hm, htarget⟩

theorem WellFormed.representative_iff (hw : g.WellFormed) (hport : g.ports[id]? = some port) :
    g.representative? port.scope id = some n ↔ ∃ node, g.nodes[port.node]? = some node ∧
      node.scope = port.scope ∧ g.hostOf port.node = n := by
  obtain ⟨node, hnode, hlisted⟩ := hw.seated.listed hport
  simp only [representative?, hport, hnode, Option.bind_eq_bind, Option.bind_some,
    Option.some.injEq, exists_eq_left']
  split
  · rename_i owner kind hk
    rw [hostOf_of_border hnode hk]
    split <;> simp_all
  · rename_i hk
    have hplain : node.kind.borderKind? = none := by
      cases hnodeKind : node.kind with
      | border owner kind => exact absurd hnodeKind (hk owner kind)
      | _ => rfl
    have hscope := hw.seated.scope_of_plain hnode hplain (List.mem_of_getElem? hlisted) hport
    simp [hostOf_of_plain hnode hplain, hscope]

theorem WellFormed.representative (hw : g.WellFormed) (hport : g.ports[id]? = some port)
    (hn : g.representative? port.scope id = some n) :
    ∃ node, g.nodes[n]? = some node ∧ node.scope = port.scope ∧ node.kind.borderKind? = none := by
  obtain ⟨node, hnode, hscope, rfl⟩ := (hw.representative_iff hport).mp hn
  obtain ⟨host, hhost, hhostScope, hplain⟩ := hw.nested.exists_host hnode
  exact ⟨host, hhost, hhostScope.trans hscope, hplain⟩

theorem WellFormed.of_mem_connectionsIn (hw : g.WellFormed) (hc : g.Consistent)
    {edge : NodeId × NodeId} (hedge : edge ∈ g.connectionsIn scope)
    (hn : n = edge.1 ∨ n = edge.2) :
    ∃ node, g.nodes[n]? = some node ∧ node.scope = scope ∧ node.kind.borderKind? = none := by
  obtain ⟨output, input, port, hm, hport, rfl, hsource, htarget⟩ :=
    hc.mem_connectionsIn_iff.mp hedge
  obtain ⟨found, inputPort, hf, hinput, -, -, hscopes⟩ := hc.ends hm
  cases hport.symm.trans hf
  rcases hn with rfl | rfl
  · exact hw.representative hport hsource
  · rw [hscopes] at htarget ⊢
    exact hw.representative hinput htarget

/-- The node that stands for the owner of a port in the scope that the port faces. -/
def standsFor (g : Graph) (id : PortId) : Option NodeId :=
  (g.ports[id]?).bind fun port => g.representative? port.scope id

theorem standsFor_of_plain (hport : g.ports[id]? = some port)
    (hnode : g.nodes[port.node]? = some node) (hplain : node.kind.borderKind? = none) :
    g.standsFor id = some port.node := by
  simp only [standsFor, hport, Option.bind_some, representative?, Option.bind_eq_bind, hnode]
  split
  · rename_i hk
    rw [hk] at hplain
    cases hplain
  · rfl

theorem Keeps.standsFor {g' : Graph} (h : g.Keeps g') (hw : g.WellFormed)
    (hport : g.ports[id]? = some port) : g'.standsFor id = g.standsFor id := by
  obtain ⟨node, hnode, -⟩ := hw.seated.listed hport
  obtain ⟨wire, hport'⟩ := h.port hport
  simp [Graph.standsFor, representative?, hport, hport', hnode, h.node hnode]

theorem SameLayout.standsFor {g' : Graph} (h : g.SameLayout g') (id : PortId) :
    g'.standsFor id = g.standsFor id := by
  have hport := h.port id
  unfold Graph.standsFor representative?
  cases hf : g.ports[id]? with
  | none =>
    rw [hf, Option.map_none, Option.map_eq_none_iff] at hport
    rw [hport]
    rfl
  | some port =>
    obtain ⟨wire, hf'⟩ := h.sameSeats.getPort hf
    simp [hf', h.nodes]

theorem WellFormed.exists_of_standsFor (hw : g.WellFormed) (h : g.standsFor id = some n) :
    ∃ node, g.nodes[n]? = some node := by
  obtain ⟨port, hport, hn⟩ := Option.bind_eq_some_iff.mp h
  obtain ⟨node, hnode, -⟩ := hw.representative hport hn
  exact ⟨node, hnode⟩

/-! ## Sorting one scope -/

def collect (scope : ScopeId) (dependencies : Dependencies) :
    NodeId × NodeId → Except Fault Dependencies
  | (source, target) =>
    if source = target then throw (.dataflowCycle scope source)
    else return dependencies.addEdge source target

theorem of_foldlM_collect {pairs : List (NodeId × NodeId)} {start dependencies : Dependencies}
    (hclosed : start.Closed)
    (h : pairs.foldlM (collect scope) start = .ok dependencies) :
    dependencies.Closed ∧ (∀ edge, edge ∈ dependencies.edges ↔ edge ∈ start.edges ∨ edge ∈ pairs) ∧
      (∀ node, node ∈ dependencies.nodes ↔ node ∈ start.nodes ∨
        ∃ edge ∈ pairs, node = edge.1 ∨ node = edge.2) ∧
      ∀ edge ∈ pairs, edge.1 ≠ edge.2 := by
  induction pairs generalizing start with
  | nil =>
    cases h
    simp [hclosed]
  | cons pair pairs ih =>
    obtain ⟨source, target⟩ := pair
    rw [List.foldlM_cons, collect] at h
    split at h
    · cases h
    · rename_i hne
      obtain ⟨hclosed', hedges, hnodes, hothers⟩ := ih (hclosed.addEdge source target) h
      refine ⟨hclosed', ?_, ?_, ?_⟩
      · intro edge
        rw [hedges, Dependencies.mem_edges_addEdge, List.mem_cons, or_assoc]
      · intro node
        rw [hnodes, Dependencies.mem_nodes_addEdge hclosed]
        simp [or_assoc]
      · intro edge hedge
        rcases List.mem_cons.mp hedge with rfl | hedge
        · exact hne
        · exact hothers edge hedge

theorem exists_foldlM_collect {pairs : List (NodeId × NodeId)}
    (h : ∀ edge ∈ pairs, edge.1 ≠ edge.2) (start : Dependencies) :
    ∃ dependencies, pairs.foldlM (collect scope) start = .ok dependencies := by
  induction pairs generalizing start with
  | nil => exact ⟨start, rfl⟩
  | cons pair pairs ih =>
    obtain ⟨source, target⟩ := pair
    have hne := h _ List.mem_cons_self
    obtain ⟨dependencies, hrest⟩ := ih (fun edge hedge => h edge (List.mem_cons_of_mem _ hedge))
      (start.addEdge source target)
    refine ⟨dependencies, ?_⟩
    rw [List.foldlM_cons, collect, if_neg hne]
    exact hrest

theorem of_dependenciesIn_eq_ok {dependencies : Dependencies}
    (h : g.dependenciesIn scope = .ok dependencies) :
    ∃ data : Scope, g.scopes[scope]? = some data ∧ dependencies.Closed ∧
      (∀ edge, edge ∈ dependencies.edges ↔ edge ∈ g.connectionsIn scope) ∧
      (∀ node, node ∈ dependencies.nodes ↔ node ∈ data.nodes ∨
        ∃ edge ∈ g.connectionsIn scope, node = edge.1 ∨ node = edge.2) ∧
      ∀ edge ∈ g.connectionsIn scope, edge.1 ≠ edge.2 := by
  unfold dependenciesIn at h
  obtain ⟨data, hs, h⟩ := Except.bind_eq_ok.mp h
  have hstart : Dependencies.Closed { nodes := data.nodes, edges := [] } := by
    intro edge hedge
    cases hedge
  obtain ⟨hclosed, hedges, hnodes, hne⟩ := of_foldlM_collect hstart h
  refine ⟨data, getScope_eq_ok.mp hs, hclosed, ?_, hnodes, hne⟩
  intro edge
  rw [hedges]
  simp

theorem exists_dependenciesIn {data : Scope} (hs : g.scopes[scope]? = some data)
    (h : ∀ edge ∈ g.connectionsIn scope, edge.1 ≠ edge.2) :
    ∃ dependencies, g.dependenciesIn scope = .ok dependencies := by
  unfold dependenciesIn getScope
  simp only [hs, bind, Except.bind]
  exact exists_foldlM_collect h _

/-- The numbers grow along what the wires connect. -/
def Ranks (g : Graph) (rank : NodeId → Nat) : Prop :=
  ∀ scope, ∀ edge ∈ g.connectionsIn scope, rank edge.1 < rank edge.2

theorem Consistent.ranks_iff (h : g.Consistent) :
    g.Ranks rank ↔ ∀ output, ∀ input ∈ g.sinksAt output, ∀ source target,
      g.standsFor output = some source → g.standsFor input = some target →
        rank source < rank target := by
  constructor
  · intro hrank output input hm source target hsource htarget
    obtain ⟨port, inputPort, hport, hinput, -, -, hscopes⟩ := h.ends hm
    rw [standsFor, hport, Option.bind_some] at hsource
    rw [standsFor, hinput, Option.bind_some, ← hscopes] at htarget
    apply hrank port.scope (source, target)
    exact h.mem_connectionsIn_iff.mpr ⟨output, input, port, hm, hport, rfl, hsource, htarget⟩
  · rintro hrank scope ⟨source, target⟩ hedge
    obtain ⟨output, input, port, hm, hport, rfl, hsource, htarget⟩ :=
      h.mem_connectionsIn_iff.mp hedge
    obtain ⟨found, inputPort, hf, hinput, -, -, hscopes⟩ := h.ends hm
    cases hport.symm.trans hf
    apply hrank output input hm source target
    · rw [standsFor, hport, Option.bind_some, hsource]
    · rw [standsFor, hinput, Option.bind_some, ← hscopes, htarget]

theorem of_sortScope_eq_ok {sorted : List NodeId} (h : g.sortScope scope = .ok sorted) :
    (∃ data : Scope, g.scopes[scope]? = some data ∧ ∀ node ∈ data.nodes, node ∈ sorted) ∧
      ∀ edge ∈ g.connectionsIn scope, sorted.idxOf edge.1 < sorted.idxOf edge.2 := by
  unfold sortScope at h
  obtain ⟨dependencies, hd, h⟩ := Except.bind_eq_ok.mp h
  obtain ⟨data, hs, hclosed, hedges, hnodes, hne⟩ := of_dependenciesIn_eq_ok hd
  split at h
  · rename_i order hsort
    cases h
    obtain ⟨hall, hforward⟩ := Dependencies.of_sort_eq_ok hclosed hsort
    refine ⟨⟨data, hs, fun node hnode => hall node ((hnodes node).mpr (.inl hnode))⟩, ?_⟩
    intro edge hedge
    exact hforward edge ((hedges edge).mpr hedge) (hne edge hedge)
  · cases h

theorem WellFormed.of_sortScope (hw : g.WellFormed) (hc : g.Consistent)
    {sorted : List NodeId} (h : g.sortScope scope = .ok sorted) :
    sorted.Nodup ∧ ∀ n ∈ sorted, ∃ node, g.nodes[n]? = some node ∧ node.scope = scope ∧
      node.kind.borderKind? = none := by
  unfold sortScope at h
  obtain ⟨dependencies, hd, h⟩ := Except.bind_eq_ok.mp h
  obtain ⟨data, hs, hclosed, -, hnodes, -⟩ := of_dependenciesIn_eq_ok hd
  split at h
  · rename_i order hsort
    cases h
    obtain rfl : dependencies.searchOrder = sorted := by
      unfold Dependencies.sort at hsort
      split at hsort
      · cases hsort
      · exact Except.ok.inj hsort
    refine ⟨Dependencies.nodup_searchOrder hclosed, fun n hm => ?_⟩
    have hn := (hnodes n).mp (Dependencies.mem_nodes_of_mem_searchOrder hclosed hm)
    rcases hn with hn | ⟨edge, hedge, hn⟩
    · exact hw.nested.place hs hn
    · exact hw.of_mem_connectionsIn hc hedge hn
  · cases h

theorem Ranks.exists_sortScope (hrank : g.Ranks rank) {data : Scope}
    (hs : g.scopes[scope]? = some data) :
    ∃ sorted, g.sortScope scope = .ok sorted := by
  have hne : ∀ edge ∈ g.connectionsIn scope, edge.1 ≠ edge.2 := by
    intro edge hedge heq
    have hlt := hrank scope edge hedge
    rw [heq] at hlt
    exact Nat.lt_irrefl _ hlt
  obtain ⟨dependencies, hd⟩ := exists_dependenciesIn hs hne
  obtain ⟨_, -, hclosed, hedges, -⟩ := of_dependenciesIn_eq_ok hd
  have hranks : dependencies.Ranks rank := fun edge hedge =>
    hrank scope edge ((hedges edge).mp hedge)
  refine ⟨dependencies.searchOrder, ?_⟩
  unfold sortScope
  simp only [hd, bind, Except.bind, Dependencies.sort_eq_ok hclosed hranks]
  rfl

/-! ## Nested scopes -/

/-- What visiting a node with everything in it answers, at a depth of nesting. -/
def visitWithin (g : Graph) (depth : Nat) (id : NodeId) : Except Fault (List NodeId) := do
  let node ← g.getNode id
  let inner ← node.bodies.mapM (g.visitScope depth)
  return id :: g.bordersOn .input node ++ inner.flatten ++ g.bordersOn .output node

theorem visitScope_succ (g : Graph) (depth : Nat) (scope : ScopeId) :
    g.visitScope (depth + 1) scope = do
      let sorted ← g.sortScope scope
      let parts ← sorted.mapM (g.visitWithin depth)
      return parts.flatten :=
  rfl

theorem of_visitScope_succ {part : List NodeId} (h : g.visitScope (depth + 1) scope = .ok part) :
    ∃ sorted parts, g.sortScope scope = .ok sorted ∧
      sorted.mapM (g.visitWithin depth) = .ok parts ∧ parts.flatten = part := by
  rw [visitScope_succ] at h
  obtain ⟨sorted, hsorted, h⟩ := Except.bind_eq_ok.mp h
  obtain ⟨parts, hparts, h⟩ := Except.bind_eq_ok.mp h
  exact ⟨sorted, parts, hsorted, hparts, Except.ok.inj h⟩

theorem of_visitScope_eq_ok {part : List NodeId} (h : g.visitScope (depth + 1) scope = .ok part) :
    ∃ sorted, g.sortScope scope = .ok sorted ∧ ∀ id ∈ sorted,
      ∃ inside, g.visitWithin depth id = .ok inside ∧ inside <:+: part := by
  obtain ⟨sorted, parts, hsorted, hparts, rfl⟩ := of_visitScope_succ h
  refine ⟨sorted, hsorted, fun id hid => ?_⟩
  obtain ⟨inside, hm, hinside⟩ := exists_of_mapM_ok hparts id hid
  exact ⟨inside, hinside, List.infix_of_mem_flatten hm⟩

theorem visitWithin_eq_ok {id : NodeId} :
    g.visitWithin depth id = .ok inside ↔ ∃ node inner, g.nodes[id]? = some node ∧
      node.bodies.mapM (g.visitScope depth) = .ok inner ∧
        id :: g.bordersOn .input node ++ inner.flatten ++ g.bordersOn .output node =
          inside := by
  unfold visitWithin
  simp only [Except.bind_eq_ok, getNode_eq_ok]
  constructor
  · rintro ⟨node, hnode, inner, hinner, h⟩
    exact ⟨node, inner, hnode, hinner, Except.ok.inj h⟩
  · rintro ⟨node, inner, hnode, hinner, h⟩
    exact ⟨node, hnode, inner, hinner, congrArg Except.ok h⟩

theorem of_visitWithin_eq_ok {id : NodeId} (h : g.visitWithin depth id = .ok inside) :
    ∃ node, g.nodes[id]? = some node ∧ id ∈ inside ∧
      (∀ side, ∀ border ∈ g.bordersOn side node, border ∈ inside) ∧
        ∀ body ∈ node.bodies, ∃ part, g.visitScope depth body = .ok part ∧ part <:+: inside := by
  obtain ⟨node, inner, hnode, hinner, rfl⟩ := visitWithin_eq_ok.mp h
  refine ⟨node, hnode, by simp, ?_, ?_⟩
  · intro side border hborder
    cases side <;> simp [hborder]
  · intro body hbody
    obtain ⟨part, hm, hpart⟩ := exists_of_mapM_ok hinner body hbody
    exact ⟨part, hpart, (List.infix_of_mem_flatten hm).trans (List.infix_append _ _ _)⟩

theorem Nested.mem_bordersOn (hn : g.Nested) {m : NodeId} {data : Node} {kind : BorderKind}
    (hd : g.nodes[m]? = some data) (hk : data.kind = .border n kind)
    (hnode : g.nodes[n]? = some node) : m ∈ g.bordersOn kind.side node := by
  obtain ⟨owner, _, howner, -, -, hm⟩ := hn.attached hd hk
  cases hnode.symm.trans howner
  refine List.mem_filter.mpr ⟨hm, ?_⟩
  simp [hd, hk, NodeKind.borderKind?]

theorem Nested.mem_visitWithin_hostOf (hn : g.Nested) (hnode : g.nodes[n]? = some node)
    (h : g.visitWithin depth (g.hostOf n) = .ok inside) : n ∈ inside := by
  obtain ⟨host, hhost, hself, hborders, -⟩ := of_visitWithin_eq_ok h
  cases hk : node.kind with
  | border owner kind =>
    rw [hostOf_of_border hnode hk] at hhost
    exact hborders kind.side n (hn.mem_bordersOn hnode hk hhost)
  | _ => rwa [hostOf_of_plain hnode (by rw [hk]; rfl)] at hself

theorem Nested.depth_le_of_body (hn : g.Nested) {body : ScopeId}
    (hnode : g.nodes[n]? = some node) (hbody : body ∈ node.bodies)
    (h : g.scopes.size ≤ depth + 1 + node.scope) : g.scopes.size ≤ depth + body := by
  rw [Nat.add_assoc, Nat.add_comm 1] at h
  exact Nat.le_trans h (Nat.add_le_add_left (hn.body hnode hbody).1 depth)

section

variable (hw : g.WellFormed) (hord : g.visitOrder = .ok order)
include hw hord

/-- Every scope of a graph that has an order is sorted on the way, deep enough for all it holds, and
what it holds stands together. -/
theorem WellFormed.exists_visitScope (hscope : scope < g.scopes.size) :
    ∃ depth part, g.scopes.size ≤ depth + 1 + scope ∧
      g.visitScope (depth + 1) scope = .ok part ∧ part <:+: order := by
  induction scope using Nat.strongRecOn with
  | ind scope ih =>
    by_cases hroot : scope = rootScope
    · subst hroot
      obtain ⟨depth, hdepth⟩ := Nat.exists_eq_succ_of_ne_zero (Nat.ne_of_gt hscope)
      refine ⟨depth, order, ?_, ?_, List.infix_rfl⟩
      · rw [hdepth]
        exact Nat.le_refl _
      · rw [visitOrder, hdepth] at hord
        exact hord
    · obtain ⟨n, node, hnode, hplain, hbody⟩ := hw.nested.owned hscope hroot
      obtain ⟨hlt, -⟩ := hw.nested.body hnode hbody
      obtain ⟨depth, part, hdepth, hpart, hinfix⟩ :=
        ih node.scope hlt (Nat.lt_trans hlt hscope)
      obtain ⟨sorted, hsorted, hall⟩ := of_visitScope_eq_ok hpart
      obtain ⟨⟨data, hd, hplaced⟩, -⟩ := of_sortScope_eq_ok hsorted
      obtain ⟨found, hf, hm⟩ := hw.nested.placed hnode hplain
      cases hd.symm.trans hf
      obtain ⟨inside, hinside, hinsideInfix⟩ := hall n (hplaced n hm)
      obtain ⟨found', hf', -, -, hbodies⟩ := of_visitWithin_eq_ok hinside
      cases hnode.symm.trans hf'
      obtain ⟨part', hpart', hinfix'⟩ := hbodies scope hbody
      have henough := hw.nested.depth_le_of_body hnode hbody hdepth
      cases depth with
      | zero =>
        rw [Nat.zero_add] at henough
        exact absurd hscope (Nat.not_lt_of_le henough)
      | succ depth =>
        exact ⟨depth, part', henough, hpart', hinfix'.trans (hinsideInfix.trans hinfix)⟩

theorem WellFormed.exists_sortScope (hscope : scope < g.scopes.size) :
    ∃ sorted, g.sortScope scope = .ok sorted ∧ ∀ id ∈ sorted,
      ∃ depth inside, g.scopes.size ≤ depth + 1 + scope ∧
        g.visitWithin depth id = .ok inside ∧ inside <:+: order := by
  obtain ⟨depth, part, hdepth, hpart, hinfix⟩ := hw.exists_visitScope hord hscope
  obtain ⟨sorted, hsorted, hall⟩ := of_visitScope_eq_ok hpart
  refine ⟨sorted, hsorted, fun id hid => ?_⟩
  obtain ⟨inside, hinside, hinsideInfix⟩ := hall id hid
  exact ⟨depth, inside, hdepth, hinside, hinsideInfix.trans hinfix⟩

theorem WellFormed.exists_visitWithin (hnode : g.nodes[n]? = some node)
    (hplain : node.kind.borderKind? = none) :
    ∃ depth inside, g.scopes.size ≤ depth + 1 + node.scope ∧
      g.visitWithin depth n = .ok inside ∧ inside <:+: order := by
  obtain ⟨data, hd, hm⟩ := hw.nested.placed hnode hplain
  have hlt := (Array.getElem?_eq_some_iff.mp hd).1
  obtain ⟨sorted, hsorted, hall⟩ := hw.exists_sortScope hord hlt
  obtain ⟨⟨found, hf, hplaced⟩, -⟩ := of_sortScope_eq_ok hsorted
  cases hd.symm.trans hf
  exact hall n (hplaced n hm)

theorem WellFormed.mem_visitOrder (hnode : g.nodes[n]? = some node) : n ∈ order := by
  obtain ⟨host, hhost, -, hplain⟩ := hw.nested.exists_host hnode
  obtain ⟨depth, inside, -, hinside, hinfix⟩ := hw.exists_visitWithin hord hhost hplain
  exact hinfix.subset (hw.nested.mem_visitWithin_hostOf hnode hinside)

end

/-! ## Orders and numbers -/

/-- A graph that has an order has numbers that grow along its wires: the place of a node in the
sorted list of its scope. -/
theorem WellFormed.exists_ranks (hw : g.WellFormed) (hc : g.Consistent)
    (hord : g.visitOrder = .ok order) : ∃ rank, g.Ranks rank := by
  refine ⟨fun n => match g.sortScope (((g.nodes[n]?).map Node.scope).getD rootScope) with
    | .ok sorted => sorted.idxOf n
    | .error _ => 0, ?_⟩
  rintro scope ⟨source, target⟩ hedge
  -- both ends stand in the scope of the wire
  obtain ⟨sourceNode, hsource, hsourceScope, -⟩ := hw.of_mem_connectionsIn hc hedge (.inl rfl)
  obtain ⟨targetNode, htarget, htargetScope, -⟩ := hw.of_mem_connectionsIn hc hedge (.inr rfl)
  obtain ⟨sorted, hsorted, -⟩ :=
    hw.exists_sortScope hord (hsourceScope ▸ hw.nested.scope_lt hsource)
  have hforward := (of_sortScope_eq_ok hsorted).2 _ hedge
  simpa [hsource, htarget, hsourceScope, htargetScope, hsorted] using hforward

theorem Ranks.exists_visitScope (hw : g.WellFormed) (hc : g.Consistent)
    (hrank : g.Ranks rank) (depth : Nat) (hscope : scope < g.scopes.size) :
    ∃ part, g.visitScope depth scope = .ok part := by
  induction depth generalizing scope with
  | zero => exact ⟨[], rfl⟩
  | succ depth ih =>
    obtain ⟨sorted, hsorted⟩ := hrank.exists_sortScope (Array.getElem?_eq_getElem hscope)
    have hinside : ∀ id ∈ sorted, ∃ inside, g.visitWithin depth id = .ok inside := by
      intro id hid
      obtain ⟨node, hnode, -⟩ := (hw.of_sortScope hc hsorted).2 id hid
      obtain ⟨inner, hinner⟩ := exists_mapM_ok fun body hbody =>
        ih (hw.nested.body hnode hbody).2
      unfold visitWithin getNode
      simp only [hnode, hinner, bind, Except.bind]
      exact ⟨_, rfl⟩
    obtain ⟨parts, hparts⟩ := exists_mapM_ok hinside
    rw [visitScope_succ]
    simp only [hsorted, hparts, bind, Except.bind]
    exact ⟨_, rfl⟩

theorem Ranks.exists_visitOrder (hrank : g.Ranks rank) (hw : g.WellFormed)
    (hc : g.Consistent) : ∃ order, g.visitOrder = .ok order :=
  hrank.exists_visitScope hw hc _ hw.nested.root

end Graph

end BorrowFlow
