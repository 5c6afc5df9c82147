import BorrowFlow.Proofs.Graph.Visits
import Mathlib.Data.Finset.Card
import Mathlib.Logic.Relation

/-!
# The hierarchy of the visit order

A graph has a visit order exactly if the wires of no scope lead in a circle, with structures in the
place of their border nodes. The order then has every node once, and every wire leads forward in it.
A structure is followed at once by the border nodes that lead into it, by what its bodies hold, one
body after the other, and by the border nodes that lead out of it.
-/

namespace BorrowFlow

variable {n : NodeId} {node : Node} {id : PortId}

/-! ## Lists that are put together from parts -/

section Lists

variable {ε α β : Type} {items : List α}

theorem pair_sublist_append {first second : List α} {x y : α} (hx : x ∈ first) (hy : y ∈ second) :
    [x, y].Sublist (first ++ second) :=
  (List.singleton_sublist.mpr hx).append (List.singleton_sublist.mpr hy)

theorem pair_sublist_flatten_of_mapM_ok {f : α → Except ε (List β)}
    {parts : List (List β)} (h : items.mapM f = .ok parts) {first second : α}
    {part part' : List β} (hpair : [first, second].Sublist items) (hfirst : f first = .ok part)
    (hsecond : f second = .ok part') {x y : β} (hx : x ∈ part) (hy : y ∈ part') :
    [x, y].Sublist parts.flatten := by
  replace h := forall₂_of_mapM_ok h
  induction h with
  | nil => cases hpair
  | cons hhead hrest ih =>
    rw [List.flatten_cons]
    rcases List.cons_sublist_cons'.mp hpair with hpair | ⟨rfl, hlater⟩
    · exact (ih hpair).trans (List.sublist_append_right _ _)
    · cases Except.ok.inj (hfirst.symm.trans hhead)
      obtain ⟨found, hm, hf⟩ :=
        exists_of_forall₂ hrest second (List.singleton_sublist.mp hlater)
      cases Except.ok.inj (hsecond.symm.trans hf)
      exact pair_sublist_append hx (List.mem_flatten.mpr ⟨part', hm, hy⟩)

variable [DecidableEq α] {x y : α}

theorem pair_sublist_of_idxOf_lt (hy : y ∈ items) (h : items.idxOf x < items.idxOf y) :
    [x, y].Sublist items := by
  induction items with
  | nil => cases hy
  | cons head rest ih =>
    by_cases hhead : head = y
    · simp [hhead] at h
    · have hrest : y ∈ rest := (List.mem_cons.mp hy).resolve_left (Ne.symm hhead)
      by_cases hx : head = x
      · subst hx
        exact (List.singleton_sublist.mpr hrest).cons_cons head
      · rw [List.idxOf_cons_ne _ hx, List.idxOf_cons_ne _ hhead] at h
        exact (ih hrest (Nat.lt_of_succ_lt_succ h)).cons head

theorem idxOf_lt_of_pair_sublist (hnodup : items.Nodup) (h : [x, y].Sublist items) :
    items.idxOf x < items.idxOf y := by
  have hsorted : items.Pairwise fun first second => items.idxOf first < items.idxOf second := by
    rw [List.pairwise_iff_getElem]
    intro i j hi hj hlt
    rwa [hnodup.idxOf_getElem i hi, hnodup.idxOf_getElem j hj]
  exact List.pairwise_iff_forall_sublist.mp hsorted h

end Lists

namespace Graph

variable {m : NodeId} {g graph : Graph} {scope : ScopeId} {depth : Nat} {order : List NodeId}

/-! ## Circles -/

/-- Where a port is seen when its scope is sorted: at the host of its node, if the node stands in
the scope. The ports by which a border node faces a body are seen nowhere in that body. -/
def SeenAt (g : Graph) (scope : ScopeId) (id : PortId) (n : NodeId) : Prop :=
  ∃ port node, g.ports[id]? = some port ∧ g.nodes[port.node]? = some node ∧
    node.scope = scope ∧ g.hostOf port.node = n

/-- A wire of the scope leads from one node to another. -/
def Feeds (g : Graph) (scope : ScopeId) (n m : NodeId) : Prop :=
  ∃ (w : WireId) (wire : Wire), g.wires[w]? = some wire ∧ wire.scope = scope ∧
    g.SeenAt scope wire.source n ∧ ∃ sink ∈ wire.sinks, g.SeenAt scope sink m

def Acyclic (g : Graph) : Prop :=
  ∀ scope n, ¬ Relation.TransGen (g.Feeds scope) n n

theorem WellFormed.seenAt_iff (hw : g.WellFormed) {port : Port} (hport : g.ports[id]? = some port) :
    g.SeenAt port.scope id n ↔ g.representative? port.scope id = some n := by
  rw [hw.representative_iff hport]
  constructor
  · rintro ⟨found, node, hf, hnode, hscope, hhost⟩
    cases hport.symm.trans hf
    exact ⟨node, hnode, hscope, hhost⟩
  · exact fun ⟨node, hnode, hscope, hhost⟩ => ⟨port, node, hport, hnode, hscope, hhost⟩

theorem WellFormed.feeds_iff (hw : g.WellFormed) (hc : g.Consistent) :
    g.Feeds scope n m ↔ (n, m) ∈ g.connectionsIn scope := by
  rw [mem_connectionsIn]
  unfold Feeds
  refine exists_congr fun w => exists_congr fun wire => and_congr_right fun hwire => ?_
  refine and_congr_right ?_
  rintro rfl
  obtain ⟨source, hsource, -, hscope⟩ := hc.source hwire
  rw [← hscope, hw.seenAt_iff hsource]
  refine and_congr_right fun _ => exists_congr fun sink => and_congr_right fun hsink => ?_
  obtain ⟨port, hport, -, hscope'⟩ := hc.sink hwire hsink
  rw [hscope, ← hscope', hw.seenAt_iff hport]

theorem Nested.of_seenAt (hn : g.Nested) (h : g.SeenAt scope id n) :
    ∃ node, g.nodes[n]? = some node ∧ node.scope = scope := by
  obtain ⟨port, node, -, hnode, rfl, rfl⟩ := h
  obtain ⟨host, hhost, hscope, -⟩ := hn.exists_host hnode
  exact ⟨host, hhost, hscope⟩

theorem Ranks.lt_of_transGen {rank : NodeId → Nat} (hrank : g.Ranks rank)
    (hw : g.WellFormed) (hc : g.Consistent)
    (h : Relation.TransGen (g.Feeds scope) n m) : rank n < rank m := by
  induction h with
  | single hfeeds => exact hrank scope _ ((hw.feeds_iff hc).mp hfeeds)
  | tail _ hfeeds ih => exact Nat.lt_trans ih (hrank scope _ ((hw.feeds_iff hc).mp hfeeds))

open Classical in
noncomputable def origins (g : Graph) (n : NodeId) : Finset NodeId :=
  (Finset.range g.nodes.size).filter fun m =>
    ∃ node, g.nodes[n]? = some node ∧ Relation.TransGen (g.Feeds node.scope) m n

/-- Without a circle, nodes can be numbered by how many others lead to them. -/
theorem Acyclic.ranks_card_origins (h : g.Acyclic) (hw : g.WellFormed)
    (hc : g.Consistent) : g.Ranks fun n => (g.origins n).card := by
  rintro scope ⟨n, m⟩ hedge
  have hfeeds := (hw.feeds_iff hc).mpr hedge
  have hseen := hfeeds
  obtain ⟨w, wire, -, -, hsource, sink, -, hsink⟩ := hseen
  obtain ⟨node, hnode, rfl⟩ := hw.nested.of_seenAt hsource
  obtain ⟨other, ho, hscope⟩ := hw.nested.of_seenAt hsink
  refine Finset.card_lt_card ⟨?_, ?_⟩
  · intro x hx
    simp only [origins, Finset.mem_filter] at hx ⊢
    obtain ⟨hrange, found, hf, hlead⟩ := hx
    cases hnode.symm.trans hf
    exact ⟨hrange, other, ho, hscope ▸ hlead.tail hfeeds⟩
  · intro hsubset
    have hn : n ∈ g.origins m := by
      simp only [origins, Finset.mem_filter, Finset.mem_range]
      exact ⟨lt_size_of_node hnode, other, ho, hscope ▸ .single hfeeds⟩
    have hself := hsubset hn
    simp only [origins, Finset.mem_filter] at hself
    obtain ⟨-, found, -, hlead⟩ := hself
    exact h _ n hlead

theorem WellFormed.exists_visitOrder_iff (hw : g.WellFormed) (hc : g.Consistent) :
    (∃ order, g.visitOrder = .ok order) ↔ g.Acyclic := by
  constructor
  · rintro ⟨order, horder⟩ scope n hcircle
    obtain ⟨rank, hrank⟩ := hw.exists_ranks hc horder
    exact Nat.lt_irrefl _ (hrank.lt_of_transGen hw hc hcircle)
  · exact fun h => (h.ranks_card_origins hw hc).exists_visitOrder hw hc

/-! ## What a scope holds -/

/-- The node stands in the scope, or somewhere inside it. -/
def Within (g : Graph) (scope : ScopeId) (n : NodeId) : Prop :=
  ∃ node, g.nodes[n]? = some node ∧ g.Encloses scope node.scope

theorem Encloses.exists_body {outer inner : ScopeId} (h : g.Encloses outer inner) :
    inner = outer ∨ ∃ (n : NodeId) (node : Node) (body : ScopeId), g.nodes[n]? = some node ∧
      node.scope = outer ∧ body ∈ node.bodies ∧ g.Encloses body inner := by
  induction h with
  | refl => exact .inl rfl
  | @body m other inner ho hinner _ ih =>
    right
    rcases ih with heq | ⟨n, node, body, hnode, hscope, hbody, hinside⟩
    · exact ⟨m, other, inner, ho, heq, hinner, .refl⟩
    · exact ⟨n, node, body, hnode, hscope, hbody, .body ho hinner hinside⟩

section

variable (hn : g.Nested) (hl : g.Layered) (hnode : g.nodes[n]? = some node)
include hn hl hnode

theorem Nested.plain_of_mem_bodies (hbody : scope ∈ node.bodies) :
    node.kind.borderKind? = none := by
  obtain ⟨hlt, hscope⟩ := hn.body hnode hbody
  obtain ⟨m, other, ho, hplain, hbody'⟩ :=
    hn.owned hscope (Nat.ne_of_gt (Nat.lt_of_le_of_lt (Nat.zero_le _) hlt))
  obtain rfl := hl.owner_unique hnode ho hbody hbody'
  cases hnode.symm.trans ho
  exact hplain

theorem Nested.mem_bordersOn_iff {side : Direction} :
    m ∈ g.bordersOn side node ↔ ∃ data kind, g.nodes[m]? = some data ∧
      data.kind = .border n kind ∧ kind.side = side := by
  constructor
  · intro hm
    obtain ⟨hborder, hside⟩ := List.mem_filter.mp hm
    obtain ⟨data, kind, hd, hk⟩ := hl.border hnode hborder
    refine ⟨data, kind, hd, hk, ?_⟩
    simpa [hd, hk, NodeKind.borderKind?] using hside
  · rintro ⟨data, kind, hd, hk, hside⟩
    exact hside ▸ hn.mem_bordersOn hd hk hnode

end

theorem Nested.mem_sortScope (hn : g.Nested) {sorted : List NodeId}
    (hnode : g.nodes[n]? = some node) (hplain : node.kind.borderKind? = none)
    (h : g.sortScope node.scope = .ok sorted) : n ∈ sorted := by
  obtain ⟨⟨data, hd, hplaced⟩, -⟩ := of_sortScope_eq_ok h
  obtain ⟨found, hf, hm⟩ := hn.placed hnode hplain
  cases hd.symm.trans hf
  exact hplaced n hm

theorem WellFormed.mem_visitScope (hw : g.WellFormed) (hl : g.Layered) {part : List NodeId}
    (hdepth : g.scopes.size ≤ depth + scope) (h : g.visitScope depth scope = .ok part)
    (hwithin : g.Within scope n) : n ∈ part := by
  obtain ⟨node, hnode, hinside⟩ := hwithin
  induction depth generalizing scope part with
  | zero =>
    have hle := Nat.le_trans (Nat.zero_add scope ▸ hdepth) (hinside.le hw.nested)
    exact absurd (hw.nested.scope_lt hnode) (Nat.not_lt_of_le hle)
  | succ depth ih =>
    obtain ⟨sorted, hsorted, hall⟩ := of_visitScope_eq_ok h
    rcases hinside.exists_body with rfl | ⟨m, other, body, ho, rfl, hbody, hinside⟩
    · obtain ⟨host, hhost, hscope, hplain⟩ := hw.nested.exists_host hnode
      rw [← hscope] at hsorted
      obtain ⟨inside, hrun, hinfix⟩ := hall _ (hw.nested.mem_sortScope hhost hplain hsorted)
      exact hinfix.subset (hw.nested.mem_visitWithin_hostOf hnode hrun)
    · have hplain := hw.nested.plain_of_mem_bodies hl ho hbody
      obtain ⟨inside, hrun, hinfix⟩ := hall m (hw.nested.mem_sortScope ho hplain hsorted)
      obtain ⟨found, hf, -, -, hbodies⟩ := of_visitWithin_eq_ok hrun
      cases ho.symm.trans hf
      obtain ⟨part', hpart', hinfix'⟩ := hbodies body hbody
      have hdepth' := hw.nested.depth_le_of_body ho hbody hdepth
      exact hinfix.subset (hinfix'.subset (ih hdepth' hpart' hinside))

theorem WellFormed.exists_stretch (hw : g.WellFormed) (hc : g.Consistent)
    (hl : g.Layered) (horder : g.visitOrder = .ok order)
    (hnode : g.nodes[n]? = some node) (hplain : node.kind.borderKind? = none) :
    ∃ inner, n :: g.bordersOn .input node ++ inner.flatten ++ g.bordersOn .output node <:+: order ∧
      List.Forall₂ (fun body part => ∀ m, m ∈ part ↔ g.Within body m) node.bodies inner := by
  obtain ⟨depth, inside, hdepth, hinside, hinfix⟩ := hw.exists_visitWithin horder hnode hplain
  obtain ⟨found, inner, hf, hinner, rfl⟩ := visitWithin_eq_ok.mp hinside
  cases hnode.symm.trans hf
  refine ⟨inner, hinfix, ?_⟩
  have hbodies : ∀ body ∈ node.bodies, g.scopes.size ≤ depth + body := fun body hbody =>
    hw.nested.depth_le_of_body hnode hbody hdepth
  apply List.Forall₂.imp ?_ ((List.forall₂_and_left _ _).mpr ⟨hbodies, forall₂_of_mapM_ok hinner⟩)
  rintro body part ⟨henough, hpart⟩ m
  exact ⟨hw.encloses_of_visitScope hc hl hpart m, hw.mem_visitScope hl henough hpart⟩

theorem mem_flatten_of_within {bodies : List ScopeId} {inner : List (List NodeId)}
    (h : List.Forall₂ (fun body part => ∀ m, m ∈ part ↔ g.Within body m) bodies inner)
    {body : ScopeId} (hbody : body ∈ bodies) (hn : g.Within body n) : n ∈ inner.flatten := by
  induction h with
  | nil => cases hbody
  | cons hhead _ ih =>
    rw [List.flatten_cons, List.mem_append]
    rcases List.mem_cons.mp hbody with rfl | hbody
    · exact .inl ((hhead n).mpr hn)
    · exact .inr (ih hbody)

/-! ## Wires lead forward -/

/-- A port that faces another scope than its node stands in is on the inner side of a border
node. -/
theorem Seated.border_of_scope_ne (hs : g.Seated) (hn : g.Nested) {port : Port}
    (hport : g.ports[id]? = some port) (hnode : g.nodes[port.node]? = some node)
    (hne : node.scope ≠ port.scope) :
    ∃ (owner : NodeId) (ownerNode : Node) (kind : BorderKind),
      g.nodes[owner]? = some ownerNode ∧ port.scope ∈ ownerNode.bodies ∧
        node.kind = .border owner kind ∧ kind.side ≠ port.direction := by
  obtain ⟨found, hf, hlisted⟩ := hs.listed hport
  cases hnode.symm.trans hf
  obtain ⟨-, -, hfaced⟩ := hs.of_mem hnode (List.mem_of_getElem? hlisted) hport
  cases hk : node.kind with
  | border owner kind =>
    obtain ⟨ownerNode, _, howner, -, -, -⟩ := hn.attached hnode hk
    have hbodies : g.bodiesAt owner = ownerNode.bodies := by simp [bodiesAt, howner]
    simp only [faced, hk, BorderKind.faced, hbodies] at hfaced
    split at hfaced
    · exact absurd (List.mem_singleton.mp hfaced).symm hne
    · rename_i hside
      refine ⟨owner, ownerNode, kind, howner, ?_, rfl, hside⟩
      split at hfaced
      · exact List.mem_of_mem_take hfaced
      · exact hfaced
  | _ =>
    have hplain : node.kind.borderKind? = none := by rw [hk]; rfl
    exact absurd (hs.scope_of_plain hnode hplain (List.mem_of_getElem? hlisted) hport).symm hne

section

variable {sinkPort sourcePort : Port} {sink source : PortId} (hw : g.WellFormed) (hc : g.Consistent)
  (hl : g.Layered) (horder : g.visitOrder = .ok order) (hm : sink ∈ g.sinksAt source)
  (hsource : g.ports[source]? = some sourcePort) (hsink : g.ports[sink]? = some sinkPort)
include hw hc hl horder hm hsource hsink

omit hl in
/-- Between two nodes of one scope, a wire leads from what is sorted earlier to what is sorted
later. -/
theorem WellFormed.pair_sublist_of_seen {other : Node}
    (hnode : g.nodes[sourcePort.node]? = some node)
    (ho : g.nodes[sinkPort.node]? = some other) (hscope : node.scope = sourcePort.scope)
    (hscope' : other.scope = sinkPort.scope) : [sourcePort.node, sinkPort.node].Sublist order := by
  obtain ⟨_, _, hf, hf', -, -, hscopes⟩ := hc.ends hm
  cases hsource.symm.trans hf
  cases hsink.symm.trans hf'
  obtain ⟨depth, part, -, hpart, hinfix⟩ :=
    hw.exists_visitScope horder (hscope ▸ hw.nested.scope_lt hnode)
  refine List.Sublist.trans ?_ hinfix.sublist
  obtain ⟨sorted, parts, hsorted, hparts, rfl⟩ := of_visitScope_succ hpart
  have hseen := (hw.seenAt_iff hsource).mp ⟨sourcePort, node, hsource, hnode, hscope, rfl⟩
  have hseen' := (hw.seenAt_iff hsink).mp ⟨sinkPort, other, hsink, ho, hscope', rfl⟩
  rw [← hscopes] at hseen'
  have hlt := (of_sortScope_eq_ok hsorted).2 _
    (hc.mem_connectionsIn_iff.mpr ⟨source, sink, sourcePort, hm, hsource, rfl, hseen, hseen'⟩)
  have hm' : ∀ {n : NodeId} {data : Node}, g.nodes[n]? = some data →
      data.scope = sourcePort.scope → g.hostOf n ∈ sorted := by
    intro n data hd hdataScope
    obtain ⟨host, hhost, hhostScope, hplain⟩ := hw.nested.exists_host hd
    rw [← hdataScope, ← hhostScope] at hsorted
    exact hw.nested.mem_sortScope hhost hplain hsorted
  obtain ⟨first, -, hfirst⟩ := exists_of_mapM_ok hparts _ (hm' hnode hscope)
  obtain ⟨second, -, hsecond⟩ :=
    exists_of_mapM_ok hparts _ (hm' ho (hscope'.trans hscopes.symm))
  exact pair_sublist_flatten_of_mapM_ok hparts
    (pair_sublist_of_idxOf_lt (hm' ho (hscope'.trans hscopes.symm)) hlt) hfirst hsecond
    (hw.nested.mem_visitWithin_hostOf hnode hfirst)
    (hw.nested.mem_visitWithin_hostOf ho hsecond)

/-- The node that a wire starts at is visited before each node that the wire leads to. -/
theorem WellFormed.pair_sublist_visitOrder : [sourcePort.node, sinkPort.node].Sublist order := by
  obtain ⟨node, hnode, -⟩ := hw.seated.listed hsource
  obtain ⟨other, ho, -⟩ := hw.seated.listed hsink
  obtain ⟨_, _, hf, hf', houtput, hinput, hscopes⟩ := hc.ends hm
  cases hsource.symm.trans hf
  cases hsink.symm.trans hf'
  -- on the inner side, an output belongs to a border node that leads in, and an input to one that
  -- leads out
  have hside : ∀ {side : Direction}, side ≠ sourcePort.direction → side = .input := by
    rw [houtput]
    rintro (_ | _) <;> simp
  have hside' : ∀ {side : Direction}, side ≠ sinkPort.direction → side = .output := by
    rw [hinput]
    rintro (_ | _) <;> simp
  by_cases hscope : node.scope = sourcePort.scope
  · by_cases hscope' : other.scope = sinkPort.scope
    · exact hw.pair_sublist_of_seen hc horder hm hsource hsink hnode ho hscope hscope'
    · obtain ⟨owner, ownerNode, kind, howner, hbody, hk, hne⟩ :=
        hw.seated.border_of_scope_ne hw.nested hsink ho hscope'
      have hplain := hw.nested.plain_of_mem_bodies hl howner hbody
      obtain ⟨inner, hinfix, hinner⟩ := hw.exists_stretch hc hl horder howner hplain
      have hwithin : g.Within sinkPort.scope sourcePort.node :=
        ⟨node, hnode, hscopes ▸ hscope ▸ .refl⟩
      refine List.Sublist.trans ?_ hinfix.sublist
      apply pair_sublist_append
      · exact List.mem_append_right _ (mem_flatten_of_within hinner hbody hwithin)
      · exact (hw.nested.mem_bordersOn_iff hl howner).mpr ⟨other, kind, ho, hk, hside' hne⟩
  · obtain ⟨owner, ownerNode, kind, howner, hbody, hk, hne⟩ :=
      hw.seated.border_of_scope_ne hw.nested hsource hnode hscope
    have hplain := hw.nested.plain_of_mem_bodies hl howner hbody
    obtain ⟨inner, hinfix, hinner⟩ := hw.exists_stretch hc hl horder howner hplain
    refine List.Sublist.trans ?_ hinfix.sublist
    rw [List.append_assoc]
    apply pair_sublist_append
    · exact List.mem_cons_of_mem _
        ((hw.nested.mem_bordersOn_iff hl howner).mpr ⟨node, kind, hnode, hk, hside hne⟩)
    · by_cases hscope' : other.scope = sinkPort.scope
      · have hwithin : g.Within sourcePort.scope sinkPort.node :=
          ⟨other, ho, hscopes ▸ hscope' ▸ .refl⟩
        exact List.mem_append_left _ (mem_flatten_of_within hinner hbody hwithin)
      · obtain ⟨owner', ownerNode', kind', howner', hbody', hk', hne'⟩ :=
          hw.seated.border_of_scope_ne hw.nested hsink ho hscope'
        obtain rfl := hl.owner_unique howner howner' hbody (hscopes ▸ hbody')
        refine List.mem_append_right _ ((hw.nested.mem_bordersOn_iff hl howner).mpr ?_)
        exact ⟨other, kind', ho, hk', hside' hne'⟩

end

/-! ## The order -/

/-- An order has every node once, every wire leads forward in it, and a structure is followed at
once by the border nodes that lead into it, what its bodies hold, and the border nodes that lead out
of it. -/
structure IsHierarchical (g : Graph) (order : List NodeId) : Prop where
  nodup : order.Nodup
  mem_iff : ∀ n, n ∈ order ↔ n < g.nodes.size
  forward : ∀ (w : WireId) (wire : Wire), g.wires[w]? = some wire → ∀ sink ∈ wire.sinks,
    ∃ source target, g.ports[wire.source]? = some source ∧ g.ports[sink]? = some target ∧
      order.idxOf source.node < order.idxOf target.node
  contiguous : ∀ (n : NodeId) (node : Node) (kind : StructureKind), g.nodes[n]? = some node →
    node.kind = .compound kind → ∃ (entering leaving : List NodeId) (inner : List (List NodeId)),
      n :: entering ++ inner.flatten ++ leaving <:+: order ∧
        (∀ m, m ∈ entering ↔ ∃ data kind, g.nodes[m]? = some data ∧
          data.kind = .border n kind ∧ kind.side = .input) ∧
        List.Forall₂ (fun body part => ∀ m, m ∈ part ↔ g.Within body m) node.bodies inner ∧
        ∀ m, m ∈ leaving ↔ ∃ data kind, g.nodes[m]? = some data ∧
          data.kind = .border n kind ∧ kind.side = .output

theorem WellFormed.isHierarchical (hw : g.WellFormed) (hc : g.Consistent)
    (hl : g.Layered) (horder : g.visitOrder = .ok order) :
    g.IsHierarchical order := by
  have hnodup : order.Nodup :=
    (hw.pairwise_visitOrder hc hl horder).imp fun hprecede => hprecede.1
  refine ⟨hnodup, fun n => ⟨fun hn => ?_, fun hn => ?_⟩, ?_, ?_⟩
  · obtain ⟨node, hnode⟩ := hw.exists_of_mem_visitOrder hc hl horder hn
    exact lt_size_of_node hnode
  · exact hw.mem_visitOrder horder (Array.getElem?_eq_getElem hn)
  · intro w wire hwire sink hsink
    have hm := hsink
    rw [← hc.sinksAt_source hwire (List.ne_nil_of_mem hsink)] at hm
    obtain ⟨source, target, hsource, htarget, -⟩ := hc.ends hm
    exact ⟨source, target, hsource, htarget, idxOf_lt_of_pair_sublist hnodup
      (hw.pair_sublist_visitOrder hc hl horder hm hsource htarget)⟩
  · intro n node kind hnode hk
    have hplain : node.kind.borderKind? = none := by rw [hk]; rfl
    obtain ⟨inner, hinfix, hinner⟩ := hw.exists_stretch hc hl horder hnode hplain
    exact ⟨_, _, inner, hinfix, fun m => hw.nested.mem_bordersOn_iff hl hnode, hinner,
      fun m => hw.nested.mem_bordersOn_iff hl hnode⟩

/-- A graph has an order if and only if its wires lead in no circle, and the order is
hierarchical. -/
theorem Built.visitOrder_isHierarchical (h : graph.Built) :
    ((∃ order, graph.visitOrder = .ok order) ↔ graph.Acyclic) ∧
      ∀ order, graph.visitOrder = .ok order → graph.IsHierarchical order :=
  ⟨h.wellFormed.exists_visitOrder_iff h.consistent,
    fun _ horder => h.wellFormed.isHierarchical h.consistent h.layered horder⟩

/-- A value that is led into a frame, through a borrow, and out of the frame to be dropped. -/
def framed : Graph :=
  leaves (connect 6 0) (leaves (connect 2 5) (leaves (connect 4 1) (leaves (connect 7 3)
    (leaves (addNode rootScope (.constant .int32 true) false)
      (leaves (addBorder 1 .outputTunnel)
        (leaves (addBorder 1 .inputTunnel)
          (leaves (addNode 1 (.explicitBorrow true 1) false)
            (leaves (addStructure rootScope .frame)
              (leaves (addNode rootScope .drop false) empty)))))))))

theorem built_framed : framed.Built :=
  .connect (.connect (.connect (.connect (.addNode (.addBorder (.addBorder (.addNode
    (.addStructure (.addNode .empty _ _) _ _) _ _) _ _) _ _) _ _) _ _) _ _) _ _) _ _

theorem visitOrder_isHierarchical_framed : framed.visitOrder = .ok [5, 1, 3, 2, 4, 0] ∧
    framed.Acyclic ∧ framed.IsHierarchical [5, 1, 3, 2, 4, 0] := by
  have horder : framed.visitOrder = .ok [5, 1, 3, 2, 4, 0] := by rfl
  obtain ⟨hacyclic, hhierarchical⟩ := built_framed.visitOrder_isHierarchical
  exact ⟨horder, hacyclic.mp ⟨_, horder⟩, hhierarchical _ horder⟩

end Graph

end BorrowFlow
