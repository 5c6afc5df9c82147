import BorrowFlow.Proofs.Graph.Building

/-!
# How scopes and structures are nested

In a graph that is built by edits a scope is younger than the one around it, and a body names the
structure that it belongs to and the scope that the structure stands in. A structure lists each of
its bodies and border nodes once, and every border node that it lists names it. A tunnel that ends a
borrow hangs on the same structure as the tunnel that begins it.
-/

namespace BorrowFlow

namespace Graph

structure Layered (g : Graph) : Prop where
  parent : ∀ {s parent : ScopeId} {scope : Scope}, g.scopes[s]? = some scope →
    scope.parent = some parent → parent < s
  owner : ∀ {n : NodeId} {node : Node} {s : ScopeId}, g.nodes[n]? = some node →
    s ∈ node.bodies → (g.scopes[s]?).bind Scope.owner = some n
  inside : ∀ {n : NodeId} {node : Node} {s : ScopeId}, g.nodes[n]? = some node →
    s ∈ node.bodies → (g.scopes[s]?).bind Scope.parent = some node.scope
  bodies_nodup : ∀ {n : NodeId} {node : Node}, g.nodes[n]? = some node → node.bodies.Nodup
  border : ∀ {n border : NodeId} {node : Node}, g.nodes[n]? = some node →
    border ∈ node.borders → ∃ (data : Node) (kind : BorderKind),
      g.nodes[border]? = some data ∧ data.kind = .border n kind
  borders_nodup : ∀ {n : NodeId} {node : Node}, g.nodes[n]? = some node → node.borders.Nodup
  partner : ∀ {n owner tunnel : NodeId} {node : Node}, g.nodes[n]? = some node →
    node.kind = .border owner (.terminateLifetimeTunnel tunnel) →
      ∃ (data : Node) (mutable : Bool), g.nodes[tunnel]? = some data ∧
        data.kind = .border owner (.borrowTunnel mutable)

variable {g g' : Graph}

theorem layered_empty : Graph.empty.Layered := by
  refine ⟨?_, nofun, nofun, nofun, nofun, nofun, nofun⟩
  intro s parent scope hs hparent
  have hlt := (Array.getElem?_eq_some_iff.mp hs).1
  obtain rfl := Nat.lt_one_iff.mp hlt
  cases Option.some.inj hs
  cases hparent

theorem Layered.of_sameLayout (h : g.Layered) (hlayout : g.SameLayout g') : g'.Layered := by
  obtain ⟨hparent, howner, hinside, hbodies, hborder, hborders, hpartner⟩ := h
  rw [← hlayout.scopes, ← hlayout.nodes] at *
  exact ⟨hparent, howner, hinside, hbodies, hborder, hborders, hpartner⟩

/-! ## Plain nodes and structures -/

theorem Layered.settle (h : g.Layered) (hn : g.Nested) {node : Node} {count : Nat}
    {body : Scope} (hscope : node.scope < g.scopes.size) (hkind : node.kind.borderKind? = none)
    (hborders : node.borders = []) (hbodies : node.bodies = List.range' g.scopes.size count)
    (hparent : count ≠ 0 → body.parent = some node.scope)
    (howner : count ≠ 0 → body.owner = some g.nodes.size) :
    (g.settle node count body).Layered where
  parent {s parent scope} hs hp := by
    rw [getElem?_scopes_settle hscope] at hs
    split at hs
    · obtain ⟨data, hd, rfl⟩ := Option.map_eq_some_iff.mp hs
      apply h.parent hd
      split at hp <;> exact hp
    · rename_i hnew
      split at hs
      · cases hs
        rw [hparent (by omega)] at hp
        cases hp
        exact Nat.lt_of_lt_of_le hscope (Nat.le_of_not_lt hnew)
      · cases hs
  owner {n data s} hd hs := by
    rw [getElem?_scopes_settle hscope]
    rcases node_settle_cases hd with ⟨rfl, rfl⟩ | hd
    · have hrange : s ∈ List.range' g.scopes.size count := hbodies ▸ hs
      rw [List.mem_range'_1] at hrange
      rw [if_neg (by omega), if_pos hrange.2, Option.bind_some, howner (by omega)]
    · have hbind := h.owner hd hs
      rw [if_pos (hn.body hd hs).2]
      obtain ⟨scope, hscope', hn⟩ := Option.bind_eq_some_iff.mp hbind
      rw [hscope', Option.map_some, Option.bind_some]
      split <;> exact hn
  inside {n data s} hd hs := by
    rw [getElem?_scopes_settle hscope]
    rcases node_settle_cases hd with ⟨rfl, rfl⟩ | hd
    · have hrange : s ∈ List.range' g.scopes.size count := hbodies ▸ hs
      rw [List.mem_range'_1] at hrange
      rw [if_neg (by omega), if_pos hrange.2, Option.bind_some, hparent (by omega)]
      rfl
    · have hbind := h.inside hd hs
      rw [if_pos (hn.body hd hs).2]
      obtain ⟨scope, hscope', hn⟩ := Option.bind_eq_some_iff.mp hbind
      rw [hscope', Option.map_some, Option.bind_some]
      split <;> exact hn
  bodies_nodup {n data} hd := by
    rcases node_settle_cases hd with ⟨rfl, rfl⟩ | hd
    · change node.bodies.Nodup
      rw [hbodies]
      exact List.nodup_range' 1
    · exact h.bodies_nodup hd
  border {n border data} hd hborder := by
    rcases node_settle_cases hd with ⟨rfl, rfl⟩ | hd
    · have hnil : border ∈ node.borders := hborder
      simp [hborders] at hnil
    · obtain ⟨found, kind, hf, hk⟩ := h.border hd hborder
      exact ⟨found, kind, (keeps_settle g node count body).node hf, hk⟩
  borders_nodup {n data} hd := by
    rcases node_settle_cases hd with ⟨rfl, rfl⟩ | hd
    · change node.borders.Nodup
      rw [hborders]
      exact .nil
    · exact h.borders_nodup hd
  partner {n owner tunnel data} hd hk := by
    rcases node_settle_cases hd with ⟨rfl, rfl⟩ | hd
    · rw [show node.kind = .border owner (.terminateLifetimeTunnel tunnel) from hk] at hkind
      cases hkind
    · obtain ⟨found, mutable, hf, hk'⟩ := h.partner hd hk
      exact ⟨found, mutable, (keeps_settle g node count body).node hf, hk'⟩

/-! ## Border nodes -/

theorem of_admitsBorder {owner tunnel : NodeId} {structureKind : StructureKind}
    (h : g.admitsBorder owner structureKind (.terminateLifetimeTunnel tunnel) = .ok true) :
    ∃ (data : Node) (mutable : Bool), g.nodes[tunnel]? = some data ∧
      data.kind = .border owner (.borrowTunnel mutable) := by
  unfold admitsBorder at h
  obtain ⟨data, hd, h⟩ := Except.bind_eq_ok.mp h
  rw [getNode_eq_ok] at hd
  split at h
  · rename_i partner mutable hk
    obtain rfl : partner = owner := by simpa [pure, Except.pure] using h
    exact ⟨data, mutable, hd, hk⟩
  · cases h

theorem Layered.fasten (h : g.Layered) {owner : NodeId} {ownerNode : Node} {kind : BorderKind}
    (howner : g.nodes[owner]? = some ownerNode)
    (hpartner : ∀ tunnel, kind = .terminateLifetimeTunnel tunnel →
      ∃ (data : Node) (mutable : Bool), g.nodes[tunnel]? = some data ∧
        data.kind = .border owner (.borrowTunnel mutable)) :
    (g.fasten owner { scope := ownerNode.scope, kind := .border owner kind }).Layered := by
  have hlt := lt_size_of_node howner
  refine ⟨?_, ?_, ?_, ?_, ?_, ?_, ?_⟩
  · intro s parent scope hs hparent
    rw [scopes_fasten] at hs
    exact h.parent hs hparent
  · intro n data s hd hs
    rw [scopes_fasten]
    rcases node_fasten_cases hlt hd with ⟨-, rfl⟩ | ⟨old, _, hf, rfl, -⟩
    · cases hs
    · exact h.owner hf hs
  · intro n data s hd hs
    rw [scopes_fasten]
    rcases node_fasten_cases hlt hd with ⟨-, rfl⟩ | ⟨old, _, hf, rfl, -⟩
    · cases hs
    · exact (h.inside hf hs :)
  · intro n data hd
    rcases node_fasten_cases hlt hd with ⟨-, rfl⟩ | ⟨old, _, hf, rfl, -⟩
    · exact .nil
    · exact (h.bodies_nodup hf :)
  · intro n border data hd hborder
    rcases node_fasten_cases hlt hd with ⟨-, rfl⟩ | ⟨old, borders, hf, rfl, hborders⟩
    · cases hborder
    have hcases : border ∈ old.borders ∨ n = owner ∧ border = g.nodes.size := by
      rcases hborders with rfl | ⟨rfl, rfl⟩
      · exact .inl hborder
      · simpa using hborder
    rcases hcases with hm | ⟨rfl, rfl⟩
    · obtain ⟨found, other, hborder, hkind⟩ := h.border hf hm
      obtain ⟨_, hf', -⟩ := node_fasten hlt _ hborder
      exact ⟨_, other, hf', hkind⟩
    · exact ⟨_, kind, (getElem?_nodes_fasten hlt _ _).trans (if_pos rfl), rfl⟩
  · intro n data hd
    rcases node_fasten_cases hlt hd with
      ⟨-, rfl⟩ | ⟨old, _, hf, rfl, rfl | ⟨rfl, rfl⟩⟩
    · exact .nil
    · exact h.borders_nodup hf
    · refine List.nodup_append.mpr ⟨h.borders_nodup hf, by simp, ?_⟩
      rintro border hborder _ hm rfl
      obtain ⟨found, _, hborder', -⟩ := h.border hf hborder
      exact Nat.ne_of_lt (lt_size_of_node hborder') (List.mem_singleton.mp hm)
  · intro n partner tunnel data hd hkind
    have hf : ∃ (found : Node) (mutable : Bool), g.nodes[tunnel]? = some found ∧
        found.kind = .border partner (.borrowTunnel mutable) := by
      rcases node_fasten_cases hlt hd with ⟨-, rfl⟩ | ⟨old, _, hf, rfl, -⟩
      · cases hkind
        exact hpartner tunnel rfl
      · exact h.partner hf hkind
    obtain ⟨found, mutable, hf, hk⟩ := hf
    obtain ⟨_, hf', -⟩ := node_fasten hlt _ hf
    exact ⟨_, mutable, hf', hk⟩

theorem Layered.of_scopes (h : g.Layered) {scopes : Array Scope} (hscopes : ∀ s : ScopeId,
      (scopes[s]?).map Scope.unmarked = (g.scopes[s]?).map Scope.unmarked) :
    ({ g with scopes } : Graph).Layered := by
  refine ⟨?_, ?_, ?_, h.bodies_nodup, h.border, h.borders_nodup, h.partner⟩
  · intro s parent scope hs hparent
    have heq := hscopes s
    rw [show scopes[s]? = some scope from hs, Option.map_some, eq_comm,
      Option.map_eq_some_iff] at heq
    obtain ⟨found, hf, heq⟩ := heq
    exact h.parent hf ((congrArg Scope.parent heq).trans hparent)
  · intro n node s hnode hs
    have heq := congrArg (Option.bind · Scope.owner) (hscopes s)
    rw [Option.bind_map, Option.bind_map] at heq
    exact heq.trans (h.owner hnode hs)
  · intro n node s hnode hs
    have heq := congrArg (Option.bind · Scope.parent) (hscopes s)
    rw [Option.bind_map, Option.bind_map] at heq
    exact heq.trans (h.inside hnode hs)

/-! ## What building keeps -/

theorem Built.layered (h : Built g) : g.Layered := by
  induction h with
  | empty => exact layered_empty
  | @addNode g hb scope kind ih =>
    rcases addNode_cases g scope kind false with ⟨fault, hrun⟩ | ⟨hlt, hk, hrun⟩
    · rw [leaves, hrun]
      exact ih
    · rw [leaves, hrun]
      exact ih.settle hb.wellFormed.nested hlt hk rfl rfl (absurd rfl) (absurd rfl)
  | @addStructure g hb scope kind ih =>
    rcases addStructure_cases g scope kind with
      ⟨fault, hrun⟩ | ⟨hlt, body, -, hparent, howner, hrun⟩
    · rw [leaves, hrun]
      exact ih
    · rw [leaves, hrun]
      exact ih.settle hb.wellFormed.nested hlt rfl rfl rfl (fun _ => hparent) fun _ => howner
  | @addBorder g hb owner kind ih =>
    rcases addBorder_cases g owner kind with
      ⟨fault, hrun⟩ | ⟨ownerNode, structureKind, marked, howner, hk, hadmitted, hrun⟩
    · rw [leaves, hrun]
      exact ih
    · rw [leaves, hrun]
      obtain ⟨scopes, heq, hscopes⟩ := makeConditional_eq
        (g.fasten owner { scope := ownerNode.scope, kind := .border owner kind }) marked
      rw [heq]
      refine (ih.fasten howner fun tunnel htunnel => ?_).of_scopes hscopes
      subst htunnel
      exact of_admitsBorder hadmitted
  | @connect g hb source sink ih =>
    rcases hb.consistent.connect_cases source sink with
      ⟨fault, hrun⟩ | ⟨w, g', hrun, hjoined⟩
    · rw [leaves, hrun]
      exact ih
    · rw [leaves, hrun]
      exact ih.of_sameLayout hjoined.layout
  | @disconnect g hb sink port hport hinput ih =>
    obtain ⟨source, g', hrun, hlayout, -⟩ := hb.consistent.disconnect hport hinput
    rw [leaves, hrun]
    exact ih.of_sameLayout hlayout

end Graph

end BorrowFlow
