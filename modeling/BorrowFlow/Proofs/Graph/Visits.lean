import BorrowFlow.Proofs.Graph.Nesting
import BorrowFlow.Proofs.Graph.Order

/-!
# What is visited where

A node is visited together with its border nodes and everything in its bodies, and different nodes
of a scope have nothing in common. So the visit order has no node twice, and a tunnel that ends a
borrow comes after the tunnel that began it. Only a cycle keeps a graph from having an order.
-/

namespace BorrowFlow

variable {node other : Node} {n m : NodeId} {inside : List NodeId} {fault : Fault} {inner : ScopeId}

namespace Graph

variable {g : Graph} {scope : ScopeId} {depth : Nat}

/-! ## Scopes around scopes -/

/-- A scope, and everything nested in it. -/
inductive Encloses (g : Graph) (outer : ScopeId) : ScopeId → Prop where
  | refl : Encloses g outer outer
  | body {n : NodeId} {node : Node} {inner : ScopeId} (hnode : g.nodes[n]? = some node)
      (hbody : inner ∈ node.bodies) (h : Encloses g outer node.scope) :
      Encloses g outer inner

theorem Encloses.trans {outer middle : ScopeId} (h : g.Encloses outer middle)
    (h' : g.Encloses middle inner) : g.Encloses outer inner := by
  induction h' with
  | refl => exact h
  | body hnode hbody _ ih => exact .body hnode hbody ih

theorem Encloses.le (hn : g.Nested) {outer : ScopeId} (h : g.Encloses outer inner) :
    outer ≤ inner := by
  induction h with
  | refl => exact Nat.le_refl _
  | body hnode hbody _ ih => exact Nat.le_trans ih (Nat.le_of_lt (hn.body hnode hbody).1)

theorem Layered.owner_unique (hl : g.Layered) (hnode : g.nodes[n]? = some node)
    (ho : g.nodes[m]? = some other) (hn : scope ∈ node.bodies) (hm : scope ∈ other.bodies) :
    n = m :=
  Option.some.inj ((hl.owner hnode hn).symm.trans (hl.owner ho hm))

/-- Of two scopes around a third one, the earlier is also around the structure of the later. -/
theorem Encloses.of_lt (hn : g.Nested) (hl : g.Layered) {first second : ScopeId}
    (hfirst : g.Encloses first inner) (hsecond : g.Encloses second inner)
    (hlt : first < second) (hnode : g.nodes[n]? = some node) (hbody : second ∈ node.bodies) :
    g.Encloses first node.scope := by
  induction hsecond with
  | refl =>
    cases hfirst with
    | refl => exact absurd hlt (Nat.lt_irrefl _)
    | body ho hbody' h =>
      obtain rfl := hl.owner_unique hnode ho hbody hbody'
      cases hnode.symm.trans ho
      exact h
  | @body m other inner ho hinner hsecond ih =>
    cases hfirst with
    | refl =>
      have hinside := Nat.lt_of_le_of_lt (hsecond.le hn) (hn.body ho hinner).1
      exact absurd hinside (Nat.lt_asymm hlt)
    | body ho' hinner' h =>
      obtain rfl := hl.owner_unique ho ho' hinner hinner'
      cases ho.symm.trans ho'
      exact ih h

/-- Nodes with one host are in no different bodies of the nodes of one scope. -/
theorem Encloses.body_unique (hn : g.Nested) (hl : g.Layered) {first second : ScopeId}
    {x y : NodeId} {data data' : Node} (hd : g.nodes[x]? = some data)
    (hd' : g.nodes[y]? = some data') (hhosts : g.hostOf x = g.hostOf y)
    (hfirst : g.Encloses first data.scope) (hsecond : g.Encloses second data'.scope)
    (hnode : g.nodes[n]? = some node) (ho : g.nodes[m]? = some other)
    (hn' : first ∈ node.bodies) (hm : second ∈ other.bodies) (hscope : node.scope = other.scope) :
    first = second := by
  obtain ⟨host, hhost, hscopes, -⟩ := hn.exists_host hd
  obtain ⟨host', hhost', hscopes', -⟩ := hn.exists_host hd'
  rw [← hhosts] at hhost'
  cases hhost.symm.trans hhost'
  rw [← hscopes] at hfirst
  rw [← hscopes'] at hsecond
  rcases Nat.lt_trichotomy first second with hlt | heq | hlt
  · have hle := (hfirst.of_lt hn hl hsecond hlt ho hm).le hn
    exact absurd (hn.body hnode hn').1 (Nat.not_lt_of_le (hscope ▸ hle))
  · exact heq
  · have hle := (hsecond.of_lt hn hl hfirst hlt hnode hn').le hn
    exact absurd (hn.body ho hm).1 (Nat.not_lt_of_le (hscope ▸ hle))

/-! ## What a node has in it -/

/-- A node itself with its border nodes, and everything in its bodies. -/
def Holds (g : Graph) (n m : NodeId) : Prop :=
  g.hostOf m = n ∨ ∃ (node data : Node) (body : ScopeId), g.nodes[n]? = some node ∧
    g.nodes[m]? = some data ∧ body ∈ node.bodies ∧ g.Encloses body data.scope

theorem Encloses.hostOf_ne (hn : g.Nested) {data : Node} {body : ScopeId}
    (hnode : g.nodes[n]? = some node) (hd : g.nodes[m]? = some data)
    (hbody : body ∈ node.bodies) (h : g.Encloses body data.scope) {other : NodeId}
    {found : Node} (ho : g.nodes[other]? = some found) (hscope : found.scope = node.scope) :
    g.hostOf m ≠ other := by
  rintro rfl
  obtain ⟨host, hhost, hdataScope, -⟩ := hn.exists_host hd
  cases ho.symm.trans hhost
  have hle := h.le hn
  rw [← hdataScope, hscope] at hle
  exact Nat.not_lt_of_le hle (hn.body hnode hbody).1

theorem Holds.hostOf_ne (hn : g.Nested) (hl : g.Layered) {first second : NodeId}
    (hnode : g.nodes[n]? = some node) (ho : g.nodes[m]? = some other)
    (hscope : node.scope = other.scope) (hne : n ≠ m) (hfirst : g.Holds n first)
    (hsecond : g.Holds m second) : g.hostOf first ≠ g.hostOf second := by
  rcases hfirst with rfl | ⟨found, data, body, hf, hd, hbody, hinside⟩
  · rcases hsecond with rfl | ⟨found, data, body, hf, hd, hbody, hinside⟩
    · exact hne
    · cases ho.symm.trans hf
      exact (hinside.hostOf_ne hn hf hd hbody hnode hscope).symm
  · cases hnode.symm.trans hf
    rcases hsecond with rfl | ⟨found', data', body', hf', hd', hbody', hinside'⟩
    · exact hinside.hostOf_ne hn hf hd hbody ho hscope.symm
    · cases ho.symm.trans hf'
      intro heq
      obtain rfl := hinside.body_unique hn hl hd hd' heq hinside' hnode ho hbody hbody' hscope
      exact hne (hl.owner_unique hnode ho hbody hbody')

/-! ## What is visited -/

theorem of_mem_visitWithin (h : g.visitWithin depth n = .ok inside) (hm : m ∈ inside) :
    ∃ node, g.nodes[n]? = some node ∧ (m = n ∨ m ∈ node.borders ∨
      ∃ body ∈ node.bodies, ∃ part, g.visitScope depth body = .ok part ∧ m ∈ part) := by
  obtain ⟨node, inner, hnode, hinner, rfl⟩ := visitWithin_eq_ok.mp h
  refine ⟨node, hnode, ?_⟩
  simp only [List.mem_append, List.mem_cons, List.mem_flatten, bordersOn, List.mem_filter] at hm
  rcases hm with ((hself | hborder) | ⟨part, hpart, hm⟩) | hborder
  · exact .inl hself
  · exact .inr (.inl hborder.1)
  · obtain ⟨body, hbody, hrun⟩ := exists_of_mem_mapM_ok hinner part hpart
    exact .inr (.inr ⟨body, hbody, part, hrun, hm⟩)
  · exact .inr (.inl hborder.1)

theorem hostOf_of_mem_borders (hl : g.Layered) (hnode : g.nodes[n]? = some node)
    (hm : m ∈ node.borders) : g.hostOf m = n := by
  obtain ⟨data, kind, hd, hk⟩ := hl.border hnode hm
  exact hostOf_of_border hd hk

/-- What is visited in a scope is there, and what is visited with a node is in that node. -/
theorem WellFormed.encloses_of_visitScope (hw : g.WellFormed) (hc : g.Consistent)
    (hl : g.Layered) {part : List NodeId} (h : g.visitScope depth scope = .ok part) :
    ∀ m ∈ part, ∃ data, g.nodes[m]? = some data ∧ g.Encloses scope data.scope := by
  induction depth generalizing scope part with
  | zero =>
    cases h
    nofun
  | succ depth ih =>
    intro m hm
    obtain ⟨sorted, parts, hsorted, hparts, rfl⟩ := of_visitScope_succ h
    obtain ⟨inside, hinside, hm⟩ := List.mem_flatten.mp hm
    obtain ⟨n, hn, hrun⟩ := exists_of_mem_mapM_ok hparts inside hinside
    obtain ⟨node, hnode, rfl, hplain⟩ := (hw.of_sortScope hc hsorted).2 n hn
    obtain ⟨found, hf, hcases⟩ := of_mem_visitWithin hrun hm
    cases hnode.symm.trans hf
    rcases hcases with rfl | hborder | ⟨body, hbody, part, hpart, hm⟩
    · exact ⟨node, hnode, .refl⟩
    · obtain ⟨data, kind, hd, hk⟩ := hl.border hnode hborder
      obtain ⟨host, hhost, hscope, -⟩ := hw.nested.exists_host hd
      rw [hostOf_of_border hd hk] at hhost
      cases hnode.symm.trans hhost
      exact ⟨data, hd, hscope ▸ .refl⟩
    · obtain ⟨data, hd, hinside⟩ := ih hpart m hm
      exact ⟨data, hd, (Encloses.body hnode hbody .refl).trans hinside⟩

theorem WellFormed.holds_of_visitWithin (hw : g.WellFormed) (hc : g.Consistent)
    (hl : g.Layered) (hnode : g.nodes[n]? = some node)
    (hplain : node.kind.borderKind? = none) (h : g.visitWithin depth n = .ok inside) :
    ∀ m ∈ inside, g.Holds n m := by
  intro m hm
  obtain ⟨found, hf, hcases⟩ := of_mem_visitWithin h hm
  cases hnode.symm.trans hf
  rcases hcases with rfl | hborder | ⟨body, hbody, part, hpart, hm⟩
  · exact .inl (hostOf_of_plain hnode hplain)
  · exact .inl (hostOf_of_mem_borders hl hnode hborder)
  · obtain ⟨data, hd, hinside⟩ := hw.encloses_of_visitScope hc hl hpart m hm
    exact .inr ⟨node, data, body, hnode, hd, hbody, hinside⟩

/-! ## No node twice, and borrows before their ends -/

/-- Whether a node may be visited before another one: it is not that node, and it does not end a
borrow that the other node begins. -/
def MayPrecede (g : Graph) (n m : NodeId) : Prop :=
  n ≠ m ∧ ∀ (node : Node) (owner : NodeId), g.nodes[n]? = some node →
    node.kind ≠ .border owner (.terminateLifetimeTunnel m)

theorem MayPrecede.of_hostOf_ne (hl : g.Layered) (h : g.hostOf n ≠ g.hostOf m) :
    g.MayPrecede n m := by
  refine ⟨fun heq => h (congrArg g.hostOf heq), fun node owner hnode hk => ?_⟩
  obtain ⟨data, mutable, hd, hdataKind⟩ := hl.partner hnode hk
  rw [hostOf_of_border hnode hk, hostOf_of_border hd hdataKind] at h
  exact h rfl

theorem MayPrecede.of_bordersOn_input (hn : n ∈ g.bordersOn .input node) (hne : n ≠ m) :
    g.MayPrecede n m := by
  refine ⟨hne, fun data owner hd hk => ?_⟩
  have hside := (List.mem_filter.mp hn).2
  simp [hd, hk, NodeKind.borderKind?, BorderKind.side] at hside

theorem MayPrecede.of_bordersOn_output (hl : g.Layered) (hm : m ∈ g.bordersOn .output node)
    (hne : n ≠ m) : g.MayPrecede n m := by
  refine ⟨hne, fun data owner hd hk => ?_⟩
  obtain ⟨found, mutable, hf, hfoundKind⟩ := hl.partner hd hk
  have hside := (List.mem_filter.mp hm).2
  simp [hf, hfoundKind, NodeKind.borderKind?, BorderKind.side] at hside

section

variable (hw : g.WellFormed) (hc : g.Consistent) (hl : g.Layered)
include hw hc hl

theorem WellFormed.pairwise_visitWithin (hnode : g.nodes[n]? = some node)
    (hplain : node.kind.borderKind? = none)
    (hbodies : ∀ body ∈ node.bodies, ∀ part, g.visitScope depth body = .ok part →
      part.Pairwise g.MayPrecede) (h : g.visitWithin depth n = .ok inside) :
    inside.Pairwise g.MayPrecede := by
  obtain ⟨found, inner, hf, hinner, rfl⟩ := visitWithin_eq_ok.mp h
  cases hnode.symm.trans hf
  have hhost : ∀ side, ∀ m ∈ g.bordersOn side node, g.hostOf m = n := fun side m hm =>
    hostOf_of_mem_borders hl hnode (List.mem_filter.mp hm).1
  have hinside : ∀ m ∈ inner.flatten, g.hostOf m ≠ n := by
    intro m hm
    obtain ⟨part, hpart, hm⟩ := List.mem_flatten.mp hm
    obtain ⟨body, hbody, hrun⟩ := exists_of_mem_mapM_ok hinner part hpart
    obtain ⟨data, hd, hdataInside⟩ := hw.encloses_of_visitScope hc hl hrun m hm
    exact hdataInside.hostOf_ne hw.nested hnode hd hbody hnode rfl
  have hself : ∀ side, ∀ m ∈ g.bordersOn side node, n ≠ m := by
    rintro side m hm rfl
    obtain ⟨data, kind, hd, hk⟩ := hl.border hnode (List.mem_filter.mp hm).1
    cases hnode.symm.trans hd
    rw [hk] at hplain
    cases hplain
  have hnodup : ∀ side, (g.bordersOn side node).Nodup := fun side =>
    (hl.borders_nodup hnode).filter _
  have hsides : ∀ first ∈ g.bordersOn .input node, ∀ second ∈ g.bordersOn .output node,
      first ≠ second := by
    rintro first hfirst _ hsecond rfl
    have hin := (List.mem_filter.mp hfirst).2
    have hout := (List.mem_filter.mp hsecond).2
    rw [Option.any_eq_true] at hin hout
    obtain ⟨kind, hk, hside⟩ := hin
    obtain ⟨kind', hk', hside'⟩ := hout
    cases hk.symm.trans hk'
    rw [decide_eq_true_eq] at hside hside'
    rw [hside] at hside'
    cases hside'
  -- the bodies are visited one after the other, and have nothing in common
  have hinner' : inner.flatten.Pairwise g.MayPrecede := by
    apply pairwise_flatten_of_mapM_ok hinner hbodies
    apply (hl.bodies_nodup hnode).imp_of_mem
    intro first second hfirst hsecond hne part part' hpart hpart' x hx y hy
    obtain ⟨data, hd, hx⟩ := hw.encloses_of_visitScope hc hl hpart x hx
    obtain ⟨data', hd', hy⟩ := hw.encloses_of_visitScope hc hl hpart' y hy
    apply MayPrecede.of_hostOf_ne hl
    intro heq
    exact hne (hx.body_unique hw.nested hl hd hd' heq hy hnode hnode hfirst hsecond rfl)
  rw [List.pairwise_append, List.pairwise_append, List.pairwise_cons]
  refine ⟨⟨⟨?_, ?_⟩, hinner', ?_⟩, ?_, ?_⟩
  · intro m hm
    refine ⟨hself .input m hm, fun data owner hd hk => ?_⟩
    cases hnode.symm.trans hd
    rw [hk] at hplain
    cases hplain
  · exact (hnodup .input).imp_of_mem fun hfirst _ hne => .of_bordersOn_input hfirst hne
  · intro x hx y hy
    apply MayPrecede.of_hostOf_ne hl
    rcases List.mem_cons.mp hx with rfl | hx
    · rw [hostOf_of_plain hnode hplain]
      exact (hinside y hy).symm
    · rw [hhost .input x hx]
      exact (hinside y hy).symm
  · exact (hnodup .output).imp_of_mem fun _ hsecond hne => .of_bordersOn_output hl hsecond hne
  · intro x hx y hy
    apply MayPrecede.of_bordersOn_output hl hy
    rcases List.mem_append.mp hx with hx | hx
    · rcases List.mem_cons.mp hx with rfl | hx
      · exact hself .output y hy
      · exact hsides x hx y hy
    · rintro rfl
      exact hinside x hx (hhost .output x hy)

theorem WellFormed.pairwise_visitScope {part : List NodeId}
    (h : g.visitScope depth scope = .ok part) : part.Pairwise g.MayPrecede := by
  induction depth generalizing scope part with
  | zero =>
    cases h
    exact .nil
  | succ depth ih =>
    obtain ⟨sorted, parts, hsorted, hparts, rfl⟩ := of_visitScope_succ h
    obtain ⟨hnodup, hplaced⟩ := hw.of_sortScope hc hsorted
    apply pairwise_flatten_of_mapM_ok hparts
    · intro n hn inside hinside
      obtain ⟨node, hnode, -, hplain⟩ := hplaced n hn
      exact hw.pairwise_visitWithin hc hl hnode hplain (fun body _ part => ih) hinside
    · apply hnodup.imp_of_mem
      intro n m hn hm hne inside inside' hinside hinside' x hx y hy
      obtain ⟨node, hnode, hscope, hplain⟩ := hplaced n hn
      obtain ⟨other, ho, hscope', hplain'⟩ := hplaced m hm
      apply MayPrecede.of_hostOf_ne hl
      apply Holds.hostOf_ne hw.nested hl hnode ho (hscope.trans hscope'.symm) hne
      · exact hw.holds_of_visitWithin hc hl hnode hplain hinside x hx
      · exact hw.holds_of_visitWithin hc hl ho hplain' hinside' y hy

/-- The order has no node twice, and borrows begin before they end. -/
theorem WellFormed.pairwise_visitOrder {order : List NodeId} (h : g.visitOrder = .ok order) :
    order.Pairwise g.MayPrecede :=
  hw.pairwise_visitScope hc hl h

theorem WellFormed.exists_of_mem_visitOrder {order : List NodeId} (h : g.visitOrder = .ok order)
    (hn : n ∈ order) : ∃ node, g.nodes[n]? = some node := by
  obtain ⟨node, hnode, -⟩ := hw.encloses_of_visitScope hc hl h n hn
  exact ⟨node, hnode⟩

end

/-! ## Graphs without an order -/

theorem of_foldlM_collect_eq_error {pairs : List (NodeId × NodeId)} {start : Dependencies}
    (h : pairs.foldlM (collect scope) start = .error fault) :
    ∃ n, fault = .dataflowCycle scope n := by
  induction pairs generalizing start with
  | nil => cases h
  | cons pair pairs ih =>
    obtain ⟨source, target⟩ := pair
    rw [List.foldlM_cons, collect] at h
    split at h
    · cases h
      exact ⟨source, rfl⟩
    · exact ih h

theorem of_sortScope_eq_error (hscope : scope < g.scopes.size)
    (h : g.sortScope scope = .error fault) : ∃ n, fault = .dataflowCycle scope n := by
  unfold sortScope at h
  rcases Except.bind_eq_error.mp h with h | ⟨dependencies, -, h⟩
  · unfold dependenciesIn at h
    rcases Except.bind_eq_error.mp h with h | ⟨data, -, h⟩
    · simp [getScope, Array.getElem?_eq_getElem hscope] at h
    · exact of_foldlM_collect_eq_error h
  · split at h
    · cases h
    · cases h
      exact ⟨_, rfl⟩

theorem WellFormed.of_visitScope_eq_error (hw : g.WellFormed) (hc : g.Consistent)
    (hscope : scope < g.scopes.size) (h : g.visitScope depth scope = .error fault) :
    ∃ s n, fault = .dataflowCycle s n := by
  induction depth generalizing scope with
  | zero => cases h
  | succ depth ih =>
    rw [visitScope_succ] at h
    rcases Except.bind_eq_error.mp h with h | ⟨sorted, hsorted, h⟩
    · exact ⟨scope, of_sortScope_eq_error hscope h⟩
    · rcases Except.bind_eq_error.mp h with h | ⟨parts, -, h⟩
      · obtain ⟨n, hn, h⟩ := exists_of_mapM_error h
        obtain ⟨node, hnode, -⟩ := (hw.of_sortScope hc hsorted).2 n hn
        unfold visitWithin at h
        rw [getNode_eq_ok.mpr hnode] at h
        rcases Except.bind_eq_error.mp h with h | ⟨_, hf, h⟩
        · cases h
        · cases hf
          rcases Except.bind_eq_error.mp h with h | ⟨inner, -, h⟩
          · obtain ⟨body, hbody, h⟩ := exists_of_mapM_error h
            exact ih (hw.nested.body hnode hbody).2 h
          · cases h
      · cases h

/-- Only a cycle keeps a graph from having an order. -/
theorem WellFormed.of_visitOrder_eq_error (hw : g.WellFormed) (hc : g.Consistent)
    (h : g.visitOrder = .error fault) : ∃ s n, fault = .dataflowCycle s n :=
  hw.of_visitScope_eq_error hc hw.nested.root h

end Graph

end BorrowFlow
