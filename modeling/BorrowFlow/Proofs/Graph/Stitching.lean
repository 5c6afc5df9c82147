import BorrowFlow.Proofs.Graph.Weaving

/-!
# Stitching a node to another one

A node that is woven in is stitched, one index after the other, either in front of inputs that
belong together or behind outputs that belong together. What is left to do at each point is a list
of ports with the indices that they go to. Numbers that grow along the wires are kept all the way:
when the node is added all numbers are doubled, which makes room for its own next to that of the
node it is stitched to.
-/

namespace BorrowFlow

variable {rest : List (PortId × Nat)}

namespace Graph

variable {before g g' : Graph} {n host : NodeId} {scope : ScopeId} {index : Nat}
  {indices : List Nat} {sink source throughInput throughOutput : PortId} {port : Port}
  {rank : NodeId → Nat}

/-! ## A node on its way into the graph -/

/-- A node that was added to a scope, and the indices at which it is not wired yet. -/
structure Pending (before g : Graph) (n : NodeId) (scope : ScopeId) (indices : List Nat) :
    Prop where
  base : before.nodes.size ≤ n
  placed : ∃ node, g.nodes[n]? = some node ∧ node.scope = scope ∧ node.kind.borderKind? = none
  vacant : ∀ index ∈ indices, ∀ {input output : PortId}, g.Passes n index input output →
    (∀ x, input ∉ g.sinksAt x) ∧ g.sinksAt output = []

theorem Consistent.not_mem_of_new (hc : g.Consistent) (hnew : g.ports[sink]? = none) :
    (∀ x, sink ∉ g.sinksAt x) ∧ g.sinksAt sink = [] := by
  constructor
  · intro x hx
    obtain ⟨_, port, -, hport, -⟩ := hc.ends hx
    cases hnew.symm.trans hport
  · rw [sinksAt, hnew]

theorem Woven.pending_settle (h : before.Woven g) (kind : NodeKind)
    (hk : kind.isWoven = true) (indices : List Nat) :
    before.Pending (g.settle { scope, kind, inserted := true } 0 {}) g.nodes.size scope
      indices := by
  obtain ⟨-, hsinks⟩ := h.consistent.settle { scope, kind, inserted := true } 0 {}
  refine ⟨h.size_le, ?_, ?_⟩
  · exact ⟨_, node_settle_self .., rfl, NodeKind.borderKind?_of_isWoven hk⟩
  · intro index _ input output hpasses
    -- the ports of the node were not there before
    have hnew : ∀ direction node id, (g.settle { scope, kind, inserted := true } 0
        {}).nodes[g.nodes.size]? = some node → id ∈ node.portsOn direction →
          g.ports[id]? = none := by
      intro direction node id hnode hid
      exact Array.getElem?_eq_none (le_of_mem_settle rfl rfl direction hnode hid)
    obtain ⟨node, hnode, hinput, houtput⟩ := hpasses.mem
    constructor
    · intro x
      rw [hsinks]
      exact (h.consistent.not_mem_of_new (hnew .input node input hnode hinput)).1 x
    · rw [hsinks]
      exact (h.consistent.not_mem_of_new (hnew .output node output hnode houtput)).2

theorem Pending.faces (hp : before.Pending g n scope indices) (hw : g.WellFormed)
    (hpasses : g.Passes n index throughInput throughOutput) :
    g.Faces .input scope n throughInput ∧ g.Faces .output scope n throughOutput := by
  obtain ⟨node, hnode, rfl, hplain⟩ := hp.placed
  obtain ⟨found, hf, hin, hout⟩ := hpasses
  cases hnode.symm.trans hf
  have hfaces : ∀ direction id, (node.portsOn direction)[index]? = some id →
      g.Faces direction node.scope n id := by
    intro direction id hid
    obtain ⟨port, hport, rfl, hdirection, -⟩ := hw.seated.seat hnode hid
    have hscope := hw.seated.scope_of_plain hnode hplain (List.mem_of_getElem? hid) hport
    exact ⟨⟨port, hport, hdirection, hscope⟩, standsFor_of_plain hport hnode hplain⟩
  exact ⟨hfaces .input throughInput hin, hfaces .output throughOutput hout⟩

theorem Pending.vacancy (hp : before.Pending g n scope indices) (hw : g.WellFormed)
    (hindex : index ∈ indices) (hpasses : g.Passes n index throughInput throughOutput) :
    before.Vacancy g n scope index throughInput throughOutput := by
  obtain ⟨hfree, hfree'⟩ := hp.vacant index hindex hpasses
  obtain ⟨hin, hout⟩ := hp.faces hw hpasses
  exact ⟨hp.base, hpasses, hin, hout, hfree, hfree'⟩

theorem Pending.of_keeps {rest : List Nat} (hp : before.Pending g n scope indices)
    (hkeeps : g.Keeps g') (hrest : ∀ index ∈ rest, index ∈ indices)
    (hvacant : ∀ index ∈ rest, ∀ {input output : PortId}, g.Passes n index input output →
      (∀ x, input ∉ g.sinksAt x) → g.sinksAt output = [] →
        (∀ x, input ∉ g'.sinksAt x) ∧ g'.sinksAt output = []) :
    before.Pending g' n scope rest := by
  obtain ⟨node, hnode, hscope, hplain⟩ := hp.placed
  refine ⟨hp.base, ⟨node, hkeeps.node hnode, hscope, hplain⟩, ?_⟩
  intro index hindex input output hpasses
  have hpasses' : g.Passes n index input output := by
    obtain ⟨found, hf, hports⟩ := hpasses
    cases (hkeeps.node hnode).symm.trans hf
    exact ⟨node, hnode, hports⟩
  obtain ⟨hin, hout⟩ := hp.vacant index (hrest index hindex) hpasses'
  exact hvacant index hindex hpasses' hin hout

/-! ## Numbers -/

/-- All numbers doubled to make room, and a number for a new node. -/
def numbered (rank : NodeId → Nat) (new : NodeId) (number : Nat) (n : NodeId) : Nat :=
  if n = new then number else 2 * rank n + 1

theorem numbered_self {new : NodeId} {number : Nat} : numbered rank new number new = number :=
  if_pos rfl

theorem numbered_of_lt {new : NodeId} {number : Nat} (h : n < new) :
    numbered rank new number n = 2 * rank n + 1 :=
  if_neg (Nat.ne_of_lt h)

theorem WellFormed.lt_size_of_standsFor (hw : g.WellFormed) {id : PortId}
    (h : g.standsFor id = some n) : n < g.nodes.size := by
  obtain ⟨_, hnode⟩ := hw.exists_of_standsFor h
  exact lt_size_of_node hnode

theorem Ranks.settle (h : g.Ranks rank) (hw : g.WellFormed) (hc : g.Consistent)
    (node : Node) (number : Nat) :
    (g.settle node 0 {}).Ranks (numbered rank g.nodes.size number) := by
  have hkeeps := keeps_settle g node 0 {}
  obtain ⟨hc', hsinks⟩ := hc.settle node 0 {}
  rw [hc'.ranks_iff]
  intro output input hm a b ha hb
  rw [hsinks] at hm
  obtain ⟨_, _, houtput, hinput, -⟩ := hc.ends hm
  rw [hkeeps.standsFor hw houtput] at ha
  rw [hkeeps.standsFor hw hinput] at hb
  have hlt := hc.ranks_iff.mp h output input hm a b ha hb
  rw [numbered_of_lt (hw.lt_size_of_standsFor ha), numbered_of_lt (hw.lt_size_of_standsFor hb)]
  omega

theorem Ranks.of_spliced (h : g.Ranks rank) (hc : g.Consistent)
    (hspliced : g.Spliced sink throughInput throughOutput g')
    (hsink : g.standsFor sink = some host) (hin : g.standsFor throughInput = some n)
    (hout : g.standsFor throughOutput = some n) (hlt : rank n < rank host)
    (hbelow : ∀ x, sink ∈ g.sinksAt x → ∀ a, g.standsFor x = some a → rank a < rank n) :
    g'.Ranks rank := by
  rw [hspliced.consistent.ranks_iff]
  intro output input hm a b ha hb
  rw [hspliced.layout.standsFor] at ha hb
  obtain ⟨rfl, rfl⟩ | ⟨-, ⟨rfl, hold⟩ | ⟨-, hold⟩⟩ := hspliced.of_mem hm
  · cases ha.symm.trans hout
    cases hb.symm.trans hsink
    exact hlt
  · cases hb.symm.trans hin
    exact hbelow output hold a ha
  · exact hc.ranks_iff.mp h output input hold a b ha hb

theorem Ranks.of_splicedAfter (h : g.Ranks rank) (hc : g.Consistent)
    (hspliced : g.SplicedAfter source throughInput throughOutput g')
    (hsource : g.standsFor source = some host) (hin : g.standsFor throughInput = some n)
    (hout : g.standsFor throughOutput = some n) (hlt : rank host < rank n)
    (habove : ∀ y ∈ g.sinksAt source, ∀ b, g.standsFor y = some b → rank n < rank b) :
    g'.Ranks rank := by
  rw [hspliced.consistent.ranks_iff]
  intro output input hm a b ha hb
  rw [hspliced.layout.standsFor] at ha hb
  obtain ⟨rfl, rfl⟩ | ⟨-, ⟨rfl, hm⟩ | ⟨-, hm⟩⟩ := hspliced.of_mem hm
  · cases ha.symm.trans hsource
    cases hb.symm.trans hin
    exact hlt
  · cases ha.symm.trans hout
    exact habove input hm b hb
  · exact hc.ranks_iff.mp h output input hm a b ha hb

theorem Ranks.of_joined (h : g.Ranks rank) (hc : g.Consistent) (hjoined : g.Joined source sink g')
    (hlt : ∀ a b, g.standsFor source = some a → g.standsFor sink = some b →
      rank a < rank b) : g'.Ranks rank := by
  rw [hjoined.consistent.ranks_iff]
  intro output input hm a b ha hb
  rw [hjoined.layout.standsFor] at ha hb
  obtain ⟨rfl, rfl⟩ | hm := hjoined.of_mem hm
  · exact hlt a b ha hb
  · exact hc.ranks_iff.mp h output input hm a b ha hb

/-! ## In front of inputs -/

/-- A node is being stitched in front of the inputs of another one. What is left to do are inputs
with the indices that they go to. -/
structure Fronting (before g : Graph) (n : NodeId) (scope : ScopeId) (host : NodeId)
    (rest : List (PortId × Nat)) : Prop where
  woven : before.Woven g
  pending : before.Pending g n scope (rest.map Prod.snd)
  faces : ∀ item ∈ rest, before.Faces .input scope host item.1
  inputs_nodup : (rest.map Prod.fst).Nodup
  indices_nodup : (rest.map Prod.snd).Nodup
  ranked : ∃ rank, g.Ranks rank ∧ rank n < rank host ∧ ∀ item ∈ rest, ∀ x,
    item.1 ∈ g.sinksAt x → ∀ a, g.standsFor x = some a → rank a < rank n

theorem Woven.fronting (h : before.Woven g) (hrank : g.Ranks rank) (kind : NodeKind)
    (hscope : scope < g.scopes.size) (hk : kind.isWoven = true)
    (hfaces : ∀ item ∈ rest, before.Faces .input scope host item.1)
    (hinputs : (rest.map Prod.fst).Nodup) (hindices : (rest.map Prod.snd).Nodup) (hne : rest ≠ []) :
    before.Fronting (g.settle { scope, kind, inserted := true } 0 {}) g.nodes.size scope
      host rest := by
  have hkeeps := keeps_settle g { scope, kind, inserted := true } 0 {}
  obtain ⟨-, hsinks⟩ := h.consistent.settle { scope, kind, inserted := true } 0 {}
  have hhost : ∀ item ∈ rest, g.standsFor item.1 = some host := by
    intro item hitem
    exact ((hfaces item hitem).of_keeps h.original h.keeps).host
  refine ⟨h.settle kind hscope hk, h.pending_settle kind hk _, hfaces, hinputs,
    hindices, numbered rank g.nodes.size (2 * rank host),
    hrank.settle h.wellFormed h.consistent _ _, ?_, ?_⟩
  · obtain ⟨item, hitem⟩ := List.exists_mem_of_ne_nil rest hne
    rw [numbered_self, numbered_of_lt (h.wellFormed.lt_size_of_standsFor (hhost item hitem))]
    omega
  · intro item hitem x hx a ha
    rw [hsinks] at hx
    obtain ⟨_, _, houtput, -⟩ := h.consistent.ends hx
    rw [hkeeps.standsFor h.wellFormed houtput] at ha
    have hlt := h.consistent.ranks_iff.mp hrank x item.1 hx a host ha (hhost item hitem)
    rw [numbered_self, numbered_of_lt (h.wellFormed.lt_size_of_standsFor ha)]
    omega

theorem Fronting.of_spliced (h : before.Fronting g n scope host ((sink, index) :: rest))
    (hv : before.Vacancy g n scope index throughInput throughOutput)
    (hspliced : g.Spliced sink throughInput throughOutput g') :
    before.Fronting g' n scope host rest := by
  obtain ⟨hfaces, hfaces'⟩ := List.forall_mem_cons.mp h.faces
  obtain ⟨⟨port, hport, hinput, -⟩, -⟩ := hfaces
  have hseated := h.woven.wellFormed.seated
  have hinputs := List.nodup_cons.mp h.inputs_nodup
  have hindices := List.nodup_cons.mp h.indices_nodup
  refine ⟨h.woven.of_spliced hv hspliced hport hinput, ?_, hfaces', hinputs.2, hindices.2, ?_⟩
  · apply h.pending.of_keeps hspliced.layout.keeps
    · intro k hk
      exact List.mem_cons_of_mem _ hk
    · intro k hk input output ho hin hout
      have hne : k ≠ index := by
        rintro rfl
        exact hindices.1 hk
      constructor
      · intro x hx
        obtain ⟨-, rfl⟩ | ⟨-, ⟨rfl, -⟩ | ⟨-, hx⟩⟩ := hspliced.of_mem hx
        · exact (h.woven.ne_of_passes hport h.pending.base ho).1 rfl
        · exact hne (ho.output_unique hseated hv.passes).2
        · exact hin x hx
      · have houtput : output ≠ throughOutput := by
          rintro rfl
          exact hne (ho.input_unique hseated hv.passes).2
        rw [hspliced.sinksAt, if_neg houtput, hout]
        rfl
  · obtain ⟨rank, hrank, hlt, hbelow⟩ := h.ranked
    obtain ⟨hbelow, hbelow'⟩ := List.forall_mem_cons.mp hbelow
    have hsink := (h.faces _ List.mem_cons_self).of_keeps h.woven.original h.woven.keeps
    have hrank' := hrank.of_spliced h.woven.consistent hspliced hsink.host hv.input_faces.host
      hv.output_faces.host hlt hbelow
    refine ⟨rank, hrank', hlt, ?_⟩
    intro item hitem x hx a ha
    rw [hspliced.layout.standsFor] at ha
    obtain ⟨-, heq⟩ | ⟨-, ⟨heq, -⟩ | ⟨-, hx⟩⟩ := hspliced.of_mem hx
    · -- only the input that has just been done is fed by the node
      exact absurd (List.mem_map.mpr ⟨item, hitem, heq⟩) hinputs.1
    · obtain ⟨⟨other, ho, -⟩, -⟩ := hfaces' item hitem
      exact absurd heq (h.woven.ne_of_passes ho h.pending.base hv.passes).1
    · exact hbelow' item hitem x hx a ha

/-! ## Behind outputs -/

/-- A node is being stitched behind the outputs of another one. What is left to do are outputs with
the indices that they go to. -/
structure Backing (before g : Graph) (n : NodeId) (scope : ScopeId) (host : NodeId)
    (rest : List (PortId × Nat)) : Prop where
  woven : before.Woven g
  pending : before.Pending g n scope (rest.map Prod.snd)
  host_lt : host < before.nodes.size
  faces : ∀ item ∈ rest, before.Faces .output scope host item.1
  outputs_nodup : (rest.map Prod.fst).Nodup
  indices_nodup : (rest.map Prod.snd).Nodup
  ranked : ∃ rank, g.Ranks rank ∧ rank host < rank n ∧ ∀ item ∈ rest,
    ∀ y ∈ g.sinksAt item.1, ∀ b, g.standsFor y = some b → rank n < rank b

theorem Woven.backing (h : before.Woven g) (hrank : g.Ranks rank) (kind : NodeKind)
    (hscope : scope < g.scopes.size) (hk : kind.isWoven = true)
    (hfaces : ∀ item ∈ rest, before.Faces .output scope host item.1)
    (houtputs : (rest.map Prod.fst).Nodup) (hindices : (rest.map Prod.snd).Nodup)
    (hne : rest ≠ []) :
    before.Backing (g.settle { scope, kind, inserted := true } 0 {}) g.nodes.size scope
      host rest := by
  have hkeeps := keeps_settle g { scope, kind, inserted := true } 0 {}
  obtain ⟨-, hsinks⟩ := h.consistent.settle { scope, kind, inserted := true } 0 {}
  have hhost : ∀ item ∈ rest, g.standsFor item.1 = some host := by
    intro item hitem
    exact ((hfaces item hitem).of_keeps h.original h.keeps).host
  have hlt : host < before.nodes.size := by
    obtain ⟨item, hitem⟩ := List.exists_mem_of_ne_nil rest hne
    exact h.original.lt_size_of_standsFor (hfaces item hitem).host
  refine ⟨h.settle kind hscope hk, h.pending_settle kind hk _, hlt, hfaces, houtputs,
    hindices, numbered rank g.nodes.size (2 * rank host + 2),
    hrank.settle h.wellFormed h.consistent _ _, ?_, ?_⟩
  · rw [numbered_self, numbered_of_lt (Nat.lt_of_lt_of_le hlt h.size_le)]
    omega
  · intro item hitem y hy b hb
    rw [hsinks] at hy
    obtain ⟨_, _, -, hinput, -⟩ := h.consistent.ends hy
    rw [hkeeps.standsFor h.wellFormed hinput] at hb
    have hlt := h.consistent.ranks_iff.mp hrank item.1 y hy host b (hhost item hitem) hb
    rw [numbered_self, numbered_of_lt (h.wellFormed.lt_size_of_standsFor hb)]
    omega

theorem Backing.of_splicedAfter (h : before.Backing g n scope host ((source, index) :: rest))
    (hv : before.Vacancy g n scope index throughInput throughOutput)
    (hspliced : g.SplicedAfter source throughInput throughOutput g') :
    before.Backing g' n scope host rest := by
  obtain ⟨hfaces, hfaces'⟩ := List.forall_mem_cons.mp h.faces
  obtain ⟨⟨port, hport, houtput, -⟩, -⟩ := hfaces
  have hseated := h.woven.wellFormed.seated
  have houtputs := List.nodup_cons.mp h.outputs_nodup
  have hindices := List.nodup_cons.mp h.indices_nodup
  refine ⟨h.woven.of_splicedAfter hv hspliced hport, ?_, h.host_lt, hfaces', houtputs.2,
    hindices.2, ?_⟩
  · apply h.pending.of_keeps hspliced.layout.keeps
    · intro k hk
      exact List.mem_cons_of_mem _ hk
    · intro k hk input output ho hin hout
      have hne : k ≠ index := by
        rintro rfl
        exact hindices.1 hk
      constructor
      · intro x hx
        obtain ⟨-, rfl⟩ | ⟨-, ⟨-, hx⟩ | ⟨-, hx⟩⟩ := hspliced.of_mem hx
        · exact hne (ho.output_unique hseated hv.passes).2
        · exact hin source hx
        · exact hin x hx
      · have hsource := (h.woven.ne_of_passes hport h.pending.base ho).2.symm
        have hthrough : output ≠ throughOutput := by
          rintro rfl
          exact hne (ho.input_unique hseated hv.passes).2
        rw [hspliced.sinksAt, if_neg hsource, if_neg hthrough, hout]
  · obtain ⟨rank, hrank, hlt, habove⟩ := h.ranked
    obtain ⟨habove, habove'⟩ := List.forall_mem_cons.mp habove
    have hsource := (h.faces _ List.mem_cons_self).of_keeps h.woven.original h.woven.keeps
    have hrank' := hrank.of_splicedAfter h.woven.consistent hspliced hsource.host
      hv.input_faces.host hv.output_faces.host hlt habove
    refine ⟨rank, hrank', hlt, ?_⟩
    intro item hitem y hy b hb
    rw [hspliced.layout.standsFor] at hb
    obtain ⟨heq, -⟩ | ⟨-, ⟨heq, -⟩ | ⟨-, hy⟩⟩ := hspliced.of_mem hy
    · exact absurd (List.mem_map.mpr ⟨item, hitem, heq⟩) houtputs.1
    · obtain ⟨⟨other, ho, -⟩, -⟩ := hfaces' item hitem
      exact absurd heq (h.woven.ne_of_passes ho h.pending.base hv.passes).2
    · exact habove' item hitem y hy b hb

theorem Backing.of_dropped {g'' : Graph} {other : ScopeId} {drop : Node}
    (h : before.Backing g n scope host rest)
    (hpasses : g.Passes n index throughInput throughOutput) (hindex : index ∉ rest.map Prod.snd)
    (hscope : other < g.scopes.size)
    (hsettle : g' = g.settle { scope := other, kind := .drop, inserted := true } 0 {})
    (hdrop : g'.nodes[g.nodes.size]? = some drop) (hsink : sink ∈ drop.inputs)
    (hjoined : g'.Joined throughOutput sink g'') :
    before.Backing g'' n scope host rest := by
  subst hsettle
  have hkeeps := keeps_settle g { scope := other, kind := .drop, inserted := true } 0 {}
  obtain ⟨hc, hsinks⟩ :=
    h.woven.consistent.settle { scope := other, kind := .drop, inserted := true } 0 {}
  have hwoven := h.woven.settle .drop hscope rfl
  have hkind : drop.kind = .drop := by
    cases hdrop.symm.trans (node_settle_self ..)
    rfl
  obtain ⟨node, hnode, hin, hout⟩ := hpasses.mem
  have hn := lt_size_of_node hnode
  refine ⟨hwoven.of_dropped hjoined (hkeeps.node hnode) h.pending.base hout hdrop hkind
    h.woven.size_le hsink, ?_, h.host_lt, h.faces, h.outputs_nodup, h.indices_nodup, ?_⟩
  · apply h.pending.of_keeps (hkeeps.trans hjoined.layout.keeps) fun k hk => hk
    intro k hk input output hpasses' hin' hout'
    obtain ⟨node', hnode', hinput, -⟩ := hpasses'.mem
    constructor
    · intro x hx
      obtain ⟨-, rfl⟩ | hx := hjoined.of_mem hx
      · have heq := hwoven.wellFormed.seated.node_unique .input .input (hkeeps.node hnode') hdrop
          hinput hsink
        exact Nat.ne_of_lt hn heq
      · rw [hsinks] at hx
        exact hin' x hx
    · have hne : output ≠ throughOutput := by
        rintro rfl
        obtain ⟨-, rfl⟩ := hpasses'.input_unique h.woven.wellFormed.seated hpasses
        exact hindex hk
      rw [hjoined.sinksAt, if_neg hne, hsinks, hout']
  · obtain ⟨rank, hrank, hlt, habove⟩ := h.ranked
    refine ⟨numbered rank g.nodes.size (2 * rank n + 2), ?_, ?_, ?_⟩
    · apply (hrank.settle h.woven.wellFormed h.woven.consistent _ _).of_joined hc hjoined
      intro a b ha hb
      have hthrough := (h.pending.faces h.woven.wellFormed hpasses).2.of_keeps h.woven.wellFormed
        hkeeps
      cases ha.symm.trans hthrough.host
      have hinput : sink ∈ drop.portsOn .input := hsink
      obtain ⟨k, hk⟩ := List.mem_iff_getElem?.mp hinput
      obtain ⟨port, hport, hportNode, -⟩ := hwoven.wellFormed.seated.seat hdrop hk
      have hstands := standsFor_of_plain hport (hportNode ▸ hdrop) (by rw [hkind]; rfl)
      cases hb.symm.trans hstands
      rw [hportNode, numbered_self, numbered_of_lt hn]
      omega
    · rw [numbered_of_lt (Nat.lt_of_lt_of_le h.host_lt h.woven.size_le), numbered_of_lt hn]
      omega
    · intro item hitem y hy b hb
      obtain ⟨⟨port, hport, -⟩, -⟩ := h.faces item hitem
      have hne := (h.woven.ne_of_passes hport h.pending.base hpasses).2
      rw [hjoined.sinksAt, if_neg hne, hsinks] at hy
      obtain ⟨_, _, -, hinput, -⟩ := h.woven.consistent.ends hy
      rw [hjoined.layout.standsFor, hkeeps.standsFor h.woven.wellFormed hinput] at hb
      have hlt' := habove item hitem y hy b hb
      rw [numbered_of_lt hn, numbered_of_lt (h.woven.wellFormed.lt_size_of_standsFor hb)]
      omega

end Graph

end BorrowFlow
