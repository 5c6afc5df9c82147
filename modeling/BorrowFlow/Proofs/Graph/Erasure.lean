import BorrowFlow.Proofs.Graph.Wiring
import Mathlib.Data.List.Nodup

/-!
# Leaving nodes out

What feeds an input and what an output feeds, when the nodes from some number on are left out. A
node that is left out passes on what it gets, from its input `i` to its output `i`, and what goes
into a drop node goes nowhere. Both readings are unique, and the second one determines the first.
-/

namespace BorrowFlow

variable {sinks found : List PortId} {node : Node} {n : NodeId}

namespace Graph

variable {base n' : NodeId} {index : Nat} {input : PortId} {g g' : Graph}

/-- The two ports are the input and the output of a node that have the given index. -/
def Passes (g : Graph) (n : NodeId) (index : Nat) (input output : PortId) : Prop :=
  ∃ node : Node, g.nodes[n]? = some node ∧ node.inputs[index]? = some input ∧
    node.outputs[index]? = some output

/-- The output that feeds an input, none if nothing does, when the nodes from `base` on are left
out. -/
inductive Origin (g : Graph) (base : NodeId) : PortId → Option PortId → Prop
  | unwired {input : PortId} (h : g.sourceAt input = none) : Origin g base input none
  | kept {input output : PortId} {n : NodeId} {node : Node}
    (hsource : g.sourceAt input = some output) (hnode : g.nodes[n]? = some node)
    (hbase : n < base) (hmem : output ∈ node.outputs) : Origin g base input (some output)
  | through {input output inner : PortId} {n : NodeId} {index : Nat} {origin : Option PortId}
    (hsource : g.sourceAt input = some output) (hbase : base ≤ n)
    (hpasses : g.Passes n index inner output) (h : Origin g base inner origin) :
    Origin g base input origin

/-- What the inputs of a wire amount to, in order, when the nodes from `base` on are left out. -/
inductive Reaches (g : Graph) (base : NodeId) : List PortId → List PortId → Prop
  | nil : Reaches g base [] []
  | kept {sink : PortId} {rest found : List PortId} {n : NodeId} {node : Node}
    (hnode : g.nodes[n]? = some node) (hbase : n < base) (hmem : sink ∈ node.inputs)
    (h : Reaches g base rest found) : Reaches g base (sink :: rest) (sink :: found)
  | through {sink output : PortId} {rest inside found : List PortId} {n : NodeId} {index : Nat}
    (hbase : base ≤ n) (hpasses : g.Passes n index sink output)
    (hinside : Reaches g base (g.sinksAt output) inside)
    (h : Reaches g base rest found) : Reaches g base (sink :: rest) (inside ++ found)
  | dropped {sink : PortId} {rest found : List PortId} {n : NodeId} {node : Node}
    (hnode : g.nodes[n]? = some node) (hbase : base ≤ n) (hkind : node.kind = .drop)
    (hmem : sink ∈ node.inputs) (h : Reaches g base rest found) :
    Reaches g base (sink :: rest) found

/-! ## Both readings are unique -/

theorem Seated.unique (hs : g.Seated) (direction direction' : Direction)
    {node' : Node} {index' : Nat} {id : PortId} (hnode : g.nodes[n]? = some node)
    (hnode' : g.nodes[n']? = some node') (hid : (node.portsOn direction)[index]? = some id)
    (hid' : (node'.portsOn direction')[index']? = some id) :
    n = n' ∧ direction = direction' ∧ index = index' := by
  obtain ⟨port, hport, hn, hdirection, hindex, -⟩ := hs.seat hnode hid
  obtain ⟨port', hport', hn', hdirection', hindex', -⟩ := hs.seat hnode' hid'
  cases hport.symm.trans hport'
  exact ⟨hn.symm.trans hn', hdirection.symm.trans hdirection', hindex.symm.trans hindex'⟩

theorem Seated.node_unique (hs : g.Seated) (direction direction' : Direction)
    {node' : Node} {id : PortId} (hnode : g.nodes[n]? = some node)
    (hnode' : g.nodes[n']? = some node') (hid : id ∈ node.portsOn direction)
    (hid' : id ∈ node'.portsOn direction') : n = n' := by
  obtain ⟨index, hindex⟩ := List.mem_iff_getElem?.mp hid
  obtain ⟨index', hindex'⟩ := List.mem_iff_getElem?.mp hid'
  exact (hs.unique direction direction' hnode hnode' hindex hindex').1

theorem Seated.nodup_portsOn (hs : g.Seated) (hnode : g.nodes[n]? = some node)
    (direction : Direction) : (node.portsOn direction).Nodup := by
  rw [List.nodup_iff_getElem?_ne_getElem?]
  intro index index' hlt hlen heq
  have hid := List.getElem?_eq_getElem hlen
  obtain ⟨-, -, rfl⟩ := hs.unique direction direction hnode hnode (heq.trans hid) hid
  exact Nat.lt_irrefl _ hlt

section Passes

variable {index' : Nat} {output input' output' : PortId} (h : g.Passes n index input output)
include h

theorem Passes.mem :
    ∃ node, g.nodes[n]? = some node ∧ input ∈ node.inputs ∧ output ∈ node.outputs := by
  obtain ⟨node, hnode, hinput, houtput⟩ := h
  exact ⟨node, hnode, List.mem_of_getElem? hinput, List.mem_of_getElem? houtput⟩

theorem Passes.of_keeps (hkeeps : g.Keeps g') : g'.Passes n index input output := by
  obtain ⟨node, hnode, hports⟩ := h
  exact ⟨node, hkeeps.node hnode, hports⟩

theorem Passes.output_unique (hs : g.Seated) (h' : g.Passes n' index' input output') :
    output = output' ∧ index = index' := by
  obtain ⟨node, hnode, hinput, houtput⟩ := h
  obtain ⟨node', hnode', hinput', houtput'⟩ := h'
  obtain ⟨rfl, -, rfl⟩ := hs.unique .input .input hnode hnode' hinput hinput'
  cases hnode.symm.trans hnode'
  exact ⟨Option.some.inj (houtput.symm.trans houtput'), rfl⟩

theorem Passes.input_unique (hs : g.Seated) (h' : g.Passes n' index' input' output) :
    input = input' ∧ index = index' := by
  obtain ⟨node, hnode, hinput, houtput⟩ := h
  obtain ⟨node', hnode', hinput', houtput'⟩ := h'
  obtain ⟨rfl, -, rfl⟩ := hs.unique .output .output hnode hnode' houtput houtput'
  cases hnode.symm.trans hnode'
  exact ⟨Option.some.inj (hinput.symm.trans hinput'), rfl⟩

theorem Passes.directions (hs : g.Seated) :
    (∃ port, g.ports[input]? = some port ∧ port.direction = .input) ∧
      ∃ port, g.ports[output]? = some port ∧ port.direction = .output := by
  obtain ⟨node, hnode, hin, hout⟩ := h
  have hseat : ∀ direction id, (node.portsOn direction)[index]? = some id →
      ∃ port, g.ports[id]? = some port ∧ port.direction = direction := by
    intro direction id hid
    obtain ⟨port, hport, -, hdirection, -⟩ := hs.seat hnode hid
    exact ⟨port, hport, hdirection⟩
  exact ⟨hseat .input input hin, hseat .output output hout⟩

theorem Passes.input_ne_output (h' : g.Passes n' index' input' output') (hs : g.Seated) :
    input ≠ output' := by
  rintro rfl
  obtain ⟨⟨port, hport, hinput⟩, -⟩ := h.directions hs
  obtain ⟨-, found, hf, houtput⟩ := h'.directions hs
  cases hport.symm.trans hf
  cases hinput.symm.trans houtput

theorem Passes.ne_sink (hs : g.Seated) (hc : g.Consistent) {source sink : PortId}
    (hsink : sink ∈ g.sinksAt source) : output ≠ sink := by
  rintro rfl
  obtain ⟨-, port, hport, houtput⟩ := h.directions hs
  obtain ⟨_, found, -, hf, -, hinput, -⟩ := hc.ends hsink
  cases hport.symm.trans hf
  cases houtput.symm.trans hinput

theorem Passes.kind_ne_drop (hs : g.Seated) (hnode : g.nodes[n]? = some node) :
    node.kind ≠ .drop := by
  intro hk
  obtain ⟨found, hf, -, hm⟩ := h.mem
  cases hnode.symm.trans hf
  have hlen := hs.length_eq hnode .output
  have hfaced : g.faced node .output = [] := by
    rw [faced_of_plain g (by rw [hk]; rfl), hk]
    rfl
  have houtputs : node.outputs = [] := by
    rw [hfaced] at hlen
    exact List.eq_nil_of_length_eq_zero hlen
  rw [houtputs] at hm
  cases hm

end Passes

theorem Origin.unique (hs : g.Seated) {origin origin' : Option PortId}
    (h : g.Origin base input origin) (h' : g.Origin base input origin') :
    origin = origin' := by
  induction h with
  | unwired hnone =>
    cases h' with
    | unwired => rfl
    | kept hsource => cases hnone.symm.trans hsource
    | through hsource => cases hnone.symm.trans hsource
  | @kept input output n node hsource hnode hbase hm =>
    cases h' with
    | unwired hnone => cases hnone.symm.trans hsource
    | kept hsource' => exact hsource.symm.trans hsource'
    | through hsource' hbase' hpasses =>
      cases hsource.symm.trans hsource'
      obtain ⟨node', hnode', -, hm'⟩ := hpasses.mem
      have hn := hs.node_unique .output .output hnode hnode' hm hm'
      exact absurd hbase (Nat.not_lt_of_le (hn ▸ hbase'))
  | through hsource hbase hpasses _ ih =>
    cases h' with
    | unwired hnone => cases hnone.symm.trans hsource
    | @kept _ _ n' node' hsource' hnode' hbase' hm' =>
      cases hsource.symm.trans hsource'
      obtain ⟨node, hnode, -, hm⟩ := hpasses.mem
      have hn := hs.node_unique .output .output hnode hnode' hm hm'
      exact absurd hbase' (Nat.not_lt_of_le (hn ▸ hbase))
    | through hsource' hbase' hpasses' h' =>
      cases hsource.symm.trans hsource'
      obtain ⟨rfl, -⟩ := hpasses.input_unique hs hpasses'
      exact ih h'

theorem Reaches.unique (hs : g.Seated) {found' : List PortId}
    (h : g.Reaches base sinks found) (h' : g.Reaches base sinks found') :
    found = found' := by
  induction h generalizing found' with
  | nil =>
    cases h'
    rfl
  | kept hnode hbase hm _ ih =>
    cases h' with
    | kept _ _ _ h' => rw [ih h']
    | through hbase' hpasses =>
      obtain ⟨node', hnode', hm', -⟩ := hpasses.mem
      have hn := hs.node_unique .input .input hnode hnode' hm hm'
      exact absurd hbase (Nat.not_lt_of_le (hn ▸ hbase'))
    | dropped hnode' hbase' _ hm' =>
      have hn := hs.node_unique .input .input hnode hnode' hm hm'
      exact absurd hbase (Nat.not_lt_of_le (hn ▸ hbase'))
  | through hbase hpasses _ _ ihInside ih =>
    obtain ⟨node, hnode, hm, -⟩ := hpasses.mem
    cases h' with
    | kept hnode' hbase' hm' =>
      have hn := hs.node_unique .input .input hnode hnode' hm hm'
      exact absurd hbase' (Nat.not_lt_of_le (hn ▸ hbase))
    | through hbase' hpasses' hinside' h' =>
      obtain ⟨rfl, -⟩ := hpasses.output_unique hs hpasses'
      rw [ihInside hinside', ih h']
    | dropped hnode' hbase' hk hm' =>
      obtain rfl := hs.node_unique .input .input hnode hnode' hm hm'
      exact absurd hk (hpasses.kind_ne_drop hs hnode')
  | dropped hnode hbase hk hm _ ih =>
    cases h' with
    | kept hnode' hbase' hm' =>
      have hn := hs.node_unique .input .input hnode hnode' hm hm'
      exact absurd hbase' (Nat.not_lt_of_le (hn ▸ hbase))
    | through hbase' hpasses =>
      obtain ⟨node', hnode', hm', -⟩ := hpasses.mem
      obtain rfl := hs.node_unique .input .input hnode hnode' hm hm'
      exact absurd hk (hpasses.kind_ne_drop hs hnode)
    | dropped _ _ _ _ h' => exact ih h'

/-! ## From what an output feeds to what feeds an input -/

theorem Reaches.append {sinks' found' : List PortId} (h : g.Reaches base sinks found)
    (h' : g.Reaches base sinks' found') :
    g.Reaches base (sinks ++ sinks') (found ++ found') := by
  induction h with
  | nil => exact h'
  | kept hnode hbase hm _ ih => exact .kept hnode hbase hm ih
  | through hbase hpasses hinside _ _ ih =>
    rw [List.append_assoc]
    exact .through hbase hpasses hinside ih
  | dropped hnode hbase hk hm _ ih => exact .dropped hnode hbase hk hm ih

theorem Reaches.passed {output : PortId} {inside : List PortId}
    (hbase : base ≤ n) (hpasses : g.Passes n index input output)
    (hinside : g.Reaches base (g.sinksAt output) inside) :
    g.Reaches base [input] inside := by
  have h := Reaches.through hbase hpasses hinside .nil
  rwa [List.append_nil] at h

/-- Whatever a list of inputs amounts to comes from where those inputs have their values from. -/
theorem Reaches.origin (hc : g.Consistent) {origin : Option PortId}
    (h : g.Reaches base sinks found) (horigin : ∀ sink ∈ sinks, g.Origin base sink origin) :
    ∀ sink ∈ found, g.Origin base sink origin := by
  induction h with
  | nil => nofun
  | kept _ _ _ _ ih =>
    rw [List.forall_mem_cons] at horigin ⊢
    exact ⟨horigin.1, ih horigin.2⟩
  | through hbase hpasses _ _ ihInside ih =>
    rw [List.forall_mem_cons] at horigin
    rw [List.forall_mem_append]
    refine ⟨ihInside fun sink hsink => ?_, ih horigin.2⟩
    exact .through (hc.mem_sinksAt_iff.mp hsink) hbase hpasses horigin.1
  | dropped _ _ _ _ _ ih =>
    rw [List.forall_mem_cons] at horigin
    exact ih horigin.2

/-! ## Rewiring -/

/-- What inputs amount to in a rewired graph. The inputs in it that are good are moved one by one,
those of kept nodes to inputs that amount to them. -/
theorem Reaches.transfer (good : PortId → Prop) (move : PortId → PortId) (hkeeps : g.Keeps g')
    (hkept : ∀ {n : NodeId} {node : Node} {sink : PortId}, g.nodes[n]? = some node →
      n < base → sink ∈ node.inputs → g'.Reaches base [move sink] [sink])
    (hadded : ∀ {n : NodeId} {node : Node} {sink : PortId}, g.nodes[n]? = some node →
      base ≤ n → sink ∈ node.inputs → move sink = sink)
    (hgood : ∀ output, ∀ sink ∈ g.sinksAt output, good sink)
    (hsinks : ∀ {n : NodeId} {index : Nat} {input output : PortId} {found : List PortId},
      good input → base ≤ n → g.Passes n index input output →
        g'.Reaches base ((g.sinksAt output).map move) found →
          g'.Reaches base (g'.sinksAt output) found) (h : g.Reaches base sinks found)
    (hall : ∀ sink ∈ sinks, good sink) : g'.Reaches base (sinks.map move) found := by
  induction h with
  | nil => exact .nil
  | kept hnode hbase hm _ ih =>
    rw [List.forall_mem_cons] at hall
    exact (hkept hnode hbase hm).append (ih hall.2)
  | through hbase hpasses hinside _ ihInside ih =>
    rw [List.forall_mem_cons] at hall
    obtain ⟨node, hnode, hm, -⟩ := hpasses.mem
    have hinside' := hsinks hall.1 hbase hpasses (ihInside (hgood _))
    rw [List.map_cons, hadded hnode hbase hm]
    exact .through hbase (hpasses.of_keeps hkeeps) hinside' (ih hall.2)
  | dropped hnode hbase hk hm _ ih =>
    rw [List.forall_mem_cons] at hall
    rw [List.map_cons, hadded hnode hbase hm]
    exact .dropped (hkeeps.node hnode) hbase hk hm (ih hall.2)

theorem Reaches.mono (good : PortId → Prop) (hkeeps : g.Keeps g')
    (hgood : ∀ output, ∀ sink ∈ g.sinksAt output, good sink)
    (hsinks : ∀ {n : NodeId} {index : Nat} {input output : PortId} {found : List PortId},
      good input → base ≤ n → g.Passes n index input output →
        g'.Reaches base (g.sinksAt output) found →
          g'.Reaches base (g'.sinksAt output) found) (h : g.Reaches base sinks found)
    (hall : ∀ sink ∈ sinks, good sink) : g'.Reaches base sinks found := by
  have hmoved := h.transfer good (fun sink => sink) hkeeps
    (fun hnode hbase hm => .kept (hkeeps.node hnode) hbase hm .nil) (fun _ _ _ => rfl) hgood
    (fun hinput hbase hpasses hinside => hsinks hinput hbase hpasses (by simpa using hinside)) hall
  simpa using hmoved

end Graph

end BorrowFlow
