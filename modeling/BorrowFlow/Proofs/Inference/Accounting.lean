import BorrowFlow.Proofs.Graph.Completeness
import BorrowFlow.Proofs.Inference.Returning
import BorrowFlow.Proofs.Inference.Timing

/-!
# What is inserted is accounted for

A group that borrows gets one borrow node, one node that ends the borrow if it hands anything back,
and a drop node for each value that is handed back and that nothing uses, if such values are to be
dropped. Going through the groups in their order, the outline of the graph grows by exactly these
nodes, the numbers by their counts, and each node gets its facades and its wires at one index after
the other.
-/

namespace BorrowFlow

variable {group : BorrowGroup} {g : Graph} {mutable : Bool} {lifetime : Lifetime}
  {output id : PortId} {fixed : Prop}

namespace NodeKind

def isExplicitBorrow : NodeKind → Bool
  | explicitBorrow .. => true
  | _ => false

def isTerminateLifetime : NodeKind → Bool
  | terminateLifetime .. => true
  | _ => false

def isDrop : NodeKind → Bool
  | drop => true
  | _ => false

end NodeKind

def Stats.withNodes (stats : Stats) (kinds : List NodeKind) : Stats :=
  { stats with
    borrowsInserted := stats.borrowsInserted + kinds.countP NodeKind.isExplicitBorrow
    terminationsInserted := stats.terminationsInserted + kinds.countP NodeKind.isTerminateLifetime
    dropsInserted := stats.dropsInserted + kinds.countP NodeKind.isDrop }

theorem Stats.withNodes_append (stats : Stats) (kinds kinds' : List NodeKind) :
    stats.withNodes (kinds ++ kinds') = (stats.withNodes kinds).withNodes kinds' := by
  simp [withNodes, Nat.add_assoc]

theorem Stats.withNodes_of_perm (stats : Stats) {kinds kinds' : List NodeKind}
    (h : kinds.Perm kinds') : stats.withNodes kinds = stats.withNodes kinds' := by
  simp only [withNodes, h.countP_eq]

/-- The nodes that drop what outputs hand back and nothing uses, if it is to be dropped. -/
def Graph.dropsFor (g : Graph) (config : Config) (outputs : List PortId) : List NodeKind :=
  if config.inference.insertImplicitDrops then
    (outputs.filter fun output => g.sinksAt output = []).map fun _ => .drop
  else []

/-- The nodes that make the borrow of a group explicit: one that borrows for the wired members, one
that ends the borrow if a wired member is handed back, and the drops of what is handed back to
nobody. -/
def BorrowGroup.nodesFor (group : BorrowGroup) (g : Graph) (config : Config) : List NodeKind :=
  match group.decision with
  | some (.borrow mutable _) =>
    let wired := group.wiredIn g
    .explicitBorrow mutable wired.length ::
      (if wired.any fun member => member.pairedOutput.isSome then
        [.terminateLifetime wired.length wired.length]
      else []) ++ g.dropsFor config (wired.filterMap GroupMember.pairedOutput)
  | _ => []

def BorrowGroup.outlineFor (group : BorrowGroup) (g : Graph) (config : Config) :
    List (ScopeId × NodeKind × Bool) :=
  (group.nodesFor g config).map fun kind => (group.scope, kind, true)

theorem Graph.dropsFor_cons (g : Graph) (config : Config) (output : PortId) (rest : List PortId) :
    g.dropsFor config (output :: rest) = g.dropsFor config [output] ++ g.dropsFor config rest := by
  unfold dropsFor
  split
  · rw [← List.map_append, ← List.filter_append, List.singleton_append]
  · rfl

namespace BorrowGroup

variable {config : Config}

theorem nodesFor_of_paired (hdecision : group.decision = some (.borrow mutable lifetime))
    (hpaired : (group.wiredIn g).filterMap GroupMember.pairedOutput ≠ []) :
    group.nodesFor g config = .explicitBorrow mutable (group.wiredIn g).length ::
        .terminateLifetime (group.wiredIn g).length (group.wiredIn g).length ::
          g.dropsFor config ((group.wiredIn g).filterMap GroupMember.pairedOutput) := by
  obtain ⟨output, houtput⟩ := List.exists_mem_of_ne_nil _ hpaired
  obtain ⟨member, hmember, hsome⟩ := List.mem_filterMap.mp houtput
  have hany : (group.wiredIn g).any (fun member => member.pairedOutput.isSome) = true :=
    List.any_eq_true.mpr ⟨member, hmember, by rw [hsome]; rfl⟩
  simp [nodesFor, hdecision, hany]

theorem nodesFor_of_unpaired (hdecision : group.decision = some (.borrow mutable lifetime))
    (hunpaired : (group.wiredIn g).filterMap GroupMember.pairedOutput = []) :
    group.nodesFor g config = [.explicitBorrow mutable (group.wiredIn g).length] := by
  have hany : (group.wiredIn g).any (fun member => member.pairedOutput.isSome) = false := by
    rw [List.any_eq_false]
    intro member hmember
    rw [List.filterMap_eq_nil_iff.mp hunpaired member hmember]
    exact Bool.false_ne_true
  simp [nodesFor, hdecision, hany, hunpaired, Graph.dropsFor]

theorem nodesFor_of_not_borrow
    (h : ∀ mutable lifetime, group.decision ≠ some (.borrow mutable lifetime)) :
    group.nodesFor g config = [] := by
  unfold nodesFor
  split
  · rename_i mutable lifetime hdecision
    exact absurd hdecision (h mutable lifetime)
  · rfl

end BorrowGroup

theorem Graph.Consistent.isWired_output_iff (hc : g.Consistent) {port : Port}
    (hport : g.ports[id]? = some port) (houtput : port.direction = .output) :
    g.isWired id = false ↔ g.sinksAt id = [] := by
  unfold isWired
  rw [hport, Option.bind_some, Option.isSome_eq_false_iff, Option.isNone_iff_eq_none]
  exact ⟨sinksAt_of_unwired hport, hc.wire_eq_none_of_output hport houtput⟩

namespace Insertion

variable {before : Graph} {ws ws' : Workspace} {n host : NodeId} {scope : ScopeId} {index : Nat}
  {indices : List Nat} {sink source input : PortId} {facade : Facade} {flow : FlowId}
  {config : Config} {stats : Stats} {added : List (ScopeId × NodeKind × Bool)}
  {counted : List NodeKind} {left : List PortId}

/-! ## Steps -/

/-- Since a pass started, the outline has grown by some nodes, and nodes of some kinds have been
counted. The outputs that are left feed something if they did at the start. -/
structure Accounted (before : Graph) (stats : Stats) (added : List (ScopeId × NodeKind × Bool))
    (counted : List NodeKind) (left : List PortId) (ws : Workspace) : Prop where
  outline_eq : ws.graph.outline = before.outline ++ added
  stats_eq : ws.context.stats = stats.withNodes counted
  outputs : ∀ output ∈ left, ∃ port, before.ports[output]? = some port ∧ port.direction = .output
  idle : ∀ output ∈ left, ws.graph.sinksAt output = [] ↔ before.sinksAt output = []

section

variable (h : Accounted before stats added counted left ws)
include h

theorem Accounted.settle (hc : ws.graph.Consistent) (scope : ScopeId) (kind : NodeKind) :
    Accounted before stats (added ++ [(scope, kind, true)]) counted left { ws with
      graph := ws.graph.settle { scope, kind, inserted := true } 0 {} } where
  outline_eq := by
    rw [Graph.outline_settle, h.outline_eq, List.append_assoc]
    rfl
  __ := h
  idle output houtput := by
    rw [(hc.settle _ 0 {}).2]
    exact h.idle output houtput

theorem Accounted.count (kind : NodeKind) {stats' : Stats}
    (hstats : stats' = ws.context.stats.withNodes [kind]) :
    Accounted before stats added (counted ++ [kind]) left
      { ws with context := { ws.context with stats := stats' } } where
  __ := h
  stats_eq := by
    rw [hstats, h.stats_eq, Stats.withNodes_append]

theorem Accounted.of_perm {counted' : List NodeKind} (hperm : counted.Perm counted') :
    Accounted before stats added counted' left ws where
  __ := h
  stats_eq := h.stats_eq.trans (stats.withNodes_of_perm hperm)

theorem Accounted.of_lends (hwoven : before.Woven ws.graph)
    (hlends : Lends before n scope index sink input output facade ws ws') :
    Accounted before stats added counted left ws' where
  outline_eq := hlends.spliced.layout.outline_eq.trans h.outline_eq
  stats_eq := hlends.stats.trans h.stats_eq
  outputs := h.outputs
  idle other ho := by
    obtain ⟨port, hport, -⟩ := h.outputs other ho
    have hne := (hwoven.ne_of_passes hport hlends.vacancy.base hlends.vacancy.passes).2
    rw [hlends.spliced.sinksAt, if_neg hne, List.map_eq_nil_iff]
    exact h.idle other ho

end

theorem Accounted.of_terminates (h : Accounted before stats added counted (source :: left) ws)
    (hwoven : before.Woven ws.graph) (hsource : source ∉ left)
    (hterminates : Terminates before n scope index source input output facade ws ws') :
    Accounted before stats added counted left ws' where
  outline_eq := hterminates.spliced.layout.outline_eq.trans h.outline_eq
  stats_eq := hterminates.stats.trans h.stats_eq
  outputs other ho := h.outputs other (List.mem_cons_of_mem source ho)
  idle other ho := by
    obtain ⟨port, hport, -⟩ := h.outputs other (List.mem_cons_of_mem source ho)
    have hne := (hwoven.ne_of_passes hport hterminates.vacancy.base hterminates.vacancy.passes).2
    have hne' : other ≠ source := fun heq => hsource (heq ▸ ho)
    rw [hterminates.spliced.sinksAt, if_neg hne', if_neg hne]
    exact h.idle other (List.mem_cons_of_mem source ho)

theorem Accounted.of_drops (h : Accounted before stats added counted left ws)
    (hc : ws.graph.Consistent) (houtput : output ∉ left)
    (hdrops : Drops scope output sink flow ws ws') :
    Accounted before stats (added ++ [(scope, .drop, true)]) (counted ++ [.drop]) left
      ws' where
  outline_eq := hdrops.joined.layout.outline_eq.trans (h.settle hc scope .drop).outline_eq
  stats_eq := by
    rw [hdrops.stats, Stats.withNodes_append, ← h.stats_eq]
    rfl
  outputs := h.outputs
  idle other ho := by
    have hne : other ≠ output := fun heq => houtput (heq ▸ ho)
    rw [hdrops.joined.sinksAt, if_neg hne, (hc.settle _ 0 {}).2]
    exact h.idle other ho

/-! ## Ports of the nodes that are inserted -/

def Shows (ws : Workspace) (id : PortId) : Prop :=
  ∃ facade, ws.context.facades.get? id = some facade

theorem Spares.shows {inputs outputs : List PortId} (h : Spares inputs outputs ws ws')
    (hid : Shows ws id) : Shows ws' id := by
  obtain ⟨facade, hfacade⟩ := hid
  obtain ⟨facade', hfacade', -⟩ := h.facades id facade hfacade
  exact ⟨facade', hfacade'⟩

theorem Refaced.shows {facades : Facades}
    (h : Refaced ws facades ws') (hid : facades.get? id = some facade) :
    Shows ws' id :=
  ⟨facade, h.facades_eq ▸ hid⟩

/-- Every port of a node that was added has a facade, and is on a wire if unused values are dropped,
with some exceptions. -/
structure Equipped (config : Config) (before : Graph) (except : PortId → Prop)
    (ws : Workspace) : Prop where
  faced : before.Complete ws.graph (Shows ws) except
  wired : config.inference.insertImplicitDrops = true →
    before.Complete ws.graph ws.graph.OnWire except

theorem Lends.equipped (h : Lends before n scope index sink input output facade ws ws')
    (hequipped : Equipped config before (ws.graph.PortAt n (index :: indices)) ws) :
    Equipped config before (ws'.graph.PortAt n indices) ws' := by
  have hcases : ∀ id, ws.graph.PortAt n (index :: indices) id →
      id = input ∨ id = output ∨ ws'.graph.PortAt n indices id := fun id hat =>
    (hat.of_cons h.vacancy.passes).imp_right (.imp_right (·.of_keeps h.spliced.layout.keeps))
  constructor
  · apply hequipped.faced.of_sameLayout h.spliced.layout
    · exact fun _ => h.spares.shows
    · intro id hat
      rcases hcases id hat with rfl | rfl | hrest
      · left
        apply h.refaced.shows
        rw [Facades.get?_set, if_neg (h.vacancy.input_faces.ne h.vacancy.output_faces),
          Facades.get?_set, if_pos rfl]
      · left
        apply h.refaced.shows
        rw [Facades.get?_set, if_pos rfl]
      · exact .inr hrest
  · intro hdrops
    obtain ⟨hinput, houtput⟩ := h.spliced.onWire h.vacancy.output_free
    apply (hequipped.wired hdrops).of_sameLayout h.spliced.layout
    · exact fun _ hid => hid.of_spliced h.spliced h.vacancy.output_free
    · intro id hat
      rcases hcases id hat with rfl | rfl | hrest
      · exact .inl hinput
      · exact .inl houtput
      · exact .inr hrest

theorem Terminates.faced (h : Terminates before n scope index source input output facade ws ws')
    (hfaced : before.Complete ws.graph (Shows ws) (ws.graph.PortAt n (index :: indices))) :
    before.Complete ws'.graph (Shows ws') (ws'.graph.PortAt n indices) := by
  apply hfaced.of_sameLayout h.spliced.layout
  · exact fun _ => h.spares.shows
  · intro id hat
    rcases hat.of_cons h.vacancy.passes with rfl | rfl | hrest
    · left
      apply h.refaced.shows
      rw [Facades.get?_set, if_neg (h.vacancy.input_faces.ne h.vacancy.output_faces),
        Facades.get?_set, if_pos rfl]
    · left
      apply h.refaced.shows
      rw [Facades.get?_set, if_pos rfl]
    · exact .inr (hrest.of_keeps h.spliced.layout.keeps)

theorem Terminates.wired (h : Terminates before n scope index source input output facade ws ws')
    (hne : output ≠ source)
    (hwired : before.Complete ws.graph ws.graph.OnWire (ws.graph.PortAt n (index :: indices))) :
    before.Complete ws'.graph ws'.graph.OnWire fun id =>
      id = output ∧ ws.graph.sinksAt source = [] ∨ ws'.graph.PortAt n indices id := by
  obtain ⟨hinput, houtput⟩ := h.spliced.onWire hne
  apply hwired.of_sameLayout h.spliced.layout
  · exact fun _ hid => hid.of_splicedAfter h.spliced h.vacancy.output_free
  · intro id hat
    rcases hat.of_cons h.vacancy.passes with rfl | rfl | hrest
    · exact .inl hinput
    · by_cases hidle : ws.graph.sinksAt source = []
      · exact .inr (.inl ⟨rfl, hidle⟩)
      · exact .inl (houtput hidle)
    · exact .inr (.inr (hrest.of_keeps h.spliced.layout.keeps))

section

variable (h : Drops scope output sink flow ws ws')
include h

theorem Drops.portAt (hat : ws.graph.PortAt n indices id) : ws'.graph.PortAt n indices id :=
  (hat.of_keeps (Graph.keeps_settle ws.graph _ 0 {})).of_keeps h.joined.layout.keeps

theorem Drops.faced (hwoven : before.Woven ws.graph) (hfaced : before.Complete ws.graph (Shows ws)
      (ws.graph.PortAt n indices)) :
    before.Complete ws'.graph (Shows ws') (ws'.graph.PortAt n indices) := by
  have hsettled : before.Complete
      (ws.graph.settle { scope, kind := .drop, inserted := true } 0 {}) (Shows ws)
        fun id => ws.graph.PortAt n indices id ∨ id = sink := by
    apply hfaced.settle
    · intro data direction id hd hid
      exact .inr (hwoven.eq_of_mem_drop h.scope_lt hd hid h.input)
    · exact fun _ => id
    · exact fun _ => .inl
  apply hsettled.of_sameLayout h.joined.layout
  · exact fun _ => (h.spares hwoven.consistent).shows
  · rintro id (hat | rfl)
    · exact .inr (h.portAt hat)
    · left
      apply h.refaced.shows
      rw [Facades.get?_set, if_pos rfl]

theorem Drops.wired (hwoven : before.Woven ws.graph)
    (hwired : before.Complete ws.graph ws.graph.OnWire fun id =>
      id = output ∨ ws.graph.PortAt n indices id) :
    before.Complete ws'.graph ws'.graph.OnWire (ws'.graph.PortAt n indices) := by
  have hsettled : before.Complete (ws.graph.settle { scope, kind := .drop, inserted := true } 0 {})
        (ws.graph.settle { scope, kind := .drop, inserted := true } 0 {}).OnWire
          fun id => (id = output ∨ ws.graph.PortAt n indices id) ∨ id = sink := by
    apply hwired.settle
    · intro data direction id hd hid
      exact .inr (hwoven.eq_of_mem_drop h.scope_lt hd hid h.input)
    · exact fun _ hid => hid.settle hwoven.consistent _ _ _
    · exact fun _ => .inl
  obtain ⟨houtput, hsink⟩ := h.joined.onWire
  apply hsettled.of_sameLayout h.joined.layout
  · exact fun _ hid => hid.of_joined h.joined
  · rintro id ((rfl | hat) | rfl)
    · exact .inl houtput
    · exact .inr (h.portAt hat)
    · exact .inl hsink

end

/-- A node with as many inputs and outputs as there are items waits for each of them. -/
theorem Equipped.settle {α : Type} (items : List α) (h : Equipped config before (fun _ => False) ws)
    (hwoven : before.Woven ws.graph) (kind : NodeKind)
    (hscope : scope < ws.graph.scopes.size) (hk : kind.isWoven = true)
    (hcount : ∀ direction, kind.portCount direction = items.length) :
    Equipped config before (Graph.PortAt (ws.graph.settle { scope, kind, inserted := true } 0 {})
        ws.graph.nodes.size (items.zipIdx.map Prod.snd))
      { ws with graph := ws.graph.settle { scope, kind, inserted := true } 0 {} } := by
  rw [List.zipIdx_map_snd, ← List.range_eq_range']
  constructor
  · exact h.faced.settle_portAt hwoven hscope hk hcount fun _ => id
  · intro hdrops
    exact (h.wired hdrops).settle_portAt hwoven hscope hk hcount
      fun _ hid => hid.settle hwoven.consistent _ _ _

theorem Equipped.of_portAt_nil (h : Equipped config before (ws.graph.PortAt n []) ws) :
    Equipped config before (fun _ => False) ws :=
  ⟨h.faced.of_portAt_nil, fun hdrops => (h.wired hdrops).of_portAt_nil⟩

theorem Equipped.count {except : PortId → Prop} (h : Equipped config before except ws)
    (stats : Stats) : Equipped config before except
      { ws with context := { ws.context with stats } } :=
  ⟨h.faced, h.wired⟩

/-! ## Borrows -/

section Loops

variable {wired : List GroupMember} {paired : List PortId}

theorem ends_borrowMembers_accounted {items : List (GroupMember × Nat)}
    (h : before.Fronting ws.graph n scope host (places items))
    (haccounted : Accounted before stats added counted left ws)
    (hequipped : Equipped config before (ws.graph.PortAt n (items.map Prod.snd)) ws) :
    Yields (items.forM fun (member, index) => borrowMember n index member) ws
      fun _ ws' => before.Refined ws'.graph ∧ Accounted before stats added counted left ws' ∧
          Equipped config before (fun _ => False) ws' := by
  apply Ends.forM fun rest ws' =>
    before.Fronting ws'.graph n scope host (places rest) ∧
      Accounted before stats added counted left ws' ∧
        Equipped config before (ws'.graph.PortAt n (rest.map Prod.snd)) ws'
  · exact ⟨h, haccounted, hequipped⟩
  · rintro ⟨member, index⟩ rest current ⟨hfront, haccounted', hequipped'⟩
    apply (lends_borrowMember hfront).yields
    rintro _ next ⟨hfront', input, output, facade, hlends⟩
    exact ⟨hfront', haccounted'.of_lends hfront.woven hlends, hlends.equipped hequipped'⟩
  · rintro last ⟨hfront, haccounted', hequipped'⟩
    exact ⟨hfront.refined, haccounted', hequipped'.of_portAt_nil⟩

theorem ends_insertBorrow_accounted (hne : wired ≠ [])
    (hfaces : ∀ member ∈ wired, before.Faces .input scope host member.port)
    (hnodup : (wired.map GroupMember.port).Nodup) (h : before.Refined ws.graph)
    (haccounted : Accounted before stats added counted left ws)
    (hequipped : Equipped config before (fun _ => False) ws) :
    Yields (insertBorrow scope mutable wired) ws fun _ ws' => before.Refined ws'.graph ∧
        Accounted before stats (added ++ [(scope, .explicitBorrow mutable wired.length, true)])
          (counted ++ [.explicitBorrow mutable wired.length]) left ws' ∧
            Equipped config before (fun _ => False) ws' := by
  unfold insertBorrow
  apply Ends.bind
  apply ends_edit
  rcases Graph.addNode_cases ws.graph scope (.explicitBorrow mutable wired.length) true with
    ⟨fault, hrun⟩ | ⟨hscope, -, hrun⟩
  · exact Ends.of_error hrun trivial
  apply Ends.of_ok hrun
  have hadded := haccounted.settle h.woven.consistent scope (.explicitBorrow mutable wired.length)
  have hwaiting := hequipped.settle wired h.woven (.explicitBorrow mutable wired.length) hscope rfl
    fun direction => by cases direction <;> rfl
  refine Ends.seq (ends_borrowMembers_accounted (fronting_places hne hfaces hnodup h hscope)
    hadded hwaiting) ?_
  rintro _ ws' ⟨hrefined, haccounted', hequipped'⟩
  apply ends_infer
  exact Pass.ends_count ⟨hrefined, haccounted'.count _ rfl, hequipped'.count _⟩

/-! ## Terminations -/

theorem Accounted.dropsFor_eq (h : Accounted before stats added counted (source :: left) ws)
    (hwoven : before.Woven ws.graph) (config : Config) :
    before.dropsFor config [source] =
      if dropsUnused config ws.graph source then [.drop] else [] := by
  obtain ⟨port, hport, houtput⟩ := h.outputs source List.mem_cons_self
  obtain ⟨wire, hport'⟩ := hwoven.keeps.port hport
  have hidle := (hwoven.consistent.isWired_output_iff hport' houtput).trans
    (h.idle source List.mem_cons_self)
  unfold Graph.dropsFor dropsUnused
  cases config.inference.insertImplicitDrops <;> by_cases hsinks : before.sinksAt source = []
  · simp
  · simp
  · simp [hsinks, hidle.mpr hsinks]
  · have hwired : ws.graph.isWired source = true := by
      simpa using mt hidle.mp hsinks
    simp [hsinks, hwired]

theorem ends_terminateReference_accounted {rest : List (PortId × Nat)}
    (h : before.Backing ws.graph n scope host ((source, index) :: rest))
    (haccounted : Accounted before stats added counted (source :: left) ws)
    (hsource : source ∉ left)
    (hequipped : Equipped config before (ws.graph.PortAt n (index :: indices)) ws) :
    Yields (terminateReference config scope n index source) ws
      fun _ ws' => before.Backing ws'.graph n scope host rest ∧ Accounted before stats
          (added ++ (before.dropsFor config [source]).map fun kind => (scope, kind, true))
            (counted ++ before.dropsFor config [source]) left ws' ∧
              Equipped config before (ws'.graph.PortAt n indices) ws' := by
  obtain ⟨port, hport, houtput⟩ := haccounted.outputs source List.mem_cons_self
  obtain ⟨wire, hport'⟩ := h.woven.keeps.port hport
  have hunwired := h.woven.consistent.isWired_output_iff hport' houtput
  rw [haccounted.dropsFor_eq h.woven config]
  apply (terminates_terminateReference scope h).yields
  rintro _ ws' ⟨hnext, input, output, facade, ended, hterminates, hrest⟩
  have hne := (h.woven.ne_of_passes hport hterminates.vacancy.base hterminates.vacancy.passes).2
  have hended := haccounted.of_terminates h.woven hsource hterminates
  have hwoven := h.woven.of_splicedAfter hterminates.vacancy hterminates.spliced hport
  refine ⟨hnext, ?_⟩
  rcases hrest with ⟨hu, rfl⟩ | ⟨hunused, sink, hdrops⟩
  · rw [if_neg (Bool.eq_false_iff.mp hu)]
    refine ⟨by simpa using hended, hterminates.faced hequipped.faced, fun himplicit => ?_⟩
    -- the output feeds something, and so does the one behind it
    apply (hterminates.wired hne.symm (hequipped.wired himplicit)).of_sameLayout (.refl _)
      fun _ => id
    rintro id (⟨-, hidle⟩ | hat)
    · rw [dropsUnused, hunwired.mpr hidle, himplicit] at hu
      cases hu
    · exact .inr hat
  · rw [if_pos hunused]
    have hl : output ∉ left := by
      intro hm
      obtain ⟨data, hd, -⟩ := hended.outputs output hm
      exact (h.woven.ne_of_passes hd hterminates.vacancy.base hterminates.vacancy.passes).2 rfl
    refine ⟨hended.of_drops hwoven.consistent hl hdrops,
      hdrops.faced hwoven (hterminates.faced hequipped.faced), fun himplicit => ?_⟩
    apply hdrops.wired hwoven
    apply (hterminates.wired hne.symm (hequipped.wired himplicit)).of_sameLayout (.refl _)
      fun _ => id
    exact fun id hcase => .inr (hcase.imp_left And.left)

theorem ends_terminateReferences_accounted {items : List (PortId × Nat)}
    (h : before.Backing ws.graph n scope host items)
    (haccounted : Accounted before stats added counted (items.map Prod.fst ++ left) ws)
    (hnodup : (items.map Prod.fst ++ left).Nodup)
    (hequipped : Equipped config before (ws.graph.PortAt n (items.map Prod.snd)) ws) :
    Yields (items.forM fun (reference, index) => terminateReference config scope n index reference)
      ws
      fun _ ws' => before.Refined ws'.graph ∧ Accounted before stats
          (added ++ (before.dropsFor config (items.map Prod.fst)).map fun kind =>
            (scope, kind, true))
          (counted ++ before.dropsFor config (items.map Prod.fst)) left ws' ∧
            Equipped config before (fun _ => False) ws' := by
  induction items generalizing ws added counted with
  | nil =>
    have hnone : before.dropsFor config [] = [] := by simp [Graph.dropsFor]
    exact Ends.pure ⟨h.refined, by simpa [hnone] using haccounted, hequipped.of_portAt_nil⟩
  | cons item rest ih =>
    obtain ⟨hfirst, hrest⟩ := List.nodup_cons.mp hnodup
    refine Ends.bind (x := terminateReference config scope n item.2 item.1) ?_
    apply (ends_terminateReference_accounted h haccounted hfirst hequipped).imp ?_
    rintro _ next ⟨hback, haccounted', hequipped'⟩
    have hdone := ih hback haccounted' hrest hequipped'
    rw [List.map_cons, Graph.dropsFor_cons, List.map_append, ← List.append_assoc,
      ← List.append_assoc]
    exact hdone

theorem ends_insertTermination_accounted (hne : paired ≠ [])
    (hfaces : ∀ output ∈ paired, before.Faces .output scope host output)
    (hnodup : (paired ++ left).Nodup) (h : before.Refined ws.graph)
    (haccounted : Accounted before stats added counted (paired ++ left) ws)
    (hequipped : Equipped config before (fun _ => False) ws) :
    Yields (insertTermination config scope paired) ws fun _ ws' => before.Refined ws'.graph ∧
        Accounted before stats (added ++ (.terminateLifetime paired.length paired.length ::
            before.dropsFor config paired).map fun kind => (scope, kind, true))
          (counted ++ .terminateLifetime paired.length paired.length ::
            before.dropsFor config paired) left ws' ∧
              Equipped config before (fun _ => False) ws' := by
  unfold insertTermination
  apply Ends.bind
  apply ends_edit
  rcases Graph.addNode_cases ws.graph scope
    (.terminateLifetime paired.length paired.length) true with ⟨fault, hrun⟩ | ⟨hscope, -, hrun⟩
  · exact Ends.of_error hrun trivial
  apply Ends.of_ok hrun
  have hpaired := List.Nodup.of_append_left hnodup
  rw [← List.zipIdx_map_fst 0 paired] at haccounted hnodup
  have hadded := haccounted.settle h.woven.consistent scope
    (.terminateLifetime paired.length paired.length)
  have hwaiting := hequipped.settle paired h.woven (.terminateLifetime paired.length paired.length)
    hscope rfl fun direction => by cases direction <;> rfl
  refine Ends.seq (ends_terminateReferences_accounted (backing_zipIdx hne hfaces hpaired h hscope)
    hadded hnodup hwaiting) ?_
  rintro _ ws' ⟨hrefined, haccounted', hequipped'⟩
  apply ends_infer
  refine Pass.ends_count ⟨hrefined, ?_, hequipped'.count _⟩
  rw [List.zipIdx_map_fst] at haccounted'
  have hcount := haccounted'.count (.terminateLifetime paired.length paired.length) rfl
  rw [List.append_assoc, List.singleton_append] at hcount
  -- the node was added before its drops, and is counted after them
  apply hcount.of_perm
  rw [List.append_assoc]
  exact (List.perm_append_singleton _ _).append_left counted

/-! ## Groups -/

theorem ends_insertGroup_accounted (hc : before.Consistent) (hfits : group.Fits before host)
    (hdecision : group.decision = some (.borrow mutable lifetime))
    (hne : group.wiredIn before ≠ []) (h : before.Refined ws.graph)
    (hnodup : (group.returnedIn before ++ left).Nodup)
    (haccounted : Accounted before stats added counted (group.returnedIn before ++ left) ws)
    (hequipped : Equipped config before (fun _ => False) ws) :
    Yields (insertGroup config group mutable) ws fun _ ws' => before.Refined ws'.graph ∧
        Accounted before stats (added ++ group.outlineFor before config)
          (counted ++ group.nodesFor before config) left ws' ∧
            Equipped config before (fun _ => False) ws' := by
  rw [BorrowGroup.returnedIn_of_borrow hdecision] at hnodup haccounted
  unfold insertGroup
  apply Ends.bind
  apply ends_askGraph ?_ trivial
  intro wired hmembers
  obtain rfl : wired = group.wiredIn before := by
    rw [BorrowGroup.wiredMembers_eq hmembers, hfits.wiredIn_eq hc h.woven]
  rw [if_pos (by simpa using hne)]
  obtain ⟨hinputs, hinputs_nodup⟩ := hfits.wired before
  apply Ends.bind
  refine Ends.lift ?_ trivial
  intro paired hevenly
  have heven := length_eq_of_pairedOutputs_ok hevenly
  obtain rfl := eq_of_pairedOutputs_ok hevenly
  apply Ends.bind
  apply (ends_insertBorrow_accounted hne hinputs hinputs_nodup h haccounted hequipped).mono ?_
    fun _ => id
  rintro _ ws1 ⟨hrefined1, haccounted1, hequipped1⟩
  split
  · rename_i hsome
    have hpaired : (group.wiredIn before).filterMap GroupMember.pairedOutput ≠ [] := by
      simpa using hsome
    apply (ends_insertTermination_accounted hpaired (hfits.paired before).1 hnodup hrefined1
      haccounted1 hequipped1).imp ?_
    rintro _ ws2 ⟨hrefined2, haccounted2, hequipped2⟩
    rw [BorrowGroup.outlineFor, group.nodesFor_of_paired hdecision hpaired]
    rw [heven hpaired] at haccounted2
    exact ⟨hrefined2, by simpa using haccounted2, hequipped2⟩
  · rename_i hnone
    have hunpaired : (group.wiredIn before).filterMap GroupMember.pairedOutput = [] := by
      simpa using hnone
    rw [hunpaired, List.nil_append] at haccounted1
    rw [BorrowGroup.outlineFor, group.nodesFor_of_unpaired hdecision hunpaired]
    exact Ends.pure ⟨hrefined1, haccounted1, hequipped1⟩

/-- Groups are gone through in their order, and what is inserted for one comes after what was
inserted for those before it. -/
theorem ends_insertGroups_accounted {groups : List BorrowGroup} (hc : before.Consistent)
    (hfits : ∀ group ∈ groups, ∃ host, group.Fits before host)
    (hdecided : ∀ group ∈ groups, group.decision.isSome = true → group.wiredIn before ≠ [])
    (hnodup : (groups.flatMap (·.returnedIn before)).Nodup) (h : before.Refined ws.graph)
    (haccounted : Accounted before stats added counted (groups.flatMap (·.returnedIn before)) ws)
    (hequipped : Equipped config before (fun _ => False) ws) :
    Yields (groups.forM fun group =>
      match group.decision with
      | some (.borrow mutable _) => insertGroup config group mutable
      | _ => pure ()) ws
      fun _ ws' => before.Refined ws'.graph ∧
        Accounted before stats (added ++ groups.flatMap (·.outlineFor before config))
          (counted ++ groups.flatMap (·.nodesFor before config)) [] ws' ∧
            Equipped config before (fun _ => False) ws' := by
  induction groups generalizing ws added counted with
  | nil => exact Ends.pure ⟨h, by simpa using haccounted, hequipped⟩
  | cons group rest ih =>
    obtain ⟨⟨host, hgroup⟩, hrest⟩ := List.forall_mem_cons.mp hfits
    obtain ⟨hfirst, hdecided'⟩ := List.forall_mem_cons.mp hdecided
    rw [List.flatMap_cons] at hnodup haccounted
    have hnodup' := List.Nodup.of_append_right hnodup
    rw [List.flatMap_cons, List.flatMap_cons, ← List.append_assoc, ← List.append_assoc]
    refine Ends.bind ?_
    beta_reduce
    split
    · rename_i mutable lifetime hdecision
      apply (ends_insertGroup_accounted hc hgroup hdecision (hfirst (by rw [hdecision]; rfl)) h
        hnodup haccounted hequipped).imp ?_
      rintro _ next ⟨hrefined, haccounted', hequipped'⟩
      exact ih hrest hdecided' hnodup' hrefined haccounted' hequipped'
    · rename_i ho
      have hnone : group.nodesFor before config = [] := group.nodesFor_of_not_borrow ho
      have hreturned : group.returnedIn before = [] := by
        unfold BorrowGroup.returnedIn
        split
        · rename_i mutable lifetime hdecision
          exact absurd hdecision (ho mutable lifetime)
        · rfl
      rw [hreturned, List.nil_append] at haccounted
      rw [BorrowGroup.outlineFor, hnone, List.map_nil, List.append_nil, List.append_nil]
      exact Ends.pure (ih hrest hdecided' hnodup' h haccounted hequipped)

end Loops

end Insertion

/-! ## The pass -/

namespace Context

variable {ctx : Context} {config : Config}

def nodesFor (ctx : Context) (g : Graph) (config : Config) : List NodeKind :=
  ctx.groups.groups.toList.flatMap (·.nodesFor g config)

def outlineFor (ctx : Context) (g : Graph) (config : Config) : List (ScopeId × NodeKind × Bool) :=
  ctx.groups.groups.toList.flatMap (·.outlineFor g config)

theorem Ready.nodup_returnedIn (h : ctx.Ready fixed g) : (ctx.returnedIn g).Nodup := by
  refine List.nodup_flatMap.mpr ⟨fun group hgroup => ?_, ?_⟩
  · obtain ⟨_, hplaced⟩ := h.exists_placed group hgroup
    unfold BorrowGroup.returnedIn
    split
    · exact (hplaced.fits.paired g).2
    · exact List.nodup_nil
  · exact h.pairwise_apart.imp fun hapart port hport => hapart.outputs port hport

theorem Ready.output_of_mem_returnedIn (h : ctx.Ready fixed g)
    (houtput : output ∈ ctx.returnedIn g) :
    ∃ port, g.ports[output]? = some port ∧ port.direction = .output := by
  obtain ⟨group, hgroup, hm⟩ := List.mem_flatMap.mp houtput
  obtain ⟨_, hplaced⟩ := h.exists_placed group hgroup
  obtain ⟨port, hport, hdirection, -⟩ := (hplaced.fits.faces_returnedIn hm).port
  exact ⟨port, hport, hdirection⟩

/-- What was decided has been inserted, and is accounted for. -/
structure Inserted (g : Graph) (ctx : Context) (config : Config) (ws : Workspace) :
    Prop where
  woven : g.Woven ws.graph
  outline_eq : ws.graph.outline = g.outline ++ ctx.outlineFor g config
  stats_eq : ws.context.stats = ctx.stats.withNodes (ctx.nodesFor g config)
  equipped : Insertion.Equipped config g (fun _ => False) ws

end Context

theorem Run.ends_insertBorrows_inserted {state : Inference} {order : List NodeId}
    (hw : state.graph.WellFormed) (hc : state.graph.Consistent)
    (hord : state.graph.visitOrder = .ok order)
    (hready : state.context.Ready fixed state.graph)
    (hdecided : ∀ group ∈ state.context.groups.groups.toList, group.decision.isSome = true →
      group.wiredIn state.graph ≠ []) :
    Yields insertBorrows state fun _ state' => state.context.Inserted state.graph state.config
        { graph := state'.graph, context := state'.context } := by
  apply Ends.bind
  apply ends_require ?_ trivial
  apply Ends.bind
  apply ends_changing
  have hstart : Insertion.Accounted state.graph state.context.stats [] []
      (state.context.returnedIn state.graph) { graph := state.graph, context := state.context } :=
    ⟨(List.append_nil _).symm, rfl, fun _ => hready.output_of_mem_returnedIn, fun _ _ => .rfl⟩
  have hcomplete : Insertion.Equipped state.config state.graph (fun _ => False)
      { graph := state.graph, context := state.context } :=
    ⟨Graph.complete_self _ _ _, fun _ => Graph.complete_self _ _ _⟩
  unfold Insertion.insertBorrows
  apply Ends.bind
  apply Ends.get
  refine Ends.mono (Insertion.ends_insertGroups_accounted hc hready.exists_fits hdecided
    hready.nodup_returnedIn ⟨.refl hw hc, hw.exists_ranks hc hord⟩ hstart hcomplete) ?_ fun _ => id
  intro _ ws hinserted
  obtain ⟨hrefined, haccounted, hequipped⟩ := hinserted
  exact ends_enter ⟨hrefined.woven, haccounted.outline_eq, haccounted.stats_eq, hequipped⟩

namespace Graph

variable {graph after : Graph} {config : Config} {report : Report}

theorem Built.inserted_of_eq_ok (hb : g.Built) {faced unified state : Inference}
    (hfaced : Run.facePorts { config, graph := g } = .ok () faced)
    (hunified : Run.unifyWires faced = .ok () unified)
    (hinserted : Run.insertBorrows unified = .ok () state) :
    unified.context.Inserted g unified.config
      { graph := state.graph, context := state.context } := by
  have hw := hb.wellFormed
  have hc := hb.consistent
  obtain ⟨-, -, hord, -⟩ :=
    (Run.ends_facePorts hw hc hb.layered (False.elim : False → _)).of_eq_ok hfaced
  obtain ⟨rfl, hconcluded⟩ := hb.concluded (False.elim : False → _) hfaced hunified
  have hdecided : ∀ group ∈ unified.context.groups.groups.toList, group.decision.isSome = true →
      group.wiredIn unified.graph ≠ [] := by
    intro group hgroup
    obtain ⟨id, hid⟩ := Array.mem_iff_getElem?.mp (Array.mem_toList_iff.mp hgroup)
    exact hconcluded.wired id group hid
  exact (Run.ends_insertBorrows_inserted hw hc hord hconcluded.ready hdecided).of_eq_ok hinserted

theorem Built.inserted (hb : g.Built) (hinfer : infer config g = (.ok report, after)) :
    ∃ ctx ws, Inference.decided? config g = some ctx ∧
      ctx.stats.untallied.uncounted = {} ∧ ctx.Inserted g config ws ∧
        ws.graph = after ∧ ws.context.report after = report := by
  obtain ⟨faced, unified, state, hfaced, hunified, hinserted, hcontext, hconfig, -, hafter,
    hreport⟩ := exists_of_infer_ok hinfer
  have huncounted :=
    (Run.ends_facePorts_keeps (Pass.keeps_uncounted_facePorts config g)).of_eq_ok hfaced
  have huntallied :=
    (Run.ends_unifyWires_keeps (Pass.keeps_unifyWires faced.graph)).of_eq_ok hunified
  have hdone := hb.inserted_of_eq_ok hfaced hunified hinserted
  rw [hconfig] at hdone
  exact ⟨unified.context, _, hcontext,
    (congrArg Stats.uncounted huntallied).trans (congrArg Stats.untallied huncounted), hdone,
    hafter, hreport⟩

/-- If inference ends with a report, then the nodes that it added are those that make the borrows
of the groups explicit, in the order of the groups, and the report counts them. If unused values are
dropped, then every port of a node that was added is connected. -/
theorem Built.insertions_accounted (hbuilt : graph.Built)
    (hinfer : infer config graph = (.ok report, after)) :
    ∃ context, Inference.decided? config graph = some context ∧
      after.outline = graph.outline ++ context.outlineFor graph config ∧
      report.stats.borrowsInserted =
        (context.nodesFor graph config).countP NodeKind.isExplicitBorrow ∧
      report.stats.terminationsInserted =
        (context.nodesFor graph config).countP NodeKind.isTerminateLifetime ∧
      report.stats.dropsInserted = (context.nodesFor graph config).countP NodeKind.isDrop ∧
      (config.inference.insertImplicitDrops = true →
        ∀ (n : NodeId) (node : Node) (direction : Direction) (port : PortId),
          graph.nodes.size ≤ n → after.nodes[n]? = some node → port ∈ node.portsOn direction →
            after.isConnected port = .ok true) := by
  obtain ⟨context, workspace, hdecided, hstats, hinserted, rfl, rfl⟩ := hbuilt.inserted hinfer
  have hnone : context.stats.borrowsInserted = 0 ∧ context.stats.terminationsInserted = 0 ∧
      context.stats.dropsInserted = 0 :=
    ⟨congrArg Stats.borrowsInserted hstats, congrArg Stats.terminationsInserted hstats,
      congrArg Stats.dropsInserted hstats⟩
  have hcounts : (workspace.context.report workspace.graph).stats = _ := hinserted.stats_eq
  refine ⟨context, hdecided, hinserted.outline_eq, ?_, ?_, ?_, ?_⟩
  · rw [hcounts, Stats.withNodes, hnone.1, Nat.zero_add]
  · rw [hcounts, Stats.withNodes, hnone.2.1, Nat.zero_add]
  · rw [hcounts, Stats.withNodes, hnone.2.2, Nat.zero_add]
  · intro hdrops n node direction port hbase hnode hport
    have hwire := (hinserted.equipped.wired hdrops n node direction port hbase hnode
      hport).resolve_right id
    obtain ⟨index, hlt, hindex⟩ := List.getElem_of_mem hport
    obtain ⟨data, hdata, -⟩ := hinserted.woven.wellFormed.seated.seat hnode
      (List.getElem?_eq_some_iff.mpr ⟨hlt, hindex⟩)
    exact hwire.isConnected hinserted.woven.consistent hdata

/-- A number is added to itself, and nothing uses what the addition hands back. -/
def doubling : Graph :=
  leaves (connect 0 2) (leaves (connect 0 1)
    (leaves (addNode rootScope (.functional Signature.add) false)
      (leaves (addNode rootScope (.constant .int32 false) false) empty)))

theorem built_doubling : doubling.Built := by
  unfold doubling
  repeat apply Built.connect
  repeat apply Built.addNode
  exact .empty

theorem insertions_accounted_doubling : ∃ report after, infer {} doubling = (.ok report, after) ∧
    after.outline = doubling.outline ++ [(0, .explicitBorrow false 2, true),
      (0, .terminateLifetime 2 2, true), (0, .drop, true), (0, .drop, true)] ∧
    report.stats.borrowsInserted = 1 ∧ report.stats.terminationsInserted = 1 ∧
    report.stats.dropsInserted = 2 ∧
    ∀ (n : NodeId) (node : Node) (direction : Direction) (port : PortId),
      doubling.nodes.size ≤ n → after.nodes[n]? = some node → port ∈ node.portsOn direction →
        after.isConnected port = .ok true := by
  have hanswer : (infer {} doubling).1.toOption.any Report.isClean = true := by decide +kernel
  obtain ⟨report, hinfer, -⟩ := exists_report_of_isClean hanswer
  obtain ⟨context, hdecided, houtline, hborrows, hterminations, hdrops, hwired⟩ :=
    built_doubling.insertions_accounted hinfer
  have hnodes : (Inference.decided? {} doubling).map
      (fun context => (context.outlineFor doubling {}, context.nodesFor doubling {})) =
      some ([(0, .explicitBorrow false 2, true), (0, .terminateLifetime 2 2, true),
        (0, .drop, true), (0, .drop, true)],
          [.explicitBorrow false 2, .terminateLifetime 2 2, .drop, .drop]) := by
    decide +kernel
  rw [hdecided, Option.map_some, Option.some.injEq] at hnodes
  obtain ⟨houtline', hkinds⟩ := Prod.mk.inj hnodes
  rw [houtline'] at houtline
  rw [hkinds] at hborrows hterminations hdrops
  exact ⟨report, _, hinfer, houtline, hborrows, hterminations, hdrops, hwired rfl⟩

end Graph

end BorrowFlow
