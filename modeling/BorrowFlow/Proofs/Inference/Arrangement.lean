import BorrowFlow.Proofs.Inference.Declarations
import BorrowFlow.Proofs.Inference.Insertion

/-!
# How groups and facades go together

The members of a borrow group are inputs of one node, the outputs that hand back what they took are
outputs of that node, and the facades of both name the group and the member. An output that closes
an input was paired with it by a signature, but the group remembers one such output only: if several
are paired with the input, the last one takes the place of the others. Giving ports their facades
keeps all of this so, step by step.
-/

namespace BorrowFlow

variable {g : Graph} {facades : Facades} {groups groups' : BorrowGroups}
  {change : BorrowGroup → BorrowGroup} {nodeSide wireSide : FlowId} {port input output : PortId}
  {id : GroupId}

/-! ## The node that stands for a group -/

namespace Graph

theorem WellFormed.faces (hw : g.WellFormed) {n : NodeId} {node : Node}
    {direction : Direction} {id : PortId} (hnode : g.nodes[n]? = some node)
    (hid : id ∈ node.portsOn direction)
    (hscope : ∀ port, g.ports[id]? = some port → port.scope = node.scope) :
    g.Faces direction node.scope (g.hostOf n) id := by
  obtain ⟨index, hindex⟩ := List.mem_iff_getElem?.mp hid
  obtain ⟨port, hport, rfl, hdirection, -⟩ := hw.seated.seat hnode hindex
  refine ⟨⟨port, hport, hdirection, hscope port hport⟩, ?_⟩
  have hfaced := hscope port hport
  unfold standsFor representative? hostOf
  cases hk : node.kind <;> simp [hport, hnode, hk, hfaced]

/-- A port is an input of a node, and faces the given scope there. -/
structure InputOf (g : Graph) (scope : ScopeId) (n : NodeId) (id : PortId) : Prop where
  faces : g.Faces .input scope (g.hostOf n) id
  node : (g.ports[id]?).map Port.node = some n

theorem WellFormed.inputOf (hw : g.WellFormed) {n : NodeId} {node : Node} {id : PortId}
    (hnode : g.nodes[n]? = some node) (hid : id ∈ node.portsOn .input)
    (hscope : ∀ port, g.ports[id]? = some port → port.scope = node.scope) :
    g.InputOf node.scope n id := by
  have hfaces := hw.faces hnode hid hscope
  obtain ⟨port, hport, -⟩ := hfaces.port
  refine ⟨hfaces, ?_⟩
  rw [hport, Option.map_some, (hw.seated.of_mem hnode hid hport).1]

end Graph

/-! ## Where groups and their members are -/

theorem Facades.ne_of_fresh {other : PortId} {found : Facade}
    (hfresh : facades.get? port = none) (h : facades.get? other = some found) : other ≠ port := by
  rintro rfl
  cases hfresh.symm.trans h

theorem Facades.get?_set_of_fresh (facade : Facade)
    (hfresh : facades.get? port = none) (other : PortId) (found : Facade)
    (h : facades.get? other = some found) : (facades.set port facade).get? other = some found := by
  rw [get?_set, if_neg (ne_of_fresh hfresh h), h]

/-- The groups with one more member. -/
def BorrowGroups.withMember (groups : BorrowGroups) (id : GroupId) (port : PortId) : BorrowGroups :=
  { groups.modify id fun data => { data with members := data.members ++ [{ port }] } with
    byPort := groups.byPort.insert port id }

/-- The groups with an output that hands back what a member took. -/
def BorrowGroups.withOutput (groups : BorrowGroups) (id : GroupId) (input output : PortId) :
    BorrowGroups :=
  groups.modify id fun data => { data with
    members := data.members.map fun member =>
      if member.port = input then { member with pairedOutput := some output } else member }

theorem BorrowGroups.addMember_eq (h : id < groups.size) (port : PortId) :
    groups.addMember id port = .ok (groups.withMember id port) := by
  unfold addMember
  rw [get_eq_ok.mpr (Array.getElem?_eq_getElem h)]
  rfl

theorem BorrowGroups.pairOutput_eq (h : groups.groupOf? input = some id) (output : PortId) :
    groups.pairOutput input output = .ok (groups.withOutput id input output) := by
  unfold pairOutput groupOf
  rw [h]
  rfl

/-- The signature of a node says that an output hands back what an input took. -/
def Graph.Pairs (g : Graph) (output input : PortId) : Prop :=
  ∃ (n : NodeId) (node : Node) (signature : Signature) (parameter : Parameter) (index : Nat),
    g.nodes[n]? = some node ∧ node.kind = .functional signature ∧
      (parameter, output) ∈ node.assigned signature ∧ parameter.pairsWith = some index ∧
        ((node.assigned signature).map Prod.snd)[index]? = some input

namespace BorrowGroups

variable {changed : GroupId}

def Holds (groups : BorrowGroups) (id : GroupId) (port : PortId) : Prop :=
  ∃ group, groups.groups[id]? = some group ∧ ∃ member ∈ group.members, member.port = port

/-- A group knows the output as the one that hands back what the input took. -/
def Records (groups : BorrowGroups) (input output : PortId) : Prop :=
  ∃ (id : GroupId) (group : BorrowGroup) (member : GroupMember),
    groups.groups[id]? = some group ∧ member ∈ group.members ∧ member.port = input ∧
      member.pairedOutput = some output

theorem Holds.of_modify (h : groups.Holds id port)
    (hgroups : groups'.groups = (groups.modify changed change).groups)
    (hmembers : ∀ data : BorrowGroup, ∀ member ∈ data.members,
      ∃ member' ∈ (change data).members, member'.port = member.port) :
    groups'.Holds id port := by
  obtain ⟨group, hgroup, member, hmember, rfl⟩ := h
  unfold Holds
  rw [hgroups, BorrowGroups.modify, Array.getElem?_modify, hgroup]
  split
  · exact ⟨_, rfl, hmembers group member hmember⟩
  · exact ⟨group, rfl, member, hmember, rfl⟩

theorem Records.of_modify (h : groups.Records input output)
    (hgroups : groups'.groups = (groups.modify changed change).groups)
    (hmembers : ∀ data : BorrowGroup, ∀ member ∈ data.members, member.port = input →
      member ∈ (change data).members) : groups'.Records input output := by
  obtain ⟨id, group, member, hgroup, hmember, hinput, houtput⟩ := h
  refine ⟨id, if changed = id then change group else group, member, ?_, ?_, hinput, houtput⟩
  · rw [hgroups, BorrowGroups.modify, Array.getElem?_modify, hgroup]
    split <;> rfl
  · split
    · exact hmembers group member hmember hinput
    · exact hmember

end BorrowGroups

/-- The members of a group are inputs of its node, the outputs that hand back what they took are
outputs of its node, and the facades of both say so. -/
structure BorrowGroup.Placed (group : BorrowGroup) (g : Graph) (facades : Facades)
    (id : GroupId) : Prop where
  inputs : ∀ member ∈ group.members, g.Faces .input group.scope (g.hostOf group.node) member.port
  node : ∀ member ∈ group.members, (g.ports[member.port]?).map Port.node = some group.node
  outputs : ∀ member ∈ group.members, ∀ output, member.pairedOutput = some output →
    g.Faces .output group.scope (g.hostOf group.node) output
  nodup : (group.members.map GroupMember.port).Nodup
  takes : ∀ member ∈ group.members, ∃ nodeSide wireSide,
    facades.get? member.port = some (.referenceInput nodeSide wireSide id)
  closes : ∀ member ∈ group.members, ∀ output, member.pairedOutput = some output →
    ∃ nodeSide wireSide,
      facades.get? output = some (.terminationOutput nodeSide wireSide member.port)

namespace BorrowGroup.Placed

variable {group : BorrowGroup} {facades' : Facades}

section

variable (h : group.Placed g facades id)
include h

theorem fits : group.Fits g (g.hostOf group.node) where
  __ := h
  inputs_nodup := h.nodup
  outputs_nodup := by
    -- an output names the one input that it closes
    have hpairs : group.members.Pairwise fun first second => first.port ≠ second.port :=
      List.pairwise_map.mp h.nodup
    rw [List.Nodup, List.pairwise_filterMap]
    apply hpairs.imp_of_mem
    rintro first second hfirst hsecond hne output houtput _ houtput' rfl
    obtain ⟨_, _, hcloses⟩ := h.closes first hfirst output houtput
    obtain ⟨_, _, hcloses'⟩ := h.closes second hsecond output houtput'
    rw [hcloses, Option.some.injEq, Facade.terminationOutput.injEq] at hcloses'
    exact hne hcloses'.2.2

theorem mono (hfacades : ∀ port facade, facades.get? port = some facade →
      facades'.get? port = some facade) : group.Placed g facades' id where
  __ := h
  takes member hmember := by
    obtain ⟨nodeSide, wireSide, hfacade⟩ := h.takes member hmember
    exact ⟨nodeSide, wireSide, hfacades _ _ hfacade⟩
  closes member hmember output houtput := by
    obtain ⟨nodeSide, wireSide, hfacade⟩ := h.closes member hmember output houtput
    exact ⟨nodeSide, wireSide, hfacades _ _ hfacade⟩

/-- A new member had no facade before, so it is not a member yet. -/
theorem addMember (hfresh : facades.get? port = none)
    (hinput : g.InputOf group.scope group.node port) :
    ({ group with members := group.members ++ [{ port }] } : BorrowGroup).Placed g
      (facades.set port (.referenceInput nodeSide wireSide id)) id := by
  have hmono := h.mono (facades.get?_set_of_fresh (.referenceInput nodeSide wireSide id) hfresh)
  have hnew : ∀ member ∈ group.members, member.port ≠ port := by
    rintro member hmember rfl
    obtain ⟨_, _, hfacade⟩ := h.takes member hmember
    rw [hfresh] at hfacade
    cases hfacade
  refine ⟨?_, ?_, ?_, ?_, ?_, ?_⟩
  · exact List.forall_mem_append.mpr ⟨hmono.inputs, by simpa using hinput.faces⟩
  · exact List.forall_mem_append.mpr ⟨hmono.node, by simpa using hinput.node⟩
  · exact List.forall_mem_append.mpr ⟨hmono.outputs, by simp⟩
  · rw [List.map_append, List.nodup_append]
    exact ⟨h.nodup, by simp, by simpa using hnew⟩
  · exact List.forall_mem_append.mpr ⟨hmono.takes, by simp⟩
  · exact List.forall_mem_append.mpr ⟨hmono.closes, by simp⟩

theorem pairOutput
    (hfacade : facades.get? output = some (.terminationOutput nodeSide wireSide input))
    (hfaces : g.Faces .input group.scope (g.hostOf group.node) input →
      g.Faces .output group.scope (g.hostOf group.node) output) :
    ({ group with
      members := group.members.map fun member =>
        if member.port = input then { member with pairedOutput := some output }
        else member } : BorrowGroup).Placed g facades id := by
  have hport : ∀ member : GroupMember,
      (if member.port = input then { member with pairedOutput := some output }
        else member).port = member.port := by
    intro member
    split <;> rfl
  refine ⟨?_, ?_, ?_, ?_, ?_, ?_⟩
  · intro member hmember
    obtain ⟨old, hold, rfl⟩ := List.mem_map.mp hmember
    rw [hport]
    exact h.inputs old hold
  · intro member hmember
    obtain ⟨old, hold, rfl⟩ := List.mem_map.mp hmember
    rw [hport]
    exact h.node old hold
  · intro member hmember found hf
    obtain ⟨old, hold, rfl⟩ := List.mem_map.mp hmember
    split at hf
    · rename_i heq
      cases hf
      exact hfaces (heq ▸ h.inputs old hold)
    · exact h.outputs old hold found hf
  · simp only [List.map_map, Function.comp_def, hport]
    exact h.nodup
  · intro member hmember
    obtain ⟨old, hold, rfl⟩ := List.mem_map.mp hmember
    rw [hport]
    exact h.takes old hold
  · intro member hmember found hf
    obtain ⟨old, hold, rfl⟩ := List.mem_map.mp hmember
    rw [hport]
    split at hf
    · rename_i heq
      cases hf
      exact ⟨nodeSide, wireSide, heq ▸ hfacade⟩
    · exact h.closes old hold found hf

end

end BorrowGroup.Placed

/-- Groups are placed and undecided, a reference input is a member of its group, and every other
input shows its node what the wires see. An input that an output closes is known to its group as
closed, by that output or by another one that the signature pairs with it. -/
structure Graph.Arranged (g : Graph) (facades : Facades) (groups : BorrowGroups) : Prop where
  placed : ∀ (id : GroupId) (group : BorrowGroup), groups.groups[id]? = some group →
    group.Placed g facades id
  undecided : ∀ (id : GroupId) (group : BorrowGroup), groups.groups[id]? = some group →
    group.decision = none
  known : ∀ port nodeSide wireSide (id : GroupId),
    facades.get? port = some (.referenceInput nodeSide wireSide id) →
      groups.groupOf? port = some id
  indexed : ∀ port (id : GroupId), groups.groupOf? port = some id → groups.Holds id port
  plain : ∀ (id : PortId) (port : Port) (facade : Facade), g.ports[id]? = some port →
    port.direction = .input → facades.get? id = some facade → facade.group? = none →
      facade.nodeSide = facade.wireSide
  closed : ∀ port nodeSide wireSide input,
    facades.get? port = some (.terminationOutput nodeSide wireSide input) →
      ∃ output, g.Pairs output input ∧ groups.Records input output

namespace Graph.Arranged

section

variable (h : g.Arranged facades groups)
include h

theorem joined {nodeSide wireSide : FlowId}
    (hfacade : facades.get? port = some (.referenceInput nodeSide wireSide id)) :
    groups.Holds id port :=
  h.indexed port id (h.known port nodeSide wireSide id hfacade)

theorem of_create (node : NodeId) (scope : ScopeId) (policy : Policy) (lifetimeTerm : TermId) :
    g.Arranged facades (groups.create node scope policy lifetimeTerm).2 := by
  have hkeeps : ∀ {id : GroupId} {group : BorrowGroup}, groups.groups[id]? = some group →
      (groups.create node scope policy lifetimeTerm).2.groups[id]? = some group := by
    intro id group hgroup
    rw [BorrowGroups.getElem?_create, if_neg, hgroup]
    exact Nat.ne_of_lt (Array.getElem?_eq_some_iff.mp hgroup).1
  have hholds : ∀ {id : GroupId} {port : PortId}, groups.Holds id port →
      (groups.create node scope policy lifetimeTerm).2.Holds id port := by
    rintro id port ⟨group, hgroup, hmember⟩
    exact ⟨group, hkeeps hgroup, hmember⟩
  refine ⟨fun id group hgroup => ?_, fun id group hgroup => ?_,
    h.known, fun port id hport => hholds (h.indexed port id hport), h.plain, ?_⟩
  · rw [BorrowGroups.getElem?_create] at hgroup
    split at hgroup
    · cases hgroup
      exact ⟨nofun, nofun, nofun, .nil, nofun, nofun⟩
    · exact h.placed id group hgroup
  · rw [BorrowGroups.getElem?_create] at hgroup
    split at hgroup
    · cases hgroup
      rfl
    · exact h.undecided id group hgroup
  · intro port _ _ input hport
    obtain ⟨output, hpairs, id, group, member, hgroup, hmember⟩ := h.closed port _ _ input hport
    exact ⟨output, hpairs, id, group, member, hkeeps hgroup, hmember⟩

theorem of_set {facade : Facade} (hfresh : facades.get? port = none) (hgroup : facade.group? = none)
    (hopen : ∀ nodeSide wireSide input, facade ≠ .terminationOutput nodeSide wireSide input)
    (hplain : ∀ data, g.ports[port]? = some data → data.direction = .input →
      facade.nodeSide = facade.wireSide) : g.Arranged (facades.set port facade) groups where
  placed id group hf :=
    (h.placed id group hf).mono (Facades.get?_set_of_fresh facade hfresh)
  __ := h
  known other nodeSide wireSide id ho := by
    rcases Facades.of_get?_set ho with ⟨-, rfl⟩ | ⟨-, ho⟩
    · cases hgroup
    · exact h.known other nodeSide wireSide id ho
  plain other data found hd hinput hf hnone := by
    rcases Facades.of_get?_set hf with ⟨rfl, rfl⟩ | ⟨-, hf⟩
    · exact hplain data hd hinput
    · exact h.plain other data found hd hinput hf hnone
  closed other nodeSide wireSide input ho := by
    rcases Facades.of_get?_set ho with ⟨-, heq⟩ | ⟨-, ho⟩
    · exact absurd heq (hopen nodeSide wireSide input)
    · exact h.closed other nodeSide wireSide input ho

theorem of_modify {facade : Facade} (hfresh : facades.get? port = none)
    (hgroups : groups'.groups = (groups.modify id change).groups)
    (hplaced : ∀ data, groups.groups[id]? = some data →
      (change data).Placed g (facades.set port facade) id)
    (hdecision : ∀ data, (change data).decision = data.decision)
    (hmembers : ∀ data : BorrowGroup, ∀ member ∈ data.members,
      ∃ member' ∈ (change data).members, member'.port = member.port)
    (hknown : ∀ nodeSide wireSide other, facade = .referenceInput nodeSide wireSide other →
      groups'.groupOf? port = some other)
    (hothers : ∀ other, other ≠ port → groups'.groupOf? other = groups.groupOf? other)
    (hholds : ∀ other : GroupId, groups'.groupOf? port = some other → groups'.Holds other port)
    (hplain : ∀ data, g.ports[port]? = some data → data.direction = .input →
      facade.group? = none → facade.nodeSide = facade.wireSide)
    (hclosed : ∀ other nodeSide wireSide input,
      (facades.set port facade).get? other = some (.terminationOutput nodeSide wireSide input) →
        ∃ output, g.Pairs output input ∧ groups'.Records input output) :
    g.Arranged (facades.set port facade) groups' where
  placed other group hgroup := by
    rw [hgroups] at hgroup
    rcases BorrowGroups.of_getElem?_modify hgroup with ⟨rfl, data, hd, rfl⟩ | ⟨-, hgroup⟩
    · exact hplaced data hd
    · exact (h.placed other group hgroup).mono (Facades.get?_set_of_fresh facade hfresh)
  undecided other group hgroup := by
    rw [hgroups] at hgroup
    rcases BorrowGroups.of_getElem?_modify hgroup with ⟨rfl, data, hd, rfl⟩ | ⟨-, hgroup⟩
    · exact (hdecision data).trans (h.undecided _ data hd)
    · exact h.undecided other group hgroup
  known other nodeSide wireSide named ho := by
    rcases Facades.of_get?_set ho with ⟨rfl, heq⟩ | ⟨hne, ho⟩
    · exact hknown nodeSide wireSide named heq
    · exact (hothers other hne).trans (h.known other nodeSide wireSide named ho)
  indexed other named hnamed := by
    by_cases heq : other = port
    · exact heq ▸ hholds named (heq ▸ hnamed)
    · rw [hothers other heq] at hnamed
      exact (h.indexed other named hnamed).of_modify hgroups hmembers
  plain other data found hd hinput hf hnone := by
    rcases Facades.of_get?_set hf with ⟨rfl, rfl⟩ | ⟨-, hf⟩
    · exact hplain data hd hinput hnone
    · exact h.plain other data found hd hinput hf hnone
  closed := hclosed

theorem of_addMember {data : BorrowGroup} (hfresh : facades.get? port = none)
    (hd : groups.groups[id]? = some data) (hinput : g.InputOf data.scope data.node port) :
    g.Arranged (facades.set port (.referenceInput nodeSide wireSide id))
      (groups.withMember id port) := by
  have hmembers : ∀ found : BorrowGroup, ∀ member ∈ found.members,
      member ∈ ({ found with members := found.members ++ [{ port }] } : BorrowGroup).members :=
    fun _ _ hmember => List.mem_append_left _ hmember
  have hown : (groups.withMember id port).groupOf? port = some id :=
    (IdMap.get?_insert ..).trans (if_pos rfl)
  have hgroups : (groups.withMember id port).groups = (groups.modify id fun data =>
    { data with members := data.members ++ [{ port }] }).groups := rfl
  apply h.of_modify hfresh hgroups
  · intro found hf
    cases hd.symm.trans hf
    exact (h.placed id data hd).addMember hfresh hinput
  · exact fun _ => rfl
  · exact fun found member hmember => ⟨member, hmembers found member hmember, rfl⟩
  · intro _ _ other heq
    cases heq
    exact hown
  · exact fun other hne => (IdMap.get?_insert ..).trans (if_neg hne)
  · intro other ho
    cases hown.symm.trans ho
    refine ⟨_, BorrowGroups.getElem?_modify_self hd _, { port }, ?_, rfl⟩
    simp
  · intro _ _ _ hnone
    cases hnone
  · intro other _ _ input ho
    rcases Facades.of_get?_set ho with ⟨-, heq⟩ | ⟨-, ho⟩
    · cases heq
    · obtain ⟨output, hpairs, hrecords⟩ := h.closed other _ _ input ho
      exact ⟨output, hpairs, hrecords.of_modify hgroups fun found member hmember _ =>
        hmembers found member hmember⟩

/-- An output gets its facade, and takes the place of any other output that closes its input. -/
theorem of_pairOutput (hfresh : facades.get? output = none)
    (houtput : ∀ data, g.ports[output]? = some data → data.direction = .output)
    (hfaces : ∀ scope host, g.Faces .input scope host input →
      g.Faces .output scope host output) (hpairs : g.Pairs output input)
    (hid : groups.groupOf? input = some id) :
    g.Arranged (facades.set output (.terminationOutput nodeSide wireSide input))
      (groups.withOutput id input output) := by
  have hmembers : ∀ data : BorrowGroup, ∀ member ∈ data.members,
      ∃ member' ∈ ({ data with
        members := data.members.map fun member =>
          if member.port = input then { member with pairedOutput := some output }
          else member } : BorrowGroup).members, member'.port = member.port := by
    intro data member hmember
    refine ⟨_, List.mem_map_of_mem hmember, ?_⟩
    split <;> rfl
  apply h.of_modify hfresh rfl
  · intro data hd
    have hplaced := (h.placed id data hd).mono
      (Facades.get?_set_of_fresh (.terminationOutput nodeSide wireSide input) hfresh)
    exact hplaced.pairOutput (by rw [Facades.get?_set, if_pos rfl]) (hfaces _ _)
  · exact fun _ => rfl
  · exact hmembers
  · exact fun _ _ _ heq => nomatch heq
  · exact fun _ _ => rfl
  · exact fun other ho => (h.indexed output other ho).of_modify rfl hmembers
  · intro data hd hinput _
    cases hinput.symm.trans (houtput data hd)
  · intro other _ _ closed ho
    by_cases hclosed : closed = input
    · -- the group of the input knows the new output from now on
      subst hclosed
      obtain ⟨group, hgroup, member, hmember, hport⟩ := h.indexed closed id hid
      refine ⟨output, hpairs, id, _, { member with pairedOutput := some output },
        BorrowGroups.getElem?_modify_self hgroup _, ?_, hport, rfl⟩
      exact List.mem_map.mpr ⟨member, hmember, if_pos hport⟩
    · rcases Facades.of_get?_set ho with ⟨-, heq⟩ | ⟨-, ho⟩
      · cases heq
        exact absurd rfl hclosed
      · obtain ⟨found, hf, hrecords⟩ := h.closed other _ _ closed ho
        refine ⟨found, hf, hrecords.of_modify rfl fun data member hmember hport => ?_⟩
        refine List.mem_map.mpr ⟨member, hmember, if_neg ?_⟩
        rw [hport]
        exact hclosed

end

end Graph.Arranged

end BorrowFlow
