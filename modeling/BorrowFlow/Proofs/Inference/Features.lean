import BorrowFlow.Proofs.Inference.Annotation
import BorrowFlow.Proofs.Inference.Unread

/-!
# Features that are switched off

The host may switch type constructors off. Inference then warns about every port whose declared type
mentions one of them, and that is all: two configurations that agree on implicit drops lead to the
same graph, the same fault or the same report, up to these warnings.
-/

namespace BorrowFlow

variable {head : TypeConstructor} {g graph : Graph}

/-! ## What a type mentions -/

/-- The constructor is used somewhere in the type. -/
inductive DataType.Mentions (head : TypeConstructor) : DataType → Prop
  | here (argument : DataType) : Mentions head (.constructed head argument)
  | argument (other : TypeConstructor) {argument : DataType} (h : argument.Mentions head) :
    Mentions head (.constructed other argument)
  | referent (mutable : Bool) {referent : DataType} (h : referent.Mentions head) :
    Mentions head (.reference mutable referent)

theorem DataType.mem_constructors_iff {type : DataType} :
    head ∈ type.constructors ↔ type.Mentions head := by
  constructor
  · intro h
    induction type with
    | constructed other argument ih =>
      rcases List.mem_cons.mp h with rfl | h
      · exact .here argument
      · exact .argument other (ih h)
    | reference mutable referent ih => exact .referent mutable (ih h)
    | _ => cases h
  · intro h
    induction h with
    | here argument => exact List.mem_cons_self
    | argument other _ ih => exact List.mem_cons_of_mem _ ih
    | referent _ _ ih => exact ih

/-- The constructor is used somewhere in the declared type. -/
inductive DeclaredType.Mentions (head : TypeConstructor) : DeclaredType → Prop
  | concrete {type : DataType} (h : type.Mentions head) : Mentions head (.concrete type)
  | here (argument : DeclaredType) : Mentions head (.constructed head argument)
  | argument (other : TypeConstructor) {argument : DeclaredType} (h : argument.Mentions head) :
    Mentions head (.constructed other argument)
  | referent (mutability : DeclaredMutability) (lifetime : Nat) {referent : DeclaredType}
    (h : referent.Mentions head) : Mentions head (.reference mutability lifetime referent)

theorem DeclaredType.mem_constructors_iff {type : DeclaredType} :
    head ∈ type.constructors ↔ type.Mentions head := by
  constructor
  · intro h
    induction type with
    | generic => cases h
    | concrete type => exact .concrete (DataType.mem_constructors_iff.mp h)
    | constructed other argument ih =>
      rcases List.mem_cons.mp h with rfl | h
      · exact .here argument
      · exact .argument other (ih h)
    | reference mutability lifetime referent ih => exact .referent mutability lifetime (ih h)
  · intro h
    induction h with
    | concrete h => exact DataType.mem_constructors_iff.mpr h
    | here argument => exact List.mem_cons_self
    | argument other _ ih => exact List.mem_cons_of_mem _ ih
    | referent _ _ _ ih => exact ih

/-! ## What a port declares -/

/-- The declared type of a port mentions a constructor: the type of a constant on its outputs, the
type of a parameter on its port, an option where one is unwrapped and where a structure delivers
something that it may not have, and an iterator where one is taken. -/
inductive Graph.Declares (g : Graph) : PortId → TypeConstructor → Prop
  | constant {n : NodeId} {node : Node} {type : DataType} {mutable : Bool} {port : PortId}
    {head : TypeConstructor} (hnode : g.nodes[n]? = some node)
    (hkind : node.kind = .constant type mutable) (hport : port ∈ node.outputs)
    (h : type.Mentions head) : Declares g port head
  | parameter {n : NodeId} {node : Node} {signature : Signature} {index place : Nat}
    {parameter : Parameter} {port : PortId} {head : TypeConstructor}
    (hnode : g.nodes[n]? = some node) (hkind : node.kind = .functional signature)
    (hparameter : signature.parameters[index]? = some parameter)
    (hplace : signature.portIndex? index = some place)
    (hport : (node.portsOn parameter.direction)[place]? = some port)
    (h : parameter.type.Mentions head) : Declares g port head
  | unwrapped {n owner : NodeId} {node : Node} {kind : BorderKind} {port : PortId}
    (hnode : g.nodes[n]? = some node) (hkind : node.kind = .border owner kind)
    (hunwraps : kind = .unwrapOptionTunnel ∨ kind = .optionSelector) (hport : port ∈ node.inputs) :
    Declares g port .option
  | delivered {n owner : NodeId} {node ownerNode : Node} {kind : StructureKind} {body : ScopeId}
    {scope : Scope} {port : PortId} (hnode : g.nodes[n]? = some node)
    (hkind : node.kind = .border owner .outputTunnel)
    (howner : g.nodes[owner]? = some ownerNode) (hstructure : ownerNode.kind = .compound kind)
    (hmerges : kind.mergesBranches = false) (hbody : body ∈ ownerNode.bodies)
    (hscope : g.scopes[body]? = some scope) (hconditional : scope.conditional = true)
    (hport : port ∈ node.outputs) : Declares g port .option
  | iterated {n owner : NodeId} {node : Node} {port : PortId} (hnode : g.nodes[n]? = some node)
    (hkind : node.kind = .border owner .iterateTunnel) (hport : port ∈ node.inputs) :
    Declares g port .iterator

/-- A parameter has the port that comes as late among its kind as the parameter does. -/
theorem mem_assignPorts_iff {parameters : List Parameter} {inputs outputs : List PortId}
    (hinputs : inputs.length = parameters.countP fun parameter => parameter.direction = .input)
    (houtputs : outputs.length = parameters.countP fun parameter => parameter.direction = .output)
    {parameter : Parameter} {port : PortId} :
    (parameter, port) ∈ assignPorts parameters inputs outputs ↔
      ∃ index : Nat, parameters[index]? = some parameter ∧
        (match parameter.direction with | .input => inputs | .output => outputs)[
          (parameters.take index).countP fun other => other.direction = parameter.direction]? =
            some port := by
  induction parameters generalizing inputs outputs with
  | nil => simp [assignPorts]
  | cons first rest ih =>
    rw [← Nat.or_exists_add_one]
    cases hdirection : first.direction with
    | input =>
      cases inputs with
      | nil => simp [hdirection] at hinputs
      | cons input inputs =>
        simp only [List.countP_cons, hdirection, List.length_cons] at hinputs houtputs
        have ih := @ih inputs outputs (by simpa using hinputs) (by simpa using houtputs)
        simp only [assignPorts, hdirection, List.mem_cons, ih]
        cases hk : parameter.direction <;> simp [hdirection] <;> grind
    | output =>
      cases outputs with
      | nil => simp [hdirection] at houtputs
      | cons output outputs =>
        simp only [List.countP_cons, hdirection, List.length_cons] at hinputs houtputs
        have ih := @ih inputs outputs (by simpa using hinputs) (by simpa using houtputs)
        simp only [assignPorts, hdirection, List.mem_cons, ih]
        cases hk : parameter.direction <;> simp [hdirection] <;> grind

theorem Pass.deliversOption_iff {owner : Node} :
    Pass.deliversOption g owner = true ↔ ∃ kind body scope, owner.kind = .compound kind ∧
      kind.mergesBranches = false ∧ body ∈ owner.bodies ∧ g.scopes[body]? = some scope ∧
        scope.conditional = true := by
  unfold Pass.deliversOption
  cases owner.kind with
  | compound kind =>
    simp only [Bool.and_eq_true, Bool.not_eq_true', List.any_eq_true, Option.getD_eq_iff,
      Option.map_eq_some_iff]
    grind
  | _ => simp

/-- What the ports of one node declare. -/
def Graph.declaredBy (g : Graph) (node : Node) : Set (PortId × TypeConstructor) :=
  match node.kind with
  | .constant type _ => {pair | pair.1 ∈ node.outputs ∧ pair.2 ∈ type.constructors}
  | .functional signature => {pair | ∃ parameter, (parameter, pair.1) ∈ node.assigned signature ∧
      pair.2 ∈ parameter.type.constructors}
  | .border owner .outputTunnel => {pair | (∃ ownerNode, g.nodes[owner]? = some ownerNode ∧
      Pass.deliversOption g ownerNode = true) ∧ pair.1 ∈ node.outputs ∧
        pair.2 ∈ [TypeConstructor.option]}
  | .border _ .unwrapOptionTunnel | .border _ .optionSelector =>
    {pair | pair.1 ∈ node.inputs ∧ pair.2 ∈ [TypeConstructor.option]}
  | .border _ .iterateTunnel => {pair | pair.1 ∈ node.inputs ∧ pair.2 ∈ [TypeConstructor.iterator]}
  | _ => ∅

theorem Graph.Seated.declares_iff (hs : g.Seated) {port : PortId} : g.Declares port head ↔
      ∃ (n : NodeId) (node : Node), g.nodes[n]? = some node ∧ (port, head) ∈ g.declaredBy node := by
  have hassigned : ∀ {n : NodeId} {node : Node} {signature : Signature} {parameter : Parameter},
      g.nodes[n]? = some node → node.kind = .functional signature →
        ((parameter, port) ∈ node.assigned signature ↔
          ∃ index place, signature.parameters[index]? = some parameter ∧
            signature.portIndex? index = some place ∧
              (node.portsOn parameter.direction)[place]? = some port) := by
    intro n node signature parameter hnode hk
    have hlen := hs.length_of_plain hnode (by rw [hk]; rfl)
    rw [hk] at hlen
    refine (mem_assignPorts_iff (hlen .input) (hlen .output)).trans (exists_congr fun index => ?_)
    have hports : (match parameter.direction with
        | .input => node.portsOn .input
        | .output => node.portsOn .output) = node.portsOn parameter.direction := by
      cases parameter.direction <;> rfl
    constructor
    · rintro ⟨hparameter, hport⟩
      exact ⟨_, hparameter, by rw [Signature.portIndex?, hparameter]; rfl, hport⟩
    · rintro ⟨place, hparameter, hplace, hport⟩
      rw [Signature.portIndex?, hparameter] at hplace
      cases hplace
      exact ⟨hparameter, hport⟩
  constructor
  · rintro (⟨hnode, hk, hport, h⟩ | ⟨hnode, hk, hparameter, hplace, hport, h⟩ |
      ⟨hnode, hk, rfl | rfl, hport⟩ |
      ⟨hnode, hk, howner, hstructure, hmerges, hbody, hscope, hconditional, hport⟩ |
      ⟨hnode, hk, hport⟩) <;>
      refine ⟨_, _, hnode, ?_⟩ <;> simp only [declaredBy, hk, Set.mem_ofPred_eq, List.mem_singleton]
    · exact ⟨hport, DataType.mem_constructors_iff.mpr h⟩
    · exact ⟨_, (hassigned hnode hk).mpr ⟨_, _, hparameter, hplace, hport⟩,
        DeclaredType.mem_constructors_iff.mpr h⟩
    · exact ⟨hport, trivial⟩
    · exact ⟨hport, trivial⟩
    · exact ⟨⟨_, howner, Pass.deliversOption_iff.mpr
        ⟨_, _, _, hstructure, hmerges, hbody, hscope, hconditional⟩⟩, hport, trivial⟩
    · exact ⟨hport, trivial⟩
  · rintro ⟨n, node, hnode, h⟩
    unfold declaredBy at h
    split at h <;> rename_i hk <;>
      simp only [Set.mem_ofPred_eq, Set.mem_empty_iff_false, List.mem_singleton] at h
    · exact .constant hnode hk h.1 (DataType.mem_constructors_iff.mp h.2)
    · obtain ⟨parameter, hm, h⟩ := h
      obtain ⟨index, place, hparameter, hplace, hport⟩ := (hassigned hnode hk).mp hm
      exact .parameter hnode hk hparameter hplace hport (DeclaredType.mem_constructors_iff.mp h)
    · obtain ⟨⟨ownerNode, howner, hdelivers⟩, hport, rfl⟩ := h
      obtain ⟨kind, body, scope, hstructure, hmerges, hbody, hscope, hconditional⟩ :=
        Pass.deliversOption_iff.mp hdelivers
      exact .delivered hnode hk howner hstructure hmerges hbody hscope hconditional hport
    · obtain ⟨hport, rfl⟩ := h
      exact .unwrapped hnode hk (.inl rfl) hport
    · obtain ⟨hport, rfl⟩ := h
      exact .unwrapped hnode hk (.inr rfl) hport
    · obtain ⟨hport, rfl⟩ := h
      exact .iterated hnode hk hport

/-! ## What the first pass reports -/

def Config.disabled (config : Config) : Set (PortId × TypeConstructor) :=
  {pair | config.isEnabled pair.2 = false}

namespace Pass

variable {α β : Type} {pass : Pass α} {flags more : Set (PortId × TypeConstructor)}
  {config : Config}

/-- A pass that succeeds flags the given features, and no others. -/
structure Flags (flags : Set (PortId × TypeConstructor)) (pass : Pass α) : Prop where
  ends : ∀ ctx, Yields pass ctx fun _ ctx' =>
    ctx'.diagnostics.flagged = ctx.diagnostics.flagged ∪ flags

theorem Keeps.flagsNone (h : Keeps Context.diagnostics pass) : Flags ∅ pass := by
  refine ⟨fun ctx => (h.ends ctx).yields ?_⟩
  intro _ ctx' heq
  rw [heq, Set.union_empty]

namespace Flags

variable {next : α → Pass β}

theorem bind (h : Flags flags pass)
    (hnext : ∀ a, Flags more (next a)) : Flags (flags ∪ more) (pass >>= next) := by
  refine ⟨fun ctx => (h.ends ctx).seq ?_⟩
  intro a ctx1 hflags
  apply ((hnext a).ends ctx1).imp ?_
  intro _ ctx2 hmore
  rw [hmore, hflags, Set.union_assoc]

theorem after (h : Keeps Context.diagnostics pass)
    (hnext : ∀ a, Flags flags (next a)) : Flags flags (pass >>= next) := by
  have hbind := h.flagsNone.bind hnext
  rwa [Set.empty_union] at hbind

theorem before (h : Flags flags pass)
    (hnext : ∀ a, Keeps Context.diagnostics (next a)) : Flags flags (pass >>= next) := by
  have hbind := h.bind fun a => (hnext a).flagsNone
  rwa [Set.union_empty] at hbind

theorem lift_bind {answer : Except Fault α}
    (h : ∀ a, answer = .ok a → Flags flags (next a)) : Flags flags (liftM answer >>= next) :=
  ⟨fun ctx => Ends.bind (Ends.lift (fun a ha => (h a ha).ends ctx) trivial)⟩

theorem forM {items : List α} {flags : α → Set (PortId × TypeConstructor)} {body : α → Pass PUnit}
    (h : ∀ item ∈ items, Flags (flags item) (body item)) :
    Flags (⋃ item ∈ items, flags item) (items.forM body) := by
  induction items with
  | nil =>
    have hpure := (Keeps.pure PUnit.unit).flagsNone
    simpa using hpure
  | cons item rest ih =>
    obtain ⟨hitem, hrest⟩ := List.forall_mem_cons.mp h
    have hbind := hitem.bind fun _ => ih hrest
    simpa [Set.iUnion_or, Set.iUnion_union_distrib] using hbind

end Flags

theorem flags_checkFeatures (port : PortId) (heads : List TypeConstructor) :
    Flags ({pair | pair.1 = port ∧ pair.2 ∈ heads} ∩ config.disabled)
      (checkFeatures config port heads) := by
  have hone : ∀ head, Flags ({(port, head)} ∩ config.disabled)
      (if config.isEnabled head then pure () else diagnose port (.featureDisabled head)) := by
    intro head
    cases henabled : config.isEnabled head with
    | true =>
      have hnone : {(port, head)} ∩ config.disabled = ∅ := by
        ext pair
        simp only [Config.disabled, Set.mem_inter_iff, Set.mem_singleton_iff, Set.mem_ofPred_eq,
          Set.mem_empty_iff_false, iff_false]
        rintro ⟨rfl, hdisabled⟩
        rw [henabled] at hdisabled
        cases hdisabled
      rw [hnone]
      exact (Keeps.pure ()).flagsNone
    | false =>
      have hone : {(port, head)} ∩ config.disabled = {(port, head)} :=
        Set.inter_eq_left.mpr (Set.singleton_subset_iff.mpr henabled)
      rw [hone]
      exact ⟨fun ctx => ctx.diagnostics.flagged_push_feature port head⟩
  have hunion : ({pair | pair.1 = port ∧ pair.2 ∈ heads} : Set (PortId × TypeConstructor)) ∩
      config.disabled = ⋃ head ∈ heads, {(port, head)} ∩ config.disabled := by
    ext ⟨other, head⟩
    simp only [Set.mem_inter_iff, Set.mem_ofPred_eq, Set.mem_iUnion, Set.mem_singleton_iff,
      Prod.mk.injEq, exists_prop]
    grind
  rw [hunion]
  exact Flags.forM fun head _ => hone head

/-! ### Steps that report nothing -/

theorem silent_newTerm (create : TermStore → TermId × TermStore) :
    Keeps Context.diagnostics (newTerm create) :=
  ⟨fun _ => rfl⟩

theorem facing_diagnostics : Facing {} (.of Context.diagnostics) where
  face _ _ := (Keeps.bind ⟨fun _ => ends_insertFacade (fun _ => rfl) rfl⟩
    fun _ => .count fun _ => rfl).moves
  newTerm _ := ⟨fun _ => rfl⟩
  openLifetime scope :=
    have hcarve : Keeps Context.diagnostics (carveLifetime scope) :=
      (Keeps.ask _).bind fun ⟨_, _⟩ => .bind (.modify fun _ => rfl) fun _ => .pure _
    (hcarve.bind fun _ => (silent_newTerm _).bind fun _ => .pure _).moves
  newFlow _ _ := ⟨fun _ => rfl⟩
  interrupt _ _ := ⟨fun _ => rfl⟩
  newGroup _ _ _ _ := ⟨fun _ => rfl⟩
  changeGroups _ := (Keeps.changeGroups fun _ _ => rfl).moves
  diagnose _ head h := by cases head <;> cases h

theorem silent_of_mimics
    (h : ∀ start, (diagonal (.of Context.diagnostics) start).Mimics pass pass) :
    Keeps Context.diagnostics pass :=
  (moves_of_mimics h).keeps

theorem silent_newFlow (mutable : Bool) (term : TermId) :
    Keeps Context.diagnostics (newFlow mutable term) :=
  ⟨fun _ => rfl⟩

theorem silent_face (port : PortId) (facade : Facade) :
    Keeps Context.diagnostics (face port facade) :=
  (facing_diagnostics.face port facade).keeps

theorem silent_faceSimply (port : PortId) (flow : FlowId) :
    Keeps Context.diagnostics (faceSimply port flow) :=
  silent_face port _

theorem silent_faceReference (port : PortId) (term : TermId) (group : GroupId) :
    Keeps Context.diagnostics (faceReference port term group) :=
  silent_of_mimics fun start =>
    mimics_faceReference (facing_diagnostics.diagonal start) port term group

theorem silent_instantiate (used : Instantiation) (type : DeclaredType) :
    Keeps Context.diagnostics (instantiate used type) :=
  silent_of_mimics fun start => mimics_instantiate (facing_diagnostics.diagonal start) used type

theorem silent_groupParameter (node : NodeId) (scope : ScopeId) (used : Instantiation)
    (parameter : Nat) (mutability : DeclaredMutability) :
    Keeps Context.diagnostics (groupParameter node scope used parameter mutability) :=
  silent_of_mimics fun start =>
    mimics_groupParameter (facing_diagnostics.diagonal start) node scope used parameter mutability

theorem silent_facePairing (signature : Signature) (ports : List PortId) (parameter : Parameter)
    (port : PortId) (term : TermId) :
    Keeps Context.diagnostics (facePairing signature ports parameter port term) :=
  silent_of_mimics fun start => mimics_facePairing (facing_diagnostics.diagonal start) signature
    ports parameter port term

/-! ### Nodes that report what they declare -/

theorem flags_faceParameters (node : NodeId) (scope : ScopeId) (used : Instantiation)
    (assigned : List (Parameter × PortId)) :
    Flags ({pair | ∃ parameter, (parameter, pair.1) ∈ assigned ∧
      pair.2 ∈ parameter.type.constructors} ∩ config.disabled)
      (faceParameters config node scope used assigned) := by
  induction assigned generalizing used with
  | nil =>
    have hpure := (Keeps.pure ([] : List TermId)).flagsNone
    simpa [faceParameters] using hpure
  | cons first rest ih =>
    obtain ⟨parameter, port⟩ := first
    have hfirst : Flags ({pair | pair.1 = port ∧ pair.2 ∈ parameter.type.constructors} ∩
        config.disabled) (faceParameter config node scope used parameter port) := by
      refine .after (silent_instantiate used _) fun _ => .before (flags_checkFeatures port _)
        fun _ => ?_
      split
      · exact (silent_groupParameter ..).bind fun _ => (silent_faceReference ..).bind
          fun _ => .pure _
      · exact .pure _
      · exact (silent_newFlow ..).bind fun _ => (silent_faceSimply ..).bind fun _ => .pure _
    have hboth := hfirst.bind fun result => (ih result.2).before fun terms =>
      Keeps.pure (result.1 :: terms)
    have hunion : ({pair | ∃ other, (other, pair.1) ∈ (parameter, port) :: rest ∧
        pair.2 ∈ other.type.constructors} : Set (PortId × TypeConstructor)) =
        {pair | pair.1 = port ∧ pair.2 ∈ parameter.type.constructors} ∪
          {pair | ∃ other, (other, pair.1) ∈ rest ∧ pair.2 ∈ other.type.constructors} := by
      ext ⟨other, head⟩
      simp only [List.mem_cons, Prod.mk.injEq, Set.mem_ofPred_eq, Set.mem_union]
      grind
    rw [hunion, Set.union_inter_distrib_right]
    exact hboth

theorem flags_forM_checkFeatures {ports : List PortId} {body : PortId → Pass PUnit}
    (heads : List TypeConstructor)
    (h : ∀ port, Flags ({pair | pair.1 = port ∧ pair.2 ∈ heads} ∩ config.disabled) (body port)) :
    Flags ({pair | pair.1 ∈ ports ∧ pair.2 ∈ heads} ∩ config.disabled) (ports.forM body) := by
  have hunion : ({pair | pair.1 ∈ ports ∧ pair.2 ∈ heads} : Set (PortId × TypeConstructor)) ∩
      config.disabled =
        ⋃ port ∈ ports, {pair | pair.1 = port ∧ pair.2 ∈ heads} ∩ config.disabled := by
    ext ⟨other, head⟩
    simp only [Set.mem_inter_iff, Set.mem_ofPred_eq, Set.mem_iUnion, exists_prop]
    grind
  rw [hunion]
  exact Flags.forM fun port _ => h port

theorem silent_faceAll (ports : List PortId) (flow : FlowId) :
    Keeps Context.diagnostics (ports.forM fun port => faceSimply port flow) :=
  .forM fun port => silent_faceSimply port flow

theorem flags_faceOutputTunnel (g : Graph) (node : Node) (owner : NodeId) :
    Flags ({pair | (∃ ownerNode, g.nodes[owner]? = some ownerNode ∧
      deliversOption g ownerNode = true) ∧ pair.1 ∈ node.outputs ∧
        pair.2 ∈ [TypeConstructor.option]} ∩ config.disabled)
      (faceOutputTunnel config g node owner) := by
  refine .lift_bind fun ownerNode howner => .after (silent_newTerm _) fun value =>
    .after (.mapM fun input => (silent_newFlow ..).bind fun _ => (silent_faceSimply ..).bind
      fun _ => .pure _) fun inner => ?_
  have hface : ∀ output delivered, Keeps Context.diagnostics (do
      let wireSide ← newFlow false delivered
      face output (.tunnel (inner.headD wireSide) wireSide)) := fun output delivered =>
    (silent_newFlow ..).bind fun _ => silent_face output _
  cases hdelivers : deliversOption g ownerNode with
  | true =>
    have hflags : Flags ({pair | pair.1 ∈ node.outputs ∧ pair.2 ∈ [TypeConstructor.option]} ∩
        config.disabled) (node.outputs.forM fun output => do
          let option ← newTerm (·.newConstructed .option value)
          checkFeatures config output [.option]
          let wireSide ← newFlow false option
          face output (.tunnel (inner.headD wireSide) wireSide)) :=
      flags_forM_checkFeatures _ fun output => .after (silent_newTerm _) fun _ =>
        .before (flags_checkFeatures output _) fun _ => hface _ _
    have hset : ({pair | (∃ ownerNode, g.nodes[owner]? = some ownerNode ∧
        deliversOption g ownerNode = true) ∧ pair.1 ∈ node.outputs ∧
          pair.2 ∈ [TypeConstructor.option]} : Set (PortId × TypeConstructor)) =
        {pair | pair.1 ∈ node.outputs ∧ pair.2 ∈ [TypeConstructor.option]} := by
      ext pair
      have hsome : ∃ ownerNode, g.nodes[owner]? = some ownerNode ∧
        deliversOption g ownerNode = true := ⟨_, Graph.getNode_eq_ok.mp howner, hdelivers⟩
      simp [hsome]
    rw [hset]
    simpa using hflags
  | false =>
    have hset : ({pair | (∃ ownerNode, g.nodes[owner]? = some ownerNode ∧
        deliversOption g ownerNode = true) ∧ pair.1 ∈ node.outputs ∧
          pair.2 ∈ [TypeConstructor.option]} : Set (PortId × TypeConstructor)) ∩
            config.disabled = ∅ := by
      have hnode := Graph.getNode_eq_ok.mp howner
      ext pair
      simp [hnode, hdelivers]
    rw [hset]
    exact Keeps.flagsNone (.forM fun output => by simpa using hface output value)

theorem flags_faceNode (g : Graph) (n : NodeId) (node : Node) :
    Flags (g.declaredBy node ∩ config.disabled) (faceNode config g n node) := by
  have hsilent : g.declaredBy node = ∅ → faceNode config g n node = faceNode {} g n node →
        Flags (g.declaredBy node ∩ config.disabled) (faceNode config g n node) := by
    intro hnone heq
    rw [hnone, heq, Set.empty_inter]
    exact (moves_faceNode facing_diagnostics g n node).keeps.flagsNone
  cases hk : node.kind with
  | constant type mutable =>
    simp only [faceNode, Graph.declaredBy, hk]
    exact .after (silent_newTerm _) fun _ => .after (silent_newFlow ..) fun _ =>
      flags_forM_checkFeatures _ fun output => .after (silent_faceSimply ..) fun _ =>
        flags_checkFeatures output _
  | functional signature =>
    simp only [faceNode, Graph.declaredBy, hk]
    exact .after (.mapM fun _ => silent_newTerm _) fun _ => .before (flags_faceParameters ..)
      fun _ => .forM fun _ => silent_facePairing ..
  | explicitBorrow | terminateLifetime | drop | compound =>
    exact hsilent (by simp [Graph.declaredBy, hk]) (by simp [faceNode, hk])
  | border owner kind =>
    cases kind with
    | outputTunnel =>
      simp only [faceNode, faceBorder, Graph.declaredBy, hk]
      exact flags_faceOutputTunnel g node owner
    | unwrapOptionTunnel | optionSelector =>
      simp only [faceNode, faceBorder, Graph.declaredBy, hk]
      exact .after (silent_newTerm _) fun _ => .after (silent_newTerm _) fun _ =>
        .after (silent_newFlow ..) fun _ => .before (flags_forM_checkFeatures _ fun input =>
          .after (silent_faceSimply ..) fun _ => flags_checkFeatures input _)
          fun _ => (silent_newFlow ..).bind fun _ => silent_faceAll ..
    | iterateTunnel =>
      simp only [faceNode, faceBorder, Graph.declaredBy, hk]
      exact .after (silent_newTerm _) fun _ => .after (silent_newTerm _) fun _ =>
        .after (silent_newTerm _) fun _ => .after (silent_newTerm _) fun _ =>
          .after ⟨fun _ => rfl⟩ fun _ => .before (flags_forM_checkFeatures _ fun input =>
            .after (silent_faceReference ..) fun _ => flags_checkFeatures input _)
            fun _ => (silent_newFlow ..).bind fun _ => silent_faceAll ..
    | inputTunnel | borrowTunnel | terminateLifetimeTunnel | loopCondition =>
      exact hsilent (by simp [Graph.declaredBy, hk]) (by simp [faceNode, faceBorder, hk])

/-- Facing the ports of a graph flags what it declares, as far as it is switched off. -/
theorem flags_facePorts (hw : g.WellFormed) :
    Flags ({pair | g.Declares pair.1 pair.2} ∩ config.disabled) (facePorts config g) := by
  have hestablish :
      Keeps Context.diagnostics ((List.range g.scopes.size).forM (establishScope g)) :=
    .forM fun _ => (Keeps.lift _).bind fun _ => (Keeps.ask _).bind fun _ => .modify fun _ => rfl
  have hvisit : ∀ n, Flags ({pair | ∃ node, g.nodes[n]? = some node ∧
      pair ∈ g.declaredBy node} ∩ config.disabled) (visitNode config g n) := by
    refine fun n => .lift_bind fun node hnode => ?_
    have hset : {pair | ∃ node, g.nodes[n]? = some node ∧ pair ∈ g.declaredBy node} =
        g.declaredBy node := by
      simp [Graph.getNode_eq_ok.mp hnode]
    rw [hset]
    exact .before (flags_faceNode g n node) fun _ => .count fun _ => rfl
  refine .after hestablish fun _ => .lift_bind fun order hord =>
    .after (.modify fun _ => rfl) fun _ => ?_
  have hset : {pair | g.Declares pair.1 pair.2} ∩ config.disabled =
      ⋃ n ∈ order, {pair | ∃ node, g.nodes[n]? = some node ∧
        pair ∈ g.declaredBy node} ∩ config.disabled := by
    ext pair
    simp only [Set.mem_inter_iff, Set.mem_ofPred_eq, Set.mem_iUnion, exists_prop,
      hw.seated.declares_iff]
    constructor
    · rintro ⟨⟨n, node, hnode, hdeclared⟩, hdisabled⟩
      exact ⟨n, hw.mem_visitOrder hord hnode, ⟨node, hnode, hdeclared⟩, hdisabled⟩
    · rintro ⟨n, -, ⟨node, hnode, hdeclared⟩, hdisabled⟩
      exact ⟨⟨n, node, hnode, hdeclared⟩, hdisabled⟩
  rw [hset]
  exact .forM fun n _ => hvisit n

/-- Unifying the wires finds problems, but flags nothing. -/
theorem ends_unifyWires_flagged (g : Graph) (ctx : Context) : Yields (unifyWires g) ctx
      fun _ ctx' => ctx'.diagnostics.flagged = ctx.diagnostics.flagged := by
  have hmimics : (Comparison.unread (· = ctx.diagnostics.flagged)).Mimics (unifyWires g)
      (unifyWires g) := mimics_unifyWires wiring_unread g
  cases hrun : unifyWires g ctx with
  | ok _ ctx' =>
    obtain ⟨_, -, _, -, -, hflagged⟩ := hmimics.of_eq_ok ⟨_, rfl, rfl, rfl⟩ hrun
    exact Ends.of_ok hrun hflagged
  | error fault ctx' => exact Ends.of_error hrun trivial

end Pass

/-! ## The whole run -/

namespace Graph

variable {after : Graph} {config config' : Config} {report : Report}

/-- A report warns about what is declared and switched off, and about no other feature. -/
theorem Built.flagged_report (hb : g.Built) (hinfer : infer config g = (.ok report, after)) :
    report.diagnostics.flagged = {pair | g.Declares pair.1 pair.2} ∩ config.disabled := by
  obtain ⟨faced, unified, state, hfaced, hunified, hinserted, -, -, -, rfl, rfl⟩ :=
    exists_of_infer_ok hinfer
  have hflagged := ((Run.ends_facePorts_of
    ((Pass.flags_facePorts hb.wellFormed).ends {})).of_eq_ok hfaced).2
  have hkept := ((Run.ends_unifyWires_of (Pass.ends_unifyWires_flagged _ _)).of_eq_ok hunified).2
  have hspares := (hb.realized_of_eq_ok hfaced hunified hinserted).spares
  change state.context.diagnostics.flagged = _
  rw [show state.context.diagnostics = unified.context.diagnostics from hspares.diagnostics, hkept,
    hflagged]
  exact (congrArg (· ∪ _) Diagnostics.flagged_empty).trans (Set.empty_union _)

/-- Two configurations that agree on implicit drops lead to the same graph, and to the same fault or
to reports that tell the same about every port, up to warnings about features. A port is warned
about a constructor if it is switched off and the declared type of the port mentions it. -/
theorem Built.infer_features (hbuilt : graph.Built)
    (hdrops : config'.inference.insertImplicitDrops = config.inference.insertImplicitDrops) :
    (∀ fault after, infer config graph = (.error fault, after) →
      infer config' graph = (.error fault, after)) ∧
    ∀ report after, infer config graph = (.ok report, after) →
      (∃ report', infer config' graph = (.ok report', after) ∧ report'.ports = report.ports ∧
        report'.stats = report.stats ∧
          ∀ port, report'.diagnostics.problems port = report.diagnostics.problems port) ∧
      ∀ port head, .featureDisabled head ∈ report.diagnostics.forPort port ↔
        config.isEnabled head = false ∧ graph.Declares port head := by
  obtain ⟨hfaults, hreports⟩ := infer_unread graph hdrops
  refine ⟨hfaults, fun report after hinfer => ⟨?_, fun port head => ?_⟩⟩
  · obtain ⟨report', hinfer', hports, hstats, hproblems⟩ := hreports report after hinfer
    exact ⟨report', hinfer', hports, hstats, fun port => congrFun hproblems port⟩
  · have hflagged := Set.ext_iff.mp (hbuilt.flagged_report hinfer) (port, head)
    exact hflagged.trans and_comm

/-- A number is appended to a vector that cannot be changed. -/
def appended : Graph :=
  leaves (connect 1 3) (leaves (connect 0 2)
    (leaves (addNode rootScope (.functional Signature.vectorAppend) false)
      (leaves (addNode rootScope (.constant .int32 false) false)
        (leaves (addNode rootScope (.constant (.constructed .vector .int32) false) false) empty))))

theorem built_appended : appended.Built :=
  .connect (.connect (.addNode (.addNode (.addNode .empty _ _) _ _) _ _) _ _) _ _

theorem infer_features_appended : ∃ report report' after,
    infer { features := { vectors := false } } appended = (.ok report, after) ∧
      infer {} appended = (.ok report', after) ∧ report'.ports = report.ports ∧
        report'.stats = report.stats ∧
          report.diagnostics.forPort 2 = [.featureDisabled .vector, .notMutable] ∧
            report'.diagnostics.problems 2 = [.notMutable] ∧ appended.Declares 4 .vector := by
  have hfound : (infer { features := { vectors := false } } appended).1.toOption.any
      (fun report => report.diagnostics.forPort 2 = [.featureDisabled .vector, .notMutable] ∧
        .featureDisabled .vector ∈ report.diagnostics.forPort 4) = true := by
    decide +kernel
  obtain ⟨report, hinfer, hany⟩ := exists_report_of_any hfound
  obtain ⟨hsecond, hfourth⟩ := of_decide_eq_true hany
  obtain ⟨-, hreports⟩ := @Built.infer_features appended { features := { vectors := false } } {}
    built_appended rfl
  obtain ⟨⟨report', hinfer', hports, hstats, hproblems⟩, hwarned⟩ := hreports report _ hinfer
  have hsame : report'.diagnostics.problems 2 = [.notMutable] := by
    rw [hproblems, Diagnostics.problems, hsecond]
    rfl
  exact ⟨report, report', _, hinfer, hinfer', hports, hstats, hsecond, hsame,
    ((hwarned 4 .vector).mp hfourth).2⟩

end Graph

end BorrowFlow
