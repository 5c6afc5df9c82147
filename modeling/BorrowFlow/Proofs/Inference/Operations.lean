import BorrowFlow.Proofs.Graph.Erasure
import BorrowFlow.Proofs.Inference.Laying

/-!
# Facing operations

An operation gets its facades if and only if its signature is valid: it mentions no type parameter
that it does not declare, and hands back only references that it takes. Inputs are faced first, so
that it is known which of them are references when the outputs that hand them back are faced.
-/

namespace BorrowFlow

variable {g : Graph} {n : NodeId} {p : PortId} {f : FlowId} {t : TermId} {data : Term}
  {d d' : Draft} {role : Role} {node : Node} {config : Config} {signature : Signature}

/-! ## Signatures that can be used -/

namespace DeclaredType

def IsClosed (count : Nat) : DeclaredType → Prop
  | generic index => index < count
  | concrete _ => True
  | constructed _ argument => argument.IsClosed count
  | reference _ _ referent => referent.IsClosed count

end DeclaredType

/-- Whether a parameter that hands something back is an output, and hands back a reference that the
operation takes. -/
def Signature.HandsBack (signature : Signature) (parameter : Parameter) : Prop :=
  ∀ index, parameter.pairsWith = some index → parameter.direction = .output ∧
    ∃ taken, signature.parameters[index]? = some taken ∧ taken.direction = .input ∧
      taken.type.referenceLifetime?.isSome = true

/-- Whether a signature declares every type parameter that it mentions, and hands back only
references that it takes. -/
structure Signature.Valid (signature : Signature) : Prop where
  closed : ∀ parameter ∈ signature.parameters, parameter.type.IsClosed signature.generics.length
  pairs : ∀ parameter ∈ signature.parameters, signature.HandsBack parameter

/-! ## The ports of the parameters -/

instance (parameter : Parameter) : Decidable parameter.Waits :=
  inferInstanceAs (Decidable (_ ∧ _))

def Parameter.facedFirst (pair : Parameter × PortId) : List PortId :=
  if pair.1.Waits then [] else [pair.2]

def Parameter.facedLast (pair : Parameter × PortId) : List PortId :=
  if pair.1.Waits then [pair.2] else []

theorem Parameter.perm_faced (assigned : List (Parameter × PortId)) : (assigned.map Prod.snd).Perm
      (assigned.flatMap facedFirst ++ assigned.flatMap facedLast) := by
  induction assigned with
  | nil => exact .nil
  | cons pair rest ih =>
    simp only [List.map_cons, List.flatMap_cons, facedFirst, facedLast]
    split
    · rw [List.nil_append, List.singleton_append]
      exact (ih.cons _).trans List.perm_middle.symm
    · exact ih.cons _

theorem assignPorts_perm {parameters : List Parameter} {inputs outputs : List PortId}
    (hinputs : inputs.length = parameters.countP fun parameter => parameter.direction = .input)
    (houtputs : outputs.length = parameters.countP fun parameter => parameter.direction = .output) :
    (assignPorts parameters inputs outputs).map Prod.fst = parameters ∧
      (inputs ++ outputs).Perm ((assignPorts parameters inputs outputs).map Prod.snd) := by
  induction parameters generalizing inputs outputs with
  | nil =>
    rw [List.countP_nil, List.length_eq_zero_iff] at hinputs houtputs
    subst hinputs houtputs
    exact ⟨rfl, .nil⟩
  | cons parameter rest ih =>
    cases hdirection : parameter.direction with
    | input =>
      cases inputs with
      | nil => simp [hdirection] at hinputs
      | cons port inputs =>
        simp only [List.countP_cons, hdirection, List.length_cons] at hinputs houtputs
        obtain ⟨hfirst, hsound⟩ := @ih inputs outputs (by simpa using hinputs)
          (by simpa using houtputs)
        simp only [assignPorts, hdirection, List.map_cons, hfirst, List.cons_append]
        exact ⟨trivial, hsound.cons port⟩
    | output =>
      cases outputs with
      | nil => simp [hdirection] at houtputs
      | cons port outputs =>
        simp only [List.countP_cons, hdirection, List.length_cons] at hinputs houtputs
        obtain ⟨hfirst, hsound⟩ := @ih inputs outputs (by simpa using hinputs)
          (by simpa using houtputs)
        simp only [assignPorts, hdirection, List.map_cons, hfirst]
        exact ⟨trivial, List.perm_middle.trans (hsound.cons port)⟩

theorem Graph.Seated.assigned_perm (hs : g.Seated) (hnode : g.nodes[n]? = some node)
    (hk : node.kind = .functional signature) :
    (node.assigned signature).map Prod.fst = signature.parameters ∧
      (node.inputs ++ node.outputs).Perm ((node.assigned signature).map Prod.snd) := by
  have hplain : node.kind.borderKind? = none := by rw [hk]; rfl
  have hlen := hs.length_of_plain hnode hplain
  rw [hk] at hlen
  have hinputs : node.inputs.length = signature.inputCount := hlen .input
  have houtputs : node.outputs.length = signature.outputCount := hlen .output
  exact assignPorts_perm hinputs houtputs

theorem Graph.Seated.nodup_assigned (hs : g.Seated) (hnode : g.nodes[n]? = some node)
    (hk : node.kind = .functional signature) : ((node.assigned signature).map Prod.snd).Nodup := by
  have hinputs : node.inputs.Nodup := hs.nodup_portsOn hnode .input
  have houtputs : node.outputs.Nodup := hs.nodup_portsOn hnode .output
  rw [← (hs.assigned_perm hnode hk).2.nodup_iff, List.nodup_append]
  refine ⟨hinputs, houtputs, ?_⟩
  rintro input hinput _ houtput rfl
  have houtput' : input ∈ node.portsOn .output := houtput
  obtain ⟨index, hindex⟩ := List.mem_iff_getElem?.mp hinput
  obtain ⟨data, hd, -, hdirection, -⟩ :=
    hs.seat hnode (show (node.portsOn .input)[index]? = _ from hindex)
  cases hdirection.symm.trans (hs.of_mem hnode houtput' hd).2.1

namespace Pass

theorem mem_assignPorts {parameter : Parameter} {parameters : List Parameter}
    {inputs outputs : List PortId} (h : (parameter, p) ∈ assignPorts parameters inputs outputs) :
    parameter ∈ parameters ∧ (parameter.direction = .input → p ∈ inputs) ∧
      (parameter.direction = .output → p ∈ outputs) := by
  fun_induction assignPorts parameters inputs outputs <;> grind

theorem mem_portsOn_of_assigned {pair : Parameter × PortId}
    (h : pair ∈ node.assigned signature) : pair.2 ∈ node.portsOn pair.1.direction := by
  obtain ⟨-, hinput, houtput⟩ := mem_assignPorts h
  cases hdirection : pair.1.direction with
  | input => exact hinput hdirection
  | output => exact houtput hdirection

theorem exists_port_of_assigned (hs : g.Seated) (hnode : g.nodes[n]? = some node)
    {pair : Parameter × PortId} (h : pair ∈ node.assigned signature) :
    ∃ data, g.ports[pair.2]? = some data ∧ data.direction = pair.1.direction := by
  obtain ⟨index, hindex⟩ := List.mem_iff_getElem?.mp (mem_portsOn_of_assigned h)
  obtain ⟨data, hd, -, hdirection, -⟩ := hs.seat hnode hindex
  exact ⟨data, hd, hdirection⟩

theorem faces_output (hw : g.WellFormed) (hnode : g.nodes[n]? = some node)
    (hplain : node.kind.borderKind? = none) {input output : PortId} {direction : Direction}
    (hinput : input ∈ node.portsOn direction) (houtput : output ∈ node.outputs) {scope : ScopeId}
    {host : NodeId} (hfaces : g.Faces .input scope host input) :
    g.Faces .output scope host output := by
  have houtput' : output ∈ node.portsOn .output := houtput
  have hfaces' := hw.faces hnode hinput fun port hport =>
    hw.seated.scope_of_plain hnode hplain hinput hport
  obtain ⟨port, hport, -, rfl⟩ := hfaces.port
  obtain ⟨port', hport', -, hscope⟩ := hfaces'.port
  cases hport.symm.trans hport'
  obtain rfl : host = g.hostOf n := Option.some.inj (hfaces.host.symm.trans hfaces'.host)
  rw [hscope]
  exact hw.faces hnode houtput' fun port hport =>
    hw.seated.scope_of_plain hnode hplain houtput' hport

end Pass

namespace Graph

section

variable {direction : Direction} (hs : g.Seated) (hnode : g.nodes[n]? = some node)
include hs hnode

theorem Seated.isAt (hp : p ∈ node.portsOn direction) : g.IsAt n p := by
  obtain ⟨index, hindex⟩ := List.mem_iff_getElem?.mp hp
  obtain ⟨data, hd, hat, -⟩ := hs.seat hnode hindex
  exact ⟨data, hd, hat⟩

theorem Seated.not_isInput (hp : p ∈ node.portsOn .output) : ¬g.IsInput p := by
  rintro ⟨data, hd, hinput⟩
  cases hinput.symm.trans (hs.of_mem hnode hp hd).2.1

theorem Seated.isInput (hp : p ∈ node.portsOn .input) : g.IsInput p := by
  obtain ⟨data, hd, -⟩ := hs.isAt hnode hp
  exact ⟨data, hd, (hs.of_mem hnode hp hd).2.1⟩

end

theorem Asks.isAt {depth : Nat} {type : DeclaredType} (h : g.Asks n p depth type) (hs : g.Seated) :
    g.IsAt n p := by
  induction h with
  | parameter hnode hk hpair hp => exact hp ▸ hs.isAt hnode (Pass.mem_portsOn_of_assigned hpair)
  | iterated hnode hk hp =>
    have hm : p ∈ Node.portsOn _ .input := hp
    exact hs.isAt hnode hm
  | constructed _ ih | reference _ ih => exact ih

theorem Seated.not_isDeclared (hs : g.Seated) (hnode : g.nodes[n]? = some node)
    {direction : Direction} (hk : ∀ signature, node.kind ≠ .functional signature)
    (hiterates : ∀ owner, node.kind = .border owner .iterateTunnel → direction = .output)
    (hp : p ∈ node.portsOn direction) : ¬g.IsDeclared p := by
  rintro ⟨m, type, hasks⟩
  obtain rfl := (hasks.isAt hs).unique (hs.isAt hnode hp)
  cases hasks with
  | parameter ho hfun => exact hk _ ((Option.some.inj (hnode.symm.trans ho)) ▸ hfun)
  | iterated ho hborder hin =>
    cases hnode.symm.trans ho
    obtain rfl := hiterates _ hborder
    have hm : p ∈ node.portsOn .input := hin
    exact hs.not_isInput hnode hp (hs.isInput hnode hm)

end Graph

theorem Facades.isReferenceInput_iff {facades : Facades} : facades.isReferenceInput p = true ↔
      ∃ nodeSide wireSide group,
        facades.get? p = some (.referenceInput nodeSide wireSide group) := by
  unfold isReferenceInput
  cases facades.get? p with
  | none => simp
  | some facade => cases facade <;> simp [Facade.group?]

theorem Graph.Arranged.isInput {facades : Facades} {groups : BorrowGroups}
    {nodeSide wireSide : FlowId} {group : GroupId} (h : g.Arranged facades groups)
    (hfacade : facades.get? p = some (.referenceInput nodeSide wireSide group)) : g.IsInput p := by
  obtain ⟨b, hb, member, hm, rfl⟩ := h.joined hfacade
  obtain ⟨data, hd, hinput, -⟩ := ((h.placed group b hb).inputs member hm).port
  exact ⟨data, hd, hinput⟩

/-- There is a term for each of the type parameters. -/
def Draft.HasGenerics (d : Draft) (n : NodeId) (count : Nat) : Prop :=
  ∀ index < count, ∃ t, d.Has t (.generic n index)

theorem Draft.HasGenerics.of_grows {m : NodeId} {count : Nat} (h : d.HasGenerics n count)
    (hg : Grows m d d') : d'.HasGenerics n count := by
  intro index hindex
  obtain ⟨t, ht⟩ := h index hindex
  exact ⟨t, hg.has _ _ ht⟩

/-- The port of a parameter has a facade that suits the parameter, and its node sees what is made
for the declared type. -/
def Draft.Declares (d : Draft) (ports : List PortId) (n : NodeId) (parameter : Parameter)
    (p : PortId) : Prop :=
  ∃ facade, d.facades.get? p = some facade ∧ facade.Suits ports parameter ∧
    (parameter.Waits → ∀ f, facade ≠ .simple f) ∧
      (parameter.direction = .input →
        facade.group?.isSome = parameter.type.referenceLifetime?.isSome) ∧
          d.Bears facade.nodeSide (.of n p 0 parameter.type)

theorem Draft.Declares.of_grows {m : NodeId} {ports : List PortId} {parameter : Parameter}
    (h : d.Declares ports n parameter p) (hg : Grows m d d') : d'.Declares ports n parameter p := by
  obtain ⟨facade, hfacade, hsuits, hwaits, htakes, hnodeSide⟩ := h
  exact ⟨facade, hg.facades _ _ hfacade, hsuits, hwaits, htakes, hg.bears _ _ hnodeSide⟩

theorem IdMap.get?_insert_of_fresh {α : Type} {map : IdMap α} {key other : Nat} {value found : α}
    (h : map.get? key = none) : (map.insert key value).get? other = some found ↔
      map.get? other = some found ∨ found = value ∧ key = other := by
  rw [get?_insert]
  split
  · rename_i heq
    simp [heq, h, eq_comm]
  · rename_i hne
    simp [Ne.symm hne]

theorem DeclaredType.exists_of_referenceLifetime? {type : DeclaredType} {parameter : Nat}
    {declared : DeclaredMutability} (h : type.referenceLifetime? = some (parameter, declared)) :
    ∃ referent, type = .reference declared parameter referent := by
  cases type with
  | reference mutability lifetime referent =>
    cases h
    exact ⟨referent, rfl⟩
  | _ => cases h

namespace Pass

open Draft (Grows)

variable {failed : Fault → Prop}

/-! ## Signatures -/

/-- A term for a parameter of a node is listed. -/
theorem lays_list {create : TermStore → TermId × TermStore} {used : Instantiation}
    (hcreate : (create d.terms).1 = d.terms.size) (hadds : d.terms.Adds data (create d.terms).2)
    (hfits : Role.Fits d.Has g role data)
    (hlists : Role.Lists (Function.update d.book n used) (d.HasWith role))
    (hgroups : used.groups = (d.book n).groups) :
    Lays g n failed (newTerm create) d [] fun t d' =>
      t = d.terms.size ∧ d'.Has t role ∧ d'.book n = used := by
  refine (lays_add hcreate hadds hfits hlists (fun m => ?_)
    fun m hm => Function.update_of_ne hm ..).mono ?_
  · by_cases heq : m = n
    · rw [heq, Function.update_self, hgroups]
    · rw [Function.update_of_ne heq]
  · rintro t d' _ _ ⟨heq, ht, -, hbook⟩
    exact ⟨heq, ht, hbook ▸ Function.update_self ..⟩

theorem lays_newLifetime {parameter : Nat} (hnone : (d.book n).lifetimes.get? parameter = none) :
    Lays g n failed (newTerm (·.newLifetime none)) d [] fun t d' =>
      d'.Has t (.lifetime n parameter) ∧
        d'.book n = { d.book n with lifetimes := (d.book n).lifetimes.insert parameter t } := by
  apply Lays.of_lawful
  intro h
  have hlists : Role.Lists (Function.update d.book n
      { d.book n with lifetimes := (d.book n).lifetimes.insert parameter d.terms.size })
      (d.HasWith (.lifetime n parameter)) :=
    h.lists_update (by simp) (fun _ _ => by rw [IdMap.get?_insert_of_fresh hnone]; simp) (by simp)
      (by simp +contextual [eq_comm])
  apply (lays_list rfl (d.terms.adds_push _) .lifetime hlists rfl).mono
  rintro t d' _ _ ⟨rfl, ht, hbook⟩
  exact ⟨ht, hbook⟩

theorem lays_lifetimeParameter {parameter : Nat} :
    Lays g n failed (lifetimeParameter (d.book n) parameter) d [] fun result d' =>
      d'.Has result.1 (.lifetime n parameter) ∧ d'.book n = result.2 ∧
        result.2.groups = (d.book n).groups := by
  apply Lays.of_lawful
  intro h
  unfold lifetimeParameter
  split
  · rename_i t ht
    exact .pure ⟨(h.lists.lifetimes n parameter t).mp ht, rfl, rfl⟩
  · rename_i hnone
    apply (lays_newLifetime hnone).step
    rintro t d' _ ⟨ht, hbook⟩
    exact .pure ⟨ht, hbook, rfl⟩

theorem lays_mutabilityParameter {parameter : Nat} {declared : DeclaredMutability} :
    Lays g n failed (mutabilityParameter (d.book n) parameter declared) d [] fun result d' =>
      Role.Shares d'.Has n parameter declared result.1 ∧ d'.book n = result.2 := by
  apply Lays.of_lawful
  intro h
  cases declared with
  | immutable | mutable => exact .pure ⟨⟨by simp, rfl⟩, rfl⟩
  | polymorphic =>
    dsimp only [mutabilityParameter]
    split
    · rename_i t ht
      exact .pure ⟨⟨rfl, h.lists.mutabilities n parameter t ht⟩, rfl⟩
    · rename_i hnone
      have hlists : Role.Lists (Function.update d.book n
          { d.book n with mutabilities := (d.book n).mutabilities.insert parameter d.terms.size })
          (d.HasWith (.mutability n parameter)) :=
        h.lists_update (by simp) (by simp)
          (fun _ _ => by rw [IdMap.get?_insert_of_fresh hnone]; simp) (by simp)
      apply (lays_list rfl (d.terms.adds_push _) .mutability hlists rfl).step
      rintro t d' _ ⟨rfl, ht, hbook⟩
      exact .pure ⟨⟨rfl, ht⟩, hbook⟩

theorem lays_newGroup {parameter : Nat} {l : TermId} {policy : Policy}
    (hnode : g.nodes[n]? = some node) (hlifetime : d.Has l (.lifetime n parameter))
    (hnone : (d.book n).groups.get? parameter = none) :
    Lays g n failed (newGroup n node.scope policy l) d [] fun group d' =>
      d'.book n = { d.book n with groups := (d.book n).groups.insert parameter group } := by
  intro todo hr
  obtain ⟨hg, hl⟩ := hr.lawful.create hlifetime hnone (congrArg (Option.map Node.scope) hnode)
    fun m => Function.update_apply d.book n
      { d.book n with groups := (d.book n).groups.insert parameter d.groups.size } m
  exact Meets.of_ok rfl ⟨_, rfl, hg, ⟨hl, hr.awaits.of_groups trivial⟩, Function.update_self ..⟩

theorem lays_groupParameter {parameter : Nat} {declared : DeclaredMutability}
    (hnode : g.nodes[n]? = some node) :
    Lays g n failed (groupParameter n node.scope (d.book n) parameter declared) d []
      fun result d' => (d'.book n).groups.get? parameter = some result.1 ∧
        d'.book n = result.2 := by
  unfold groupParameter
  split
  · rename_i group hgroup
    exact .pure ⟨hgroup, rfl⟩
  · rename_i hnone
    apply lays_lifetimeParameter.step
    rintro ⟨l, _⟩ d1 _ ⟨hlifetime, rfl, hgroups⟩
    apply (lays_newGroup hnode hlifetime (hgroups ▸ hnone)).step
    intro group d2 _ hbook
    exact .pure ⟨by simp [hbook], hbook⟩

theorem covers_faceHandedBack_of_faced {ctx : Context} {facade : Facade} {input : PortId}
    {ports : List PortId} (hfacade : ctx.facades.get? p = some facade)
    (hfailed : failed (.facadeTwice p)) :
    Covers g (fun _ _ => True) failed (faceHandedBack p t input) ctx ports fun _ _ => False := by
  apply covers_newFlow.step
  intro nodeSide ctx1 hexpands1 _
  apply covers_newTerm.step
  intro handedBack ctx2 hexpands2 _
  apply covers_newFlow.step
  intro wireSide ctx3 hexpands3 _
  have hf := ((hexpands1.trans hexpands2).trans hexpands3).facades p facade hfacade
  intro todo _
  apply Meets.bind
  apply Meets.bind
  apply meets_insertFacade
  · intro hcontains
    cases (Facades.get?_of_not_contains hcontains).symm.trans hf
  · intro _
    exact hfailed

section Functional

variable {parameter : Parameter} (hw : g.WellFormed) (hnode : g.nodes[n]? = some node)
  (hk : node.kind = .functional signature)
include hnode hk

/-- A type parameter that is mentioned is declared, since the others have no terms. -/
theorem lays_instantiate {depth : Nat} {type : DeclaredType} (hasks : g.Asks n p depth type)
    (hall : d.HasGenerics n signature.generics.length)
    (hfailed : ¬type.IsClosed signature.generics.length →
      ∀ fault : Fault, fault.kind = .compiler → failed fault) :
    Lays g n failed (instantiate (d.book n) type) d [] fun result d' =>
      type.IsClosed signature.generics.length ∧ d'.Has result.1 (.of n p depth type) ∧
        d'.book n = result.2 := by
  induction type generalizing d depth with
  | generic index =>
    apply Lays.of_lawful
    intro h
    unfold instantiate
    split
    · rename_i t ht
      have hhas := (h.lists.generics n index t).mp ht
      have hbounds := h.fits_of_has hhas
      generalize d.terms.probe t = data at hbounds
      cases hbounds with
      | generic hbounds =>
        obtain ⟨_, hgeneric, -⟩ := hbounds node signature hnode hk
        exact .pure ⟨(List.getElem?_eq_some_iff.mp hgeneric).1, hhas, rfl⟩
    · rename_i hnone
      refine .throw (hfailed (fun hclosed => ?_) _ rfl)
      obtain ⟨t, ht⟩ := hall index hclosed
      cases hnone.symm.trans ((h.lists.generics n index t).mpr ht)
  | concrete type =>
    apply (lays_newType type).step
    intro t d' _ hm
    exact .pure ⟨trivial, hm.has, congrFun hm.book n⟩
  | constructed head argument ih =>
    apply (ih hasks.constructed hall hfailed).step
    rintro ⟨t, _⟩ d1 _ ⟨hclosed, ht, rfl⟩
    apply (lays_push rfl (.layerConstructed hasks ht) rfl).step
    intro t' d2 _ hm2
    exact .pure ⟨hclosed, hm2.has, congrFun hm2.book n⟩
  | reference declared parameter referent ih =>
    apply (ih hasks.reference hall hfailed).step
    rintro ⟨t, _⟩ d1 _ ⟨hclosed, ht, rfl⟩
    apply lays_lifetimeParameter.step
    rintro ⟨l, _⟩ d2 hg2 ⟨hlifetime, rfl, -⟩
    apply lays_mutabilityParameter.step
    rintro ⟨shared, _⟩ d3 hg3 ⟨hshares, rfl⟩
    apply (lays_push rfl (.layerReference hasks hshares ((hg2.trans hg3).has _ _ ht)
      (hg3.has _ _ hlifetime)) rfl).step
    intro t' d4 _ hm4
    exact .pure ⟨hclosed, hm4.has, congrFun hm4.book n⟩

include hw

theorem lays_faceParameter (ports : List PortId) (hpair : (parameter, p) ∈ node.assigned signature)
    (hall : d.HasGenerics n signature.generics.length)
    (hfailed : ¬parameter.type.IsClosed signature.generics.length →
      ∀ fault : Fault, fault.kind = .compiler → failed fault) :
    Lays g n failed (faceParameter config n node.scope (d.book n) parameter p) d
      (Parameter.facedFirst (parameter, p)) fun result d' =>
        parameter.type.IsClosed signature.generics.length ∧
          d'.Has result.1 (.of n p 0 parameter.type) ∧ d'.book n = result.2 ∧
            (¬parameter.Waits → d'.Declares ports n parameter p) := by
  have hasks : g.Asks n p 0 parameter.type := .parameter hnode hk hpair rfl
  obtain ⟨data, hd, hdirection⟩ := exists_port_of_assigned hw.seated hnode hpair
  apply (lays_instantiate hnode hk hasks hall hfailed).step
  rintro ⟨t, _⟩ d1 _ ⟨hclosed, ht1, rfl⟩
  apply lays_checkFeatures.step
  intro _ d2 hg2 hbook2
  have ht2 := hg2.has _ _ ht1
  rw [← hbook2, Parameter.facedFirst]
  split
  · rename_i lifetime declared hin hreference
    obtain ⟨referent, htype⟩ := DeclaredType.exists_of_referenceLifetime? hreference
    rw [htype] at hasks
    have hinputOf : g.InputOf node.scope n p := by
      have hm : p ∈ node.portsOn .input := (mem_assignPorts hpair).2.1 hin
      exact hw.inputOf hnode hm fun port hport =>
        hw.seated.scope_of_plain hnode (by rw [hk]; rfl) hm hport
    have hwaits : ¬parameter.Waits := fun hwaits => nomatch hin.symm.trans hwaits.1
    rw [if_neg hwaits]
    apply (lays_groupParameter hnode).step
    rintro ⟨group, _⟩ d3 hg3 ⟨hgroup, rfl⟩
    have ht3 := hg3.has _ _ ht2
    rw [htype] at ht3
    apply (lays_faceReference hnode hasks ht3 hgroup hinputOf).finish
    rintro _ d4 hg4 ⟨⟨nodeSide, wireSide, hfacade, hnodeSide⟩, hbook4⟩
    exact .pure ⟨hclosed, hg4.has _ _ (hg3.has _ _ ht2), congrFun hbook4 n,
      fun _ => ⟨_, hfacade, hin, by simp, by simp [hreference, Facade.group?], htype ▸ hnodeSide⟩⟩
  · rename_i hout hpairs
    have hwaits : parameter.Waits := ⟨hout, by simp [hpairs]⟩
    rw [if_pos hwaits]
    exact .pure ⟨hclosed, ht2, rfl, fun hnone => absurd hwaits hnone⟩
  · rename_i hnot hnot'
    have hwaits : ¬parameter.Waits := by
      rintro ⟨hout, hpair⟩
      obtain ⟨index, hindex⟩ := Option.isSome_iff_exists.mp hpair
      exact hnot' index hout hindex
    have htype : parameter.direction = .input → parameter.type.referenceLifetime? = none := by
      intro hinput
      cases hreference : parameter.type.referenceLifetime? with
      | none => rfl
      | some found => exact (hnot _ _ hinput hreference).elim
    rw [if_neg hwaits]
    apply (lays_newFlow ht2 (Role.sort_of ..) p fun f hf => absurd hf (Role.of_ne_returned f)).step
    rintro f d3 hg3 ⟨hf, hkept, -, -, hbook3⟩
    refine (lays_face (.simple hasks ?_ hf) ?_ rfl nofun fun _ => rfl).finish ?_
    · rintro ⟨data', hd', hinput⟩
      cases hd.symm.trans hd'
      exact htype (hdirection.symm.trans hinput)
    · rintro f (_ | _ | heq)
      · exact hkept
      · exact hkept
      · cases heq
    · rintro _ d4 hg4 ⟨hfacade, hbook4⟩
      exact .pure ⟨hclosed, (hg3.trans hg4).has _ _ ht2, congrFun (hbook4.trans hbook3) n,
        fun _ => ⟨_, hfacade, trivial, fun hw => absurd hw hwaits,
          fun hinput => by rw [htype hinput]; rfl, hg4.bears _ _ hf⟩⟩

theorem lays_faceParameters {assigned : List (Parameter × PortId)} (ports : List PortId)
    (hpairs : ∀ pair ∈ assigned, pair ∈ node.assigned signature)
    (hall : d.HasGenerics n signature.generics.length)
    (hfailed : ∀ pair ∈ assigned, ¬pair.1.type.IsClosed signature.generics.length →
      ∀ fault : Fault, fault.kind = .compiler → failed fault) :
    Lays g n failed (faceParameters config n node.scope (d.book n) assigned) d
      (assigned.flatMap Parameter.facedFirst) fun terms d' =>
        List.Forall₂ (fun pair t => pair.1.type.IsClosed signature.generics.length ∧
          d'.Has t (.of n pair.2 0 pair.1.type) ∧
            (¬pair.1.Waits → d'.Declares ports n pair.1 pair.2))
          assigned terms := by
  induction assigned generalizing d with
  | nil => exact .pure .nil
  | cons pair rest ih =>
    obtain ⟨hpair, hrest⟩ := List.forall_mem_cons.mp hpairs
    obtain ⟨hfailed, hfailed'⟩ := List.forall_mem_cons.mp hfailed
    apply (lays_faceParameter hw hnode hk ports hpair hall hfailed).bind
    rintro ⟨t, _⟩ d1 hg1 ⟨hclosed, ht, rfl, hdeclares⟩
    apply (ih hrest (hall.of_grows hg1) hfailed').finish
    intro terms d2 hg2 hterms
    exact .pure (.cons ⟨hclosed, hg2.has _ _ ht, fun hwaits => (hdeclares hwaits).of_grows hg2⟩
      hterms)

omit hk in
theorem isReferenceInput_iff {ports : List PortId} {taken : Parameter × PortId}
    (h : d.Lawful g) (hpair : taken ∈ node.assigned signature)
    (hdeclares : ¬taken.1.Waits → d.Declares ports n taken.1 taken.2) :
    d.facades.isReferenceInput taken.2 = true ↔
      taken.1.direction = .input ∧ taken.1.type.referenceLifetime?.isSome = true := by
  obtain ⟨data, hd, hdirection⟩ := exists_port_of_assigned hw.seated hnode hpair
  have hfaced : taken.1.direction = .input → _ := fun hin =>
    hdeclares fun hwaits => nomatch hin.symm.trans hwaits.1
  rw [Facades.isReferenceInput_iff]
  constructor
  · rintro ⟨nodeSide, wireSide, group, hfacade⟩
    obtain ⟨data', hd', hinput⟩ := h.arranged.isInput hfacade
    cases hd.symm.trans hd'
    have hin := hdirection.symm.trans hinput
    obtain ⟨facade, hfacade', -, -, htakes, -⟩ := hfaced hin
    cases hfacade.symm.trans hfacade'
    exact ⟨hin, htakes hin ▸ rfl⟩
  · rintro ⟨hin, hreference⟩
    obtain ⟨facade, hfacade, -, -, htakes, -⟩ := hfaced hin
    rw [← htakes hin] at hreference
    obtain ⟨group, hgroup⟩ := Option.isSome_iff_exists.mp hreference
    obtain ⟨nodeSide, wireSide, rfl⟩ := Facade.exists_of_group? hgroup
    exact ⟨nodeSide, wireSide, group, hfacade⟩

theorem lays_facePairing {ports : List PortId}
    (hports : (node.assigned signature).map Prod.snd = ports)
    (hfaced : ∀ pair ∈ node.assigned signature, ¬pair.1.Waits →
      d.Declares ports n pair.1 pair.2)
    (hpair : (parameter, p) ∈ node.assigned signature) (ht : d.Has t (.of n p 0 parameter.type))
    (hfailed : ¬signature.HandsBack parameter →
      ∀ fault : Fault, fault.kind = .compiler → failed fault) :
    Lays g n failed (facePairing signature ports parameter p t) d
      (Parameter.facedLast (parameter, p)) fun _ d' => signature.HandsBack parameter ∧
        (parameter.Waits → d'.Declares ports n parameter p) := by
  apply Lays.of_lawful
  intro h
  unfold facePairing Parameter.facedLast
  split
  · rename_i hnone
    have hwaits : ¬parameter.Waits := fun ⟨_, hsome⟩ => by simp [hnone] at hsome
    rw [if_neg hwaits]
    refine .pure ⟨fun index hindex => ?_, fun hw => absurd hw hwaits⟩
    cases hnone.symm.trans hindex
  rename_i index hindex
  apply Lays.get.step
  rintro _ _ - ⟨rfl, rfl⟩
  subst hports
  have hparameter : signature.parameters[index]? = ((node.assigned signature)[index]?).map
      Prod.fst := by
    rw [← (hw.seated.assigned_perm hnode hk).1, List.getElem?_map]
  rw [List.getElem?_map]
  cases htaken : (node.assigned signature)[index]? with
  | none =>
    refine .throw (hfailed (fun hvalid => ?_) _ rfl)
    obtain ⟨-, taken, hf, -⟩ := hvalid index hindex
    rw [hparameter, htaken] at hf
    cases hf
  | some taken =>
    have hm := List.mem_of_getElem? htaken
    have hreferenceInput := isReferenceInput_iff hw hnode h hm (hfaced taken hm)
    rw [htaken, Option.map_some] at hparameter
    rw [Option.map_some]
    dsimp only
    split
    · rename_i hisReference
      obtain ⟨nodeSide, wireSide, group, hfacade⟩ := Facades.isReferenceInput_iff.mp hisReference
      cases hdirection : parameter.direction with
      | input =>
        have hwaits : ¬parameter.Waits := fun hwaits => nomatch hdirection.symm.trans hwaits.1
        obtain ⟨facade, hown, -⟩ := hfaced _ hpair hwaits
        apply (covers_faceHandedBack_of_faced hown ?_).lays_of_fails
        refine hfailed (fun hvalid => ?_) _ rfl
        exact nomatch hdirection.symm.trans (hvalid index hindex).1
      | output =>
        have houtput : p ∈ node.portsOn .output := (mem_assignPorts hpair).2.2 hdirection
        have hinput := mem_portsOn_of_assigned hm
        have hports : ((node.assigned signature).map Prod.snd)[index]? = some taken.2 := by
          rw [List.getElem?_map, htaken, Option.map_some]
        rw [if_pos (show parameter.Waits from ⟨hdirection, by simp [hindex]⟩)]
        apply (lays_faceHandedBack hfacade (.parameter hnode hk hpair rfl) ht
          (hw.seated.isAt hnode hinput)
          ⟨n, node, signature, parameter, index, hnode, hk, hpair, hindex, hports⟩
          (hw.seated.not_isInput hnode houtput) fun scope host hfaces =>
            faces_output hw hnode (by rw [hk]; rfl) hinput houtput hfaces).mono
        rintro _ d' _ _ ⟨nodeSide, wireSide, hfacade, hnodeSide⟩
        refine ⟨fun other ho => ?_, fun _ => ⟨_, hfacade, ⟨index, hindex, hports⟩, by simp,
          fun hin => ?_, hnodeSide⟩⟩
        · cases hindex.symm.trans ho
          exact ⟨hdirection, taken.1, hparameter, hreferenceInput.mp hisReference⟩
        · cases hdirection.symm.trans hin
    · rename_i hnone
      refine .throw (hfailed (fun hvalid => ?_) _ rfl)
      obtain ⟨-, found, hf, htakes⟩ := hvalid index hindex
      cases hparameter.symm.trans hf
      exact hnone (hreferenceInput.mpr htakes)

omit hw in
theorem lays_generics {before rest : List Generic} {created : List TermId}
    (hgenerics : signature.generics = before ++ rest) (hlen : created.length = before.length)
    (hbook : d.book n = { generics := created }) :
    Lays g n failed (rest.mapM fun generic => newTerm (·.newUnbound generic.constraints)) d []
      fun terms d' => d'.book n = { generics := created ++ terms } ∧
        (created ++ terms).length = signature.generics.length := by
  induction rest generalizing d before created with
  | nil =>
    rw [List.append_nil] at hgenerics
    exact .pure ⟨by simpa using hbook, by simp [hlen, hgenerics]⟩
  | cons generic rest ih =>
    have hbounds : g.Bounds n before.length generic.constraints := by
      intro node' signature' hnode' hk'
      cases hnode.symm.trans hnode'
      cases hk.symm.trans hk'
      exact ⟨generic, by simp [hgenerics], rfl⟩
    apply Lays.of_lawful
    intro h
    have hlists : Role.Lists (Function.update d.book n { generics := created ++ [d.terms.size] })
        (d.HasWith (.generic n before.length)) := by
      apply h.lists_update
      · intro index t
        rw [hbook, List.getElem?_append, List.getElem?_singleton]
        grind
      · simp [hbook]
      · simp [hbook]
      · simp +contextual [eq_comm]
    rw [List.mapM_cons]
    apply (lays_list rfl (d.terms.adds_newUnbound _) (.generic hbounds) hlists (by rw [hbook])).step
    rintro t d1 _ ⟨rfl, -, hbook1⟩
    have hgenerics' : signature.generics = (before ++ [generic]) ++ rest := by simp [hgenerics]
    apply (ih hgenerics' (by simp [hlen]) hbook1).step
    intro terms d2 _ hdone
    rw [List.append_assoc, List.singleton_append] at hdone
    exact .pure hdone

theorem lays_faceFunctional (hbook : d.book n = { generics := [] })
    (hfailed : ¬signature.Valid → ∀ fault : Fault, fault.kind = .compiler → failed fault) :
    Lays g n failed (faceFunctional config n node signature) d (node.inputs ++ node.outputs)
      fun _ d' => signature.Valid ∧ d'.HasGenerics n signature.generics.length ∧
        ∀ pair ∈ node.assigned signature,
          d'.Declares ((node.assigned signature).map Prod.snd) n pair.1 pair.2 := by
  obtain ⟨hassigned, hperm⟩ := hw.seated.assigned_perm hnode hk
  have hparameter : ∀ pair ∈ node.assigned signature, pair.1 ∈ signature.parameters :=
    fun _ hpair => (mem_assignPorts hpair).1
  refine Lays.perm ?_ (hperm.trans (Parameter.perm_faced _))
  apply (lays_generics hnode hk (List.nil_append _).symm rfl hbook).step
  rintro generics d1 _ ⟨hbook1, hlen⟩
  rw [List.nil_append] at hbook1 hlen
  rw [← hbook1]
  apply Lays.of_lawful
  intro h
  have hall : d1.HasGenerics n signature.generics.length := by
    intro index hindex
    rw [← hlen] at hindex
    have ht : (d1.book n).generics[index]? = some generics[index] := by simp [hbook1]
    exact ⟨_, (h.lists.generics ..).mp ht⟩
  apply (lays_faceParameters hw hnode hk ((node.assigned signature).map Prod.snd) (fun _ => id) hall
    fun pair hpair hopen =>
      hfailed fun hvalid => hopen (hvalid.closed _ (hparameter pair hpair))).bind
  intro terms d2 hg2 hterms
  have hdone := exists_of_forall₂ hterms
  have hzip := List.map_fst_zip (Nat.le_of_eq hterms.length_eq)
  have hlast := congrArg (List.flatMap Parameter.facedLast) hzip
  rw [List.flatMap_map] at hlast
  rw [← hlast]
  refine (Lays.forM (fun item : (Parameter × PortId) × TermId => Parameter.facedLast item.1)
    (fun item d' => signature.HandsBack item.1.1 ∧ (item.1.1.Waits →
      d'.Declares ((node.assigned signature).map Prod.snd) n item.1.1 item.1.2)) ?_ ?_).mono ?_
  · exact fun _ _ _ hg hdone => ⟨hdone.1, fun hwaits => (hdone.2 hwaits).of_grows hg⟩
  · rintro ⟨⟨parameter, p⟩, t⟩ hitem d3 hg3
    have hpair := (List.of_mem_zip hitem).1
    refine lays_facePairing hw hnode hk rfl (fun pair hpair hwaits => ?_) hpair
      (hg3.has _ _ (List.forall₂_zip hterms hitem).2.1)
      fun hnone => hfailed fun hvalid => hnone (hvalid.pairs parameter (hparameter _ hpair))
    obtain ⟨_, -, -, -, hdeclares⟩ := hdone pair hpair
    exact (hdeclares hwaits).of_grows hg3
  · intro _ d3 hg3 _ hpairs
    have hitem : ∀ pair ∈ node.assigned signature,
        ∃ t, (pair, t) ∈ (node.assigned signature).zip terms := by
      intro pair hpair
      rw [← hzip] at hpair
      obtain ⟨⟨_, t⟩, hitem, rfl⟩ := List.mem_map.mp hpair
      exact ⟨t, hitem⟩
    refine ⟨⟨fun parameter hm => ?_, fun parameter hm => ?_⟩, hall.of_grows (hg2.trans hg3),
      fun pair hpair => ?_⟩
    · rw [← hassigned] at hm
      obtain ⟨pair, hpair, rfl⟩ := List.mem_map.mp hm
      obtain ⟨_, -, hclosed, -⟩ := hdone pair hpair
      exact hclosed
    · rw [← hassigned] at hm
      obtain ⟨pair, hpair, rfl⟩ := List.mem_map.mp hm
      obtain ⟨_, hitem⟩ := hitem pair hpair
      exact (hpairs _ hitem).1
    · by_cases hwaits : pair.1.Waits
      · obtain ⟨_, hitem⟩ := hitem pair hpair
        exact (hpairs _ hitem).2 hwaits
      · obtain ⟨_, -, -, -, hdeclares⟩ := hdone pair hpair
        exact (hdeclares hwaits).of_grows hg3

end Functional

end Pass

end BorrowFlow
