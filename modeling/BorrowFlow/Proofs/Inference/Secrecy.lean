import BorrowFlow.Proofs.Inference.Facing
import BorrowFlow.Proofs.Term.Hiding

/-!
# What nobody knows before a group is decided

Until a group is decided, no type that the second pass may unify leads to the lifetime of the group:
neither what the wires see of inputs, nor anything at other nodes, nor what members of other groups
show their node. What the wires see of an output that hands something back stays unknown until it is
settled. The steps of the second pass keep it so.
-/

namespace BorrowFlow

variable {lifetime : TermId} {flow earlier nodeSide wireSide later back : FlowId} {taken : Facade}
  {port input sink : PortId}

/-! ## Signatures whose references are outermost -/

namespace DeclaredType

def IsFlat : DeclaredType → Prop
  | generic _ | concrete _ => True
  | constructed _ argument => argument.IsFlat
  | reference .. => False

/-- A lifetime parameter occurs at the outermost reference only, if at all. -/
def IsShallow : DeclaredType → Prop
  | reference _ _ referent => referent.IsFlat
  | type => type.IsFlat

instance decidableIsFlat : (type : DeclaredType) → Decidable type.IsFlat
  | generic _ | concrete _ => .isTrue trivial
  | constructed _ argument => decidableIsFlat argument
  | reference .. => .isFalse id

instance (type : DeclaredType) : Decidable type.IsShallow := by
  cases type with
  | generic | concrete => exact .isTrue trivial
  | constructed head argument => exact decidableIsFlat argument
  | reference mutability lifetime referent => exact decidableIsFlat referent

theorem IsFlat.isShallow {type : DeclaredType} (h : type.IsFlat) : type.IsShallow := by
  cases type with
  | generic | concrete | constructed => exact h
  | reference => exact h.elim

end DeclaredType

def NodeKind.IsShallow : NodeKind → Prop
  | functional signature => ∀ parameter ∈ signature.parameters, parameter.type.IsShallow
  | _ => True

/-- In every signature of the graph, lifetime parameters occur at the outermost references of
parameters only. -/
def Graph.Shallow (g : Graph) : Prop :=
  ∀ node ∈ g.nodes, node.kind.IsShallow

instance NodeKind.decidableIsShallow : (kind : NodeKind) → Decidable kind.IsShallow
  | functional signature =>
    inferInstanceAs (Decidable (∀ parameter ∈ signature.parameters, parameter.type.IsShallow))
  | constant .. | explicitBorrow .. | terminateLifetime .. | drop | compound _ | border .. =>
    .isTrue trivial

instance (g : Graph) : Decidable g.Shallow :=
  inferInstanceAs (Decidable (∀ node ∈ g.nodes, node.kind.IsShallow))

/-! ## Secrets -/

def Facade.Shows (facade : Facade) (flow : FlowId) : Prop :=
  flow = facade.nodeSide ∨ flow = facade.wireSide

namespace Context

/-- The flows whose types do not lead to the lifetime of a group, as long as it is undecided: what
the wires see of an input, what a port of another node shows, and what the node sees of a member of
another group. -/
inductive Exposes (start : Context) (g : Graph) (id : GroupId) (n : NodeId) : FlowId → Prop
  | input {port : PortId} {facade : Facade} (hfacade : start.facades.get? port = some facade)
    (hinput : g.IsInput port) : Exposes start g id n facade.wireSide
  | elsewhere {port : PortId} {facade : Facade} {flow : FlowId}
    (hfacade : start.facades.get? port = some facade) (hat : ¬g.IsAt n port)
    (hshows : facade.Shows flow) : Exposes start g id n flow
  | member {port : PortId} {nodeSide wireSide : FlowId} {group : GroupId}
    (hfacade : start.facades.get? port = some (.referenceInput nodeSide wireSide group))
    (hne : group ≠ id) : Exposes start g id n nodeSide

end Context

/-- A lifetime is open, and alone in its class. -/
structure TermStore.Veils (terms : TermStore) (lifetime : TermId) : Prop where
  probe : terms.probe lifetime = .lifetime none
  alone : ∀ other, terms.same lifetime other = true → other = lifetime

/-- A flow is alone and has a type of its own, of which nothing is known and that nothing
mentions. -/
structure Blank (terms : TermStore) (flows : FlowStore) (flow : FlowId) (term : TermId) : Prop where
  carried : ∀ other, (flows.get other).term = some term ↔ other = flow
  alone : ∀ other, flows.same other flow = true → other = flow
  unknown : ∃ name, terms.probe term = .unbound name []
  unled : ∀ other, terms.Leads term other → other = term

section Secrets

variable (g : Graph) (start : Context) (shut : GroupId → Prop) (todo : PortId → Prop)

/-- The lifetimes of some groups, and what the wires see of some outputs, are not known to anyone
else. -/
structure Secret (terms : TermStore) (flows : FlowStore) : Prop where
  veiled : ∀ (id : GroupId) (data : BorrowGroup), start.groups.groups[id]? = some data → shut id →
    terms.Veils data.lifetimeTerm
  unled : ∀ (id : GroupId) (data : BorrowGroup) (flow : FlowId) (term : TermId),
    start.groups.groups[id]? = some data → shut id → start.Exposes g id data.node flow →
      (flows.get flow).term = some term → ¬terms.Leads data.lifetimeTerm term
  blank : ∀ port nodeSide wireSide input,
    start.facades.get? port = some (.terminationOutput nodeSide wireSide input) → todo port →
      ∃ term, Blank terms flows wireSide term

/-- A type that leads to none of the secrets. -/
structure Public (terms : TermStore) (flows : FlowStore) (term : TermId) : Prop where
  groups : ∀ (id : GroupId) (data : BorrowGroup), start.groups.groups[id]? = some data → shut id →
    ¬terms.Leads data.lifetimeTerm term
  outputs : ∀ port nodeSide wireSide input,
    start.facades.get? port = some (.terminationOutput nodeSide wireSide input) → todo port →
      (flows.get wireSide).term ≠ some term

/-- A change of terms gives no secret away. -/
structure Discreet (flows : FlowStore) (terms terms' : TermStore) : Prop where
  groups : ∀ (id : GroupId) (data : BorrowGroup), start.groups.groups[id]? = some data → shut id →
    TermStore.Screens data.lifetimeTerm terms terms'
  outputs : ∀ port nodeSide wireSide input,
    start.facades.get? port = some (.terminationOutput nodeSide wireSide input) → todo port →
      ∀ term, (flows.get wireSide).term = some term → TermStore.Screens term terms terms'

end Secrets

variable {g : Graph} {start : Context} {shut shut' : GroupId → Prop} {todo todo' : PortId → Prop}
  {terms terms' terms'' : TermStore} {flows flows' : FlowStore} {term left right : TermId}

namespace TermStore.Veils

theorem lt (h : terms.Veils lifetime) : lifetime < terms.size :=
  lt_size_of_probe h.probe

theorem of_screens (h : terms.Veils lifetime) (hscreens : Screens lifetime terms terms') :
    terms'.Veils lifetime :=
  ⟨hscreens.probe.trans h.probe, fun other hsame => h.alone other (hscreens.same other ▸ hsame)⟩

end TermStore.Veils

namespace Blank

section

variable (h : Blank terms flows flow term)
include h

theorem term_eq : (flows.get flow).term = some term :=
  (h.carried flow).mpr rfl

theorem lt : term < terms.size := by
  obtain ⟨name, hp⟩ := h.unknown
  exact TermStore.lt_size_of_probe hp

theorem of_screens (hscreens : TermStore.Screens term terms terms') :
    Blank terms' flows flow term := by
  obtain ⟨name, hp⟩ := h.unknown
  exact ⟨h.carried, h.alone, ⟨name, hscreens.probe.trans hp⟩,
    fun other hleads => h.unled other (hscreens.leads other hleads)⟩

theorem of_flows
    (hcarried : ∀ other, (flows'.get other).term = some term ↔ (flows.get other).term = some term)
    (halone : ∀ other, flows'.same other flow = true → flows.same other flow = true) :
    Blank terms flows' flow term :=
  ⟨fun other => (hcarried other).trans (h.carried other),
    fun other hsame => h.alone other (halone other hsame), h.unknown, h.unled⟩

end

end Blank

namespace Public

theorem mono (h : Public start shut todo terms flows term) (hshut : ∀ id, shut' id → shut id)
    (htodo : ∀ port, todo' port → todo port) : Public start shut' todo' terms flows term :=
  ⟨fun id data hd hid => h.groups id data hd (hshut id hid),
    fun port nodeSide wireSide input hfacade hport =>
      h.outputs port nodeSide wireSide input hfacade (htodo port hport)⟩

theorem of_discreet (h : Public start shut todo terms flows term)
    (hdiscreet : Discreet start shut todo flows terms terms') :
    Public start shut todo terms' flows term :=
  ⟨fun id data hd hshut hleads =>
    h.groups id data hd hshut ((hdiscreet.groups id data hd hshut).leads term hleads),
    h.outputs⟩

theorem of_flows (h : Public start shut todo terms flows term) (ht : ∀ port nodeSide wireSide input,
      start.facades.get? port = some (.terminationOutput nodeSide wireSide input) → todo port →
        (flows'.get wireSide).term = (flows.get wireSide).term) :
    Public start shut todo terms flows' term := by
  refine ⟨h.groups, fun port nodeSide wireSide input hfacade htodo => ?_⟩
  rw [ht port nodeSide wireSide input hfacade htodo]
  exact h.outputs port nodeSide wireSide input hfacade htodo

end Public

namespace Secret

theorem mono (h : Secret g start shut todo terms flows) (hshut : ∀ id, shut' id → shut id)
    (htodo : ∀ port, todo' port → todo port) : Secret g start shut' todo' terms flows :=
  ⟨fun id data hd hid => h.veiled id data hd (hshut id hid),
    fun id data flow term hd hid => h.unled id data flow term hd (hshut id hid),
    fun port nodeSide wireSide input hfacade hport =>
      h.blank port nodeSide wireSide input hfacade (htodo port hport)⟩

variable (h : Secret g start shut todo terms flows)
include h

theorem blank_of_term
    (hfacade : start.facades.get? port = some (.terminationOutput nodeSide wireSide input))
    (htodo : todo port) (ht : (flows.get wireSide).term = some term) :
    Blank terms flows wireSide term := by
  obtain ⟨found, hblank⟩ := h.blank _ _ _ _ hfacade htodo
  cases hblank.term_eq.symm.trans ht
  exact hblank

theorem of_discreet (hdiscreet : Discreet start shut todo flows terms terms') :
    Secret g start shut todo terms' flows where
  veiled id data hd hshut :=
    (h.veiled id data hd hshut).of_screens (hdiscreet.groups id data hd hshut)
  unled id data flow term hd hshut hexposes ht hleads :=
    h.unled id data flow term hd hshut hexposes ht
      ((hdiscreet.groups id data hd hshut).leads term hleads)
  blank port nodeSide wireSide input hfacade htodo := by
    obtain ⟨term, hblank⟩ := h.blank _ _ _ _ hfacade htodo
    exact ⟨term, hblank.of_screens
      (hdiscreet.outputs port nodeSide wireSide input hfacade htodo term hblank.term_eq)⟩

theorem of_flows (ht : ∀ flow, (flows'.get flow).term = (flows.get flow).term)
    (hsame : ∀ left right, flows'.same left right = flows.same left right) :
    Secret g start shut todo terms flows' where
  veiled := h.veiled
  unled id data flow term hd hshut hexposes hf :=
    h.unled id data flow term hd hshut hexposes ((ht flow).symm.trans hf)
  blank port nodeSide wireSide input hfacade htodo := by
    obtain ⟨term, hblank⟩ := h.blank _ _ _ _ hfacade htodo
    exact ⟨term, hblank.of_flows (fun other => by rw [ht]) fun other ho => by rwa [← hsame]⟩

/-! ## Types that anyone may know -/

theorem public_of_exposes
    (hexposes : ∀ (id : GroupId) (data : BorrowGroup), start.groups.groups[id]? = some data →
      shut id → start.Exposes g id data.node flow)
    (hne : ∀ port nodeSide wireSide input,
      start.facades.get? port = some (.terminationOutput nodeSide wireSide input) → todo port →
        flow ≠ wireSide)
    (ht : (flows.get flow).term = some term) : Public start shut todo terms flows term where
  groups id data hd hshut := h.unled id data flow term hd hshut (hexposes id data hd hshut) ht
  outputs port nodeSide wireSide input hfacade htodo hf := by
    have hblank := h.blank_of_term hfacade htodo hf
    exact hne port nodeSide wireSide input hfacade htodo ((hblank.carried flow).mp ht)

theorem public_part {part : TermId} (hpublic : Public start shut todo terms flows term)
    (hpart : part ∈ (terms.probe term).parts) : Public start shut todo terms flows part where
  groups id data hd hshut hleads := hpublic.groups id data hd hshut (hleads.part hpart)
  outputs port nodeSide wireSide input hfacade htodo hf := by
    have hblank := h.blank_of_term hfacade htodo hf
    have heq := hblank.unled term (.part .target hpart)
    exact hpublic.outputs port nodeSide wireSide input hfacade htodo (heq ▸ hf)

theorem public_of_le (hle : terms.size ≤ term) : Public start shut todo terms flows term where
  groups id data hd hshut hleads :=
    absurd (hleads.lt_size (h.veiled id data hd hshut).lt) (Nat.not_lt_of_le hle)
  outputs port nodeSide wireSide input hfacade htodo hf := by
    have hblank := h.blank_of_term hfacade htodo hf
    exact absurd hblank.lt (Nat.not_lt_of_le hle)

/-! ## Changes of terms -/

theorem discreet_of_screens
    (hscreens : ∀ target < terms.size, ¬terms.Leads target left → ¬terms.Leads target right →
      TermStore.Screens target terms terms')
    (hl : Public start shut todo terms flows left) (hr : Public start shut todo terms flows right) :
    Discreet start shut todo flows terms terms' where
  groups id data hd hshut := hscreens _ (h.veiled id data hd hshut).lt
    (hl.groups id data hd hshut) (hr.groups id data hd hshut)
  outputs port nodeSide wireSide input hfacade htodo term ht := by
    have hblank := h.blank_of_term hfacade htodo ht
    refine hscreens _ hblank.lt (fun hleads => ?_) fun hleads => ?_
    · exact hl.outputs port nodeSide wireSide input hfacade htodo (hblank.unled _ hleads ▸ ht)
    · exact hr.outputs port nodeSide wireSide input hfacade htodo (hblank.unled _ hleads ▸ ht)

theorem discreet_unify {sort : TermSort} (hs : terms.Sound) (hleft : terms.HasSort left sort)
    (hright : terms.HasSort right sort) (hl : Public start shut todo terms flows left)
    (hr : Public start shut todo terms flows right) :
    Discreet start shut todo flows terms (terms.unify left right).store :=
  h.discreet_of_screens (fun _ _ => hs.screens_unify hleft hright) hl hr

theorem discreet_newReference {mutable : Bool}
    (hl : Public start shut todo terms flows left) (hr : Public start shut todo terms flows right) :
    Discreet start shut todo flows terms (terms.newReference (.fixed mutable) left right).2 := by
  refine h.discreet_of_screens (fun target hlt hleft hright => ?_) hl hr
  refine TermStore.screens_push hlt fun part hpart => ?_
  rcases List.mem_pair.mp hpart with rfl | rfl
  · exact hleft
  · exact hright

theorem discreet_newUnbound (constraints : List Constraint) :
    Discreet start shut todo flows terms (terms.newUnbound constraints).2 :=
  h.discreet_of_screens (fun _ hlt _ _ => TermStore.screens_newUnbound hlt constraints)
    (h.public_of_le (Nat.le_refl _)) (h.public_of_le (Nat.le_refl _))

theorem discreet_absorb {other : Term} (hlt : term < terms.size) (hparts : other.parts = [])
    (hpublic : Public start shut todo terms flows term) :
    Discreet start shut todo flows terms (terms.absorb term other) :=
  h.discreet_of_screens (fun _ _ hleads _ => TermStore.screens_absorb hlt hleads hparts) hpublic
    hpublic

theorem public_lifetime (hveils : terms.Veils lifetime)
    (hne : ∀ (id : GroupId) (data : BorrowGroup), start.groups.groups[id]? = some data → shut id →
      lifetime ≠ data.lifetimeTerm) : Public start shut todo terms flows lifetime where
  groups id data hd hshut := TermStore.not_leads_of_alone (hne id data hd hshut) hveils.alone
    (by simp [hveils.probe, Term.parts])
  outputs port nodeSide wireSide input hfacade htodo hf := by
    have hblank := h.blank_of_term hfacade htodo hf
    obtain ⟨name, hp⟩ := hblank.unknown
    cases hveils.probe.symm.trans hp

end Secret

/-! ## What the ports show at the start -/

/-- What stands within a declared type has no references. -/
theorem Graph.Asks.isShallow {n : NodeId} {depth : Nat} {type : DeclaredType}
    (h : g.Asks n port depth type) (hshallow : g.Shallow) :
    type.IsShallow ∧ (depth ≠ 0 → type.IsFlat) := by
  induction h with
  | parameter hnode hk hpair _ =>
    have hsignature := hshallow _ (Array.mem_of_getElem? hnode)
    rw [hk] at hsignature
    exact ⟨hsignature _ (Pass.mem_assignPorts hpair).1, fun hne => absurd rfl hne⟩
  | iterated => exact ⟨trivial, fun hne => absurd rfl hne⟩
  | constructed _ ih | reference _ ih => exact ⟨DeclaredType.IsFlat.isShallow ih.1, fun _ => ih.1⟩

namespace Draft

variable {d : Draft} {facade : Facade} {n : NodeId} {p : PortId} {depth parameter : Nat}
  {declared : DeclaredMutability} {type : DeclaredType} {role role' : Role}

theorem Bears.unique (h : d.Bears flow role) (h' : d.Bears flow role') : role = role' := by
  obtain ⟨t, ht, -, rfl⟩ := h
  obtain ⟨t', ht', -, rfl⟩ := h'
  cases ht.symm.trans ht'
  rfl

/-- Only an output that hands something back shows a type that is made for such an output. -/
theorem Dresses.of_returned (h : d.Dresses g port facade) (hshows : facade.Shows flow)
    (hf : d.Bears flow (.returned flow)) :
    ∃ nodeSide input, facade = .terminationOutput nodeSide flow input := by
  cases h with
  | common _ _ hnode hseen hwire hshown =>
    rcases hshows with rfl | rfl
    · cases hnode.unique hf
      exact hseen.elim
    · cases hwire.unique hf
      exact hshown.elim
  | simple _ _ hflow =>
    obtain rfl : flow = _ := hshows.elim id id
    exact absurd (hflow.unique hf) (Role.of_ne_returned flow)
  | member _ hnode hwire =>
    rcases hshows with rfl | rfl
    · cases hnode.unique hf
    · cases hwire.unique hf
  | returned _ _ _ hnode =>
    rcases hshows with rfl | rfl
    · exact absurd (hnode.unique hf) (Role.of_ne_returned _)
    · exact ⟨_, _, rfl⟩

/-- Only the port that a reference is declared for shows it. -/
theorem Dresses.of_layer (h : d.Dresses g port facade) (hshows : facade.Shows flow)
    (hf : d.Bears flow (.layer n p depth (.reference declared parameter type))) :
    ∃ type, g.Asks n port 0 type := by
  have hof : ∀ {m type'}, d.Bears flow (.of m port 0 type') → m = n := by
    intro m type' hf'
    have heq := hf'.unique hf
    cases type' with
    | generic | concrete => cases heq
    | constructed | reference => exact (Role.layer.inj heq).1
  cases h with
  | common _ _ hnode hseen hwire hshown =>
    rcases hshows with rfl | rfl
    · cases hnode.unique hf
      exact hseen.elim
    · cases hwire.unique hf
      exact hshown.elim
  | simple hasks _ hflow =>
    obtain rfl : flow = _ := hshows.elim id id
    exact ⟨_, hof hflow ▸ hasks⟩
  | member hasks hnode hwire =>
    rcases hshows with rfl | rfl
    · exact ⟨_, (Role.layer.inj (hnode.unique hf)).1 ▸ hasks⟩
    · cases hwire.unique hf
  | returned hasks _ _ hnode hwire =>
    rcases hshows with rfl | rfl
    · exact ⟨_, hof hnode ▸ hasks⟩
    · cases hwire.unique hf

/-- What a term may mention: what anyone may, what is made for a parameter, and what stands within
a type that a node declares. -/
inductive Mentions (d : Draft) (g : Graph) (data : Term) (part : TermId) : Prop
  | plain {sort : TermSort} (hhas : d.Has part (.plain sort))
  | mutability {n : NodeId} {parameter : Nat} (hhas : d.Has part (.mutability n parameter))
  | within {n : NodeId} {p : PortId} {depth : Nat} {type : DeclaredType}
    (hasks : g.Asks n p (depth + 1) type) (hhas : d.Has part (.of n p (depth + 1) type))
  | lifetime {n : NodeId} {parameter : Nat} {mutability : Mutability} {underlying : TermId}
    (hhas : d.Has part (.lifetime n parameter))
    (heq : data = .reference mutability underlying part)

namespace Lawful

variable (h : d.Lawful g)
include h

theorem lifetime_unique {other : TermId} (hl : d.Has lifetime (.lifetime n parameter))
    (hl' : d.Has other (.lifetime n parameter)) : lifetime = other :=
  Option.some.inj (((h.lists.lifetimes ..).mpr hl).symm.trans ((h.lists.lifetimes ..).mpr hl'))

theorem group_unique {id id' : GroupId} {data data' : BorrowGroup}
    (hd : d.groups.groups[id]? = some data) (hd' : d.groups.groups[id']? = some data')
    (heq : data.lifetimeTerm = data'.lifetimeTerm) : id = id' := by
  obtain ⟨⟨parameter, hlt, hl⟩, -⟩ := h.serves id data hd
  obtain ⟨⟨parameter', -, hl'⟩, -⟩ := h.serves id' data' hd'
  rw [← heq, hl] at hl'
  obtain ⟨hn, rfl⟩ := Role.lifetime.inj hl'
  have hid := (h.grouped ..).mpr ⟨data, hd, rfl, hlt, hl⟩
  have hid' := (h.grouped data.node parameter id').mpr ⟨data', hd', hn.symm, heq ▸ ⟨hlt, hl⟩⟩
  exact Option.some.inj (hid.symm.trans hid')

/-- A reference with the lifetime of a lifetime parameter is declared with that parameter. -/
theorem has_layer {mutability : Mutability} {underlying : TermId}
    (hp : d.terms.probe term = .reference mutability underlying lifetime)
    (hl : d.Has lifetime (.lifetime n parameter)) : ∃ p depth declared type,
      d.Has term (.layer n p depth (.reference declared parameter type)) := by
  have hlt := TermStore.lt_size_of_probe hp
  have hfits := h.fits term hlt
  rw [hp] at hfits
  generalize hrole : d.role term = role at hfits
  cases hfits with
  | reference _ hlifetime => cases hlifetime.2.symm.trans hl.2
  | layerReference _ _ _ hlifetime =>
    obtain ⟨rfl, rfl⟩ := Role.lifetime.inj (hlifetime.2.symm.trans hl.2)
    exact ⟨_, _, _, _, hlt, hrole⟩

theorem reference_of_bears (hl : d.Has lifetime (.lifetime n parameter))
    (hf : d.Bears flow (.layer n p depth (.reference declared parameter type))) :
    ∃ term mutability underlying, (d.flows.get flow).term = some term ∧
      d.terms.probe term = .reference mutability underlying lifetime := by
  obtain ⟨term, ht, hhas⟩ := hf
  have hfits := h.fits_of_has hhas
  generalize hp : d.terms.probe term = data at hfits
  cases hfits with
  | layerReference _ _ _ hlifetime =>
    exact ⟨term, _, _, ht, h.lifetime_unique hlifetime hl ▸ hp⟩

theorem mentions {part : TermId} (hpart : part ∈ (d.terms.probe term).parts) :
    d.Mentions g (d.terms.probe term) part := by
  by_cases hlt : term < d.terms.size
  swap
  · rw [TermStore.probe_of_le (Nat.le_of_not_lt hlt)] at hpart
    cases hpart
  have hfits := h.fits term hlt
  generalize d.terms.probe term = data at hpart hfits ⊢
  generalize d.role term = role at hfits
  cases hfits with
  | constructed hargument =>
    obtain rfl := List.mem_singleton.mp hpart
    exact .plain hargument
  | reference hunderlying hlifetime =>
    rcases List.mem_pair.mp hpart with rfl | rfl
    · exact .plain hunderlying
    · exact .plain hlifetime
  | layerConstructed hasks hargument =>
    obtain rfl := List.mem_singleton.mp hpart
    exact .within hasks.constructed hargument
  | @layerReference _ _ _ _ _ _ mutability underlying lifetime hasks hshares hunderlying
      hlifetime =>
    cases mutability with
    | fixed =>
      rcases List.mem_pair.mp hpart with rfl | rfl
      · exact .within hasks.reference hunderlying
      · exact .lifetime hlifetime rfl
    | shared =>
      rcases List.mem_cons.mp hpart with rfl | hpart
      · exact .mutability hshares.2
      rcases List.mem_pair.mp hpart with rfl | rfl
      · exact .within hasks.reference hunderlying
      · exact .lifetime hlifetime rfl
  | _ => cases hpart

/-- Only references with the lifetime of a lifetime parameter lead to that lifetime. -/
theorem sealed_lifetime (hshallow : g.Shallow) (hl : d.Has lifetime (.lifetime n parameter)) :
    d.terms.Sealed fun key => key = lifetime ∨ ∃ mutability underlying,
      d.terms.probe key = .reference mutability underlying lifetime := by
  refine ⟨fun first second hfirst hsame => h.apart _ _ hsame ▸ hfirst,
    fun key part hpart hhidden => .inr ?_⟩
  rcases hhidden with rfl | ⟨mutability, underlying, hp⟩
  · generalize hp : d.terms.probe key = data at hpart
    cases hp ▸ h.mentions (hp.symm ▸ hpart) with
    | plain hhas => cases hhas.2.symm.trans hl.2
    | mutability hhas => cases hhas.2.symm.trans hl.2
    | @within _ _ _ type _ hhas =>
      have hsort := congrArg Role.sort (hhas.2.symm.trans hl.2)
      rw [Role.sort_of] at hsort
      cases hsort
    | lifetime _ heq => exact ⟨_, _, heq⟩
  · -- the reference is outermost
    obtain ⟨p, depth, declared, type, hhas⟩ := h.has_layer hp hl
    cases h.mentions hpart with
    | plain hhas' => cases hhas'.2.symm.trans hhas.2
    | mutability hhas' => cases hhas'.2.symm.trans hhas.2
    | lifetime hhas' => cases hhas'.2.symm.trans hhas.2
    | @within _ _ _ type' hasks hhas' =>
      have hflat := (hasks.isShallow hshallow).2 (Nat.succ_ne_zero _)
      have heq := hhas'.2.symm.trans hhas.2
      cases type' with
      | generic | concrete => cases heq
      | constructed => cases heq
      | reference => exact hflat.elim

theorem sealed_returned (ht : d.Has term (.returned flow)) : d.terms.Sealed (· = term) := by
  refine ⟨fun first second hfirst hsame => h.apart _ _ hsame ▸ hfirst,
    fun key part hpart hhidden => ?_⟩
  subst hhidden
  cases h.mentions hpart with
  | plain hhas => cases hhas.2.symm.trans ht.2
  | mutability hhas => cases hhas.2.symm.trans ht.2
  | lifetime hhas => cases hhas.2.symm.trans ht.2
  | within _ hhas => exact absurd (hhas.2.symm.trans ht.2) (Role.of_ne_returned flow)

end Lawful

end Draft

/-- A context that the first pass leaves for a graph whose references are outermost. -/
structure Context.Drafted (start : Context) (g : Graph) : Prop where
  seated : g.Seated
  shallow : g.Shallow
  draft : ∃ d : Draft, d.toContext = start ∧ d.Lawful g

namespace Context.Drafted

theorem group_unique (h : start.Drafted g) {id id' : GroupId} {data data' : BorrowGroup}
    (hd : start.groups.groups[id]? = some data) (hd' : start.groups.groups[id']? = some data')
    (heq : data.lifetimeTerm = data'.lifetimeTerm) : id = id' := by
  obtain ⟨-, -, d, rfl, hlawful⟩ := h
  exact hlawful.group_unique hd hd' heq

theorem ne_of_member (h : start.Drafted g) {id : GroupId}
    (hfacade : start.facades.get? port = some (.referenceInput nodeSide wireSide id)) :
    nodeSide ≠ wireSide := by
  obtain ⟨-, -, d, rfl, hlawful⟩ := h
  cases hlawful.dresses port _ hfacade with
  | common hgroup => cases hgroup
  | member _ _ _ hne => exact hne

/-- No two ports keep a flow to themselves. -/
theorem port_unique (h : start.Drafted g) {other : PortId} {facade facade' : Facade}
    (hfacade : start.facades.get? port = some facade) (hguards : g.Guards port facade flow)
    (hfacade' : start.facades.get? other = some facade') (hguards' : g.Guards other facade' flow) :
    port = other := by
  obtain ⟨-, -, d, rfl, hlawful⟩ := h
  exact (hlawful.kept port facade flow hfacade hguards).symm.trans
    (hlawful.kept other facade' flow hfacade' hguards')

section

variable {other : PortId} {facade : Facade} (h : start.Drafted g)
  (houtput : start.facades.get? port = some (.terminationOutput nodeSide wireSide input))
include h houtput

theorem of_output : nodeSide ≠ wireSide ∧ ¬g.IsInput port ∧
    ∀ n, g.IsAt n input → g.IsAt n port := by
  obtain ⟨hs, -, d, rfl, hlawful⟩ := h
  cases hlawful.dresses port _ houtput with
  | common _ hopen => exact absurd rfl (hopen _ _ _)
  | returned hasks hinput hnot _ _ hne =>
    exact ⟨hne, hnot, fun n hat => hat.unique hinput ▸ hasks.isAt hs⟩

/-- What the wires see of an output that hands something back is shown by no other port. -/
theorem port_of_shows (hfacade : start.facades.get? other = some facade)
    (hshows : facade.Shows wireSide) : other = port := by
  have hdrafted := h
  obtain ⟨-, -, d, rfl, hlawful⟩ := h
  cases hlawful.dresses port _ houtput with
  | common _ hopen => exact absurd rfl (hopen _ _ _)
  | returned _ _ _ _ hwire _ =>
    obtain ⟨_, _, rfl⟩ := (hlawful.dresses other facade hfacade).of_returned hshows hwire
    exact hdrafted.port_unique hfacade (.returned rfl) houtput (.returned rfl)

theorem wireSide_ne (hfacade : start.facades.get? other = some facade) (hinput : g.IsInput other) :
    facade.wireSide ≠ wireSide := by
  intro heq
  obtain rfl := h.port_of_shows houtput hfacade (.inr heq.symm)
  exact (h.of_output houtput).2.1 hinput

/-- It has nothing to do with a group only if the output is at another node. -/
theorem not_isAt_of_exposes {id : GroupId} {n : NodeId} (hexposes : start.Exposes g id n wireSide) :
    ¬g.IsAt n port := by
  generalize hflow : wireSide = flow at hexposes
  cases hexposes with
  | input hfacade hinput =>
    obtain rfl := h.port_of_shows houtput hfacade (.inr hflow)
    exact absurd hinput (h.of_output houtput).2.1
  | elsewhere hfacade hat hshows =>
    obtain rfl := h.port_of_shows houtput hfacade (hflow ▸ hshows)
    exact hat
  | member hfacade hne =>
    obtain rfl := h.port_of_shows houtput hfacade (.inl hflow)
    cases houtput.symm.trans hfacade

end

/-- Before the second pass, nothing is known about lifetimes of groups and about outputs that hand
something back. -/
theorem secret (h : start.Drafted g) : Secret g start shut todo start.terms start.flows := by
  obtain ⟨hs, hshallow, d, rfl, hlawful⟩ := h
  refine ⟨fun id data hd _ => ?_, fun id data flow term hd _ hexposes ht hleads => ?_,
    fun port nodeSide wireSide input hfacade _ => ?_⟩
  · obtain ⟨⟨parameter, hlifetime⟩, -⟩ := hlawful.serves id data hd
    refine ⟨?_, fun other hsame => (hlawful.apart _ _ hsame).symm⟩
    have hfits := hlawful.fits_of_has hlifetime
    generalize d.terms.probe data.lifetimeTerm = found at hfits ⊢
    cases hfits
    rfl
  · obtain ⟨⟨parameter, hlifetime⟩, -⟩ := hlawful.serves id data hd
    obtain ⟨hlt, hsort, -⟩ := hlawful.typed flow term ht
    rcases hleads.of_sealed (hlawful.sealed_lifetime hshallow hlifetime) (.inl rfl) with
      rfl | ⟨mutability, underlying, hp⟩
    · rw [hlifetime.2] at hsort
      cases hsort
    obtain ⟨p, depth, declared, type, hhas⟩ := hlawful.has_layer hp hlifetime
    have hbears : d.Bears flow _ := ⟨term, ht, hhas⟩
    cases hexposes with
    | input hfacade hinput =>
      obtain ⟨role, hwire, hcommon⟩ := (hlawful.dresses _ _ hfacade).wire_common hinput
      cases hwire.unique hbears
      exact hcommon
    | elsewhere hfacade hat hshows =>
      obtain ⟨_, hasks⟩ := (hlawful.dresses _ _ hfacade).of_layer hshows hbears
      exact hat (hasks.isAt hs)
    | member hfacade hne =>
      cases hlawful.dresses _ _ hfacade with
      | common hgroup => cases hgroup
      | member _ hnode _ _ hgroup =>
        obtain ⟨rfl, -, -, heq⟩ := Role.layer.inj (hnode.unique hbears)
        obtain ⟨-, rfl, -⟩ := DeclaredType.reference.inj heq
        have hid := (hlawful.grouped _ _ id).mpr ⟨data, hd, rfl, hlifetime⟩
        exact hne (Option.some.inj (hgroup.symm.trans hid))
  · cases hlawful.dresses port _ hfacade with
    | common _ hopen => exact absurd rfl (hopen _ _ _)
    | returned _ _ _ _ hwire _ =>
      obtain ⟨term, ht, hhas⟩ := hwire
      have hfits := hlawful.fits_of_has hhas
      generalize hp : d.terms.probe term = data at hfits
      cases hfits with
      | returned =>
        refine ⟨term, fun other => ⟨fun ho => ?_, fun heq => heq ▸ ht⟩,
          fun other hsame => hlawful.flows_apart _ _ hsame, ⟨_, hp⟩,
          fun other hleads => hleads.of_sealed (hlawful.sealed_returned hhas) rfl⟩
        exact ((hlawful.typed other term ho).2.2 wireSide hhas.2).symm

end Context.Drafted

/-! ## Changes of flows -/

namespace FlowStore

variable {s : FlowStore}

theorem same_merge_iff (hearlier : earlier < s.size) (hlater : later < s.size)
    (left right : FlowId) : (s.merge earlier later).same left right = true ↔
      s.same left right = true ∨ ((s.same left earlier = true ∨ s.same left later = true) ∧
          (s.same right earlier = true ∨ s.same right later = true)) :=
  Classes.same_union hearlier hlater left right

theorem same_symm {left right : FlowId} (h : s.same left right = true) : s.same right left = true :=
  s.classes.same_symm h

end FlowStore

namespace Blank

variable {first second : TermId}

section

variable (h : Blank terms flows flow term) (hfirst : (flows.get earlier).term = some first)
  (hsecond : (flows.get later).term = some second) (hearlier : earlier ≠ flow)
include h hfirst hsecond hearlier

theorem merge (hlater : later ≠ flow) : Blank terms (flows.merge earlier later) flow term := by
  have hne : first ≠ term := fun heq => hearlier ((h.carried earlier).mp (heq ▸ hfirst))
  have hne' : second ≠ term := fun heq => hlater ((h.carried later).mp (heq ▸ hsecond))
  refine h.of_flows (fun other => ?_) fun other hsame => ?_
  · rw [FlowStore.term_merge_eq hfirst hsecond]
    split
    · rename_i hsame
      rw [FlowStore.get_of_same hsame, hfirst]
      simp [hne, hne']
    · exact Iff.rfl
  · rw [FlowStore.same_merge_iff (FlowStore.lt_size_of_term hfirst)
      (FlowStore.lt_size_of_term hsecond)] at hsame
    rcases hsame with hsame | ⟨-, hsame | hsame⟩
    · exact hsame
    · exact absurd (h.alone earlier (FlowStore.same_symm hsame)) hearlier
    · exact absurd (h.alone later (FlowStore.same_symm hsame)) hlater

theorem term_merge : ((flows.merge earlier later).get flow).term = (flows.get flow).term := by
  rw [FlowStore.term_merge_eq hfirst hsecond, if_neg]
  exact fun hsame => hearlier (h.alone earlier (FlowStore.same_symm hsame))

end

end Blank

namespace Secret

variable {first second : TermId} (h : Secret g start shut todo terms flows)
  (hdrafted : start.Drafted g)
include h hdrafted

/-- A sink is joined with a source at a node all of whose groups have been decided. -/
theorem join {source : PortId} {given : Facade} (hgiven : start.facades.get? source = some given)
    (htaken : start.facades.get? sink = some taken) (hinput : g.IsInput sink)
    (helsewhere : ∀ (id : GroupId) (data : BorrowGroup), start.groups.groups[id]? = some data →
      shut id → ¬g.IsAt data.node source) (htodo : ¬todo source)
    (hfirst : (flows.get taken.wireSide).term = some first)
    (hsecond : (flows.get given.wireSide).term = some second) :
    Secret g start shut todo terms (flows.merge taken.wireSide given.wireSide) where
  veiled := h.veiled
  unled id data flow term hd hshut hexposes ht := by
    rw [FlowStore.term_merge_eq hfirst hsecond] at ht
    split at ht
    · cases ht
      exact h.unled id data given.wireSide second hd hshut
        (.elsewhere hgiven (helsewhere id data hd hshut) (.inr rfl)) hsecond
    · exact h.unled id data flow term hd hshut hexposes ht
  blank port nodeSide wireSide input hfacade hport := by
    obtain ⟨term, hblank⟩ := h.blank _ _ _ _ hfacade hport
    refine ⟨term, hblank.merge hfirst hsecond (hdrafted.wireSide_ne hfacade htaken hinput)
      fun heq => ?_⟩
    obtain rfl := hdrafted.port_of_shows hfacade hgiven (.inr heq.symm)
    exact htodo hport

omit hdrafted in
/-- What an output that is settled leads to afterwards is what it is settled with. -/
theorem settles (hs : terms.Sound)
    (houtput : start.facades.get? port = some (.terminationOutput nodeSide wireSide input))
    (hport : todo port) (hfirst : (flows.get wireSide).term = some first)
    (hsort : terms.HasSort first .type) (hsort' : terms.HasSort second .type) {id : GroupId}
    {data : BorrowGroup} (hd : start.groups.groups[id]? = some data) (hshut : shut id) :
    (terms.unify first second).store.Veils data.lifetimeTerm ∧
      ∀ term, (terms.unify first second).store.Leads data.lifetimeTerm term →
        terms.Leads data.lifetimeTerm term ∨
          term = first ∧ terms.Leads data.lifetimeTerm second := by
  have hblank := h.blank_of_term houtput hport hfirst
  obtain ⟨name, hp⟩ := hblank.unknown
  have hveils := h.veiled id data hd hshut
  have hlifetime : terms.HasSort data.lifetimeTerm .lifetime :=
    ⟨hveils.lt, by rw [hveils.probe]; rfl⟩
  obtain ⟨hp', hsame, hleads⟩ := hs.settles_unify hsort hsort' hp hblank.unled hlifetime
  exact ⟨⟨hp'.trans hveils.probe, fun other ho => hveils.alone other (hsame other ▸ ho)⟩, hleads⟩

theorem settle (hs : terms.Sound)
    (houtput : start.facades.get? port = some (.terminationOutput nodeSide wireSide input))
    (hport : todo port) (htodo : ∀ other, todo' other → todo other ∧ other ≠ port)
    (hexposed : ∀ (id : GroupId) (data : BorrowGroup), start.groups.groups[id]? = some data →
      shut id → ¬g.IsAt data.node port → start.Exposes g id data.node back)
    (hback : ∀ other nodeSide wireSide input,
      start.facades.get? other = some (.terminationOutput nodeSide wireSide input) → todo' other →
        back ≠ wireSide) (hfirst : (flows.get wireSide).term = some first)
    (hsecond : (flows.get back).term = some second) (hsort : terms.HasSort first .type)
    (hsort' : terms.HasSort second .type) :
    Secret g start shut todo' (terms.unify first second).store (flows.merge wireSide back) := by
  have hblank := h.blank_of_term houtput hport hfirst
  have hsettles : ∀ (id : GroupId) (data : BorrowGroup), start.groups.groups[id]? = some data →
      shut id → _ := fun _ _ => h.settles hs houtput hport hfirst hsort hsort'
  refine ⟨fun id data hd hshut => (hsettles id data hd hshut).1,
    fun id data flow term hd hshut hexposes ht hleads => ?_,
    fun other nodeSide' wireSide' input' hfacade ho => ?_⟩
  · have hunled := fun flow term => h.unled id data flow term hd hshut
    rw [FlowStore.term_merge_eq hfirst hsecond] at ht
    split at ht
    · rename_i hsame
      obtain rfl := hblank.alone flow hsame
      cases ht
      have hat := hdrafted.not_isAt_of_exposes houtput hexposes
      have hpublic := hunled back second (hexposed id data hd hshut hat) hsecond
      rcases (hsettles id data hd hshut).2 second hleads with hleads | ⟨-, hleads⟩
      · exact hpublic hleads
      · exact hpublic hleads
    · rename_i hsame
      rcases (hsettles id data hd hshut).2 term hleads with hleads | ⟨rfl, -⟩
      · exact hunled flow term hexposes ht hleads
      · -- no other flow carries the type of the output
        rw [(hblank.carried flow).mp ht] at hsame
        exact hsame (flows.classes.same_refl wireSide)
  · have hback' := hback other nodeSide' wireSide' input' hfacade ho
    obtain ⟨ho, hne⟩ := htodo other ho
    obtain ⟨term, hblank'⟩ := h.blank _ _ _ _ hfacade ho
    have hwires : wireSide ≠ wireSide' := by
      intro heq
      exact hne (hdrafted.port_of_shows houtput hfacade (.inr heq))
    refine ⟨term, .merge (.of_screens hblank' (hs.screens_unify hsort hsort' (fun hleads => ?_)
      fun hleads => ?_)) hfirst hsecond hwires hback'⟩
    · exact hwires ((hblank'.carried wireSide).mp (hblank'.unled _ hleads ▸ hfirst))
    · exact hback' ((hblank'.carried back).mp (hblank'.unled _ hleads ▸ hsecond))

theorem public_join (htaken : start.facades.get? sink = some taken) (hinput : g.IsInput sink)
    (hfirst : (flows.get taken.wireSide).term = some first)
    (hsecond : (flows.get later).term = some second)
    (hpublic : Public start shut todo terms flows term) :
    Public start shut todo terms (flows.merge taken.wireSide later) term := by
  refine hpublic.of_flows fun port nodeSide wireSide input hfacade hport => ?_
  obtain ⟨found, hblank⟩ := h.blank _ _ _ _ hfacade hport
  exact hblank.term_merge hfirst hsecond (hdrafted.wireSide_ne hfacade htaken hinput)

theorem public_settle (hs : terms.Sound)
    (houtput : start.facades.get? port = some (.terminationOutput nodeSide wireSide input))
    (hport : todo port) (htodo : ∀ other, todo' other → todo other ∧ other ≠ port)
    (hfirst : (flows.get wireSide).term = some first)
    (hsecond : (flows.get back).term = some second) (hsort : terms.HasSort first .type)
    (hsort' : terms.HasSort second .type) (hpublic : Public start shut todo terms flows term) :
    Public start shut todo' (terms.unify first second).store (flows.merge wireSide back) term where
  groups id data hd hshut hleads := by
    rcases (h.settles hs houtput hport hfirst hsort hsort' hd hshut).2 term hleads with
      hleads | ⟨rfl, -⟩
    · exact hpublic.groups id data hd hshut hleads
    · exact hpublic.outputs port nodeSide wireSide input houtput hport hfirst
  outputs other nodeSide' wireSide' input' hfacade ho := by
    obtain ⟨ho, hne⟩ := htodo other ho
    obtain ⟨found, hblank⟩ := h.blank _ _ _ _ hfacade ho
    rw [hblank.term_merge hfirst hsecond fun heq =>
      hne (hdrafted.port_of_shows houtput hfacade (.inr heq))]
    exact hpublic.outputs other nodeSide' wireSide' input' hfacade ho

end Secret

/-! ## What nodes go on seeing -/

def Graph.Fixes (g : Graph) (port : PortId) (facade : Facade) : Prop :=
  facade.group?.isSome = true ∨ g.IsDeclared port ∧ ¬g.IsInput port

/-- What the node sees of members and of outputs with a signature is what it saw at the start. It is
apart from what the wires see of sinks that have not been joined, and these are apart from each
other. -/
structure Steady (g : Graph) (start : Context) (pending : PortId → Prop) (flows : FlowStore) :
    Prop where
  kept : ∀ port facade, start.facades.get? port = some facade → g.Fixes port facade →
    (flows.get facade.nodeSide).term = (start.flows.get facade.nodeSide).term
  apart : ∀ sink taken port facade, pending sink → g.IsInput sink →
    start.facades.get? sink = some taken → start.facades.get? port = some facade →
      g.Fixes port facade → ¬flows.same taken.wireSide facade.nodeSide = true
  sinks : ∀ sink taken other found, pending sink → g.IsInput sink →
    start.facades.get? sink = some taken → pending other → g.IsInput other →
      start.facades.get? other = some found → sink ≠ other →
        ¬flows.same taken.wireSide found.wireSide = true

namespace Steady

variable {pending pending' : PortId → Prop} {first second : TermId}

theorem of_drafted (hdrafted : start.Drafted g) : Steady g start pending start.flows := by
  have hflows : ∀ flow flow', start.flows.same flow flow' = true → flow = flow' := by
    obtain ⟨-, -, d, rfl, hlawful⟩ := hdrafted
    exact hlawful.flows_apart
  refine ⟨fun _ _ _ _ => rfl, fun sink taken port facade _ hinput htaken hfacade hfixes hsame => ?_,
    fun sink taken other found _ hinput htaken _ hinput' hf hne hsame => hne ?_⟩
  · have heq := hflows _ _ hsame
    obtain rfl := hdrafted.port_unique htaken (.input hinput) hfacade
      (heq ▸ .node (hfixes.imp_right And.left))
    cases htaken.symm.trans hfacade
    rcases hfixes with hgroup | ⟨-, houtput⟩
    · obtain ⟨group, hgroup⟩ := Option.isSome_iff_exists.mp hgroup
      obtain ⟨nodeSide, wireSide, rfl⟩ := Facade.exists_of_group? hgroup
      exact hdrafted.ne_of_member htaken heq.symm
    · exact houtput hinput
  · exact hdrafted.port_unique htaken (.input hinput) hf (hflows _ _ hsame ▸ .input hinput')

variable (h : Steady g start pending flows)
include h

theorem mono (hpending : ∀ sink, pending' sink → pending sink) : Steady g start pending' flows :=
  ⟨h.kept, fun sink taken port facade hsink => h.apart sink taken port facade (hpending sink hsink),
    fun sink taken other found hsink hinput htaken ho =>
      h.sinks sink taken other found (hpending sink hsink) hinput htaken (hpending other ho)⟩

theorem of_flows (ht : ∀ flow, (flows'.get flow).term = (flows.get flow).term)
    (hsame : ∀ left right, flows'.same left right = flows.same left right) :
    Steady g start pending flows' where
  kept port facade hfacade hfixes := (ht _).trans (h.kept port facade hfacade hfixes)
  apart sink taken port facade hsink hinput htaken hfacade hfixes := by
    rw [hsame]
    exact h.apart sink taken port facade hsink hinput htaken hfacade hfixes
  sinks sink taken other found hsink hinput htaken ho hinput' hf hne := by
    rw [hsame]
    exact h.sinks sink taken other found hsink hinput htaken ho hinput' hf hne

/-- A flow that is apart from what the nodes see and from the sinks is merged with another one. -/
theorem merge (hpending : ∀ sink, pending' sink → pending sink)
    (hfirst : (flows.get earlier).term = some first)
    (hsecond : (flows.get later).term = some second)
    (hnode : ∀ port facade, start.facades.get? port = some facade → g.Fixes port facade →
      ¬flows.same facade.nodeSide earlier = true)
    (hsinks : ∀ sink taken, pending' sink → g.IsInput sink →
      start.facades.get? sink = some taken → ¬flows.same taken.wireSide earlier = true) :
    Steady g start pending' (flows.merge earlier later) := by
  have hmerge := FlowStore.same_merge_iff (FlowStore.lt_size_of_term hfirst)
    (FlowStore.lt_size_of_term hsecond)
  -- neither of two flows is in the earlier class, so they have been one before
  have hback : ∀ left right, ¬flows.same left earlier = true → ¬flows.same right earlier = true →
      (flows.merge earlier later).same left right = true → flows.same left right = true := by
    intro left right hl hr hsame
    rcases (hmerge left right).mp hsame with hsame | ⟨hl', hr'⟩
    · exact hsame
    · exact flows.classes.same_trans (hl'.resolve_left hl)
        (FlowStore.same_symm (hr'.resolve_left hr))
  refine ⟨fun port facade hfacade hfixes => ?_,
    fun sink taken port facade hsink hinput htaken hfacade hfixes hsame => ?_,
    fun sink taken other found hsink hinput htaken ho hinput' hf hne hsame => ?_⟩
  · rw [FlowStore.term_merge_eq hfirst hsecond, if_neg (hnode port facade hfacade hfixes)]
    exact h.kept port facade hfacade hfixes
  · exact h.apart sink taken port facade (hpending sink hsink) hinput htaken hfacade hfixes
      (hback _ _ (hsinks sink taken hsink hinput htaken) (hnode port facade hfacade hfixes) hsame)
  · exact h.sinks sink taken other found (hpending sink hsink) hinput htaken (hpending other ho)
      hinput' hf hne
      (hback _ _ (hsinks sink taken hsink hinput htaken) (hsinks other found ho hinput' hf) hsame)

theorem join (hsink : pending sink) (hinput : g.IsInput sink)
    (htaken : start.facades.get? sink = some taken)
    (hpending : ∀ other, pending' other → pending other ∧ other ≠ sink)
    (hfirst : (flows.get taken.wireSide).term = some first)
    (hsecond : (flows.get later).term = some second) :
    Steady g start pending' (flows.merge taken.wireSide later) := by
  refine h.merge (fun other ho => (hpending other ho).1) hfirst hsecond
    (fun port facade hfacade hfixes hsame => ?_) fun other found ho hinput' hf hsame => ?_
  · exact h.apart sink taken port facade hsink hinput htaken hfacade hfixes
      (FlowStore.same_symm hsame)
  · obtain ⟨ho, hne⟩ := hpending other ho
    exact h.sinks other found sink taken ho hinput' hf hsink hinput htaken hne hsame

theorem settle (hdrafted : start.Drafted g)
    (houtput : start.facades.get? port = some (.terminationOutput nodeSide wireSide input))
    (hblank : Blank terms flows wireSide first) (hsecond : (flows.get back).term = some second) :
    Steady g start pending (flows.merge wireSide back) := by
  refine h.merge (fun _ => id) hblank.term_eq hsecond
    (fun other facade hfacade _ hsame => ?_) fun sink taken _ hinput htaken hsame => ?_
  · have heq := hblank.alone _ hsame
    obtain rfl := hdrafted.port_of_shows houtput hfacade (.inl heq.symm)
    cases houtput.symm.trans hfacade
    exact (hdrafted.of_output houtput).1 heq
  · obtain rfl := hdrafted.port_of_shows houtput htaken (.inr (hblank.alone _ hsame).symm)
    exact (hdrafted.of_output houtput).2.1 hinput

end Steady

end BorrowFlow
