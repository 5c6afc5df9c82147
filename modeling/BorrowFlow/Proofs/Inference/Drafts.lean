import BorrowFlow.Proofs.Inference.Arrangement
import BorrowFlow.Proofs.Term.Literals

/-!
# What things are made for

The first pass creates terms, flows and groups, and changes none that is there. A draft is a context
of that pass with notes on it: what each term was made for, which port keeps a flow to itself, and
what has been instantiated for each node. In a lawful draft everything is what its notes say, and
whatever the first pass does can be noted down such that the draft stays lawful.
-/

namespace BorrowFlow

variable {g : Graph} {n m : NodeId} {p : PortId} {f : FlowId} {t : TermId} {data : Term}

/-! ## Ports and what their nodes declare -/

namespace Graph

def IsInput (g : Graph) (p : PortId) : Prop :=
  ∃ data, g.ports[p]? = some data ∧ data.direction = .input

def IsAt (g : Graph) (n : NodeId) (p : PortId) : Prop :=
  ∃ data, g.ports[p]? = some data ∧ data.node = n

theorem IsAt.unique (h : g.IsAt n p) (h' : g.IsAt m p) : n = m := by
  obtain ⟨data, hd, rfl⟩ := h
  obtain ⟨data', hd', rfl⟩ := h'
  cases hd.symm.trans hd'
  rfl

/-- The type that a node declares for a port, and the types within it at their depths. A tunnel that
iterates declares a mutable reference to an iterator. -/
inductive Asks (g : Graph) (n : NodeId) (p : PortId) : Nat → DeclaredType → Prop
  | parameter {node : Node} {signature : Signature} {pair : Parameter × PortId}
      (hnode : g.nodes[n]? = some node) (hkind : node.kind = .functional signature)
      (hpair : pair ∈ node.assigned signature) (hport : pair.2 = p) : Asks g n p 0 pair.1.type
  | iterated {node : Node} {owner : NodeId} (hnode : g.nodes[n]? = some node)
      (hkind : node.kind = .border owner .iterateTunnel) (hport : p ∈ node.inputs) :
      Asks g n p 0 (.reference .mutable 0 (.constructed .iterator (.generic 0)))
  | constructed {depth : Nat} {head : TypeConstructor} {argument : DeclaredType}
      (h : Asks g n p depth (.constructed head argument)) : Asks g n p (depth + 1) argument
  | reference {depth parameter : Nat} {mutability : DeclaredMutability} {referent : DeclaredType}
      (h : Asks g n p depth (.reference mutability parameter referent)) :
      Asks g n p (depth + 1) referent

def IsDeclared (g : Graph) (p : PortId) : Prop := ∃ n type, g.Asks n p 0 type

/-- An operation has a type parameter with the given constraints. -/
def Bounds (g : Graph) (n : NodeId) (index : Nat) (constraints : List Constraint) : Prop :=
  ∀ node signature, g.nodes[n]? = some node → node.kind = .functional signature →
    ∃ generic, signature.generics[index]? = some generic ∧ generic.constraints = constraints

/-- The flows that a port shares with no other port that keeps them as well: what the wires see of
an input, what the node sees of a member of a group or of a port with a declared type, and what the
wires see of an output that hands something back. -/
inductive Guards (g : Graph) (p : PortId) (facade : Facade) : FlowId → Prop
  | input (h : g.IsInput p) : Guards g p facade facade.wireSide
  | node (h : facade.group?.isSome = true ∨ g.IsDeclared p) : Guards g p facade facade.nodeSide
  | returned {nodeSide wireSide : FlowId} {input : PortId}
    (h : facade = .terminationOutput nodeSide wireSide input) : Guards g p facade wireSide

end Graph

/-! ## Notes -/

/-- What a term is made for: for anyone's use, for a parameter of a node, for a layer of a type that
a node declares for a port, or for what the wires see of an output that hands something back. -/
inductive Role where
  | plain (sort : TermSort)
  | generic (n : NodeId) (index : Nat)
  | lifetime (n : NodeId) (parameter : Nat)
  | mutability (n : NodeId) (parameter : Nat)
  | layer (n : NodeId) (p : PortId) (depth : Nat) (type : DeclaredType)
  | returned (f : FlowId)

namespace Role

def sort : Role → TermSort
  | plain sort => sort
  | lifetime .. => .lifetime
  | mutability .. => .mutability
  | generic .. | layer .. | returned _ => .type

/-- The role of a term for a declared type. -/
def of (n : NodeId) (p : PortId) (depth : Nat) : DeclaredType → Role
  | .generic index => generic n index
  | .concrete _ => plain .type
  | type => layer n p depth type

/-- Whether a parameter of a node is named by the role. -/
def isParameter : Role → Bool
  | generic .. | lifetime .. | mutability .. => true
  | _ => false

/-- Types that any port may show: neither references with lifetimes of nodes nor what is handed
back. -/
def IsCommon : Role → Prop
  | layer _ _ _ (.reference ..) | returned _ => False
  | role => role.sort = .type

theorem sort_of (n : NodeId) (p : PortId) (depth : Nat) (type : DeclaredType) :
    (of n p depth type).sort = .type := by
  cases type <;> rfl

theorem of_ne_returned {depth : Nat} {type : DeclaredType} (f : FlowId) :
    of n p depth type ≠ returned f := by
  cases type <;> simp [of]

variable {has has' : TermId → Role → Prop} {role : Role}

/-- The mutability of a reference with the given parameter. -/
def Shares (has : TermId → Role → Prop) (n : NodeId) (parameter : Nat)
    (declared : DeclaredMutability) : Mutability → Prop
  | .fixed mutable => declared ≠ .polymorphic ∧ declared.policy.acceptsMutable = mutable
  | .shared t => declared = .polymorphic ∧ has t (.mutability n parameter)

/-- What a term of each role may be. -/
inductive Fits (has : TermId → Role → Prop) (g : Graph) : Role → Term → Prop
  | unbound {id : Nat} : Fits has g (.plain .type) (.unbound id [])
  | literal {type : DataType} : Fits has g (.plain .type) (.literal type)
  | constructed {head : TypeConstructor} {argument : TermId}
      (hargument : has argument (.plain .type)) :
      Fits has g (.plain .type) (.constructed head argument)
  | reference {mutable : Bool} {underlying lifetime : TermId}
      (hunderlying : has underlying (.plain .type)) (hlifetime : has lifetime (.plain .lifetime)) :
      Fits has g (.plain .type) (.reference (.fixed mutable) underlying lifetime)
  | opened {value : Option Lifetime} : Fits has g (.plain .lifetime) (.lifetime value)
  | generic {n : NodeId} {id index : Nat} {constraints : List Constraint}
      (hbounds : g.Bounds n index constraints) :
      Fits has g (.generic n index) (.unbound id constraints)
  | lifetime {n : NodeId} {parameter : Nat} : Fits has g (.lifetime n parameter) (.lifetime none)
  | mutability {n : NodeId} {parameter : Nat} :
      Fits has g (.mutability n parameter) (.mutability none)
  | layerConstructed {n : NodeId} {p : PortId} {depth : Nat} {head : TypeConstructor}
      {type : DeclaredType} {argument : TermId} (hasks : g.Asks n p depth (.constructed head type))
      (hargument : has argument (.of n p (depth + 1) type)) :
      Fits has g (.layer n p depth (.constructed head type)) (.constructed head argument)
  | layerReference {n : NodeId} {p : PortId} {depth parameter : Nat}
      {declared : DeclaredMutability} {type : DeclaredType} {mutability : Mutability}
      {underlying lifetime : TermId} (hasks : g.Asks n p depth (.reference declared parameter type))
      (hshares : Shares has n parameter declared mutability)
      (hunderlying : has underlying (.of n p (depth + 1) type))
      (hlifetime : has lifetime (.lifetime n parameter)) :
      Fits has g (.layer n p depth (.reference declared parameter type))
        (.reference mutability underlying lifetime)
  | returned {f : FlowId} {id : Nat} : Fits has g (.returned f) (.unbound id [])

theorem Fits.mono (h : Fits has g role data) (hhas : ∀ t role, has t role → has' t role) :
    Fits has' g role data := by
  cases h with
  | unbound => exact .unbound
  | literal => exact .literal
  | constructed hargument => exact .constructed (hhas _ _ hargument)
  | reference hunderlying hlifetime => exact .reference (hhas _ _ hunderlying) (hhas _ _ hlifetime)
  | opened => exact .opened
  | generic hbounds => exact .generic hbounds
  | lifetime => exact .lifetime
  | mutability => exact .mutability
  | layerConstructed hasks hargument => exact .layerConstructed hasks (hhas _ _ hargument)
  | @layerReference _ _ _ _ _ _ shared _ _ hasks hshares hunderlying hlifetime =>
    refine .layerReference hasks ?_ (hhas _ _ hunderlying) (hhas _ _ hlifetime)
    cases shared with
    | fixed mutable => exact hshares
    | shared t => exact ⟨hshares.1, hhas _ _ hshares.2⟩
  | returned => exact .returned

theorem Fits.sort_eq (h : Fits has g role data) : data.sort = role.sort := by
  cases h <;> rfl

end Role

/-- A context of the first pass with notes on it. -/
structure Draft extends Context where
  role : TermId → Role := fun _ => .plain .type
  keeper : FlowId → PortId := fun _ => 0
  book : NodeId → Instantiation := fun _ => { generics := [] }

namespace Draft

variable {d d' d'' : Draft} {role : Role}

def Has (d : Draft) (t : TermId) (role : Role) : Prop :=
  t < d.terms.size ∧ d.role t = role

def Bears (d : Draft) (f : FlowId) (role : Role) : Prop :=
  ∃ t, (d.flows.get f).term = some t ∧ d.Has t role

/-- What a port may show. Its node sees what it declares for the port, and the wires see the same,
except where a reference is taken or handed back. -/
inductive Dresses (d : Draft) (g : Graph) (p : PortId) : Facade → Prop
  | common {facade : Facade} {seen shown : Role} (hgroup : facade.group? = none)
      (hopen : ∀ nodeSide wireSide input, facade ≠ .terminationOutput nodeSide wireSide input)
      (hnode : d.Bears facade.nodeSide seen) (hseen : seen.IsCommon)
      (hwire : d.Bears facade.wireSide shown) (hshown : shown.IsCommon) : Dresses d g p facade
  | simple {f : FlowId} {n : NodeId} {type : DeclaredType} (hasks : g.Asks n p 0 type)
      (hinput : g.IsInput p → type.referenceLifetime? = none)
      (hflow : d.Bears f (.of n p 0 type)) : Dresses d g p (.simple f)
  | member {nodeSide wireSide : FlowId} {group : GroupId} {n : NodeId} {parameter : Nat}
      {declared : DeclaredMutability} {type : DeclaredType}
      (hasks : g.Asks n p 0 (.reference declared parameter type))
      (hnode : d.Bears nodeSide (.layer n p 0 (.reference declared parameter type)))
      (hwire : d.Bears wireSide (.plain .type)) (hne : nodeSide ≠ wireSide)
      (hgroup : (d.book n).groups.get? parameter = some group) :
      Dresses d g p (.referenceInput nodeSide wireSide group)
  | returned {nodeSide wireSide : FlowId} {input : PortId} {n : NodeId} {type : DeclaredType}
      (hasks : g.Asks n p 0 type) (hinput : g.IsAt n input)
      (houtput : ¬g.IsInput p) (hnode : d.Bears nodeSide (.of n p 0 type))
      (hwire : d.Bears wireSide (.returned wireSide)) (hne : nodeSide ≠ wireSide) :
      Dresses d g p (.terminationOutput nodeSide wireSide input)

end Draft

/-- What a book lists is what the notes on terms say. -/
structure Role.Lists (book : NodeId → Instantiation) (has : TermId → Role → Prop) : Prop where
  generics : ∀ (n : NodeId) (index : Nat) (t : TermId),
    (book n).generics[index]? = some t ↔ has t (.generic n index)
  lifetimes : ∀ n parameter t,
    (book n).lifetimes.get? parameter = some t ↔ has t (.lifetime n parameter)
  mutabilities : ∀ n parameter t,
    (book n).mutabilities.get? parameter = some t → has t (.mutability n parameter)

namespace Draft

variable {d d' d'' : Draft} {role : Role}

/-- Everything in the draft is what its notes say, and nothing has been unified or merged. -/
structure Lawful (d : Draft) (g : Graph) : Prop where
  sound : d.terms.Sound
  apart : ∀ t t', d.terms.same t t' = true → t = t'
  fits : ∀ t < d.terms.size, Role.Fits d.Has g (d.role t) (d.terms.probe t)
  flows_apart : ∀ f f', d.flows.same f f' = true → f = f'
  typed : ∀ f t, (d.flows.get f).term = some t → t < d.terms.size ∧ (d.role t).sort = .type ∧
    ∀ f', d.role t = .returned f' → f' = f
  lists : Role.Lists d.book d.Has
  grouped : ∀ n parameter (id : GroupId), (d.book n).groups.get? parameter = some id ↔
    ∃ b, d.groups.groups[id]? = some b ∧ b.node = n ∧ d.Has b.lifetimeTerm (.lifetime n parameter)
  serves : ∀ (id : GroupId) (b : BorrowGroup), d.groups.groups[id]? = some b →
    (∃ parameter, d.Has b.lifetimeTerm (.lifetime b.node parameter)) ∧
      (g.nodes[b.node]?).map Node.scope = some b.scope
  dresses : ∀ p facade, d.facades.get? p = some facade → d.Dresses g p facade
  kept : ∀ p facade f, d.facades.get? p = some facade → g.Guards p facade f → d.keeper f = p
  arranged : g.Arranged d.facades d.groups

/-- Things were added to a draft for a node, with notes on them. -/
structure Grows (n : NodeId) (d d' : Draft) : Prop where
  has : ∀ t role, d.Has t role → d'.Has t role
  flow : ∀ f t, (d.flows.get f).term = some t →
    (d'.flows.get f).term = some t ∧ d'.keeper f = d.keeper f
  facades : ∀ p facade, d.facades.get? p = some facade → d'.facades.get? p = some facade
  groups : ∀ m parameter (id : GroupId), (d.book m).groups.get? parameter = some id →
    (d'.book m).groups.get? parameter = some id
  others : ∀ m, m ≠ n → d'.book m = d.book m
  order : d'.order = d.order

theorem Grows.refl (n : NodeId) (d : Draft) : Grows n d d :=
  ⟨fun _ _ => id, fun _ _ ht => ⟨ht, rfl⟩, fun _ _ => id, fun _ _ _ => id, fun _ _ => rfl, rfl⟩

theorem Grows.trans (h : Grows n d d') (h' : Grows n d' d'') : Grows n d d'' where
  has t role ht := h'.has t role (h.has t role ht)
  flow f t hf := by
    obtain ⟨ht, hkept⟩ := h.flow f t hf
    obtain ⟨ht', hkept'⟩ := h'.flow f t ht
    exact ⟨ht', hkept'.trans hkept⟩
  facades p facade hfacade := h'.facades p facade (h.facades p facade hfacade)
  groups m parameter id hid := h'.groups m parameter id (h.groups m parameter id hid)
  others m hm := (h'.others m hm).trans (h.others m hm)
  order := h'.order.trans h.order

theorem Grows.bears (h : Grows n d d') (f : FlowId) (role : Role) (hf : d.Bears f role) :
    d'.Bears f role := by
  obtain ⟨t, ht, hhas⟩ := hf
  exact ⟨t, (h.flow f t ht).1, h.has t role hhas⟩

theorem Dresses.mono {facade : Facade} (h : d.Dresses g p facade)
    (hbears : ∀ f role, d.Bears f role → d'.Bears f role)
    (hgroups : ∀ n parameter (id : GroupId), (d.book n).groups.get? parameter = some id →
      (d'.book n).groups.get? parameter = some id) : d'.Dresses g p facade := by
  cases h with
  | common hgroup hopen hnodeSide hcommon hwireSide hcommon' =>
    exact .common hgroup hopen (hbears _ _ hnodeSide) hcommon (hbears _ _ hwireSide) hcommon'
  | simple hasks hinput hf => exact .simple hasks hinput (hbears _ _ hf)
  | member hasks hnodeSide hwireSide hne hgroup =>
    exact .member hasks (hbears _ _ hnodeSide) (hbears _ _ hwireSide) hne (hgroups _ _ _ hgroup)
  | returned hasks hinput houtput hnodeSide hwireSide hne =>
    exact .returned hasks hinput houtput (hbears _ _ hnodeSide) (hbears _ _ hwireSide) hne

theorem Lawful.hasSort (h : d.Lawful g) (ht : d.Has t role) : d.terms.HasSort t role.sort := by
  obtain ⟨hlt, rfl⟩ := ht
  exact ⟨hlt, (h.fits t hlt).sort_eq⟩

theorem Lawful.fits_of_has (h : d.Lawful g) (ht : d.Has t role) :
    Role.Fits d.Has g role (d.terms.probe t) := by
  obtain ⟨hlt, rfl⟩ := ht
  exact h.fits t hlt

theorem Lawful.partsFit (h : d.Lawful g) (hfits : Role.Fits d.Has g role data) :
    d.terms.PartsFit data := by
  cases hfits with
  | constructed hargument => exact h.hasSort hargument
  | reference hunderlying hlifetime => exact ⟨trivial, h.hasSort hunderlying, h.hasSort hlifetime⟩
  | layerConstructed _ hargument =>
    have hsort := h.hasSort hargument
    rwa [Role.sort_of] at hsort
  | @layerReference _ _ _ _ _ _ shared _ _ _ hshares hunderlying hlifetime =>
    refine ⟨?_, Role.sort_of .. ▸ h.hasSort hunderlying, h.hasSort hlifetime⟩
    cases shared with
    | fixed mutable => trivial
    | shared t => exact h.hasSort hshares.2
  | _ => trivial

end Draft

/-! ## Adding to a draft -/

/-- A term was added to the end of a store. -/
structure TermStore.Adds (s : TermStore) (data : Term) (s' : TermStore) : Prop where
  size : s'.size = s.size + 1
  same : ∀ t t', s'.same t t' = s.same t t'
  probe : ∀ t, s'.probe t = if t = s.size then data else s.probe t
  sound : s.Sound → s.PartsFit data → s'.Sound

theorem TermStore.adds_push (s : TermStore) (data : Term) : s.Adds data (s.push data).2 :=
  ⟨size_push s data, same_push s data, probe_push s data, fun hs => hs.push⟩

theorem TermStore.adds_newUnbound (s : TermStore) (constraints : List Constraint) :
    s.Adds (.unbound s.nextUnbound constraints) (s.newUnbound constraints).2 :=
  ⟨size_push .., same_push _ _, probe_push _ _, fun hs _ => hs.newUnbound constraints⟩

/-- Groups differ in their members only. -/
def BorrowGroups.Alike (groups groups' : BorrowGroups) : Prop :=
  ∀ (id : GroupId) (b : BorrowGroup), (∃ members, groups.groups[id]? = some { b with members }) ↔
    ∃ members, groups'.groups[id]? = some { b with members }

theorem BorrowGroups.alike_of_modify {groups groups' : BorrowGroups} {id : GroupId}
    (change : BorrowGroup → List GroupMember)
    (h : groups'.groups = (groups.modify id fun b => { b with members := change b }).groups) :
    groups.Alike groups' := by
  intro other b
  rw [h, modify, Array.getElem?_modify]
  split
  · cases groups.groups[other]? with
    | none => simp
    | some old =>
      cases old
      simp
  · rfl

namespace Draft

variable {d d' : Draft} {role : Role} {terms : TermStore} {book : NodeId → Instantiation}

/-- What terms are made for once there is one more. -/
def HasWith (d : Draft) (role : Role) (t : TermId) (r : Role) : Prop :=
  d.Has t r ∨ t = d.terms.size ∧ role = r

def add (d : Draft) (terms : TermStore) (role : Role) (book : NodeId → Instantiation) : Draft :=
  { d with terms, role := Function.update d.role d.terms.size role, book }

section

variable (hadds : d.terms.Adds data terms)
include hadds

theorem has_add {r : Role} : (d.add terms role book).Has t r ↔ d.HasWith role t r := by
  show t < terms.size ∧ Function.update d.role d.terms.size role t = r ↔ _
  rw [hadds.size, Function.update_apply]
  by_cases heq : t = d.terms.size
  · simp [heq, HasWith, Has]
  · rw [if_neg heq, Nat.lt_succ_iff_lt_or_eq, or_iff_left heq]
    exact (or_iff_left fun hnew => heq hnew.1).symm

theorem grows_add (hgroups : ∀ m, (book m).groups = (d.book m).groups)
    (hothers : ∀ m, m ≠ n → book m = d.book m) : Grows n d (d.add terms role book) where
  has _ _ ht := (has_add hadds).mpr (.inl ht)
  flow _ _ ht := ⟨ht, rfl⟩
  facades _ _ := id
  groups m _ _ hid := by
    show (book m).groups.get? _ = _
    rwa [hgroups]
  others := hothers
  order := rfl

theorem Lawful.add (h : d.Lawful g) (hfits : Role.Fits d.Has g role data)
    (hlists : Role.Lists book (d.HasWith role))
    (hgroups : ∀ m, (book m).groups = (d.book m).groups) :
    (d.add terms role book).Lawful g := by
  have hhas : ∀ {t r}, (d.add terms role book).Has t r ↔ _ := has_add hadds
  have hold : ∀ t r, d.Has t r → (d.add terms role book).Has t r := fun t r ht => hhas.mpr (.inl ht)
  have hother : ∀ t, t < d.terms.size → (d.add terms role book).role t = d.role t :=
    fun t hlt => Function.update_of_ne (Nat.ne_of_lt hlt) ..
  refine ⟨hadds.sound h.sound (h.partsFit hfits), fun t t' hsame => h.apart t t' ?_,
    fun t (hlt : t < terms.size) => ?_, h.flows_apart, fun f t ht => ?_, ?_,
    fun m parameter id => ?_, fun id b hb => ?_, fun p facade hfacade => ?_, h.kept, h.arranged⟩
  · rwa [← hadds.same]
  · show Role.Fits _ g _ (terms.probe t)
    rw [hadds.probe]
    split
    · rename_i heq
      rw [heq, show (d.add terms role book).role d.terms.size = role from Function.update_self ..]
      exact hfits.mono hold
    · rename_i hne
      rw [hadds.size] at hlt
      have hlt' := Nat.lt_of_le_of_ne (Nat.le_of_lt_succ hlt) hne
      rw [hother t hlt']
      exact (h.fits t hlt').mono hold
  · obtain ⟨hlt, hsort⟩ := h.typed f t ht
    rw [hother t hlt]
    exact ⟨(hold t _ ⟨hlt, rfl⟩).1, hsort⟩
  · exact ⟨fun m index t => (hlists.generics m index t).trans hhas.symm,
      fun m parameter t => (hlists.lifetimes m parameter t).trans hhas.symm,
      fun m parameter t ht => hhas.mpr (hlists.mutabilities m parameter t ht)⟩
  · show (book m).groups.get? parameter = some id ↔ _
    rw [hgroups, h.grouped]
    refine exists_congr fun b => and_congr_right fun hb => and_congr_right fun _ => ?_
    refine ⟨hold _ _, fun ht => (hhas.mp ht).resolve_right fun hnew => ?_⟩
    -- groups have lifetimes that were there before
    obtain ⟨⟨_, hlifetime⟩, -⟩ := h.serves id b hb
    exact Nat.ne_of_lt hlifetime.1 hnew.1
  · obtain ⟨⟨parameter, hlifetime⟩, hscope⟩ := h.serves id b hb
    exact ⟨⟨parameter, hold _ _ hlifetime⟩, hscope⟩
  · refine (h.dresses p facade hfacade).mono ?_ fun m _ _ hid => ?_
    · rintro f r ⟨t, ht, hhas⟩
      exact ⟨t, ht, hold t r hhas⟩
    · show (book m).groups.get? _ = _
      rwa [hgroups]

end

/-- Nothing is listed anew for a term that is not made for a parameter. -/
theorem Lawful.lists_add (h : d.Lawful g) (hrole : role.isParameter = false) :
    Role.Lists d.book (d.HasWith role) where
  generics m index t := (h.lists.generics m index t).trans
    (or_iff_left fun hnew => by rw [hnew.2] at hrole; cases hrole).symm
  lifetimes m parameter t := (h.lists.lifetimes m parameter t).trans
    (or_iff_left fun hnew => by rw [hnew.2] at hrole; cases hrole).symm
  mutabilities m parameter t ht := .inl (h.lists.mutabilities m parameter t ht)

/-- A term that is made for a parameter of a node is listed for the node. -/
theorem Lawful.lists_update (h : d.Lawful g) {used : Instantiation}
    (hgenerics : ∀ (index : Nat) (t : TermId), used.generics[index]? = some t ↔
      (d.book n).generics[index]? = some t ∨ t = d.terms.size ∧ role = .generic n index)
    (hlifetimes : ∀ parameter t, used.lifetimes.get? parameter = some t ↔
      (d.book n).lifetimes.get? parameter = some t ∨
        t = d.terms.size ∧ role = .lifetime n parameter)
    (hmutabilities : ∀ parameter t, used.mutabilities.get? parameter = some t →
      (d.book n).mutabilities.get? parameter = some t ∨
        t = d.terms.size ∧ role = .mutability n parameter)
    (hother : ∀ m, m ≠ n → ∀ index, role ≠ .generic m index ∧ role ≠ .lifetime m index) :
    Role.Lists (Function.update d.book n used) (d.HasWith role) := by
  have hl := h.lists
  refine ⟨fun m index t => ?_, fun m parameter t => ?_, fun m parameter t ht => ?_⟩
  · by_cases heq : m = n
    · rw [heq, Function.update_self, hgenerics, hl.generics, HasWith]
    · rw [Function.update_of_ne heq, hl.generics]
      exact (or_iff_left fun hnew => (hother m heq index).1 hnew.2).symm
  · by_cases heq : m = n
    · rw [heq, Function.update_self, hlifetimes, hl.lifetimes, HasWith]
    · rw [Function.update_of_ne heq, hl.lifetimes]
      exact (or_iff_left fun hnew => (hother m heq parameter).2 hnew.2).symm
  · by_cases heq : m = n
    · rw [heq, Function.update_self] at ht
      exact heq ▸ (hmutabilities parameter t ht).imp_left (hl.mutabilities n parameter t)
    · rw [Function.update_of_ne heq] at ht
      exact .inl (hl.mutabilities m parameter t ht)

theorem Dresses.sides {facade : Facade} (h : d.Dresses g p facade) :
    (∃ seen, d.Bears facade.nodeSide seen) ∧ ∃ shown, d.Bears facade.wireSide shown := by
  cases h with
  | common _ _ hnode _ hwire _ | member _ hnode hwire _ _ | returned _ _ _ hnode hwire _ =>
    exact ⟨⟨_, hnode⟩, _, hwire⟩
  | simple _ _ hflow => exact ⟨⟨_, hflow⟩, _, hflow⟩

theorem Dresses.lt_size {facade : Facade} (h : d.Dresses g p facade) :
    facade.nodeSide < d.flows.size ∧ facade.wireSide < d.flows.size := by
  obtain ⟨⟨_, t, ht, -⟩, _, t', ht', -⟩ := h.sides
  exact ⟨FlowStore.lt_size_of_term ht, FlowStore.lt_size_of_term ht'⟩

theorem Dresses.exists_bears {facade : Facade} (h : d.Dresses g p facade)
    (hf : g.Guards p facade f) : ∃ t, (d.flows.get f).term = some t := by
  obtain ⟨⟨_, t, ht, -⟩, _, t', ht', -⟩ := h.sides
  cases hf with
  | input => exact ⟨t', ht'⟩
  | node => exact ⟨t, ht⟩
  | returned heq => exact ⟨t', by rwa [heq] at ht'⟩

/-- The wires see something common of an input. -/
theorem Dresses.wire_common {facade : Facade} (h : d.Dresses g p facade) (hinput : g.IsInput p) :
    ∃ role, d.Bears facade.wireSide role ∧ role.IsCommon := by
  cases h with
  | common _ _ _ _ hwireSide hcommon => exact ⟨_, hwireSide, hcommon⟩
  | @simple _ _ type _ hnone hf =>
    refine ⟨_, hf, ?_⟩
    cases type with
    | reference => cases hnone hinput
    | _ => rfl
  | member _ _ hwireSide _ _ => exact ⟨_, hwireSide, rfl⟩
  | returned _ _ houtput _ _ _ => exact absurd hinput houtput

def pour (d : Draft) (mutable : Bool) (t : TermId) (keeper : PortId) : Draft :=
  { d with
    flows := (d.flows.new mutable (some t)).2
    keeper := Function.update d.keeper d.flows.size keeper }

theorem grows_pour (n : NodeId) (d : Draft) (mutable : Bool) (t : TermId) (keeper : PortId) :
    Grows n d (d.pour mutable t keeper) where
  has _ _ := id
  flow f found hf := by
    have hne := Nat.ne_of_lt (FlowStore.lt_size_of_term hf)
    have hget : (d.pour mutable t keeper).flows.get f = d.flows.get f :=
      (FlowStore.get_new ..).trans (if_neg hne)
    exact ⟨hget ▸ hf, Function.update_of_ne hne ..⟩
  facades _ _ := id
  groups _ _ _ := id
  others _ _ := rfl
  order := rfl

theorem Lawful.pour (h : d.Lawful g) (ht : d.Has t role) (hsort : role.sort = .type)
    (hreturned : ∀ f, role = .returned f → f = d.flows.size) (mutable : Bool) (keeper : PortId) :
    (d.pour mutable t keeper).Lawful g where
  sound := h.sound
  apart := h.apart
  fits := h.fits
  flows_apart f f' hsame := h.flows_apart f f' ((FlowStore.same_new ..).symm.trans hsame)
  typed f found hf := by
    rw [show (d.pour mutable t keeper).flows.get f = _ from FlowStore.get_new ..] at hf
    split at hf
    · rename_i heq
      cases hf
      obtain ⟨hlt, rfl⟩ := ht
      exact ⟨hlt, hsort, fun f' hf' => (hreturned f' hf').trans heq.symm⟩
    · exact h.typed f found hf
  lists := h.lists
  grouped := h.grouped
  serves := h.serves
  dresses p facade hfacade :=
    have hg := grows_pour 0 d mutable t keeper
    (h.dresses p facade hfacade).mono hg.bears hg.groups
  kept p facade f hfacade hguards := by
    obtain ⟨found, hf⟩ := (h.dresses p facade hfacade).exists_bears hguards
    exact ((grows_pour 0 d mutable t keeper).flow f found hf).2.trans
      (h.kept p facade f hfacade hguards)
  arranged := h.arranged

/-- A port gets a facade, and with it the members of a group may change. -/
theorem Lawful.dress (h : d.Lawful g) {facade : Facade} {groups : BorrowGroups}
    (hfresh : d.facades.get? p = none) (hdress : d.Dresses g p facade)
    (hkeeps : ∀ f, g.Guards p facade f → d.keeper f = p) (halike : d.groups.Alike groups)
    (harranged : g.Arranged (d.facades.set p facade) groups) (stats : Stats) :
    Grows n d { d with facades := d.facades.set p facade, groups, stats } ∧
      Draft.Lawful { d with facades := d.facades.set p facade, groups, stats } g := by
  have hmono : ∀ {other found}, d.Dresses g other found →
      Dresses { d with facades := d.facades.set p facade, groups, stats } g other found :=
    fun hdress => hdress.mono (fun _ _ hf => hf) fun _ _ _ hid => hid
  refine ⟨⟨fun _ _ => id, fun _ _ ht => ⟨ht, rfl⟩, Facades.get?_set_of_fresh facade hfresh,
    fun _ _ _ => id, fun _ _ => rfl, rfl⟩, h.sound, h.apart, h.fits, h.flows_apart, h.typed,
    h.lists, fun m parameter id => (h.grouped m parameter id).trans ⟨?_, ?_⟩, fun id b hb => ?_,
    fun other found hf => ?_, fun other found f hf hguards => ?_, harranged⟩
  · rintro ⟨b, hb, hat, hlifetime⟩
    obtain ⟨members, hb'⟩ := (halike id b).mp ⟨b.members, hb⟩
    exact ⟨_, hb', hat, hlifetime⟩
  · rintro ⟨b, hb, hat, hlifetime⟩
    obtain ⟨members, hb'⟩ := (halike id b).mpr ⟨b.members, hb⟩
    exact ⟨_, hb', hat, hlifetime⟩
  · obtain ⟨members, hb'⟩ := (halike id b).mpr ⟨b.members, hb⟩
    exact h.serves id { b with members } hb'
  · rcases Facades.of_get?_set hf with ⟨rfl, rfl⟩ | ⟨-, hf⟩
    · exact hmono hdress
    · exact hmono (h.dresses other found hf)
  · rcases Facades.of_get?_set hf with ⟨rfl, rfl⟩ | ⟨-, hf⟩
    · exact hkeeps f hguards
    · exact h.kept other found f hf hguards

/-- A group is made for a lifetime parameter that has none. -/
theorem Lawful.create (h : d.Lawful g) {parameter : Nat} {l : TermId} {scope : ScopeId}
    {policy : Policy} (hlifetime : d.Has l (.lifetime n parameter))
    (hnone : (d.book n).groups.get? parameter = none)
    (hscope : (g.nodes[n]?).map Node.scope = some scope)
    (hbook : ∀ m, book m = if m = n then
      { d.book n with groups := (d.book n).groups.insert parameter d.groups.size } else d.book m) :
    Grows n d { d with groups := (d.groups.create n scope policy l).2, book } ∧
      ({ d with groups := (d.groups.create n scope policy l).2, book } : Draft).Lawful g := by
  have hold : ∀ {id : GroupId} {b : BorrowGroup}, d.groups.groups[id]? = some b →
      (d.groups.create n scope policy l).2.groups[id]? = some b := by
    intro id b hb
    rw [BorrowGroups.getElem?_create, if_neg, hb]
    exact Nat.ne_of_lt (Array.getElem?_eq_some_iff.mp hb).1
  have hgrows : ∀ m other (id : GroupId), (d.book m).groups.get? other = some id →
      (book m).groups.get? other = some id := by
    intro m other id hid
    rw [hbook]
    split
    · rename_i heq
      rw [heq] at hid
      rw [IdMap.get?_insert, if_neg, hid]
      rintro rfl
      cases hnone.symm.trans hid
    · exact hid
  refine ⟨⟨fun _ _ => id, fun _ _ ht => ⟨ht, rfl⟩, fun _ _ => id, hgrows,
    fun m hm => (hbook m).trans (if_neg hm), rfl⟩, ?_⟩
  have hrest : ∀ m, (book m).generics = (d.book m).generics ∧
      (book m).lifetimes = (d.book m).lifetimes ∧
        (book m).mutabilities = (d.book m).mutabilities := by
    intro m
    rw [hbook]
    split
    · rename_i heq
      exact heq ▸ ⟨rfl, rfl, rfl⟩
    · exact ⟨rfl, rfl, rfl⟩
  refine ⟨h.sound, h.apart, h.fits, h.flows_apart, h.typed,
    ⟨fun m index t => ?_, fun m other t => ?_, fun m other t => ?_⟩,
    fun m other id => ⟨fun hid => ?_, ?_⟩, fun id b hb => ?_,
    fun p facade hfacade => (h.dresses p facade hfacade).mono (fun _ _ hf => hf) hgrows, h.kept,
    h.arranged.of_create ..⟩
  · rw [(hrest m).1]
    exact h.lists.generics m index t
  · rw [(hrest m).2.1]
    exact h.lists.lifetimes m other t
  · rw [(hrest m).2.2]
    exact h.lists.mutabilities m other t
  · rw [show ({ d with groups := _, book } : Draft).book m = _ from hbook m] at hid
    split at hid
    · rename_i heq
      subst heq
      rw [IdMap.get?_insert] at hid
      split at hid
      · rename_i heq
        cases hid
        exact ⟨_, (BorrowGroups.getElem?_create ..).trans (if_pos rfl), rfl, heq ▸ hlifetime⟩
      · obtain ⟨b, hb, hat⟩ := (h.grouped m other id).mp hid
        exact ⟨b, hold hb, hat⟩
    · obtain ⟨b, hb, hat⟩ := (h.grouped m other id).mp hid
      exact ⟨b, hold hb, hat⟩
  · rintro ⟨b, hb, rfl, hother⟩
    rw [BorrowGroups.getElem?_create] at hb
    split at hb
    · rename_i heq
      cases hb
      obtain ⟨-, rfl⟩ := Role.lifetime.inj (hlifetime.2.symm.trans hother.2)
      show (book n).groups.get? parameter = some id
      rw [hbook, if_pos rfl, IdMap.get?_insert, if_pos rfl, heq]
    · exact hgrows _ _ _ ((h.grouped _ _ _).mpr ⟨b, hb, rfl, hother⟩)
  · rw [BorrowGroups.getElem?_create] at hb
    split at hb
    · cases hb
      exact ⟨⟨parameter, hlifetime⟩, hscope⟩
    · exact h.serves id b hb

end Draft

end BorrowFlow
