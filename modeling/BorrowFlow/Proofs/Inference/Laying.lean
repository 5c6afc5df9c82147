import BorrowFlow.Proofs.Inference.Covering
import BorrowFlow.Proofs.Inference.Drafts
import BorrowFlow.Proofs.Inference.Frames

/-!
# Keeping notes along the first pass

The first pass is followed together with a draft and with the ports that it is going to face.
Whatever a step adds for a node can be noted down, the ports have facades afterwards, and the step
fails only where it may.
-/

namespace BorrowFlow

variable {g : Graph} {n : NodeId} {p : PortId} {f : FlowId} {t : TermId} {data : Term}
  {d d' : Draft} {role : Role} {config : Config}

/-- What a draft has notes on. -/
def Context.holdings (ctx : Context) :
    TermStore × Classes Flow × Facades × BorrowGroups × List NodeId :=
  (ctx.terms, ctx.flows.classes, ctx.facades, ctx.groups, ctx.order)

namespace Draft

theorem of_holdings {ctx : Context} (h : ctx.holdings = d.holdings) :
    Grows n d { d with toContext := ctx } ∧
      (d.Lawful g → Lawful { d with toContext := ctx } g) := by
  obtain ⟨⟨_, ⟨_, _⟩, _, _, _, _, _, _⟩, _, _, _⟩ := d
  obtain ⟨_, ⟨_, _⟩, _, _, _, _, _, _⟩ := ctx
  obtain ⟨rfl, rfl, rfl, rfl, rfl⟩ : _ ∧ _ ∧ _ ∧ _ ∧ _ := by
    simpa [Context.holdings] using h
  refine ⟨⟨fun _ _ => id, fun _ _ ht => ⟨ht, rfl⟩, fun _ _ => id, fun _ _ _ => id,
      fun _ _ => rfl, rfl⟩,
    fun hl => ⟨hl.sound, hl.apart, hl.fits, hl.flows_apart, hl.typed, hl.lists, hl.grouped,
      hl.serves, fun p facade hfacade => ?_, hl.kept, hl.arranged⟩⟩
  exact (hl.dresses p facade hfacade).mono (fun _ _ hf => hf) fun _ _ _ hid => hid

/-- A lawful draft in which the given ports wait for their facades. -/
structure Ready (d : Draft) (g : Graph) (todo : List PortId) : Prop where
  lawful : d.Lawful g
  awaits : g.Awaits (fun _ _ => True) todo d.toContext

end Draft

namespace Pass

open Draft (Grows)

variable {α β : Type} {pass : Pass α} {next : α → Pass β} {post post' : α → Draft → Prop}
  {last : β → Draft → Prop} {mutable : Bool} {failed : Fault → Prop} {ports ports' : List PortId}

/-- The pass faces the given ports, if nothing else has, and everything that it adds for a node can
be noted down. It fails with the faults that `failed` allows. -/
def Lays (g : Graph) (n : NodeId) (failed : Fault → Prop) (pass : Pass α) (d : Draft)
    (ports : List PortId) (post : α → Draft → Prop) : Prop :=
  ∀ todo, d.Ready g (ports ++ todo) → Meets pass d.toContext
    (fun a ctx => ∃ d' : Draft, d'.toContext = ctx ∧ Grows n d d' ∧ d'.Ready g todo ∧ post a d')
    fun fault _ => failed fault

namespace Lays

theorem of_lawful (h : d.Lawful g → Lays g n failed pass d ports post) :
    Lays g n failed pass d ports post :=
  fun todo hr => h hr.lawful todo hr

section

variable (h : Lays g n failed pass d ports post)
include h

theorem bind (hnext : ∀ a d', Grows n d d' → post a d' → Lays g n failed (next a) d' ports' last) :
    Lays g n failed (pass >>= next) d (ports ++ ports') last := by
  intro todo hr
  rw [List.append_assoc] at hr
  apply Meets.bind
  apply (h (ports' ++ todo) hr).mono ?_ fun _ _ => id
  rintro a _ ⟨d', rfl, hg, hr', ha⟩
  apply (hnext a d' hg ha todo hr').mono ?_ fun _ _ => id
  rintro b _ ⟨d'', rfl, hg', hr'', hb⟩
  exact ⟨d'', rfl, hg.trans hg', hr'', hb⟩

theorem finish (hnext : ∀ a d', Grows n d d' → post a d' → Lays g n failed (next a) d' [] last) :
    Lays g n failed (pass >>= next) d ports last := by
  have hbind := h.bind hnext
  rwa [List.append_nil] at hbind

theorem mono (hpost : ∀ a d', Grows n d d' → d'.Lawful g → post a d' → post' a d') :
    Lays g n failed pass d ports post' := by
  intro todo hr
  apply (h todo hr).mono ?_ fun _ _ => id
  rintro a _ ⟨d', rfl, hg, hr', ha⟩
  exact ⟨d', rfl, hg, hr', hpost a d' hg hr'.lawful ha⟩

theorem forget : Lays g n failed pass d ports fun _ _ => True :=
  h.mono fun _ _ _ _ _ => trivial

theorem perm (hperm : ports'.Perm ports) : Lays g n failed pass d ports' post :=
  fun todo hr => h todo ⟨hr.lawful, hr.awaits.perm (hperm.append_right todo)⟩

end

theorem step (h : Lays g n failed pass d [] post) (hnext : ∀ a d', Grows n d d' → post a d' →
      Lays g n failed (next a) d' ports last) : Lays g n failed (pass >>= next) d ports last :=
  h.bind hnext

theorem throw {fault : Fault} (h : failed fault) :
    Lays g n failed (MonadExcept.throw fault : Pass α) d ports post :=
  fun _ _ => h

theorem pure {a : α} (h : post a d) : Lays g n failed (Pure.pure a) d [] post :=
  fun _ hr => Meets.of_ok rfl ⟨d, rfl, .refl n d, hr, h⟩

theorem lift {answer : Except Fault α} {a : α} (ha : answer = .ok a) :
    Lays g n failed (liftM answer) d [] fun found d' => a = found ∧ d = d' := by
  subst ha
  exact fun _ hr => Meets.of_ok rfl ⟨d, rfl, .refl n d, hr, rfl, rfl⟩

theorem get : Lays g n failed MonadState.get d [] fun ctx d' => d.toContext = ctx ∧ d = d' :=
  fun _ hr => Meets.of_ok rfl ⟨d, rfl, .refl n d, hr, rfl, rfl⟩

theorem forM {items : List β} {body : β → Pass PUnit} (covered : β → List PortId)
    (done : β → Draft → Prop)
    (hkeep : ∀ item d' d'', Grows n d' d'' → done item d' → done item d'')
    (hbody : ∀ item ∈ items, ∀ d', Grows n d d' →
      Lays g n failed (body item) d' (covered item) fun _ => done item) :
    Lays g n failed (items.forM body) d (items.flatMap covered)
      fun _ d' => ∀ item ∈ items, done item d' := by
  induction items generalizing d with
  | nil => exact .pure nofun
  | cons item rest ih =>
    obtain ⟨hitem, hrest⟩ := List.forall_mem_cons.mp hbody
    apply (hitem d (.refl n d)).bind
    intro _ d' hg hdone
    apply (ih fun other ho d'' hg' => hrest other ho d'' (hg.trans hg')).mono
    intro _ d'' hg' _ hall
    exact List.forall_mem_cons.mpr ⟨hkeep item d' d'' hg' hdone, hall⟩

theorem forPorts {body : PortId → Pass PUnit} (done : PortId → Draft → Prop)
    (hkeep : ∀ p d' d'', Grows n d' d'' → done p d' → done p d'')
    (hbody : ∀ p ∈ ports, ∀ d', Grows n d d' →
      Lays g n failed (body p) d' [p] fun _ => done p) :
    Lays g n failed (ports.forM body) d ports fun _ d' => ∀ p ∈ ports, done p d' := by
  have h := forM (fun p => [p]) done hkeep hbody
  rwa [List.flatMap_singleton'] at h

theorem forEach {body : PortId → Pass PUnit} (hbody : ∀ p ∈ ports, ∀ d', Grows n d d' →
      Lays g n failed (body p) d' [p] fun _ _ => True) :
    Lays g n failed (ports.forM body) d ports fun _ _ => True :=
  (forPorts (fun _ _ => True) (fun _ _ _ _ => id) hbody).forget

theorem mapPorts {body : PortId → Pass α} (done : α → Draft → Prop)
    (hkeep : ∀ a d' d'', Grows n d' d'' → done a d' → done a d'')
    (hbody : ∀ p ∈ ports, ∀ d', Grows n d d' → Lays g n failed (body p) d' [p] done) :
    Lays g n failed (ports.mapM body) d ports fun found d' => ∀ a ∈ found, done a d' := by
  induction ports generalizing d with
  | nil => exact .pure nofun
  | cons p rest ih =>
    obtain ⟨hp, hrest⟩ := List.forall_mem_cons.mp hbody
    rw [List.mapM_cons]
    apply (hp d (.refl n d)).bind
    intro a d' hg hdone
    apply (ih fun other ho d'' hg' => hrest other ho d'' (hg.trans hg')).finish
    intro found d'' hg' hall
    exact .pure (List.forall_mem_cons.mpr ⟨hkeep a d' d'' hg' hdone, hall⟩)

end Lays

/-! ## Small steps -/

section

variable {post : α → Context → Prop}

theorem Covers.lays (h : Covers g (fun _ _ => True) failed pass d.toContext [] post)
    (hkeeps : Keeps Context.holdings pass) :
    Lays g n failed pass d [] fun _ d' => d'.book = d.book := by
  intro todo hr
  apply ((h todo hr.awaits).and (hkeeps.ends d.toContext)).mono ?_ fun _ _ hfailed => hfailed.1
  rintro a ctx ⟨⟨-, hawaits, -⟩, heq⟩
  obtain ⟨hg, hl⟩ := Draft.of_holdings heq
  exact ⟨_, rfl, hg, ⟨hl hr.lawful, hawaits⟩, rfl⟩

theorem Covers.lays_of_fails {post' : α → Draft → Prop}
    (h : Covers g (fun _ _ => True) failed pass d.toContext ports fun _ _ => False) :
    Lays g n failed pass d ports post' :=
  fun todo hr => (h todo hr.awaits).mono (fun _ _ hnone => hnone.2.2.elim) fun _ _ => id

end

theorem lays_count {change : Stats → Stats} :
    Lays g n failed (count change) d [] fun _ _ => True :=
  (covers_count.lays (.modify fun _ => rfl)).forget

theorem lays_checkFeatures {heads : List TypeConstructor} :
    Lays g n failed (checkFeatures config p heads) d [] fun _ d' => d'.book = d.book := by
  refine covers_checkFeatures.lays (.forM fun head => ?_)
  split
  · exact .pure _
  · exact .modify fun _ => rfl

theorem lays_interrupt {lifetime : Lifetime} :
    Lays g n failed (modifyFlows (·.interrupt lifetime f)) d [] fun _ _ => True :=
  (covers_interrupt.lays (.modify fun _ => rfl)).forget

theorem lays_add {create : TermStore → TermId × TermStore} {book : NodeId → Instantiation}
    (hcreate : (create d.terms).1 = d.terms.size) (hadds : d.terms.Adds data (create d.terms).2)
    (hfits : Role.Fits d.Has g role data) (hlists : Role.Lists book (d.HasWith role))
    (hgroups : ∀ m, (book m).groups = (d.book m).groups)
    (hothers : ∀ m, m ≠ n → book m = d.book m) :
    Lays g n failed (newTerm create) d [] fun t d' => t = d.terms.size ∧ d'.Has t role ∧
      d'.flows = d.flows ∧ d'.book = book :=
  fun _ hr => Meets.of_ok rfl ⟨d.add (create d.terms).2 role book, rfl,
    Draft.grows_add hadds hgroups hothers,
    ⟨hr.lawful.add hadds hfits hlists hgroups, hr.awaits.of_eq rfl rfl rfl rfl⟩, hcreate,
    (Draft.has_add hadds).mpr (.inr ⟨hcreate, rfl⟩), rfl, rfl⟩

/-- The term was made for the role, and nothing else was. -/
structure Makes (d : Draft) (role : Role) (t : TermId) (d' : Draft) : Prop where
  has : d'.Has t role
  flows : d'.flows = d.flows
  book : d'.book = d.book

theorem lays_push {create : TermStore → TermId × TermStore}
    (hcreate : create d.terms = d.terms.push data) (hfits : Role.Fits d.Has g role data)
    (hrole : role.isParameter = false) : Lays g n failed (newTerm create) d [] (Makes d role) :=
  .of_lawful fun h => (lays_add (by rw [hcreate]; rfl) (hcreate ▸ d.terms.adds_push data) hfits
    (h.lists_add hrole) (fun _ => rfl) fun _ _ => rfl).mono
      fun _ _ _ _ ⟨_, ht, hflows, hbook⟩ => ⟨ht, hflows, hbook⟩

theorem lays_newUnbound (hfits : ∀ id, Role.Fits d.Has g role (.unbound id []))
    (hrole : role.isParameter = false) : Lays g n failed newUnbound d [] (Makes d role) :=
  .of_lawful fun h => (lays_add rfl (d.terms.adds_newUnbound []) (hfits _) (h.lists_add hrole)
    (fun _ => rfl) fun _ _ => rfl).mono fun _ _ _ _ ⟨_, ht, hflows, hbook⟩ => ⟨ht, hflows, hbook⟩

theorem lays_newType (type : DataType) :
    Lays g n failed (newTerm (·.newType type)) d [] (Makes d (.plain .type)) := by
  induction type generalizing d with
  | unresolved => exact lays_newUnbound (fun _ => .unbound) rfl
  | constructed head argument ih =>
    show Lays g n failed (newTerm (·.newType argument) >>= fun t =>
      newTerm (·.newConstructed head t)) d [] _
    apply ih.step
    intro t d1 _ hm1
    apply (lays_push rfl (.constructed hm1.has) rfl).mono
    intro t' d2 _ _ hm2
    exact ⟨hm2.has, hm2.flows.trans hm1.flows, hm2.book.trans hm1.book⟩
  | reference mutable referent ih =>
    show Lays g n failed (newTerm (·.newType referent) >>= fun t => newTerm (·.newLifetime none) >>=
      fun l => newTerm (·.newReference (.fixed mutable) t l)) d [] _
    apply ih.step
    intro t d1 _ hm1
    apply (lays_push rfl .opened rfl).step
    intro l d2 hg2 hm2
    apply (lays_push rfl (.reference (hg2.has _ _ hm1.has) hm2.has) rfl).mono
    intro t' d3 _ _ hm3
    exact ⟨hm3.has, hm3.flows.trans (hm2.flows.trans hm1.flows),
      hm3.book.trans (hm2.book.trans hm1.book)⟩
  | _ => exact lays_push rfl .literal rfl

theorem lays_openLifetime {scope : ScopeId} (hscope : scope < g.scopes.size) :
    Lays g n failed (openLifetime scope) d [] fun result d' =>
      d'.Has result.2 (.plain .lifetime) := by
  have hcarve : Keeps Context.holdings (carveLifetime scope) :=
    (Keeps.ask _).bind fun ⟨_, _⟩ => Keeps.bind (.modify fun _ => rfl) fun _ => .pure _
  apply ((covers_carveLifetime hscope).lays hcarve).step
  intro lifetime d1 _ _
  apply (lays_push rfl .opened rfl).step
  intro l d2 _ hm2
  exact .pure hm2.has

theorem lays_newFlow (ht : d.Has t role) (hsort : role.sort = .type) (keeper : PortId)
    (hreturned : ∀ f, role = .returned f → f = d.flows.size := by simp) :
    Lays g n failed (newFlow mutable t) d [] fun f d' => d'.Bears f role ∧ d'.keeper f = keeper ∧
      f = d.flows.size ∧ f < d'.flows.size ∧ d'.book = d.book := by
  intro todo hr
  have hterm : ((d.flows.new mutable (some t)).2.get d.flows.size).term = some t :=
    (FlowStore.term_new ..).trans (if_pos rfl)
  exact Meets.of_ok rfl ⟨d.pour mutable t keeper, rfl, Draft.grows_pour n d mutable t keeper,
    ⟨hr.lawful.pour ht hsort hreturned mutable keeper, hr.awaits.of_flows (by simp)
      (hr.awaits.typed.new mutable t)⟩, ⟨t, hterm, ht⟩, Function.update_self ..,
    rfl, FlowStore.lt_size_of_term hterm, rfl⟩

/-! ## Facades -/

theorem lays_face {facade : Facade} (hdress : d.Dresses g p facade)
    (hkeeps : ∀ f, g.Guards p facade f → d.keeper f = p) (hgroup : facade.group? = none)
    (hopen : ∀ nodeSide wireSide input, facade ≠ .terminationOutput nodeSide wireSide input)
    (hplain : g.IsInput p → facade.nodeSide = facade.wireSide) :
    Lays g n failed (face p facade) d [p] fun _ d' =>
      d'.facades.get? p = some facade ∧ d'.book = d.book := by
  intro todo hr
  have hfresh := hr.awaits.fresh p List.mem_cons_self
  obtain ⟨hnodeSide, hwireSide⟩ := hdress.lt_size
  apply Meets.bind
  apply meets_insertFacade
  · intro _
    obtain ⟨hg, hl⟩ := hr.lawful.dress hfresh hdress hkeeps (fun _ _ => .rfl)
      (hr.lawful.arranged.of_set hfresh hgroup hopen fun data hd hinput =>
        hplain ⟨data, hd, hinput⟩) _
    refine ⟨_, rfl, hg, ⟨hl, ?_⟩, by simp, rfl⟩
    exact (hr.awaits.of_set hnodeSide hwireSide trivial).of_eq rfl rfl rfl rfl
  · intro hcontains
    cases hr.awaits.contains_eq_false.symm.trans hcontains

/-- A facade that concerns a group. Between the facade and the group the port is not arranged. -/
theorem lays_join {facade : Facade} {change : BorrowGroups → Except Fault BorrowGroups}
    {groups : BorrowGroups} (hdress : d.Dresses g p facade)
    (hkeeps : ∀ f, g.Guards p facade f → d.keeper f = p) (hchange : change d.groups = .ok groups)
    (halike : d.groups.Alike groups)
    (harranged : d.facades.get? p = none → g.Arranged (d.facades.set p facade) groups) :
    Lays g n failed (do face p facade; changeGroups change) d [p] fun _ d' =>
      d'.facades.get? p = some facade ∧ d'.book = d.book := by
  intro todo hr
  have hfresh := hr.awaits.fresh p List.mem_cons_self
  obtain ⟨hnodeSide, hwireSide⟩ := hdress.lt_size
  apply Meets.bind
  apply Meets.bind
  apply meets_insertFacade
  · intro _
    apply meets_changeGroups
    · intro groups hgroups
      cases hchange.symm.trans hgroups
      obtain ⟨hg, hl⟩ := hr.lawful.dress hfresh hdress hkeeps halike (harranged hfresh) _
      have hawaits : g.Awaits (fun _ _ => True) todo _ := hr.awaits.of_set hnodeSide hwireSide
        trivial
      refine ⟨_, rfl, hg, ⟨hl, ?_⟩, by simp, rfl⟩
      exact (hawaits.of_groups trivial).of_eq rfl rfl rfl rfl
    · intro fault hfault
      cases hchange.symm.trans hfault
  · intro hcontains
    cases hr.awaits.contains_eq_false.symm.trans hcontains

/-- A port whose wires see something else than its node. -/
theorem lays_sides {next : FlowId → FlowId → Pass PUnit} {last : PUnit → Draft → Prop}
    {made : FlowId → Role} (p : PortId) (hmade : made = (fun _ => .plain .type) ∨ made = .returned)
    (ht : d.Has t role) (hsort : role.sort = .type) (hrole : ∀ f, role ≠ .returned f)
    (hnext : ∀ nodeSide wireSide d', Grows n d d' → d'.Bears nodeSide role →
      d'.Bears wireSide (made wireSide) → nodeSide ≠ wireSide →
      d'.keeper nodeSide = p → d'.keeper wireSide = p → d'.book = d.book →
        Lays g n failed (next nodeSide wireSide) d' ports last) :
    Lays g n failed (do
        let nodeSide ← newFlow mutable t
        let handed ← newUnbound
        let wireSide ← newFlow mutable handed
        next nodeSide wireSide) d ports last := by
  apply (lays_newFlow ht hsort p fun f hf => absurd hf (hrole f)).step
  rintro nodeSide d1 hg1 ⟨hnodeSide, hkept1, -, hlt, hbook1⟩
  have hnew : Lays g n failed newUnbound d1 [] (Makes d1 (made d1.flows.size)) := by
    rcases hmade with rfl | rfl
    · exact lays_newUnbound (fun _ => .unbound) rfl
    · exact lays_newUnbound (fun _ => .returned) rfl
  apply hnew.step
  intro handed d2 hg2 hm2
  apply (lays_newFlow hm2.has (by rcases hmade with rfl | rfl <;> rfl) p ?_).step
  · rintro wireSide d3 hg3 ⟨hwireSide, hkept3, rfl, -, hbook3⟩
    rw [hm2.flows] at hwireSide hkept3 ⊢
    have hg := hg2.trans hg3
    have ⟨_, ht, _⟩ := hnodeSide
    exact hnext nodeSide _ d3 (hg1.trans hg) (hg.bears _ _ hnodeSide) hwireSide (Nat.ne_of_lt hlt)
      ((hg.flow nodeSide _ ht).2.trans hkept1) hkept3 (hbook3.trans (hm2.book.trans hbook1))
  · rintro f hf
    rw [hm2.flows]
    rcases hmade with rfl | rfl
    · cases hf
    · exact (Role.returned.inj hf).symm

/-- An input that takes a value and gives its node a reference to it joins its group. -/
theorem lays_faceReference {node : Node} {group : GroupId} {parameter : Nat}
    {declared : DeclaredMutability} {type : DeclaredType} (hnode : g.nodes[n]? = some node)
    (hasks : g.Asks n p 0 (.reference declared parameter type))
    (ht : d.Has t (.layer n p 0 (.reference declared parameter type)))
    (hgroup : (d.book n).groups.get? parameter = some group) (hinput : g.InputOf node.scope n p) :
    Lays g n failed (faceReference p t group) d [p] fun _ d' => (∃ nodeSide wireSide,
      d'.facades.get? p = some (.referenceInput nodeSide wireSide group) ∧
        d'.Bears nodeSide (.layer n p 0 (.reference declared parameter type))) ∧
        d'.book = d.book := by
  apply lays_sides p (.inl rfl) ht rfl (by simp)
  intro nodeSide wireSide d1 hg1 hnodeSide hwireSide hne hkept hkept' hbook
  apply Lays.of_lawful
  intro h
  rw [← hbook] at hgroup
  obtain ⟨b, hb, rfl, -⟩ := (h.grouped n parameter group).mp hgroup
  obtain ⟨-, hscope⟩ := h.serves group b hb
  rw [hnode, Option.map_some, Option.some.injEq] at hscope
  rw [hscope] at hinput
  have halike : d1.groups.Alike (d1.groups.withMember group p) :=
    BorrowGroups.alike_of_modify (fun b => b.members ++ [{ port := p }]) rfl
  refine (lays_join (.member hasks hnodeSide hwireSide hne hgroup) ?_
    (BorrowGroups.addMember_eq (Array.getElem?_eq_some_iff.mp hb).1 p) halike
    fun hfresh => h.arranged.of_addMember hfresh hb hinput).mono ?_
  · rintro f (_ | _ | _)
    · exact hkept'
    · exact hkept
    · contradiction
  · rintro _ d2 hg2 _ ⟨hfacade, hbook'⟩
    exact ⟨⟨nodeSide, wireSide, hfacade, hg2.bears _ _ hnodeSide⟩, hbook'.trans hbook⟩

/-- An output that hands back what an input took is known to the group of the input. -/
theorem lays_faceHandedBack {input : PortId} {type : DeclaredType} {nodeSide wireSide : FlowId}
    {group : GroupId}
    (hfacade : d.facades.get? input = some (.referenceInput nodeSide wireSide group))
    (hasks : g.Asks n p 0 type) (ht : d.Has t (.of n p 0 type)) (hat : g.IsAt n input)
    (hpairs : g.Pairs p input) (houtput : ¬g.IsInput p)
    (hfaces : ∀ scope host, g.Faces .input scope host input → g.Faces .output scope host p) :
    Lays g n failed (faceHandedBack p t input) d [p] fun _ d' => ∃ nodeSide wireSide,
      d'.facades.get? p = some (.terminationOutput nodeSide wireSide input) ∧
        d'.Bears nodeSide (.of n p 0 type) := by
  apply lays_sides p (.inr rfl) ht (Role.sort_of ..) fun f => Role.of_ne_returned f
  intro nodeSide wireSide d1 hg1 hnodeSide hwireSide hne hkept hkept' _
  apply Lays.of_lawful
  intro h
  have hid := h.arranged.known _ _ _ _ (hg1.facades _ _ hfacade)
  refine (lays_join (.returned hasks hat houtput hnodeSide hwireSide hne) ?_
    (BorrowGroups.pairOutput_eq hid p) (BorrowGroups.alike_of_modify _ rfl) fun hfresh =>
      h.arranged.of_pairOutput hfresh (fun data hd => ?_) hfaces hpairs hid).mono ?_
  · rintro f (_ | _ | heq)
    · exact hkept'
    · exact hkept
    · cases heq
      exact hkept'
  · cases hdirection : data.direction with
    | output => rfl
    | input => exact absurd ⟨data, hd, hdirection⟩ houtput
  · rintro _ d2 hg2 _ ⟨hfacade, -⟩
    exact ⟨nodeSide, wireSide, hfacade, hg2.bears _ _ hnodeSide⟩

end Pass

end BorrowFlow
