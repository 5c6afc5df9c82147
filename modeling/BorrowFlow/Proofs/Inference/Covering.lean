import BorrowFlow.Proofs.Inference.Arrangement

/-!
# Passes that do not fail

Nothing goes wrong as long as no port is faced twice, every port that a pass asks about has been
faced before, every flow has a type term, and every scope has its lifetimes. A pass is followed
together with the ports that it is going to face: they had no facade before, and have one
afterwards.
-/

namespace BorrowFlow

variable {ctx ctx' : Context} {g : Graph} {kept : Facades → BorrowGroups → Prop} {α β : Type}
  {port : PortId} {last : β → Context → Prop} {groups : BorrowGroups} {body : β → Pass PUnit}
  {next : α → Pass β} {scope : ScopeId} {items : List β} {flow : FlowId} {a : α}

namespace FlowStore

variable {s : FlowStore}

@[simp] theorem size_new (mutable : Bool) (term : Option TermId) :
    (s.new mutable term).2.size = s.size + 1 := by
  simp [new, size]

@[simp] theorem size_setMutable (flow : FlowId) (mutable : Bool) :
    (s.setMutable flow mutable).size = s.size :=
  rfl

@[simp] theorem size_merge (earlier later : FlowId) : (s.merge earlier later).size = s.size := by
  simp [merge, size]

def IsTyped (s : FlowStore) : Prop :=
  ∀ flow, flow < s.size → ∃ term, (s.get flow).term = some term

theorem IsTyped.new (h : s.IsTyped) (mutable : Bool) (term : TermId) :
    (s.new mutable (some term)).2.IsTyped := by
  intro flow hflow
  rw [size_new] at hflow
  rw [term_new]
  split
  · exact ⟨term, rfl⟩
  · rename_i hne
    exact h flow (Nat.lt_of_le_of_ne (Nat.le_of_lt_succ hflow) hne)

theorem IsTyped.merge (h : s.IsTyped) {earlier later : FlowId} (hearlier : earlier < s.size)
    (hlater : later < s.size) : (s.merge earlier later).IsTyped := by
  intro flow hflow
  rw [size_merge] at hflow
  obtain ⟨first, hfirst⟩ := h earlier hearlier
  obtain ⟨second, hsecond⟩ := h later hlater
  rcases term_merge hfirst hsecond flow with hsame | ⟨-, hnew⟩
  · rw [hsame]
    exact h flow hflow
  · exact ⟨second, hnew⟩

theorem IsTyped.term (h : s.IsTyped) (hflow : flow < s.size) : ∃ term, s.term flow = .ok term := by
  obtain ⟨term, ht⟩ := h flow hflow
  exact ⟨term, term_eq_ok.mpr ht⟩

end FlowStore

theorem BorrowGroups.size_modify (groups : BorrowGroups) (id : GroupId)
    (change : BorrowGroup → BorrowGroup) : (groups.modify id change).size = groups.size :=
  Array.size_modify

theorem LifetimeForest.graphOf_of_hasGraph {forest : LifetimeForest}
    (h : forest.hasGraph scope = true) : ∃ g, forest.graphOf scope = .ok g := by
  unfold hasGraph IdMap.contains at h
  obtain ⟨g, hgraph⟩ := Option.isSome_iff_exists.mp h
  exact ⟨g, by simp [graphOf, hgraph]⟩

/-! ## Ports that wait for their facades -/

/-- The ports in `todo` have no facade yet, all other ports of the graph have one, and no other port
has. The flows that facades show have type terms, every scope has its lifetimes, and something holds
of the facades and the groups. -/
structure Graph.Awaits (g : Graph) (kept : Facades → BorrowGroups → Prop) (todo : List PortId)
    (ctx : Context) : Prop where
  nodup : todo.Nodup
  listed : ∀ port ∈ todo, port < g.ports.size
  fresh : ∀ port ∈ todo, ctx.facades.get? port = none
  known : ∀ port facade, ctx.facades.get? port = some facade → port < g.ports.size
  faced : ∀ port, port < g.ports.size → port ∉ todo → ∃ facade, ctx.facades.get? port = some facade
  sides : ∀ port facade, ctx.facades.get? port = some facade →
    facade.nodeSide < ctx.flows.size ∧ facade.wireSide < ctx.flows.size
  typed : ctx.flows.IsTyped
  lifetimes : ∀ scope, scope < g.scopes.size → ctx.lifetimes.hasGraph scope = true
  kept : kept ctx.facades ctx.groups

/-- The second context has everything that the first one has. -/
structure Context.Expands (ctx ctx' : Context) : Prop where
  flows : ctx.flows.size ≤ ctx'.flows.size
  groups : ctx.groups.size ≤ ctx'.groups.size
  facades : ∀ port facade, ctx.facades.get? port = some facade →
    ctx'.facades.get? port = some facade

theorem Context.Expands.refl (ctx : Context) : ctx.Expands ctx :=
  ⟨Nat.le_refl _, Nat.le_refl _, fun _ _ h => h⟩

theorem Context.Expands.trans {ctx'' : Context} (h : ctx.Expands ctx')
    (h' : ctx'.Expands ctx'') : ctx.Expands ctx'' where
  flows := Nat.le_trans h.flows h'.flows
  groups := Nat.le_trans h.groups h'.groups
  facades port facade hfacade := h'.facades port facade (h.facades port facade hfacade)

namespace Graph.Awaits

variable {todo todo' : List PortId}

section

variable (h : g.Awaits kept todo ctx)
include h

theorem perm (hperm : todo.Perm todo') : g.Awaits kept todo' ctx where
  nodup := hperm.nodup_iff.mp h.nodup
  listed port hport := h.listed port (hperm.mem_iff.mpr hport)
  fresh port hport := h.fresh port (hperm.mem_iff.mpr hport)
  __ := h
  faced port hlt hport := h.faced port hlt fun hm => hport (hperm.mem_iff.mp hm)

theorem of_eq (hflows : ctx'.flows = ctx.flows) (hlifetimes : ctx'.lifetimes = ctx.lifetimes)
    (hfacades : ctx'.facades = ctx.facades) (hgroups : ctx'.groups = ctx.groups) :
    g.Awaits kept todo ctx' := by
  obtain ⟨hnodup, hlisted, hfresh, hknown, hfaced, hsides, htyped, hscopes, hkept⟩ := h
  rw [← hfacades] at hfresh hknown hfaced hsides hkept
  rw [← hflows] at hsides htyped
  rw [← hlifetimes] at hscopes
  rw [← hgroups] at hkept
  exact ⟨hnodup, hlisted, hfresh, hknown, hfaced, hsides, htyped, hscopes, hkept⟩

theorem of_flows {flows : FlowStore} (hsize : ctx.flows.size ≤ flows.size)
    (htyped : flows.IsTyped) : g.Awaits kept todo { ctx with flows } where
  __ := h
  sides port facade hfacade := by
    obtain ⟨hnode, hwire⟩ := h.sides port facade hfacade
    exact ⟨Nat.lt_of_lt_of_le hnode hsize, Nat.lt_of_lt_of_le hwire hsize⟩
  typed := htyped

theorem of_lifetimes {lifetimes : LifetimeForest}
    (hgraphs : ∀ scope, ctx.lifetimes.hasGraph scope = true →
      lifetimes.hasGraph scope = true) : g.Awaits kept todo { ctx with lifetimes } :=
  { h with lifetimes := fun scope hscope => hgraphs scope (h.lifetimes scope hscope) }

theorem of_groups {kept' : Facades → BorrowGroups → Prop} (hkept : kept' ctx.facades groups) :
    g.Awaits kept' todo { ctx with groups } :=
  { h with kept := hkept }

end

section

variable (h : g.Awaits kept (port :: todo) ctx)
include h

theorem of_set {facade : Facade} {kept' : Facades → BorrowGroups → Prop}
    (hnode : facade.nodeSide < ctx.flows.size) (hwire : facade.wireSide < ctx.flows.size)
    (hkept : kept' (ctx.facades.set port facade) ctx.groups) :
    g.Awaits kept' todo { ctx with facades := ctx.facades.set port facade } where
  nodup := (List.nodup_cons.mp h.nodup).2
  listed other ho := h.listed other (List.mem_cons_of_mem _ ho)
  fresh other ho := by
    rw [Facades.get?_set, if_neg, h.fresh other (List.mem_cons_of_mem _ ho)]
    rintro rfl
    exact (List.nodup_cons.mp h.nodup).1 ho
  known other found hf := by
    rcases Facades.of_get?_set hf with ⟨rfl, -⟩ | ⟨-, hf⟩
    · exact h.listed other List.mem_cons_self
    · exact h.known other found hf
  faced other hlt ho := by
    rw [Facades.get?_set]
    split
    · exact ⟨facade, rfl⟩
    · rename_i hne
      exact h.faced other hlt fun hm => (List.mem_cons.mp hm).elim hne ho
  sides other found hf := by
    rcases Facades.of_get?_set hf with ⟨-, rfl⟩ | ⟨-, hf⟩
    · exact ⟨hnode, hwire⟩
    · exact h.sides other found hf
  __ := h
  kept := hkept

theorem contains_eq_false : ctx.facades.contains port = false :=
  Facades.contains_eq_false (h.fresh port List.mem_cons_self)

end

end Graph.Awaits

namespace Pass

/-! ## Facing ports in turn -/

/-- The pass faces the given ports, if nothing else has, and ends with `post` or with one of the
faults that `failed` allows. -/
def Covers (g : Graph) (kept : Facades → BorrowGroups → Prop) (failed : Fault → Prop)
    (pass : Pass α) (ctx : Context) (ports : List PortId) (post : α → Context → Prop) : Prop :=
  ∀ todo, g.Awaits kept (ports ++ todo) ctx → Meets pass ctx
      (fun a ctx' => ctx.Expands ctx' ∧ g.Awaits kept todo ctx' ∧ post a ctx')
      fun fault _ => failed fault

variable {failed : Fault → Prop} {pass : Pass α} {ports ports' : List PortId}
  {post : α → Context → Prop}

theorem Covers.of_ok (hrun : pass ctx = .ok a ctx') (hexpands : ctx.Expands ctx')
    (hawaits : ∀ todo, g.Awaits kept (ports ++ todo) ctx →
      g.Awaits kept todo ctx') (hpost : post a ctx') :
    Covers g kept failed pass ctx ports post :=
  fun todo h => Meets.of_ok hrun ⟨hexpands, hawaits todo h, hpost⟩

theorem Covers.of_awaits (h : ∀ todo, g.Awaits kept (ports ++ todo) ctx →
      Covers g kept failed pass ctx ports post) :
    Covers g kept failed pass ctx ports post :=
  fun todo hawaits => h todo hawaits todo hawaits

theorem Covers.of_exact (h : Covers g
      (fun facades groups => facades = ctx.facades ∧ groups = ctx.groups) failed pass
      ctx [] post) :
    Covers g kept failed pass ctx [] fun a ctx' => ctx'.facades = ctx.facades ∧
      ctx'.groups = ctx.groups ∧ post a ctx' := by
  intro todo hawaits
  apply (h todo (hawaits.of_groups ⟨rfl, rfl⟩)).mono ?_ fun _ _ => id
  rintro a ctx' ⟨hexpands, hawaits', hpost⟩
  obtain ⟨hfacades, hgroups⟩ := hawaits'.kept
  refine ⟨hexpands, hawaits'.of_groups ?_, hfacades, hgroups, hpost⟩
  rw [hfacades, hgroups]
  exact hawaits.kept

theorem Covers.bind (h : Covers g kept failed pass ctx ports post)
    (hnext : ∀ a ctx', ctx.Expands ctx' → post a ctx' →
      Covers g kept failed (next a) ctx' ports' last) :
    Covers g kept failed (pass >>= next) ctx (ports ++ ports') last := by
  intro todo hawaits
  rw [List.append_assoc] at hawaits
  apply Meets.bind
  apply (h (ports' ++ todo) hawaits).mono ?_ fun _ _ => id
  rintro a ctx' ⟨hexpands, hawaits', hpost⟩
  apply (hnext a ctx' hexpands hpost todo hawaits').mono ?_ fun _ _ => id
  rintro b ctx'' ⟨hexpands', hawaits'', hlast⟩
  exact ⟨hexpands.trans hexpands', hawaits'', hlast⟩

theorem Covers.step (h : Covers g kept failed pass ctx [] post)
    (hnext : ∀ a ctx', ctx.Expands ctx' → post a ctx' →
      Covers g kept failed (next a) ctx' ports last) :
    Covers g kept failed (pass >>= next) ctx ports last :=
  h.bind hnext

section

variable (h : Covers g kept failed pass ctx ports post)
include h

theorem Covers.finish (hnext : ∀ a ctx', ctx.Expands ctx' → post a ctx' →
      Covers g kept failed (next a) ctx' [] last) :
    Covers g kept failed (pass >>= next) ctx ports last := by
  have hbind := h.bind hnext
  rwa [List.append_nil] at hbind

theorem Covers.mono {post' : α → Context → Prop}
    (hpost : ∀ a ctx', ctx.Expands ctx' → post a ctx' → post' a ctx') :
    Covers g kept failed pass ctx ports post' := by
  intro todo hawaits
  apply (h todo hawaits).mono ?_ fun _ _ => id
  rintro a ctx' ⟨hexpands, hawaits', ha⟩
  exact ⟨hexpands, hawaits', hpost a ctx' hexpands ha⟩

theorem Covers.forget : Covers g kept failed pass ctx ports fun _ _ => True :=
  h.mono fun _ _ _ _ => trivial

end

theorem Covers.pure (hpost : post a ctx) : Covers g kept failed (Pure.pure a) ctx [] post :=
  .of_ok rfl (.refl ctx) (fun _ h => h) hpost

theorem Covers.get : Covers g kept failed MonadState.get ctx []
      fun found ctx' => ctx = found ∧ ctx = ctx' :=
  .of_ok rfl (.refl ctx) (fun _ h => h) ⟨rfl, rfl⟩

theorem Covers.lift {answer : Except Fault α} (ha : answer = .ok a) :
    Covers g kept failed (liftM answer) ctx [] fun found ctx' => a = found ∧ ctx = ctx' := by
  subst ha
  exact .of_ok rfl (.refl ctx) (fun _ h => h) ⟨rfl, rfl⟩

theorem Covers.ask {query : Context → Except Fault α} (ha : query ctx = .ok a) :
    Covers g kept failed (ask query) ctx [] fun found ctx' => a = found ∧ ctx = ctx' := by
  intro todo hawaits
  apply meets_ask
  · intro found hf
    cases ha.symm.trans hf
    exact ⟨.refl ctx, hawaits, rfl, rfl⟩
  · intro fault hfault
    cases ha.symm.trans hfault

theorem Covers.forM (covered : β → List PortId) (done : β → Prop)
    (hbody : ∀ item ∈ items, ∀ ctx', ctx.Expands ctx' →
      Covers g kept failed (body item) ctx' (covered item) fun _ _ => done item) :
    Covers g kept failed (items.forM body) ctx (items.flatMap covered)
      fun _ _ => ∀ item ∈ items, done item := by
  induction items generalizing ctx with
  | nil => exact .pure nofun
  | cons item rest ih =>
    obtain ⟨hitem, hrest⟩ := List.forall_mem_cons.mp hbody
    apply (hitem ctx (.refl ctx)).bind
    intro _ ctx' hexpands hdone
    apply (ih fun other ho ctx'' hexpands' =>
      hrest other ho ctx'' (hexpands.trans hexpands')).mono
    intro _ _ _ hall
    exact List.forall_mem_cons.mpr ⟨hdone, hall⟩

theorem Covers.forEach {covered : β → List PortId}
    (hbody : ∀ item ∈ items, ∀ ctx', ctx.Expands ctx' →
      Covers g kept failed (body item) ctx' (covered item) fun _ _ => True) :
    Covers g kept failed (items.forM body) ctx (items.flatMap covered) fun _ _ => True :=
  (Covers.forM covered (fun _ => True) hbody).forget

theorem Covers.forAll (hbody : ∀ item ∈ items, ∀ ctx', ctx.Expands ctx' →
      Covers g kept failed (body item) ctx' [] fun _ _ => True) :
    Covers g kept failed (items.forM body) ctx [] fun _ _ => True := by
  have h := Covers.forEach hbody
  rwa [List.flatMap_eq_nil_iff.mpr fun _ _ => rfl] at h

section

variable {items : List α} {body : α → Pass β} (done : β → Context → Prop)
  (hexpands : ∀ result ctx' ctx'', ctx'.Expands ctx'' → done result ctx' → done result ctx'')
include hexpands

theorem Covers.mapM (covered : α → List PortId) (hbody : ∀ item ∈ items, ∀ ctx', ctx.Expands ctx' →
      Covers g kept failed (body item) ctx' (covered item) done) :
    Covers g kept failed (items.mapM body) ctx (items.flatMap covered)
      fun results ctx' => results.length = items.length ∧ ∀ result ∈ results, done result ctx' := by
  induction items generalizing ctx with
  | nil => exact .pure ⟨rfl, nofun⟩
  | cons item rest ih =>
    rw [List.mapM_cons, List.flatMap_cons]
    obtain ⟨hitem, hrest⟩ := List.forall_mem_cons.mp hbody
    apply (hitem ctx (.refl ctx)).bind
    intro first ctx' hexpanded hdone
    apply (ih fun other ho ctx'' hexpanded' =>
      hrest other ho ctx'' (hexpanded.trans hexpanded')).finish
    rintro others ctx'' hexpanded' ⟨hlen, hall⟩
    apply Covers.pure
    refine ⟨by simp [hlen], List.forall_mem_cons.mpr ⟨?_, hall⟩⟩
    exact hexpands first ctx' ctx'' hexpanded' hdone

theorem Covers.mapAll (hbody : ∀ item ∈ items, ∀ ctx', ctx.Expands ctx' →
      Covers g kept failed (body item) ctx' [] done) :
    Covers g kept failed (items.mapM body) ctx []
      fun results ctx' => results.length = items.length ∧ ∀ result ∈ results, done result ctx' := by
  have h := Covers.mapM done hexpands (fun _ => []) hbody
  rwa [List.flatMap_eq_nil_iff.mpr fun _ _ => rfl] at h

end

/-! ## Small steps -/

theorem Covers.of_frame (hrun : pass ctx = .ok a ctx')
    (hflows : ctx'.flows = ctx.flows) (hlifetimes : ctx'.lifetimes = ctx.lifetimes)
    (hfacades : ctx'.facades = ctx.facades) (hgroups : ctx'.groups = ctx.groups) :
    Covers g kept failed pass ctx [] fun _ _ => True := by
  refine .of_ok hrun ⟨?_, ?_, ?_⟩ (fun _ h => h.of_eq hflows hlifetimes hfacades hgroups) trivial
  · rw [hflows]
  · rw [hgroups]
  · rw [hfacades]
    exact fun _ _ h => h

theorem covers_newTerm {create : TermStore → TermId × TermStore} :
    Covers g kept failed (newTerm create) ctx [] fun _ _ => True :=
  .of_frame rfl rfl rfl rfl rfl

theorem covers_count {change : Stats → Stats} :
    Covers g kept failed (count change) ctx [] fun _ _ => True :=
  .of_frame rfl rfl rfl rfl rfl

theorem covers_unifyAt {expected supplied : TermId} :
    Covers g kept failed (unifyAt port expected supplied) ctx [] fun _ _ => True :=
  .of_frame rfl rfl rfl rfl rfl

theorem covers_diagnose {diagnostic : Diagnostic} :
    Covers g kept failed (diagnose port diagnostic) ctx [] fun _ _ => True :=
  .of_frame rfl rfl rfl rfl rfl

theorem covers_checkFeatures {config : Config} {heads : List TypeConstructor} :
    Covers g kept failed (checkFeatures config port heads) ctx [] fun _ _ => True := by
  apply Covers.forAll
  intro head _ ctx' _
  split
  · exact .pure trivial
  · exact covers_diagnose

theorem covers_newFlow {mutable : Bool} {term : TermId} :
    Covers g kept failed (newFlow mutable term) ctx [] fun flow ctx' => flow < ctx'.flows.size := by
  have hsize : (ctx.flows.new mutable (some term)).2.size = ctx.flows.size + 1 :=
    FlowStore.size_new ..
  refine .of_ok rfl ⟨?_, Nat.le_refl _, fun _ _ h => h⟩ (fun _ h => h.of_flows ?_ ?_) ?_
  · exact hsize ▸ Nat.le_succ _
  · exact hsize ▸ Nat.le_succ _
  · exact h.typed.new mutable term
  · exact hsize ▸ Nat.lt_succ_self _

theorem covers_modifyFlows {change : FlowStore → FlowStore}
    (hsize : (change ctx.flows).size = ctx.flows.size)
    (htyped : ctx.flows.IsTyped → (change ctx.flows).IsTyped) :
    Covers g kept failed (modifyFlows change) ctx [] fun _ _ => True :=
  .of_ok rfl ⟨Nat.le_of_eq hsize.symm, Nat.le_refl _, fun _ _ h => h⟩
    (fun _ h => h.of_flows (Nat.le_of_eq hsize.symm) (htyped h.typed)) trivial

theorem covers_interrupt {lifetime : Lifetime} :
    Covers g kept failed (modifyFlows (·.interrupt lifetime flow)) ctx [] fun _ _ => True :=
  covers_modifyFlows rfl fun h => h

theorem covers_termOf (hflow : flow < ctx.flows.size) :
    Covers g kept failed (termOf flow) ctx [] fun _ ctx' => ctx = ctx' := by
  apply Covers.of_awaits
  intro todo hawaits
  obtain ⟨term, ht⟩ := hawaits.typed.term hflow
  exact (Covers.ask ht).mono fun _ _ _ h => h.2

theorem covers_carveLifetime (hscope : scope < g.scopes.size) :
    Covers g kept failed (carveLifetime scope) ctx [] fun _ _ => True := by
  intro todo hawaits
  obtain ⟨place, hplace⟩ := LifetimeForest.graphOf_of_hasGraph (hawaits.lifetimes scope hscope)
  apply Meets.bind
  apply meets_ask
  · intro carved hcarved
    obtain ⟨found, -, hcarved⟩ := Except.bind_eq_ok.mp hcarved
    cases hcarved
    exact ⟨⟨Nat.le_refl _, Nat.le_refl _, fun _ _ h => h⟩, hawaits.of_lifetimes fun _ h => h,
      trivial⟩
  · intro fault hfault
    rw [LifetimeForest.carve, hplace] at hfault
    cases hfault

theorem covers_setGroups (hsize : groups.size = ctx.groups.size)
    (hkept : kept ctx.facades ctx.groups → kept ctx.facades groups) :
    Covers g kept failed (modify fun ctx => { ctx with groups }) ctx []
      fun _ ctx' => ctx'.groups = groups :=
  .of_ok rfl ⟨Nat.le_refl _, Nat.le_of_eq hsize.symm, fun _ _ h => h⟩
    (fun _ h => h.of_groups (hkept h.kept)) rfl

theorem covers_changeGroups {change : BorrowGroups → Except Fault BorrowGroups}
    (hchange : change ctx.groups = .ok groups) (hsize : groups.size = ctx.groups.size)
    (hkept : kept ctx.facades ctx.groups → kept ctx.facades groups) :
    Covers g kept failed (changeGroups change) ctx [] fun _ ctx' => ctx'.groups = groups := by
  have hask : Covers g kept failed (ask fun ctx => change ctx.groups) ctx []
      fun found ctx' => groups = found ∧ ctx = ctx' := .ask hchange
  apply hask.step
  rintro _ _ - ⟨rfl, rfl⟩
  exact covers_setGroups hsize hkept

end Pass

end BorrowFlow
