import BorrowFlow.Proofs.Inference.Passes
import BorrowFlow.Proofs.Term.Obligations

/-!
# How a context grows

While the passes run, nothing that a context knows is lost. Flows that are one stay one. The type
term of a flow may be replaced, but only by one that has been unified with it, so as long as nothing
has been reported the two are alike, and what a type owes it goes on owing. A pass is followed
together with two things that it keeps: every handle has its sort, and something holds of the
facades and the groups.
-/

namespace BorrowFlow

variable {fixed : Prop} {ctx ctx' : Context} {kept kept' : Facades → BorrowGroups → Prop}
  {flow : FlowId} {term first second : TermId} {diagnostics : Diagnostics} {port : PortId}

namespace Diagnostics

theorem forPort_of_isEmpty (h : diagnostics.isEmpty = true) (port : PortId) :
    diagnostics.forPort port = [] := by
  have hentries : diagnostics.byPort.entries = [] := List.isEmpty_iff.mp h
  simp [forPort, IdMap.get?, hentries]

theorem not_isEmpty_push (diagnostic : Diagnostic) :
    ¬(diagnostics.push port diagnostic).isEmpty = true := by
  intro h
  have hm : diagnostic ∈ (diagnostics.push port diagnostic).forPort port := by
    simp only [push]
    split
    · assumption
    · simp [forPort]
  rw [forPort_of_isEmpty h] at hm
  cases hm

theorem of_isEmpty_foldl {found : List Diagnostic}
    (h : (found.foldl (fun diagnostics diagnostic => diagnostics.push port diagnostic)
      diagnostics).isEmpty = true) : diagnostics.isEmpty = true ∧ found = [] := by
  induction found generalizing diagnostics with
  | nil => exact ⟨h, rfl⟩
  | cons diagnostic rest ih => exact absurd (ih h).1 (not_isEmpty_push diagnostic)

theorem of_isEmpty_record {outcome : Outcome}
    (h : (diagnostics.record port outcome).isEmpty = true) :
    diagnostics.isEmpty = true ∧ outcome.isClean = true := by
  obtain ⟨hempty, hnone⟩ := of_isEmpty_foldl h
  refine ⟨hempty, ?_⟩
  simp only [Outcome.diagnostics, List.append_eq_nil_iff, List.map_eq_nil_iff] at hnone
  obtain ⟨⟨hmismatches, hmutable⟩, hfailed⟩ := hnone
  refine Outcome.isClean_iff.mpr ⟨hmismatches, ?_, hfailed⟩
  simpa using hmutable

end Diagnostics

namespace FlowStore

variable {s : FlowStore} {earlier later : FlowId}

theorem term_eq_ok : s.term flow = .ok term ↔ (s.get flow).term = some term := by
  unfold FlowStore.term
  cases (s.get flow).term <;> simp

@[simp] theorem term_setMutable (mutable : Bool) (other : FlowId) :
    ((s.setMutable flow mutable).get other).term = (s.get other).term := by
  simp only [setMutable, modify, get, Classes.value?_modify]
  split
  · cases s.classes.value? other <;> rfl
  · rfl

@[simp] theorem term_interrupt (lifetime : Lifetime) (other : FlowId) :
    ((s.interrupt lifetime flow).get other).term = (s.get other).term :=
  rfl

@[simp] theorem same_new (mutable : Bool) (term : Option TermId) (left right : FlowId) :
    (s.new mutable term).2.same left right = s.same left right :=
  s.classes.same_push _ left right

theorem value?_of_term (h : (s.get flow).term = some term) :
    s.classes.value? flow = some (s.get flow) := by
  unfold get at h ⊢
  cases hvalue : s.classes.value? flow with
  | none => simp [hvalue] at h
  | some data => rfl

theorem lt_size_of_term (h : (s.get flow).term = some term) : flow < s.size :=
  (s.classes.value?_isSome flow).mp (by simp [value?_of_term h])

theorem get_new (mutable : Bool) (term : Option TermId) (flow : FlowId) :
    (s.new mutable term).2.get flow =
      if flow = s.size then { id := s.size, mutable, term } else s.get flow := by
  simp only [get, new, Classes.value?_push, size]
  split <;> simp [*]

theorem term_new (mutable : Bool) (flow : FlowId) : ((s.new mutable (some term)).2.get flow).term =
      if flow = s.size then some term else (s.get flow).term := by
  rw [get_new]
  split <;> rfl

theorem get_of_same {other : FlowId} (h : s.same flow other = true) : s.get flow = s.get other := by
  unfold get
  rw [s.classes.value?_of_same h]
  cases hvalue : s.classes.value? other with
  | some data => rfl
  | none =>
    -- flows that were never created are alone in their classes
    have hother : s.classes.size ≤ other := by
      apply Nat.le_of_not_lt
      intro hlt
      simpa [hvalue] using (s.classes.value?_isSome other).mpr hlt
    have hflow : s.classes.size ≤ flow := by
      apply Nat.le_of_not_lt
      intro hlt
      exact Nat.not_lt_of_le hother (s.classes.lt_size_of_same h hlt)
    have hlabel := (s.classes.same_iff).mp h
    rw [s.classes.label_of_le hflow, s.classes.label_of_le hother] at hlabel
    rw [hlabel]

theorem same_merge (hearlier : earlier < s.size) (hlater : later < s.size) :
    (s.merge earlier later).same earlier later = true ∧ ∀ left right,
      s.same left right = true → (s.merge earlier later).same left right = true := by
  constructor
  · exact (Classes.same_union hearlier hlater earlier later).mpr
      (.inr ⟨.inl (Classes.same_refl ..), .inr (Classes.same_refl ..)⟩)
  · intro left right hsame
    exact (Classes.same_union hearlier hlater left right).mpr (.inl hsame)

theorem get_merge (hearlier : earlier < s.size) (hsecond : (s.get later).term = some second)
    (flow : FlowId) : (s.merge earlier later).get flow =
      if s.same flow earlier = true then s.get later else s.get flow := by
  cases hapart : s.classes.same earlier later with
  | true =>
    rw [merge, s.classes.union_of_same hapart]
    split
    · rename_i hsame
      exact get_of_same (s.classes.same_trans hsame hapart)
    · rfl
  | false =>
    obtain ⟨data, hd⟩ := s.classes.exists_value? hearlier
    have hunion : (s.merge earlier later).classes.value? flow = _ :=
      Classes.value?_union hd (value?_of_term hsecond) hapart flow
    have hkeep : Flow.merge data (s.get later) = s.get later := by
      have hfirst : ((s.get later).term <|> data.term) = (s.get later).term := by simp [hsecond]
      simp only [Flow.merge, hfirst]
    rw [get, hunion, hkeep]
    by_cases hsame : s.same flow earlier = true
    · rw [if_pos hsame, if_pos (.inl hsame)]
      rfl
    · rw [if_neg hsame]
      split
      · rename_i hclass
        exact (get_of_same (hclass.resolve_left hsame)).symm
      · rfl

theorem term_merge_eq (hfirst : (s.get earlier).term = some first)
    (hsecond : (s.get later).term = some second) (flow : FlowId) :
    ((s.merge earlier later).get flow).term =
      if s.same flow earlier = true then some second else (s.get flow).term := by
  rw [get_merge (lt_size_of_term hfirst) hsecond, ← hsecond]
  split <;> rfl

/-- A merge gives the later type term to flows that had the earlier one, and to no others. -/
theorem term_merge (hfirst : (s.get earlier).term = some first)
    (hsecond : (s.get later).term = some second) (flow : FlowId) :
    ((s.merge earlier later).get flow).term = (s.get flow).term ∨
      (s.get flow).term = some first ∧ ((s.merge earlier later).get flow).term = some second := by
  rw [term_merge_eq hfirst hsecond]
  split
  · rename_i hsame
    exact .inr ⟨get_of_same hsame ▸ hfirst, rfl⟩
  · exact .inl rfl

end FlowStore

namespace Context

variable {ctx'' : Context}

def isClean (ctx : Context) : Bool := ctx.diagnostics.isEmpty

/-- The second context knows everything that the first one does. Flows keep their types if nothing
has been reported, and with them their mutabilities if those are fixed; types keep what they owe. -/
structure Grows (fixed : Prop) (ctx ctx' : Context) : Prop where
  terms : ctx.terms.Extends ctx'.terms
  clean : ctx'.isClean = true → ctx.isClean = true
  owed : ctx'.isClean = true → ctx.terms.Honours fixed ctx'.terms
  joined : ∀ left right, ctx.flows.same left right = true → ctx'.flows.same left right = true
  flows : ∀ flow term, (ctx.flows.get flow).term = some term →
    ∃ term', (ctx'.flows.get flow).term = some term' ∧
      (ctx'.isClean = true → ctx'.terms.AlikeIf fixed term term')
  facades : ∀ port facade, ctx.facades.get? port = some facade →
    ctx'.facades.get? port = some facade
  groups : ∀ (group : GroupId) (data : BorrowGroup), ctx.groups.groups[group]? = some data →
    ∃ data' : BorrowGroup, ctx'.groups.groups[group]? = some data' ∧
      data'.node = data.node ∧ data'.scope = data.scope
  order : ctx'.order = ctx.order

theorem Grows.refl (ctx : Context) : ctx.Grows fixed ctx where
  terms := .refl _
  clean h := h
  owed _ := .refl fixed _
  joined _ _ h := h
  flows _ term h := ⟨term, h, fun _ => .refl term⟩
  facades _ _ h := h
  groups _ data h := ⟨data, h, rfl, rfl⟩
  order := rfl

theorem Grows.trans (h : ctx.Grows fixed ctx') (h' : ctx'.Grows fixed ctx'') :
    ctx.Grows fixed ctx'' where
  terms := h.terms.trans h'.terms
  clean hclean := h.clean (h'.clean hclean)
  owed hclean := (h.owed (h'.clean hclean)).trans (h'.owed hclean)
  joined left right hsame := h'.joined left right (h.joined left right hsame)
  flows flow term ht := by
    obtain ⟨term', ht', hagree⟩ := h.flows flow term ht
    obtain ⟨term'', ht'', hagree'⟩ := h'.flows flow term' ht'
    refine ⟨term'', ht'', fun hclean => ?_⟩
    exact TermStore.AlikeIf.trans (h'.terms.alike (hagree (h'.clean hclean))) (hagree' hclean)
  facades port facade hfacade := h'.facades port facade (h.facades port facade hfacade)
  groups group data hd := by
    obtain ⟨data', hd', hnode, hscope⟩ := h.groups group data hd
    obtain ⟨data'', hd'', hnode', hscope'⟩ := h'.groups group data' hd'
    exact ⟨data'', hd'', hnode'.trans hnode, hscope'.trans hscope⟩
  order := h'.order.trans h.order

/-- A flow has a type that is like the given one, as far as nothing has been reported. -/
def Carries (fixed : Prop) (ctx : Context) (flow : FlowId) (term : TermId) : Prop :=
  ∃ found, (ctx.flows.get flow).term = some found ∧
    (ctx.isClean = true → ctx.terms.AlikeIf fixed term found)

theorem carries_of_term (h : (ctx.flows.get flow).term = some term) : ctx.Carries fixed flow term :=
  ⟨term, h, fun _ => .refl term⟩

theorem Carries.of_grows (h : ctx.Carries fixed flow term)
    (hg : ctx.Grows fixed ctx') : ctx'.Carries fixed flow term := by
  obtain ⟨found, hf, halike⟩ := h
  obtain ⟨found', hf', halike'⟩ := hg.flows flow found hf
  refine ⟨found', hf', fun hclean => ?_⟩
  exact TermStore.AlikeIf.trans (hg.terms.alike (halike (hg.clean hclean))) (halike' hclean)

theorem Carries.of_alike {other : TermId} (h : ctx.Carries fixed flow term)
    (halike : ctx.isClean = true → ctx.terms.AlikeIf fixed other term) :
    ctx.Carries fixed flow other := by
  obtain ⟨found, hf, halike'⟩ := h
  exact ⟨found, hf, fun hclean => (halike hclean).trans (halike' hclean)⟩

/-- Every handle has its sort, and if mutabilities are to be fixed, they are. -/
structure Typed (fixed : Prop) (ctx : Context) : Prop where
  sound : ctx.terms.Sound
  rigid : fixed → ctx.terms.Rigid
  flows : ∀ flow term, (ctx.flows.get flow).term = some term → ctx.terms.HasSort term .type
  groups : ∀ (group : GroupId) (data : BorrowGroup), ctx.groups.groups[group]? = some data →
    ctx.terms.HasSort data.lifetimeTerm .lifetime

/-- A context is typed, and something holds of its facades and groups. -/
structure Stands (fixed : Prop) (kept : Facades → BorrowGroups → Prop) (ctx : Context) :
    Prop where
  typed : ctx.Typed fixed
  kept : kept ctx.facades ctx.groups

theorem Stands.exact (h : ctx.Stands fixed kept) : ctx.Stands fixed fun facades groups =>
      facades = ctx.facades ∧ groups = ctx.groups :=
  ⟨h.typed, rfl, rfl⟩

/-! ## Changes of the parts -/

section Parts

theorem grows_of_terms {terms : TermStore} (h : ctx.terms.Extends terms)
    (hclean : diagnostics.isEmpty = true → ctx.isClean = true)
    (howed : diagnostics.isEmpty = true → ctx.terms.Honours fixed terms) :
    ctx.Grows fixed { ctx with terms, diagnostics } where
  __ := (Grows.refl ctx : ctx.Grows fixed ctx)
  terms := h
  clean := hclean
  owed := howed
  flows _ term ht := ⟨term, ht, fun _ => .refl term⟩

theorem Stands.of_terms (h : ctx.Stands fixed kept) {terms : TermStore} (hsound : terms.Sound)
    (hext : ctx.terms.Extends terms)
    (hrigid : fixed → ctx.terms.Rigid → terms.Rigid) :
    ({ ctx with terms } : Context).Stands fixed kept := by
  obtain ⟨⟨-, hfixed, hflows, hgroups⟩, hkept⟩ := h
  refine ⟨⟨hsound, fun hyes => hrigid hyes (hfixed hyes), ?_, ?_⟩, hkept⟩
  · exact fun flow term ht => hext.hasSort (hflows flow term ht)
  · exact fun group data hd => hext.hasSort (hgroups group data hd)

theorem grows_of_flows {flows : FlowStore}
    (hjoined : ∀ left right, ctx.flows.same left right = true → flows.same left right = true)
    (h : ∀ flow term, (ctx.flows.get flow).term = some term → ∃ term',
      (flows.get flow).term = some term' ∧
        (ctx.isClean = true → ctx.terms.AlikeIf fixed term term')) :
    ctx.Grows fixed { ctx with flows } where
  __ := Grows.refl ctx
  joined := hjoined
  flows := h

theorem Stands.of_flows (h : ctx.Stands fixed kept) {flows : FlowStore}
    (hflows : ∀ flow term, (flows.get flow).term = some term → ctx.terms.HasSort term .type) :
    ({ ctx with flows } : Context).Stands fixed kept := by
  obtain ⟨⟨hsound, hfixed, -, hgroups⟩, hkept⟩ := h
  exact ⟨⟨hsound, hfixed, hflows, hgroups⟩, hkept⟩

theorem Stands.of_rest (h : ctx.Stands fixed kept) (lifetimes : LifetimeForest)
    (diagnostics : Diagnostics) (stats : Stats) (order : List NodeId) :
    ({ ctx with lifetimes, diagnostics, stats, order } : Context).Stands fixed kept :=
  ⟨{ h.typed with }, h.kept⟩

theorem grows_of_rest (lifetimes : LifetimeForest) (stats : Stats) :
    ctx.Grows fixed { ctx with lifetimes, stats } :=
  { Grows.refl ctx with }

section

variable {facades : Facades} (h : ctx.Stands fixed kept)
  (hfacades : ∀ port facade, ctx.facades.get? port = some facade → facades.get? port = some facade)
include h hfacades

/-- One group changes, but not where it belongs, and facades are only added. -/
theorem Stands.of_modify {groups : BorrowGroups} {id : GroupId} {change : BorrowGroup → BorrowGroup}
    (hgroups : groups.groups = (ctx.groups.modify id change).groups)
    (hchange : ∀ data, (change data).node = data.node ∧ (change data).scope = data.scope ∧
      (change data).lifetimeTerm = data.lifetimeTerm) (hkept : kept' facades groups) :
    ctx.Grows fixed { ctx with facades, groups } ∧
      ({ ctx with facades, groups } : Context).Stands fixed kept' := by
  have hget : ∀ other : GroupId, groups.groups[other]? =
      if id = other then (ctx.groups.groups[other]?).map change
      else ctx.groups.groups[other]? := by
    intro other
    rw [hgroups, BorrowGroups.modify, Array.getElem?_modify]
  refine ⟨{ Grows.refl ctx with facades := hfacades, groups := fun other data hd => ?_ },
    { h.typed with groups := fun other data hd => ?_ }, hkept⟩
  · obtain ⟨hnode, hscope, -⟩ := hchange data
    rw [hget, hd]
    split
    · exact ⟨_, rfl, hnode, hscope⟩
    · exact ⟨data, rfl, rfl, rfl⟩
  · rw [hget] at hd
    split at hd
    · obtain ⟨old, hold, rfl⟩ := Option.map_eq_some_iff.mp hd
      rw [(hchange old).2.2]
      exact h.typed.groups other old hold
    · exact h.typed.groups other data hd

end

end Parts

end Context

/-! ## Passes -/

namespace Pass

variable {α β : Type}

/-- If the pass ends well, the context has grown, and goes on standing. -/
def Progress (fixed : Prop) (kept : Facades → BorrowGroups → Prop) (pass : Pass α)
    (ctx : Context) (post : α → Context → Prop) : Prop :=
  Yields pass ctx fun a ctx' => ctx.Grows fixed ctx' ∧ ctx'.Stands fixed kept ∧ post a ctx'

variable {pass : Pass α} {next : α → Pass β} {post : α → Context → Prop} {last : β → Context → Prop}

theorem Progress.of_ok {a : α} (hrun : pass ctx = .ok a ctx')
    (hg : ctx.Grows fixed ctx') (hstands : ctx'.Stands fixed kept)
    (hpost : post a ctx') : Progress fixed kept pass ctx post :=
  Ends.of_ok hrun ⟨hg, hstands, hpost⟩

section

variable {post' : α → Context → Prop} (h : Progress fixed kept pass ctx post)
include h

theorem Progress.bind_ends (hnext : ∀ a ctx', ctx.Grows fixed ctx' → ctx'.Stands fixed kept →
      post a ctx' → Yields (next a) ctx' last) :
    Yields (pass >>= next) ctx last := by
  apply h.seq
  rintro a ctx' ⟨hg, hstands, hpost⟩
  exact hnext a ctx' hg hstands hpost

theorem Progress.bind (hnext : ∀ a ctx', ctx.Grows fixed ctx' → ctx'.Stands fixed kept →
      post a ctx' → Progress fixed kept' (next a) ctx' last) :
    Progress fixed kept' (pass >>= next) ctx last := by
  apply h.bind_ends
  intro a ctx' hg hstands hpost
  apply (hnext a ctx' hg hstands hpost).imp ?_
  rintro b ctx'' ⟨hg', hstands', hlast⟩
  exact ⟨hg.trans hg', hstands', hlast⟩

theorem Progress.imp (himp : ∀ a ctx', ctx.Grows fixed ctx' → ctx'.Stands fixed kept →
      post a ctx' → kept' ctx'.facades ctx'.groups ∧ post' a ctx') :
    Progress fixed kept' pass ctx post' := by
  apply Ends.imp h ?_
  rintro a ctx' ⟨hg, hstands, ha⟩
  obtain ⟨hkept, hpost⟩ := himp a ctx' hg hstands ha
  exact ⟨hg, ⟨hstands.typed, hkept⟩, hpost⟩

theorem Progress.mono (hpost : ∀ a ctx', ctx.Grows fixed ctx' → ctx'.Stands fixed kept →
      post a ctx' → post' a ctx') : Progress fixed kept pass ctx post' :=
  h.imp fun a ctx' hg hstands ha => ⟨hstands.kept, hpost a ctx' hg hstands ha⟩

theorem Progress.also (h' : Yields pass ctx post') :
    Progress fixed kept pass ctx fun a ctx' => post a ctx' ∧ post' a ctx' := by
  apply (Ends.both h h').imp
  rintro a ctx' ⟨⟨hg, hstands, hpost⟩, hpost'⟩
  exact ⟨hg, hstands, hpost, hpost'⟩

end

theorem Progress.pure {a : α} (h : ctx.Stands fixed kept) (hpost : post a ctx) :
    Progress fixed kept (Pure.pure a) ctx post :=
  .of_ok rfl (.refl ctx) h hpost

section

variable (h : ctx.Stands fixed kept)
include h

theorem Progress.get : Progress fixed kept MonadState.get ctx
      fun found ctx' => ctx = found ∧ ctx = ctx' :=
  .of_ok rfl (.refl ctx) h ⟨rfl, rfl⟩

theorem Progress.lift {answer : Except Fault α} : Progress fixed kept (liftM answer) ctx
      fun a ctx' => answer = .ok a ∧ ctx = ctx' :=
  Ends.lift (fun _ ha => ⟨.refl ctx, h, ha, rfl⟩) trivial

theorem Progress.ask {query : Context → Except Fault α} : Progress fixed kept (ask query) ctx
      fun a ctx' => query ctx = .ok a ∧ ctx = ctx' :=
  ends_ask (fun _ ha => ⟨.refl ctx, h, ha, rfl⟩) trivial

theorem Progress.termOf : Progress fixed kept (termOf flow) ctx
      fun term ctx' => (ctx.flows.get flow).term = some term ∧ ctx = ctx' :=
  (Progress.ask h).mono fun _ _ _ _ ⟨ht, hcontext⟩ => ⟨FlowStore.term_eq_ok.mp ht, hcontext⟩

end

theorem Progress.forM {items : List β} {body : β → Pass PUnit} (done : β → Context → Prop)
    (h : ctx.Stands fixed kept)
    (hg : ∀ item ctx' ctx'', ctx'.Grows fixed ctx'' → done item ctx' → done item ctx'')
    (hbody : ∀ item ∈ items, ∀ ctx', ctx.Grows fixed ctx' → ctx'.Stands fixed kept →
      Progress fixed kept (body item) ctx' fun _ => done item) :
    Progress fixed kept (items.forM body) ctx fun _ ctx' => ∀ item ∈ items, done item ctx' := by
  induction items generalizing ctx with
  | nil => exact .pure h nofun
  | cons item rest ih =>
    obtain ⟨hitem, hrest⟩ := List.forall_mem_cons.mp hbody
    apply (hitem ctx (.refl ctx) h).bind
    intro _ ctx' hgrown hstands hdone
    apply (ih hstands fun other ho ctx'' hgrown' =>
      hrest other ho ctx'' (hgrown.trans hgrown')).mono
    intro _ ctx'' hgrown' _ hall
    exact List.forall_mem_cons.mpr ⟨hg item ctx' ctx'' hgrown' hdone, hall⟩

theorem Progress.forget (h : Progress fixed kept pass ctx post) :
    Progress fixed kept pass ctx fun _ _ => True :=
  h.mono fun _ _ _ _ _ => trivial

theorem Progress.forEach {items : List β} {body : β → Pass PUnit} (h : ctx.Stands fixed kept)
    (hbody : ∀ item ∈ items, ∀ ctx', ctx.Grows fixed ctx' →
      ctx'.Stands fixed kept → Progress fixed kept (body item) ctx' fun _ _ => True) :
    Progress fixed kept (items.forM body) ctx fun _ _ => True :=
  (Progress.forM (fun _ _ => True) h (fun _ _ _ _ hdone => hdone) hbody).forget

theorem Progress.mapM {items : List α} {body : α → Pass β} (done : α → β → Context → Prop)
    (h : ctx.Stands fixed kept)
    (hg : ∀ item result ctx' ctx'', ctx'.Grows fixed ctx'' →
      done item result ctx' → done item result ctx'')
    (hbody : ∀ item ∈ items, ∀ ctx', ctx.Grows fixed ctx' → ctx'.Stands fixed kept →
      Progress fixed kept (body item) ctx' (done item)) :
    Progress fixed kept (items.mapM body) ctx fun results ctx' =>
      List.Forall₂ (fun item result => done item result ctx') items results := by
  induction items generalizing ctx with
  | nil => exact .pure h .nil
  | cons item rest ih =>
    rw [List.mapM_cons]
    obtain ⟨hitem, hrest⟩ := List.forall_mem_cons.mp hbody
    apply (hitem ctx (.refl ctx) h).bind
    intro first ctx' hgrown hstands hdone
    apply (ih hstands fun other ho ctx'' hgrown' =>
      hrest other ho ctx'' (hgrown.trans hgrown')).bind
    intro others ctx'' hgrown' hstands' hall
    exact .pure hstands' (.cons (hg item first ctx' ctx'' hgrown' hdone) hall)

/-! ## Small steps -/

section

variable (h : ctx.Stands fixed kept)
include h

theorem Progress.newTerm {create : TermStore → TermId × TermStore} {sort : TermSort}
    (hcreates : ctx.terms.Creates fixed sort (create ctx.terms)) :
    Progress fixed kept (newTerm create) ctx fun term ctx' => ctx'.terms.HasSort term sort ∧
        create ctx.terms = (term, ctx'.terms) :=
  .of_ok rfl (Context.grows_of_terms hcreates.keeps id fun _ => hcreates.enlarges.honours)
    (h.of_terms hcreates.sound hcreates.keeps hcreates.rigid) ⟨hcreates.sort, rfl⟩

theorem Progress.newReference {mutable : Bool} {underlying lifetime : TermId}
    (hunderlying : ctx.terms.HasSort underlying .type)
    (hlifetime : ctx.terms.HasSort lifetime .lifetime) :
    Progress fixed kept (Pass.newTerm (·.newReference (.fixed mutable) underlying lifetime)) ctx
      fun term ctx' => ctx'.terms.HasSort term .type ∧
        ctx.terms.newReference (.fixed mutable) underlying lifetime = (term, ctx'.terms) :=
  Progress.newTerm h (h.typed.sound.creates_push fixed
    (.reference (.fixed mutable) underlying lifetime) ⟨trivial, hunderlying, hlifetime⟩ (by simp))

theorem Progress.modifyFlows {change : FlowStore → FlowStore}
    (hsame : ∀ left right, (change ctx.flows).same left right = ctx.flows.same left right)
    (ht : ∀ flow, ((change ctx.flows).get flow).term = (ctx.flows.get flow).term) :
    Progress fixed kept (modifyFlows change) ctx fun _ _ => True := by
  refine ends_modify ⟨Context.grows_of_flows (by simp [hsame]) ?_, h.of_flows ?_, trivial⟩
  · intro flow term hf
    exact ⟨term, (ht flow).trans hf, fun _ => .refl term⟩
  · intro flow term hf
    exact h.typed.flows flow term ((ht flow).symm.trans hf)

/-- Flows whose types are alike may be merged, and are one then. -/
theorem Progress.merge {earlier later : FlowId} (hfirst : (ctx.flows.get earlier).term = some first)
    (hsecond : (ctx.flows.get later).term = some second)
    (halike : ctx.isClean = true → ctx.terms.AlikeIf fixed first second) :
    Progress fixed kept (Pass.modifyFlows (·.merge earlier later)) ctx
      fun _ ctx' => ctx'.flows.same earlier later = true := by
  have hmerge := FlowStore.term_merge hfirst hsecond
  obtain ⟨hsame, hjoined⟩ := FlowStore.same_merge (FlowStore.lt_size_of_term hfirst)
    (FlowStore.lt_size_of_term hsecond)
  refine ends_modify ⟨Context.grows_of_flows hjoined ?_, h.of_flows ?_, hsame⟩
  · intro flow term ht
    rcases hmerge flow with hsame | ⟨hold, hnew⟩
    · exact ⟨term, hsame.trans ht, fun _ => .refl term⟩
    · cases ht.symm.trans hold
      exact ⟨second, hnew, halike⟩
  · intro flow term ht
    rcases hmerge flow with hsame | ⟨hold, hnew⟩
    · exact h.typed.flows flow term (hsame.symm.trans ht)
    · cases ht.symm.trans hnew
      exact h.typed.flows later second hsecond

theorem Progress.unifyAt {expected supplied : TermId} (hexpected : ctx.terms.HasSort expected .type)
    (hsupplied : ctx.terms.HasSort supplied .type) :
    Progress fixed kept (unifyAt port expected supplied) ctx fun _ ctx' => ctx'.flows = ctx.flows ∧
        (ctx'.isClean = true → ctx'.terms.AlikeIf fixed expected supplied) := by
  obtain ⟨hsteps, hsound⟩ := h.typed.sound.unify hexpected hsupplied
  have hterms := h.of_terms hsound hsteps.extends fun _ hrigid => hsteps.rigid hrigid
  refine ends_unifyAt ⟨Context.grows_of_terms hsteps.extends ?_ ?_, hterms.of_rest _ _ _ _, rfl, ?_⟩
  · exact fun hempty => (Diagnostics.of_isEmpty_record hempty).1
  · intro hempty
    have hclean := (Diagnostics.of_isEmpty_record hempty).2
    have hunifies := TermStore.unifies_unify h.typed.sound.wellSorted h.typed.sound.solvable
      hexpected hsupplied
    exact h.typed.sound.honours_unify h.typed.rigid hexpected hsupplied
      (hunifies.equal_of_isClean hclean) hclean
  · intro hclean
    exact h.typed.sound.alikeIf_unify h.typed.rigid hexpected hsupplied
      (Diagnostics.of_isEmpty_record hclean).2

theorem Progress.setGroup {id : GroupId} {change : BorrowGroup → BorrowGroup}
    (hchange : ∀ data, (change data).node = data.node ∧ (change data).scope = data.scope ∧
      (change data).lifetimeTerm = data.lifetimeTerm)
    (hkept : kept' ctx.facades (ctx.groups.modify id change)) :
    Progress fixed kept'
      (modify fun ctx' => { ctx' with groups := ctx.groups.modify id change }) ctx
        fun _ ctx' => ctx'.terms = ctx.terms ∧ ctx'.flows = ctx.flows := by
  obtain ⟨hg, hstands⟩ := h.of_modify (fun _ _ hfacade => hfacade) rfl hchange hkept
  exact ends_modify ⟨hg, hstands, rfl, rfl⟩

theorem Progress.count {change : Stats → Stats} :
    Progress fixed kept (count change) ctx fun _ _ => True :=
  ends_count ⟨Context.grows_of_rest _ _, h.of_rest _ _ _ _, trivial⟩

theorem Progress.setLifetimes {lifetimes : LifetimeForest} :
    Progress fixed kept (modify fun ctx => { ctx with lifetimes }) ctx fun _ _ => True :=
  ends_modify ⟨Context.grows_of_rest _ _, h.of_rest _ _ _ _, trivial⟩

theorem Progress.carveLifetime {scope : ScopeId} :
    Progress fixed kept (carveLifetime scope) ctx fun _ _ => True := by
  apply (Progress.ask h).bind
  rintro ⟨lifetime, lifetimes⟩ ctx' - hstands -
  apply (Progress.setLifetimes hstands).bind
  intro _ ctx'' _ hstands' _
  exact .pure hstands' trivial

end

end Pass

end BorrowFlow
