import BorrowFlow.Proofs.Graph.Visits
import BorrowFlow.Proofs.Inference.Facing
import BorrowFlow.Proofs.Inference.Frames
import BorrowFlow.Proofs.LifetimeForest
import BorrowFlow.Proofs.Term.Knowledge
import BorrowFlow.Proofs.Term.KnownLifetimes

/-!
# Lifetimes that the first pass opens

Every scope has a graph of lifetimes, below that of the scope around it. Explicit borrows, borrow
tunnels and loop conditions open lifetimes of their scopes, and their outputs show references with
these lifetimes. No type has a lifetime that was not opened before.
-/

namespace BorrowFlow

variable {g : Graph} {ctx : Context} {node : Node} {place : BoundedLifetime} {mutable : Bool}

/-! ## The graphs of scopes -/

namespace LifetimeForest

variable {forest forest' : LifetimeForest} {count : Nat}

/-- So many scopes have graphs, which are numbered like them and are nested like them. -/
structure Lays (forest : LifetimeForest) (g : Graph) (count : Nat) : Prop where
  lawful : forest.Lawful
  size : forest.graphs.size = count
  graphOf : ∀ {scope : ScopeId} {place : Nat}, forest.graphOf scope = .ok place ↔
    scope < count ∧ place = scope
  parentOf : ∀ scope < count, forest.parentOf scope = (g.scopes[scope]?).bind Scope.parent

theorem lays_empty (g : Graph) : Lays {} g 0 :=
  ⟨lawful_empty, rfl, ⟨fun h => absurd (lawful_empty.inRange h) (Nat.not_lt_zero _), nofun⟩, nofun⟩

theorem Lays.of_extends (h : forest.Lays g count) (hlawful : forest'.Lawful)
    (hext : forest.Extends forest') : forest'.Lays g count where
  lawful := hlawful
  size := hext.size.trans h.size
  graphOf {scope place} := by rw [hext.graphOf, h.graphOf]
  parentOf scope hlt := (hext.parentOf scope).trans (h.parentOf scope hlt)

theorem Lays.establish (h : forest.Lays g count) {scope : Scope} {place : Nat}
    (hscope : g.scopes[count]? = some scope)
    (hestablish : forest.establish count scope.parent = .ok (place, forest')) :
    forest'.Lays g (count + 1) := by
  obtain ⟨-, around, haround, hforest⟩ := of_establish hestablish
  obtain rfl : around = scope.parent := by
    cases hparent : scope.parent with
    | none =>
      rw [hparent] at haround
      cases haround
      rfl
    | some outer =>
      rw [hparent] at haround
      obtain ⟨found, hf, heq⟩ := Except.bind_eq_ok.mp haround
      cases heq
      rw [(h.graphOf.mp hf).2]
  refine ⟨h.lawful.establish hestablish, by simp [hforest, h.size], ?_, fun other hlt => ?_⟩
  · intro other found
    rw [graphOf_establish hestablish, h.size, h.graphOf]
    constructor
    · rintro (⟨rfl, rfl⟩ | ⟨hlt, rfl⟩)
      · exact ⟨Nat.lt_succ_self _, rfl⟩
      · exact ⟨Nat.lt_succ_of_lt hlt, rfl⟩
    · rintro ⟨hlt, rfl⟩
      rcases Nat.lt_or_eq_of_le (Nat.le_of_lt_succ hlt) with hlt | rfl
      · exact .inr ⟨hlt, rfl⟩
      · exact .inl ⟨rfl, rfl⟩
  · rw [LifetimeForest.parentOf, hforest, Array.getElem?_push, h.size]
    split
    · rename_i heq
      rw [heq, hscope]
      rfl
    · exact h.parentOf other (by omega)

theorem Lays.encloses_iff (h : forest.Lays g g.scopes.size) (hn : g.Nested)
    (hl : g.Layered) {outer inner : ScopeId} :
    Relation.TransGen forest.Encloses outer inner ↔ g.Encloses outer inner ∧ outer ≠ inner := by
  have hstep : ∀ {outer inner : ScopeId}, forest.Encloses outer inner → g.Encloses outer inner := by
    intro outer inner hencloses
    obtain ⟨_, hf, -⟩ := exists_of_encloses hencloses
    have hlt : inner < g.scopes.size := h.size ▸ (Array.getElem?_eq_some_iff.mp hf).1
    have hparent := (h.parentOf inner hlt).symm.trans hencloses
    have hroot : inner ≠ Graph.rootScope := by
      rintro rfl
      exact absurd (h.lawful.encloses hencloses) (Nat.not_lt_zero _)
    obtain ⟨n, node, hnode, -, hbody⟩ := hn.owned hlt hroot
    cases hparent.symm.trans (hl.inside hnode hbody)
    exact .body hnode hbody .refl
  constructor
  · intro hpath
    refine ⟨?_, Nat.ne_of_lt (h.lawful.lt_of_encloses hpath)⟩
    induction hpath with
    | single hencloses => exact hstep hencloses
    | tail _ hencloses ih => exact ih.trans (hstep hencloses)
  · rintro ⟨hencloses, hne⟩
    have hpath : Relation.ReflTransGen forest.Encloses outer inner := by
      clear hne
      induction hencloses with
      | refl => exact .refl
      | body hnode hbody _ ih =>
        exact ih.tail ((h.parentOf _ (hn.body hnode hbody).2).trans (hl.inside hnode hbody))
    exact (Relation.reflTransGen_iff_eq_or_transGen.mp hpath).resolve_left hne.symm

end LifetimeForest

/-! ## Additions to a context -/

/-- Lifetimes are as they should be, and no term has one that has not been opened. -/
structure LifetimeForest.Grounds (forest : LifetimeForest) (terms : TermStore) : Prop where
  lawful : forest.Lawful
  has : ∀ place, terms.Knows (.bounded place) → forest.Has place

namespace Context

variable {ctx' ctx'' : Context}

abbrev Grounded (ctx : Context) : Prop := ctx.lifetimes.Grounds ctx.terms

/-- Terms, flows and facades were added, and lifetimes were opened. -/
structure Adds (ctx ctx' : Context) : Prop where
  terms : ctx.terms.Enlarges ctx'.terms
  flows : ∀ flow term, (ctx.flows.get flow).term = some term →
    (ctx'.flows.get flow).term = some term
  facades : ∀ port facade, ctx.facades.get? port = some facade →
    ctx'.facades.get? port = some facade
  grounded : ctx.Grounded → ctx'.Grounded ∧ ctx.lifetimes.Extends ctx'.lifetimes

theorem Adds.refl (ctx : Context) : ctx.Adds ctx :=
  ⟨.refl _, fun _ _ => id, fun _ _ => id, fun h => ⟨h, .refl _⟩⟩

theorem Adds.trans (h : ctx.Adds ctx') (h' : ctx'.Adds ctx'') : ctx.Adds ctx'' where
  terms := h.terms.trans h'.terms
  flows flow term ht := h'.flows flow term (h.flows flow term ht)
  facades port facade hfacade := h'.facades port facade (h.facades port facade hfacade)
  grounded hgrounded := by
    obtain ⟨hgrounded', hext⟩ := h.grounded hgrounded
    obtain ⟨hgrounded'', hext'⟩ := h'.grounded hgrounded'
    exact ⟨hgrounded'', hext.trans hext'⟩

theorem adds_of_rest (groups : BorrowGroups) (diagnostics : Diagnostics) (stats : Stats) :
    ctx.Adds { ctx with groups, diagnostics, stats } :=
  ⟨.refl _, fun _ _ => id, fun _ _ => id, fun h => ⟨h, .refl _⟩⟩

theorem adds_of_flows {flows : FlowStore} (h : ∀ flow term,
    (ctx.flows.get flow).term = some term → (flows.get flow).term = some term) :
    ctx.Adds { ctx with flows } :=
  ⟨.refl _, h, fun _ _ => id, fun hgrounded => ⟨hgrounded, .refl _⟩⟩

def Refers (ctx : Context) (flow : FlowId) (place : BoundedLifetime) : Prop :=
  ∃ term, (ctx.flows.get flow).term = some term ∧ ctx.terms.lifetimeOf term = .bounded place

theorem Refers.of_adds {flow : FlowId} (h : ctx.Refers flow place)
    (hadds : ctx.Adds ctx') : ctx'.Refers flow place := by
  obtain ⟨term, ht, hlifetime⟩ := h
  refine ⟨term, hadds.flows _ _ ht, ?_⟩
  unfold TermStore.lifetimeOf at hlifetime ⊢
  split at hlifetime
  · rename_i hp
    simp only [hadds.terms.extends.reference hp]
    unfold TermStore.lifetimeValue at hlifetime ⊢
    split at hlifetime
    · rename_i hp'
      simp only [hadds.terms.extends.lifetime hp', hlifetime]
    · cases hlifetime
  all_goals cases hlifetime

def Shows (ctx : Context) (port : PortId) (place : BoundedLifetime) : Prop :=
  ∃ flow, ctx.facades.get? port = some (.simple flow) ∧ ctx.Refers flow place

theorem Shows.of_adds {port : PortId} (h : ctx.Shows port place) (hadds : ctx.Adds ctx') :
    ctx'.Shows port place := by
  obtain ⟨flow, hfacade, hrefers⟩ := h
  exact ⟨flow, hadds.facades _ _ hfacade, hrefers.of_adds hadds⟩

/-- The node has opened the lifetime, and its outputs show references with it. -/
structure Opened (ctx : Context) (node : Node) (own : BoundedLifetime) : Prop where
  scope : ctx.lifetimes.graphOf node.scope = .ok own.graph
  has : ctx.lifetimes.Has own
  shows : ∀ output ∈ node.outputs, ctx.Shows output own

theorem Opened.of_adds {own : BoundedLifetime} (h : ctx.Opened node own)
    (hgrounded : ctx.Grounded) (hadds : ctx.Adds ctx') : ctx'.Opened node own := by
  obtain ⟨-, hext⟩ := hadds.grounded hgrounded
  exact ⟨(hext.graphOf _).trans h.scope, hext.has h.has,
    fun output houtput => (h.shows output houtput).of_adds hadds⟩

end Context

def NodeKind.opensLifetime : NodeKind → Bool
  | explicitBorrow .. | border _ (.borrowTunnel _) | border _ .loopCondition => true
  | _ => false

namespace TermStore.Mints

variable {create : TermStore → TermId × TermStore} {s : TermStore}

theorem enlarges (h : Mints create) : s.Enlarges (create s).2 := by
  cases h with
  | type type => exact enlarges_newType s type
  | unbound constraints => exact enlarges_newUnbound s constraints
  | _ => exact enlarges_push s _

theorem knows (h : Mints create) {value : Lifetime} (hknows : (create s).2.Knows value) :
    s.Knows value := by
  cases h with
  | type type => exact knows_of_newType type hknows
  | _ => exact (knows_of_push hknows).resolve_right nofun

end TermStore.Mints

namespace Pass

open Context

variable {α β : Type} {post : α → Context → Prop} {last : β → Context → Prop}

/-- The pass only adds to the context, and comes to something. -/
def Adding (pass : Pass α) (ctx : Context) (post : α → Context → Prop) : Prop :=
  Yields pass ctx fun a ctx' => ctx.Adds ctx' ∧ post a ctx'

theorem Adding.bind {pass : Pass α} {next : α → Pass β} (h : Adding pass ctx post)
    (hnext : ∀ a ctx', ctx.Adds ctx' → post a ctx' → Adding (next a) ctx' last) :
    Adding (pass >>= next) ctx last := by
  apply Ends.seq h
  rintro a ctx' ⟨hadds, hpost⟩
  exact Ends.mono (hnext a ctx' hadds hpost)
    (fun _ _ ⟨hadds', hlast⟩ => ⟨hadds.trans hadds', hlast⟩) fun _ => id

theorem Adding.forM {items : List β} {body : β → Pass PUnit} (fact : β → Context → Prop)
    (hkept : ∀ item ctx ctx', fact item ctx → ctx.Adds ctx' → fact item ctx')
    (hstep : ∀ item ∈ items, ∀ ctx', ctx.Adds ctx' → Adding (body item) ctx' fun _ => fact item) :
    Adding (items.forM body) ctx fun _ ctx' => ∀ item ∈ items, fact item ctx' := by
  refine Ends.forM_each (fun _ => ctx.Adds) fact (.refl ctx) ?_
  intro done item rest ctx' hitems hadds
  have hitem : item ∈ items := hitems ▸ List.mem_append_cons_self
  apply Ends.imp (hstep item hitem ctx' hadds) ?_
  rintro _ ctx'' ⟨hadds', hfact⟩
  exact ⟨hadds.trans hadds', hfact, fun other _ ho => hkept other _ _ ho hadds'⟩

/-! ## The first pass only adds -/

def adding : Frame where
  along := Adds
  lost _ _ := True
  refl := .refl
  trans := .trans
  fails _ := trivial
  lost_trans _ _ := trivial

theorem Moves.adding {pass : Pass α} (h : Moves adding pass) : Adding pass ctx fun _ _ => True :=
  (h.ends ctx).imp fun _ _ hadds => ⟨hadds, trivial⟩

theorem Adding.adds {pass : Pass α} (h : Adding pass ctx post) :
    Yields pass ctx fun _ ctx' => ctx.Adds ctx' :=
  Ends.mono h (fun _ _ hadds => hadds.1) fun _ => id

theorem adding_openLifetime (scope : ScopeId) :
    Adding (openLifetime scope) ctx fun opened ctx' => ctx.Grounded →
      ∃ place, opened.1 = .bounded place ∧ ctx'.lifetimes.graphOf scope = .ok place.graph ∧
        ctx'.lifetimes.Has place ∧
          ctx'.terms.probe opened.2 = .lifetime (some (.bounded place)) := by
  apply Ends.bind
  refine yields_ask fun ⟨lifetime, lifetimes⟩ hcarve => ?_
  refine ⟨⟨TermStore.enlarges_push _ _, fun _ _ => id, fun _ _ => id, fun hgrounded => ?_⟩,
    fun hgrounded => ?_⟩
  · obtain ⟨place, rfl, hopens⟩ := hgrounded.lawful.opens hcarve
    refine ⟨⟨hopens.lawful, fun other hknows => ?_⟩, hopens.grows⟩
    rcases TermStore.knows_of_push hknows with hknows | heq
    · exact hopens.grows.has (hgrounded.has other hknows)
    · cases heq
      exact hopens.has
  · obtain ⟨place, rfl, hopens⟩ := hgrounded.lawful.opens hcarve
    refine ⟨place, rfl, (hopens.grows.graphOf scope).trans hopens.graphOf, hopens.has, ?_⟩
    exact (TermStore.probe_push ..).trans (if_pos rfl)

theorem adding_newReference {next : FlowId → Pass β} {underlying lifetimeTerm : TermId}
    (hlifetime : ctx.terms.probe lifetimeTerm = .lifetime (some (.bounded place)))
    (hnext : ∀ flow ctx', ctx.Adds ctx' → ctx'.Refers flow place → Adding (next flow) ctx' last) :
    Adding (do
      let reference ← newTerm (·.newReference (.fixed mutable) underlying lifetimeTerm)
      let flow ← newFlow false reference
      next flow) ctx last := by
  rw [← bind_assoc]
  refine Adding.bind ?_ hnext
  have henlarges := TermStore.enlarges_push ctx.terms
    (.reference (.fixed mutable) underlying lifetimeTerm)
  refine ⟨⟨henlarges, fun flow term ht => ?_, fun _ _ => id, fun hgrounded =>
    ⟨⟨hgrounded.lawful, fun other hknows => hgrounded.has other
      ((TermStore.knows_of_push hknows).resolve_right nofun)⟩, .refl _⟩⟩,
    ctx.terms.size, (FlowStore.term_new ..).trans (if_pos rfl), ?_⟩
  · exact (FlowStore.term_new ..).trans
      ((if_neg (Nat.ne_of_lt (FlowStore.lt_size_of_term ht))).trans ht)
  · have hp : (ctx.terms.push (.reference (.fixed mutable) underlying lifetimeTerm)).2.probe
        ctx.terms.size = .reference (.fixed mutable) underlying lifetimeTerm :=
      (TermStore.probe_push ..).trans (if_pos rfl)
    change TermStore.lifetimeOf (ctx.terms.push _).2 _ = _
    simp only [TermStore.lifetimeOf, TermStore.lifetimeValue, hp,
      henlarges.extends.lifetime hlifetime]

theorem adding_face (port : PortId) (facade : Facade) : Adding (face port facade) ctx fun _ ctx' =>
      ctx'.facades.get? port = some facade := by
  apply Ends.bind
  refine ends_insertFacade (fun hnone => ?_) trivial
  refine ⟨⟨.refl _, fun _ _ => id, fun other found hf => ?_,
    fun hgrounded => ⟨hgrounded, .refl _⟩⟩, (Facades.get?_set ..).trans (if_pos rfl)⟩
  refine (Facades.get?_set ..).trans ((if_neg ?_).trans hf)
  rintro rfl
  cases (Facades.get?_of_not_contains hnone).symm.trans hf

theorem facing_adding (config : Config) : Facing config adding where
  face port facade := ⟨fun _ => (adding_face port facade).adds⟩
  newTerm hmints := ⟨fun _ => ⟨hmints.enlarges, fun _ _ => id, fun _ _ => id, fun hgrounded =>
    ⟨⟨hgrounded.lawful, fun place hknows => hgrounded.has place (hmints.knows hknows)⟩, .refl _⟩⟩⟩
  openLifetime scope := ⟨fun _ => (adding_openLifetime scope).adds⟩
  newFlow _ _ := ⟨fun _ => ends_newFlow (adds_of_flows fun _ _ hf =>
    (FlowStore.term_new ..).trans
      ((if_neg (Nat.ne_of_lt (FlowStore.lt_size_of_term hf))).trans hf))⟩
  interrupt _ _ := .modify fun _ => adds_of_flows fun _ _ => id
  newGroup _ _ _ _ := ⟨fun _ => adds_of_rest ..⟩
  changeGroups _ := (Moves.ask _).bind fun _ => .modify fun _ => adds_of_rest ..
  diagnose _ _ _ := .modify fun _ => adds_of_rest ..

/-! ## Nodes that open lifetimes -/

theorem adding_showAll {ports : List PortId} {flow : FlowId} (h : ctx.Refers flow place) :
    Adding (ports.forM fun port => faceSimply port flow) ctx fun _ ctx' =>
      ∀ port ∈ ports, ctx'.Shows port place := by
  refine Adding.forM (fun port => (·.Shows port place)) (fun _ _ _ => Shows.of_adds) ?_
  intro port _ ctx' hadds
  apply Ends.imp (adding_face port (.simple flow)) ?_
  rintro _ ctx'' ⟨hadds', hfacade⟩
  exact ⟨hadds', flow, hfacade, h.of_adds (hadds.trans hadds')⟩

theorem adding_faceBorrowed {lifetime : Lifetime} {lifetimeTerm : TermId} {input output : PortId}
    (hlifetime : ctx.terms.probe lifetimeTerm = .lifetime (some (.bounded place))) :
    Adding (faceBorrowed mutable lifetime lifetimeTerm input output) ctx fun _ ctx' =>
      ctx'.Shows output place := by
  have h := facing_adding {}
  apply (h.newTerm (.unbound _)).adding.bind
  intro underlying ctx1 hadds1 _
  apply (h.newFlow _ _).adding.bind
  intro borrowed ctx2 hadds2 _
  apply (h.face _ _).adding.bind
  intro _ ctx3 hadds3 _
  apply adding_newReference (((hadds1.trans hadds2).trans hadds3).terms.extends.lifetime hlifetime)
  intro flow ctx4 hadds4 hrefers
  apply (adding_face _ _).bind
  intro _ ctx5 hadds5 hfacade
  apply Ends.mono (h.interrupt _ _).adding ?_ fun _ => id
  rintro _ ctx6 ⟨hadds6, -⟩
  exact ⟨hadds6, flow, hadds6.facades _ _ hfacade, hrefers.of_adds (hadds5.trans hadds6)⟩

section

variable (hgrounded : ctx.Grounded)
include hgrounded

theorem adding_opened {next : Lifetime × TermId → Pass Unit} (h : ∀ lifetime term ctx' place,
      ctx'.terms.probe term = .lifetime (some (.bounded place)) →
        Adding (next (lifetime, term)) ctx' fun _ ctx' =>
          ∀ output ∈ node.outputs, ctx'.Shows output place) :
    Adding (openLifetime node.scope >>= next) ctx fun _ ctx' =>
      ∃ own, ctx'.Opened node own := by
  apply (adding_openLifetime node.scope).bind
  rintro ⟨lifetime, term⟩ ctx1 hadds1 hopened
  obtain ⟨place, -, hscope, hhas, hp⟩ := hopened hgrounded
  apply Ends.imp (h lifetime term ctx1 place hp) ?_
  rintro _ ctx2 ⟨hadds2, hshows⟩
  obtain ⟨-, hext⟩ := hadds2.grounded (hadds1.grounded hgrounded).1
  exact ⟨hadds2, place, (hext.graphOf _).trans hscope, hext.has hhas, hshows⟩

theorem adding_faceExplicitBorrow (hlen : node.inputs.length = node.outputs.length) :
    Adding (faceExplicitBorrow node mutable) ctx fun _ ctx' =>
      ∃ own, ctx'.Opened node own := by
  apply adding_opened hgrounded
  intro lifetime term ctx' place hp
  refine Ends.mono (Adding.forM (fun pair => (·.Shows pair.2 place))
    (fun _ _ _ => Shows.of_adds) ?_) ?_ fun _ => id
  · rintro ⟨input, output⟩ _ ctx'' hadds
    exact adding_faceBorrowed (hadds.terms.extends.lifetime hp)
  · rintro _ ctx'' ⟨hadds, hshows⟩
    refine ⟨hadds, fun output houtput => ?_⟩
    rw [← List.map_snd_zip hlen.ge] at houtput
    obtain ⟨pair, hpair, rfl⟩ := List.mem_map.mp houtput
    exact hshows pair hpair

theorem adding_faceBorrowTunnel : Adding (faceBorrowTunnel node mutable) ctx fun _ ctx' =>
      ∃ own, ctx'.Opened node own := by
  have h := facing_adding {}
  apply (h.newTerm (.unbound _)).adding.bind
  intro underlying ctx1 hadds1 _
  apply (h.newFlow _ _).adding.bind
  intro borrowed ctx2 hadds2 _
  apply (Moves.forM fun _ => h.face _ _).adding.bind
  intro _ ctx3 hadds3 _
  apply adding_opened (((hadds1.trans hadds2).trans hadds3).grounded hgrounded).1
  intro lifetime term ctx' place hp
  apply adding_newReference hp
  intro flow ctx4 _ hrefers
  apply (adding_showAll hrefers).bind
  intro _ ctx5 _ hshows
  apply Ends.mono (h.interrupt _ _).adding ?_ fun _ => id
  rintro _ ctx6 ⟨hadds6, -⟩
  exact ⟨hadds6, fun output houtput => (hshows output houtput).of_adds hadds6⟩

theorem adding_faceLoopCondition : Adding (faceLoopCondition node) ctx fun _ ctx' =>
      ∃ own, ctx'.Opened node own := by
  have h := facing_adding {}
  apply (h.newTerm (.type _)).adding.bind
  intro condition ctx1 hadds1 _
  apply (h.newFlow _ _).adding.bind
  intro outer ctx2 hadds2 _
  apply (Moves.forM fun _ => h.face _ _).adding.bind
  intro _ ctx3 hadds3 _
  apply adding_opened (((hadds1.trans hadds2).trans hadds3).grounded hgrounded).1
  intro lifetime term ctx' place hp
  apply adding_newReference hp
  intro flow ctx4 _ hrefers
  exact adding_showAll hrefers

end

variable {config : Config}

theorem adding_faceNode (hw : g.WellFormed) {n : NodeId} (hnode : g.nodes[n]? = some node)
    (hgrounded : ctx.Grounded) :
    Adding (faceNode config g n node) ctx fun _ ctx' =>
      node.kind.opensLifetime = true → ∃ own, ctx'.Opened node own := by
  cases hopens : node.kind.opensLifetime with
  | false =>
    apply Ends.mono (moves_faceNode (facing_adding config) g n node).adding ?_ fun _ => id
    exact fun _ _ hadds => ⟨hadds.1, nofun⟩
  | true =>
    suffices h : Adding (faceNode config g n node) ctx fun _ ctx' =>
        ∃ own, ctx'.Opened node own from
      Ends.mono h (fun _ _ ⟨hadds, hopened⟩ => ⟨hadds, fun _ => hopened⟩) fun _ => id
    have hlen := hw.seated.length_of_plain hnode
    unfold faceNode
    cases hk : node.kind with
    | explicitBorrow mutable count =>
      rw [hk] at hlen
      have hinputs : node.inputs.length = count := hlen rfl .input
      have houtputs : node.outputs.length = count := hlen rfl .output
      exact adding_faceExplicitBorrow hgrounded (hinputs.trans houtputs.symm)
    | border owner kind =>
      cases kind with
      | borrowTunnel mutable => exact adding_faceBorrowTunnel hgrounded
      | loopCondition => exact adding_faceLoopCondition hgrounded
      | _ => simp [hk, NodeKind.opensLifetime] at hopens
    | _ => simp [hk, NodeKind.opensLifetime] at hopens

/-! ## The pass -/

theorem ends_establishScopes : Yields ((List.range g.scopes.size).forM (establishScope g)) {}
      fun _ ctx => ctx.Grounded ∧ ctx.lifetimes.Lays g g.scopes.size := by
  -- scopes are numbered, so the ones that are left are a range
  apply Ends.forM fun rest ctx => ∃ count, count ≤ g.scopes.size ∧
    rest = List.range' count (g.scopes.size - count) ∧ ctx.terms = {} ∧ ctx.lifetimes.Lays g count
  · exact ⟨0, Nat.zero_le _, List.range_eq_range', rfl, LifetimeForest.lays_empty g⟩
  · rintro scope rest ctx ⟨count, hle, hrest, hterms, hlays⟩
    have hlt : count < g.scopes.size := by
      apply Nat.lt_of_le_of_ne hle
      rintro rfl
      simp at hrest
    rw [show g.scopes.size - count = g.scopes.size - (count + 1) + 1 by omega,
      List.range'_succ] at hrest
    obtain ⟨rfl, rfl⟩ := List.cons.inj hrest
    refine Yields.lift_bind fun data hd => ?_
    refine yields_ask fun ⟨place, lifetimes⟩ hestablish => ?_
    exact ⟨scope + 1, hlt, rfl, hterms, hlays.establish (Graph.getScope_eq_ok.mp hd) hestablish⟩
  · rintro ctx ⟨count, hle, hrest, hterms, hlays⟩
    have hlen := congrArg List.length hrest
    rw [List.length_nil, List.length_range'] at hlen
    obtain rfl : count = g.scopes.size := by omega
    refine ⟨⟨hlays.lawful, fun place ⟨term, hp⟩ => ?_⟩, hlays⟩
    rw [hterms, TermStore.probe_of_le (Nat.zero_le term)] at hp
    cases hp

/-- After the first pass no term has a lifetime that has not been opened, and explicit borrows,
borrow tunnels and loop conditions have opened theirs. -/
theorem ends_facePorts_opened (hw : g.WellFormed) : Yields (facePorts config g) {}
      fun _ ctx => ctx.Grounded ∧ ctx.lifetimes.Lays g g.scopes.size ∧
        ∀ (n : NodeId) (node : Node), g.nodes[n]? = some node →
          node.kind.opensLifetime = true → ∃ own, ctx.Opened node own := by
  apply ends_establishScopes.seq
  rintro _ ctx1 ⟨hgrounded, hlays⟩
  refine Yields.lift_bind fun order hord => ?_
  apply Ends.bind
  apply ends_modify
  have hvisits : Adding (order.forM (visitNode config g)) { ctx1 with order }
      fun _ ctx => ∀ n ∈ order, ctx.Grounded ∧ ∀ node, g.nodes[n]? = some node →
        node.kind.opensLifetime = true → ∃ own, ctx.Opened node own := by
    refine .forM _ (fun n ctx ctx' ⟨hgrounded', hopened⟩ hadds =>
      ⟨(hadds.grounded hgrounded').1, fun node hnode hopens => ?_⟩) fun n _ ctx' hadds => ?_
    · obtain ⟨own, hown⟩ := hopened node hnode hopens
      exact ⟨own, hown.of_adds hgrounded' hadds⟩
    · have hgrounded' := (hadds.grounded hgrounded).1
      refine Yields.lift_bind fun node hnode => ?_
      rw [Graph.getNode_eq_ok] at hnode
      apply (adding_faceNode hw hnode hgrounded').bind
      rintro _ ctx'' hadds' hopened
      refine ⟨adds_of_rest .., (hadds'.grounded hgrounded').1, fun other ho hopens => ?_⟩
      cases hnode.symm.trans ho
      obtain ⟨own, hown⟩ := hopened hopens
      exact ⟨own, hown.of_adds (hadds'.grounded hgrounded').1 (adds_of_rest ..)⟩
  apply Ends.imp hvisits ?_
  rintro _ ctx2 ⟨hadds, hopened⟩
  obtain ⟨hgrounded', hext⟩ := hadds.grounded hgrounded
  exact ⟨hgrounded', hlays.of_extends hgrounded'.lawful hext, fun n node hnode =>
    (hopened n (hw.mem_visitOrder hord hnode)).2 node hnode⟩

end Pass

end BorrowFlow
