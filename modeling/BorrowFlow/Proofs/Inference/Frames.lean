import BorrowFlow.Proofs.Inference.Comparison

/-!
# What the passes leave alone

A frame says what a pass may do to a context, and small steps that keep to a frame can be put
together. Most steps of the second pass find out about types, flows and lifetimes only. They leave
the books as they are: the facades, the groups, the numbers and the order of visits. Giving ports
their facades changes the books, and whatever does not show a new facade is left alone by the first
pass. Each pass counts some numbers, and leaves the others as they are.
-/

namespace BorrowFlow

variable {change : Context → Context}

/-- What a context knows besides types, flows, lifetimes and diagnostics. -/
structure Books where
  facades : Facades
  groups : BorrowGroups
  stats : Stats
  order : List NodeId

/-- What the second pass counts: the groups that are decided, and the wires that are unified. -/
def Stats.tally (stats : Stats) : Nat × Nat := (stats.groupsDecided, stats.wiresUnified)

def Stats.uncounted (stats : Stats) : Stats := { stats with nodesVisited := 0, facadesCreated := 0 }

def Stats.untallied (stats : Stats) : Stats := { stats with groupsDecided := 0, wiresUnified := 0 }

namespace Context

def books (ctx : Context) : Books where
  facades := ctx.facades
  groups := ctx.groups
  stats := ctx.stats
  order := ctx.order

def tally (ctx : Context) : Nat × Nat := ctx.stats.tally

def uncounted (ctx : Context) : Stats := ctx.stats.uncounted

def untallied (ctx : Context) : Stats := ctx.stats.untallied

end Context

/-- What a pass may do to a context if it ends well, and if it fails. -/
structure Frame where
  along : Context → Context → Prop
  lost : Context → Context → Prop
  refl : ∀ ctx, along ctx ctx
  trans : ∀ {first second third}, along first second → along second third → along first third
  fails : ∀ ctx, lost ctx ctx
  lost_trans : ∀ {first second third}, along first second → lost second third → lost first third

/-- What is observed stays as it is. -/
def Frame.of {γ : Type} (observe : Context → γ) : Frame where
  along ctx ctx' := observe ctx' = observe ctx
  lost ctx ctx' := observe ctx' = observe ctx
  refl _ := rfl
  trans h h' := h'.trans h
  fails _ := rfl
  lost_trans h h' := h'.trans h

namespace Pass

variable {α β γ : Type} {next : α → Pass β} {items : List β} {frame : Frame} {observe : Context → γ}
  {pass : Pass α}

/-- The pass keeps to the frame. -/
structure Moves (frame : Frame) (pass : Pass α) : Prop where
  ends : ∀ ctx, Ends pass ctx (fun _ => frame.along ctx) (frame.lost ctx)

namespace Moves

theorem pure (a : α) : Moves frame (Pure.pure a) := ⟨frame.refl⟩

theorem get : Moves frame (MonadState.get : Pass Context) := ⟨frame.refl⟩

theorem lift (answer : Except Fault α) : Moves frame (liftM answer : Pass α) :=
  ⟨fun ctx => Ends.lift (fun _ _ => frame.refl ctx) (frame.fails ctx)⟩

theorem ask (query : Context → Except Fault α) : Moves frame (ask query) :=
  ⟨fun ctx => ends_ask (fun _ _ => frame.refl ctx) (frame.fails ctx)⟩

theorem modify (h : ∀ ctx, frame.along ctx (change ctx)) :
    Moves frame (modify change : Pass PUnit) :=
  ⟨h⟩

theorem bind (h : Moves frame pass) (hnext : ∀ a, Moves frame (next a)) :
    Moves frame (pass >>= next) := by
  refine ⟨fun ctx => ?_⟩
  apply (h.ends ctx).seq
  intro a ctx' halong
  exact ((hnext a).ends ctx').mono (fun _ _ => frame.trans halong) fun _ => frame.lost_trans halong

theorem forM {body : β → Pass PUnit} (h : ∀ item, Moves frame (body item)) :
    Moves frame (items.forM body) := by
  induction items with
  | nil => exact .pure PUnit.unit
  | cons item rest ih => exact (h item).bind fun _ => ih

theorem mapM {body : β → Pass α} (h : ∀ item, Moves frame (body item)) :
    Moves frame (items.mapM body) := by
  induction items with
  | nil => exact .pure []
  | cons item rest ih =>
    rw [List.mapM_cons]
    exact (h item).bind fun _ => ih.bind fun _ => .pure _

end Moves

/-- Whether it fails or not, the pass leaves what is observed as it is. -/
structure Keeps (observe : Context → γ) (pass : Pass α) : Prop where
  ends : ∀ ctx, Ends pass ctx (fun _ ctx' => observe ctx' = observe ctx)
    fun ctx' => observe ctx' = observe ctx

theorem Moves.keeps (h : Moves (.of observe) pass) : Keeps observe pass := ⟨h.ends⟩

namespace Keeps

theorem moves (h : Keeps observe pass) : Moves (.of observe) pass := ⟨h.ends⟩

theorem pure (a : α) : Keeps observe (Pure.pure a) := (Moves.pure a).keeps

theorem lift (answer : Except Fault α) : Keeps observe (liftM answer : Pass α) :=
  (Moves.lift answer).keeps

theorem ask (query : Context → Except Fault α) : Keeps observe (ask query) :=
  (Moves.ask query).keeps

theorem modify (h : ∀ ctx, observe (change ctx) = observe ctx) :
    Keeps observe (modify change : Pass PUnit) :=
  ⟨h⟩

theorem bind (h : Keeps observe pass) (hnext : ∀ a, Keeps observe (next a)) :
    Keeps observe (pass >>= next) :=
  (h.moves.bind fun a => (hnext a).moves).keeps

theorem bind_ends {ctx : Context} {post : β → Context → Prop} (h : Keeps observe pass)
    (hnext : ∀ a ctx', observe ctx' = observe ctx → Yields (next a) ctx' post) :
    Yields (pass >>= next) ctx post := by
  apply Ends.bind
  exact (h.ends ctx).mono hnext fun _ _ => trivial

theorem count {change : Stats → Stats} (h : ∀ ctx,
    observe { ctx with stats := change ctx.stats } = observe ctx) :
    Keeps observe (count change) :=
  .modify h

theorem changeGroups {change : BorrowGroups → Except Fault BorrowGroups}
    (h : ∀ ctx groups, observe { ctx with groups } = observe ctx) :
    Keeps observe (changeGroups change) :=
  (ask _).bind fun _ => .modify fun ctx => h ctx _

theorem forM {body : β → Pass PUnit} (h : ∀ item, Keeps observe (body item)) :
    Keeps observe (items.forM body) :=
  (Moves.forM fun item => (h item).moves).keeps

theorem mapM {body : β → Pass α} (h : ∀ item, Keeps observe (body item)) :
    Keeps observe (items.mapM body) :=
  (Moves.mapM fun item => (h item).moves).keeps

theorem untallied (h : Keeps Context.books pass) : Keeps Context.untallied pass := by
  refine ⟨fun ctx => ?_⟩
  have hstats : ∀ {ctx' : Context}, ctx'.books = ctx.books →
      ctx'.untallied = ctx.untallied := fun heq => congrArg (·.stats.untallied) heq
  exact (h.ends ctx).mono (fun _ _ => hstats) fun _ => hstats

end Keeps

/-! ## Comparing a pass with itself -/

/-- A pass compared with itself, from contexts that a start has led to within the frame. -/
def diagonal (frame : Frame) (start : Context) : Comparison where
  related left right := left = right ∧ frame.along start left
  lost left right := left = right ∧ frame.lost start left
  fails h := ⟨h.1, frame.lost_trans h.2 (frame.fails _)⟩
  facades h := h.1 ▸ rfl

theorem Moves.mimics (h : Moves frame pass) (start : Context) :
    (diagonal frame start).Mimics pass pass := by
  rintro ctx _ ⟨rfl, halong⟩
  have hends := h.ends ctx
  cases hrun : pass ctx with
  | ok a ctx' => exact ⟨ctx', rfl, rfl, frame.trans halong (hends.of_eq_ok hrun)⟩
  | error fault ctx' =>
    exact ⟨ctx', rfl, rfl, frame.lost_trans halong (hends.of_eq_error hrun)⟩

theorem Keeps.mimics (h : Keeps observe pass) (start : Context) :
    (diagonal (.of observe) start).Follows pass :=
  h.moves.mimics start

theorem moves_of_mimics (h : ∀ start, (diagonal frame start).Mimics pass pass) :
    Moves frame pass := by
  refine ⟨fun ctx => ?_⟩
  cases hrun : pass ctx with
  | ok a ctx' =>
    obtain ⟨_, -, -, halong⟩ := (h ctx).of_eq_ok ⟨rfl, frame.refl ctx⟩ hrun
    exact Ends.of_ok hrun halong
  | error fault ctx' =>
    obtain ⟨_, -, -, hlost⟩ := (h ctx).of_eq_error ⟨rfl, frame.refl ctx⟩ hrun
    exact Ends.of_error hrun hlost

/-! ## Types and flows -/

/-- Types may be created and unified, and flows may change. -/
structure Unifying (frame : Frame) : Prop where
  newTerm : ∀ {create : TermStore → TermId × TermStore}, TermStore.Mints create →
    Moves frame (newTerm create)
  unifyAt : ∀ port expected supplied, Moves frame (unifyAt port expected supplied)
  modifyFlows : ∀ change, Moves frame (modifyFlows change)

section Unifying

variable (h : Unifying frame)

include h

theorem Unifying.diagonal (start : Context) : (diagonal frame start).Unifying where
  agrees hrelated := ⟨_, hrelated.1.symm⟩
  newTerm hmints := (h.newTerm hmints).mimics start
  unifyAt port expected supplied := (h.unifyAt port expected supplied).mimics start
  modifyFlows change := (h.modifyFlows change).mimics start

theorem moves_settleOutputs (g : Graph) (group : GroupId) (borrowed : Bool) :
    Moves frame (settleOutputs g group borrowed) :=
  moves_of_mimics fun start => mimics_settleOutputs (h.diagonal start) g group borrowed

theorem moves_deriveReference (lifetimeTerm : TermId) (decision : Decision)
    (member : SuppliedMember) : Moves frame (deriveReference lifetimeTerm decision member) :=
  moves_of_mimics fun start => mimics_deriveReference (h.diagonal start) lifetimeTerm decision
    member

theorem moves_joinSink (source sink : FlowId) (shared mutable : Bool) :
    Moves frame (joinSink source sink shared mutable) :=
  moves_of_mimics fun start => mimics_joinSink (h.diagonal start) source sink shared mutable

theorem moves_requireCopy (source : PortId) (term : TermId) :
    Moves frame (requireCopy source term) :=
  moves_of_mimics fun start => mimics_requireCopy (h.diagonal start) source term

end Unifying

/-! ## Steps that leave the books alone -/

theorem keeps_newTerm (create : TermStore → TermId × TermStore) :
    Keeps Context.books (newTerm create) :=
  ⟨fun _ => rfl⟩

theorem keeps_newFlow (mutable : Bool) (term : TermId) :
    Keeps Context.books (newFlow mutable term) :=
  ⟨fun _ => rfl⟩

theorem keeps_modifyFlows (change : FlowStore → FlowStore) :
    Keeps Context.books (modifyFlows change) :=
  .modify fun _ => rfl

theorem keeps_diagnose (port : PortId) (diagnostic : Diagnostic) :
    Keeps Context.books (diagnose port diagnostic) :=
  .modify fun _ => rfl

theorem keeps_unifyAt (port : PortId) (expected supplied : TermId) :
    Keeps Context.books (unifyAt port expected supplied) :=
  .modify fun _ => rfl

theorem keeps_carveLifetime (scope : ScopeId) : Keeps Context.books (carveLifetime scope) :=
  (Keeps.ask _).bind fun ⟨_, _⟩ => .bind (.modify fun _ => rfl) fun _ => .pure _

theorem keeps_openLifetime (scope : ScopeId) : Keeps Context.books (openLifetime scope) :=
  (keeps_carveLifetime scope).bind fun _ => (keeps_newTerm _).bind fun _ => .pure _

theorem unifying_books : Unifying (.of Context.books) where
  newTerm _ := (keeps_newTerm _).moves
  unifyAt port expected supplied := (keeps_unifyAt port expected supplied).moves
  modifyFlows change := (keeps_modifyFlows change).moves

theorem keeps_settleOutputs (g : Graph) (group : GroupId) (borrowed : Bool) :
    Keeps Context.books (settleOutputs g group borrowed) :=
  (moves_settleOutputs unifying_books g group borrowed).keeps

theorem keeps_deriveReference (lifetimeTerm : TermId) (decision : Decision)
    (member : SuppliedMember) :
    Keeps Context.books (deriveReference lifetimeTerm decision member) :=
  (moves_deriveReference unifying_books lifetimeTerm decision member).keeps

theorem keeps_supplyOf (member : GroupMember) : Keeps Context.books (supplyOf member) :=
  (moves_of_mimics fun start => mimics_supplyOf (unifying_books.diagonal start) member).keeps

theorem keeps_resolveLifetime (term : TermId) (lifetime : Lifetime) :
    Keeps Context.books (resolveLifetime term lifetime) :=
  .modify fun _ => rfl

theorem keeps_beginBorrow (lifetime : Lifetime) (member : SuppliedMember) :
    Keeps Context.books (beginBorrow lifetime member) := by
  unfold beginBorrow
  split
  · exact .modify fun _ => rfl
  · exact keeps_modifyFlows _

theorem deciding_books (start : Context) : (diagonal (.of Context.books) start).Deciding where
  toUnifying := unifying_books.diagonal start
  carveLifetime scope := (keeps_carveLifetime scope).mimics start
  resolveLifetime term lifetime := (keeps_resolveLifetime term lifetime).mimics start
  beginBorrow lifetime member := (keeps_beginBorrow lifetime member).mimics start

theorem keeps_makeDecision (group : BorrowGroup) (supplied : List SuppliedMember) :
    Keeps Context.books (makeDecision group supplied) :=
  (moves_of_mimics fun start => mimics_makeDecision (deciding_books start) group supplied).keeps

/-! ## Facing the ports -/

/-- The small steps of the first pass keep to the frame. -/
structure Facing (config : Config) (frame : Frame) : Prop where
  face : ∀ port facade, Moves frame (face port facade)
  newTerm : ∀ {create : TermStore → TermId × TermStore}, TermStore.Mints create →
    Moves frame (newTerm create)
  openLifetime : ∀ scope, Moves frame (openLifetime scope)
  newFlow : ∀ mutable term, Moves frame (newFlow mutable term)
  interrupt : ∀ lifetime flow, Moves frame (modifyFlows (·.interrupt lifetime flow))
  newGroup : ∀ node scope policy lifetimeTerm, Moves frame (newGroup node scope policy lifetimeTerm)
  changeGroups : ∀ change, Moves frame (changeGroups change)
  diagnose : ∀ port head, config.isEnabled head = false →
    Moves frame (diagnose port (.featureDisabled head))

section Facing

variable {config : Config} (h : Facing config frame)

include h

theorem Facing.diagonal (start : Context) : (diagonal frame start).Facing config config where
  newTerm hmints := (h.newTerm hmints).mimics start
  openLifetime scope := (h.openLifetime scope).mimics start
  newFlow mutable term := (h.newFlow mutable term).mimics start
  interrupt lifetime flow := (h.interrupt lifetime flow).mimics start
  face port facade := (h.face port facade).mimics start
  newGroup node scope policy term := (h.newGroup node scope policy term).mimics start
  changeGroups change := (h.changeGroups change).mimics start
  checkFeatures port heads := by
    refine Moves.mimics (.forM fun head => ?_) start
    cases henabled : config.isEnabled head with
    | true => exact .pure ()
    | false => exact h.diagnose port head henabled

theorem moves_faceNode (g : Graph) (id : NodeId) (node : Node) :
    Moves frame (faceNode config g id node) :=
  moves_of_mimics fun start => mimics_faceNode (h.diagonal start) g id node

theorem moves_visitNode
    (hvisit : Moves frame (count fun stats => { stats with
      nodesVisited := stats.nodesVisited + 1 }))
    (g : Graph) (id : NodeId) : Moves frame (visitNode config g id) :=
  (Moves.lift _).bind fun node => (moves_faceNode h g id node).bind fun _ => hvisit

end Facing

/-- What is observed shows in the facades and the numbers alone, and is not changed by giving a port
its facade. -/
structure Unfaced (observe : Context → γ) : Prop where
  face : ∀ port facade, Keeps observe (face port facade)
  shows : ∀ {ctx ctx' : Context}, ctx'.facades = ctx.facades →
    ctx'.stats = ctx.stats → observe ctx' = observe ctx

theorem Unfaced.facing (h : Unfaced observe) (config : Config) : Facing config (.of observe) := by
  have hbooks : ∀ {α : Type} {pass : Pass α}, Keeps Context.books pass →
      Moves (.of observe) pass := by
    intro α pass hpass
    refine ⟨fun ctx => ?_⟩
    have hshows : ∀ {ctx' : Context}, ctx'.books = ctx.books →
        observe ctx' = observe ctx := fun heq =>
      h.shows (congrArg Books.facades heq) (congrArg Books.stats heq)
    exact (hpass.ends ctx).mono (fun _ _ => hshows) fun _ => hshows
  exact ⟨fun port facade => (h.face port facade).moves, fun _ => hbooks (keeps_newTerm _),
    fun scope => hbooks (keeps_openLifetime scope), fun mutable term =>
      hbooks (keeps_newFlow mutable term), fun _ _ => hbooks (keeps_modifyFlows _),
    fun _ _ _ _ => ⟨fun _ => h.shows rfl rfl⟩,
    fun _ => (Keeps.changeGroups fun _ _ => h.shows rfl rfl).moves,
    fun port _ _ => hbooks (keeps_diagnose port _)⟩

theorem keeps_faceNode (h : Unfaced observe) (config : Config) (g : Graph) (id : NodeId)
    (node : Node) : Keeps observe (faceNode config g id node) :=
  (moves_faceNode (h.facing config) g id node).keeps

theorem keeps_facePorts (h : Unfaced observe)
    (hvisit : Keeps observe (count fun stats => { stats with
      nodesVisited := stats.nodesVisited + 1 }))
    (config : Config) (g : Graph) : Keeps observe (facePorts config g) := by
  refine (Keeps.forM fun scope => ?_).bind fun _ => (Keeps.lift _).bind fun order =>
    .bind (.modify fun _ => h.shows rfl rfl) fun _ => .forM fun id => ?_
  · exact (Keeps.lift _).bind fun _ => (Keeps.ask _).bind fun _ => .modify fun _ => h.shows rfl rfl
  · exact (moves_visitNode (h.facing config) hvisit.moves g id).keeps

/-- The first pass counts its visits and its facades, and nothing else. -/
theorem keeps_uncounted_facePorts (config : Config) (g : Graph) :
    Keeps Context.uncounted (facePorts config g) := by
  refine keeps_facePorts ⟨fun port facade => ?_, fun _ hstats => ?_⟩ (.count fun _ => rfl) config g
  · refine .bind ⟨fun ctx => ?_⟩ fun _ => .count fun _ => rfl
    exact ends_insertFacade (fun _ => rfl) rfl
  · exact congrArg Stats.uncounted hstats

/-! ## Unifying the wires -/

theorem keeps_countWired (g : Graph) : Keeps Context.untallied (countWired g) := by
  refine ⟨fun ctx => ?_⟩
  unfold Ends Meets countWired
  split <;> rename_i heq
  · split at heq <;> cases heq
    rfl
  · split at heq <;> cases heq
    rfl

theorem mimics_modify_untallied (start : Context)
    (h : ∀ ctx, (change ctx).untallied = ctx.untallied) :
    (diagonal (.of Context.untallied) start).Follows (modify change) :=
  Keeps.mimics (.modify h) start

theorem wiring_untallied (start : Context) : (diagonal (.of Context.untallied) start).Wiring where
  agrees hrelated := ⟨_, hrelated.1.symm⟩
  newTerm _ := (keeps_newTerm _).untallied.mimics start
  unifyAt _ _ _ := (keeps_unifyAt _ _ _).untallied.mimics start
  modifyFlows _ := (keeps_modifyFlows _).untallied.mimics start
  carveLifetime scope := (keeps_carveLifetime scope).untallied.mimics start
  resolveLifetime _ _ := (keeps_resolveLifetime _ _).untallied.mimics start
  beginBorrow _ _ := (keeps_beginBorrow _ _).untallied.mimics start
  changeGroups _ := Keeps.mimics (.changeGroups fun _ _ => rfl) start
  setGroups _ := mimics_modify_untallied start fun _ => rfl
  countDecided := mimics_modify_untallied start fun _ => rfl
  countUnified := mimics_modify_untallied start fun _ => rfl
  countWired g := (keeps_countWired g).mimics start
  resolveAll := mimics_modify_untallied start fun _ => rfl

/-- The second pass counts decisions and wires, and nothing else. -/
theorem keeps_unifyWires (g : Graph) : Keeps Context.untallied (unifyWires g) :=
  (moves_of_mimics fun start => mimics_unifyWires (wiring_untallied start) g).keeps

end Pass

end BorrowFlow
