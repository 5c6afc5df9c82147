import BorrowFlow.Proofs.Inference.Frames

/-!
# Watching the second pass

The second pass, together with what was known at certain moments of it: when a wire is about to be
unified, and when a sink has just been unified with what feeds it. Watching the pass does not change
what it does.
-/

namespace BorrowFlow

namespace Pass

variable {g : Graph}

/-! ## Two halves of a sink, and the beginning of a wire -/

/-- Unifies a sink with what feeds it. -/
def meetSink (source : FlowId) (mutable shared : Bool) (supplied : TermId) (sink : PortId) :
    Pass TermId := do
  let flow ← ask (·.facades.wireSide sink)
  let expected ← termOf flow
  unifyAt sink expected supplied
  joinSink source flow shared mutable
  return expected

/-- Lets the group of a sink know, if it has one. -/
def notifyGroup (g : Graph) (sink : PortId) : Pass Unit := do
  let facade ← ask (·.facades.get sink)
  match facade.group? with
  | some group => arriveAt g group
  | none => pure ()

theorem unifySink_eq (source : FlowId) (mutable shared : Bool) (supplied : TermId)
    (sink : PortId) : unifySink g source mutable shared supplied sink = (do
      let expected ← meetSink source mutable shared supplied sink
      notifyGroup g sink
      return expected) := by
  simp only [unifySink, meetSink, notifyGroup, bind_assoc, pure_bind]
  refine bind_congr fun flow => bind_congr fun expected => bind_congr fun _ =>
    bind_congr fun _ => bind_congr fun facade => ?_
  cases facade.group? <;> rfl

/-- What the sinks of a wire are unified with: the flow and the type of its source, whether the
source is mutable, and whether all sinks borrow. -/
def openWire (source : PortId) (sinks : List PortId) : Pass (FlowId × TermId × Bool × Bool) := do
  let flow ← ask (·.facades.wireSide source)
  let term ← termOf flow
  let ctx ← get
  let borrowed := sinks.all ctx.facades.isReferenceInput
  if sinks.length > 1 && !borrowed then
    requireCopy source term
  return (flow, term, (ctx.flows.get flow).mutable, borrowed)

theorem unifyWire_eq (source : PortId) (sinks : List PortId) : unifyWire g source sinks = (do
      let (flow, term, mutable, borrowed) ← openWire source sinks
      match sinks with
      | [] => pure ()
      | first :: rest => do
        let firstTerm ← unifySink g flow mutable true term first
        rest.forM fun sink => discard (unifySink g flow mutable borrowed firstTerm sink)) := by
  simp only [unifyWire, openWire, bind_assoc]
  refine bind_congr fun flow => bind_congr fun term => bind_congr fun ctx => ?_
  split <;> rfl

section Unifying

variable {frame : Frame} (h : Unifying frame)

include h

theorem moves_meetSink (source : FlowId) (mutable shared : Bool) (supplied : TermId)
    (sink : PortId) : Moves frame (meetSink source mutable shared supplied sink) :=
  (Moves.ask _).bind fun _ => (Moves.ask _).bind fun _ => (h.unifyAt sink _ _).bind
    fun _ => (moves_joinSink h ..).bind fun _ => .pure _

theorem moves_openWire (source : PortId) (sinks : List PortId) :
    Moves frame (openWire source sinks) := by
  refine (Moves.ask _).bind fun flow => (Moves.ask _).bind fun term =>
    Moves.get.bind fun ctx => ?_
  dsimp only
  split
  · exact (moves_requireCopy h source term).bind fun _ => .pure _
  · exact .pure _

end Unifying

theorem keeps_meetSink (source : FlowId) (mutable shared : Bool) (supplied : TermId)
    (sink : PortId) : Keeps Context.books (meetSink source mutable shared supplied sink) :=
  (moves_meetSink unifying_books source mutable shared supplied sink).keeps

theorem keeps_openWire (source : PortId) (sinks : List PortId) :
    Keeps Context.books (openWire source sinks) :=
  (moves_openWire unifying_books source sinks).keeps

end Pass

/-! ## The watched pass -/

/-- A moment of the second pass, with what was known then. -/
inductive Moment where
  /-- The wire that leaves an output is about to be unified. -/
  | opens (source : PortId) (ctx : Context)
  /-- A sink has just been unified with what feeds it. -/
  | joins (source sink : PortId) (ctx : Context)

namespace Moment

def context : Moment → Context
  | opens _ ctx | joins _ _ ctx => ctx

def opened? : Moment → Option PortId
  | opens source _ => some source
  | joins .. => none

def joined? : Moment → Option PortId
  | opens .. => none
  | joins _ sink _ => some sink

end Moment

/-- A context, and the moments that led to it. -/
structure Watch where
  context : Context
  moments : List Moment := []

abbrev Watched := EStateM Fault Watch

namespace Watched

variable {α β : Type}

/-- A part of the pass that is not watched. -/
def during (pass : Pass α) : Watched α := fun watch =>
  within (fun ctx => { watch with context := ctx }) (pass watch.context)

def note (moment : Context → Moment) : Watched Unit :=
  modify fun watch => { watch with moments := watch.moments ++ [moment watch.context] }

def unifySink (g : Graph) (origin : PortId) (source : FlowId) (mutable shared : Bool)
    (supplied : TermId) (sink : PortId) : Watched TermId := do
  let expected ← during (Pass.meetSink source mutable shared supplied sink)
  note (.joins origin sink)
  during (Pass.notifyGroup g sink)
  return expected

def unifyWire (g : Graph) (source : PortId) (sinks : List PortId) : Watched Unit := do
  note (.opens source)
  let (flow, term, mutable, borrowed) ← during (Pass.openWire source sinks)
  match sinks with
  | [] => pure ()
  | first :: rest =>
    let firstTerm ← unifySink g source flow mutable true term first
    rest.forM fun sink => discard (unifySink g source flow mutable borrowed firstTerm sink)

def unifyOutput (g : Graph) (output : PortId) : Watched Unit := do
  let sinks ← g.sinksOf output
  if !sinks.isEmpty then
    unifyWire g output sinks
    during (Pass.count fun stats => { stats with wiresUnified := stats.wiresUnified + 1 })

def unifyWires (g : Graph) : Watched Unit := do
  during (Pass.countWired g)
  let ctx := (← get).context
  during ((Pass.unwiredGroups ctx.groups).forM fun group =>
    Pass.settleOutputs g group false)
  ctx.order.forM fun node => do
    let data ← g.getNode node
    data.outputs.forM (unifyOutput g)
  during (modify fun ctx =>
    { ctx with flows := ctx.flows.resolveAll ctx.terms })

/-! ## Watching changes nothing -/

/-- The watched computation does what the pass does. -/
structure Erases (watched : Watched α) (pass : Pass α) : Prop where
  eq : ∀ watch, within Watch.context (watched watch) = pass watch.context

namespace Erases

theorem during (pass : Pass α) : Erases (during pass) pass := by
  refine ⟨fun watch => ?_⟩
  unfold Watched.during
  cases pass watch.context <;> rfl

theorem pure (a : α) : Erases (Pure.pure a) (Pure.pure a) := ⟨fun _ => rfl⟩

theorem lift (answer : Except Fault α) : Erases (liftM answer) (liftM answer : Pass α) := by
  refine ⟨fun watch => ?_⟩
  cases answer <;> rfl

variable {watched : Watched α} {pass : Pass α}

theorem bind {next : α → Watched β} {next' : α → Pass β} (h : Erases watched pass)
    (hnext : ∀ a, Erases (next a) (next' a)) : Erases (watched >>= next) (pass >>= next') := by
  refine ⟨fun watch => ?_⟩
  change within Watch.context (EStateM.bind watched next watch) =
    EStateM.bind pass next' watch.context
  unfold EStateM.bind
  rw [← h.eq watch]
  cases hrun : watched watch with
  | ok a watch' => exact (hnext a).eq watch'
  | error fault watch' => rfl

theorem note_bind {moment : Context → Moment} (h : Erases watched pass) :
    Erases (do note moment; watched) pass :=
  ⟨fun watch => h.eq { watch with moments := watch.moments ++ [moment watch.context] }⟩

theorem discard (h : Erases watched pass) : Erases (discard watched) (discard pass) :=
  h.bind fun _ => .pure PUnit.unit

theorem forM (items : List β) {body : β → Watched PUnit} {body' : β → Pass PUnit}
    (h : ∀ item, Erases (body item) (body' item)) :
    Erases (items.forM body) (items.forM body') := by
  induction items with
  | nil => exact .pure PUnit.unit
  | cons item rest ih => exact (h item).bind fun _ => ih

theorem ends (h : Erases watched pass) {ctx : Context} {post : α → Context → Prop}
    (hwatched : Yields watched { context := ctx } fun a watch => post a watch.context) :
    Yields pass ctx post := by
  have hrun : pass ctx = within Watch.context (watched { context := ctx }) :=
    (h.eq { context := ctx }).symm
  exact Ends.of_part hrun hwatched

theorem exists_eq_ok (h : Erases watched pass) (watch : Watch) {ctx : Context} {a : α}
    (hrun : pass watch.context = .ok a ctx) :
    ∃ moments, watched watch = .ok a { context := ctx, moments } := by
  have heq := h.eq watch
  rw [hrun] at heq
  cases hwatched : watched watch with
  | error fault watch' =>
    rw [hwatched] at heq
    cases heq
  | ok found watch' =>
    rw [hwatched] at heq
    cases heq
    exact ⟨watch'.moments, rfl⟩

end Erases

variable (g : Graph)

theorem erases_unifySink (origin : PortId) (source : FlowId) (mutable shared : Bool)
    (supplied : TermId) (sink : PortId) :
    Erases (unifySink g origin source mutable shared supplied sink)
      (Pass.unifySink g source mutable shared supplied sink) := by
  rw [Pass.unifySink_eq]
  exact (Erases.during _).bind fun _ => .note_bind ((Erases.during _).bind fun _ => .pure _)

theorem erases_unifyWire (source : PortId) (sinks : List PortId) :
    Erases (unifyWire g source sinks) (Pass.unifyWire g source sinks) := by
  rw [Pass.unifyWire_eq]
  refine .note_bind ((Erases.during _).bind fun ⟨flow, term, mutable, borrowed⟩ => ?_)
  cases sinks with
  | nil => exact .pure ()
  | cons first rest =>
    exact (erases_unifySink ..).bind fun _ => .forM rest fun _ => (erases_unifySink ..).discard

theorem erases_unifyOutput (output : PortId) :
    Erases (unifyOutput g output) (Pass.unifyOutput g output) := by
  refine (Erases.lift _).bind fun sinks => ?_
  split
  · exact (erases_unifyWire g output sinks).bind fun _ => .during _
  · exact .pure ()

theorem erases_unifyWires : Erases (unifyWires g) (Pass.unifyWires g) := by
  refine (Erases.during _).bind fun _ => ⟨fun watch => ?_⟩
  have hrest := (Erases.during ((Pass.unwiredGroups watch.context.groups).forM fun group =>
      Pass.settleOutputs g group false)).bind fun _ =>
    (Erases.forM watch.context.order fun node => (Erases.lift (g.getNode node)).bind
      fun data => .forM data.outputs (erases_unifyOutput g)).bind fun _ =>
    .during (modify fun ctx => { ctx with flows := ctx.flows.resolveAll ctx.terms })
  exact hrest.eq watch

end Watched

end BorrowFlow
