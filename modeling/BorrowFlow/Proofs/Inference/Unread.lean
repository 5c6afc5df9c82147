import BorrowFlow.Proofs.Inference.Atomicity
import BorrowFlow.Proofs.Inference.Frames
import Mathlib.Data.Set.Lattice

/-!
# What inference does not read

No pass reads the diagnostics that were found before. Two inferences that differ in nothing else do
the same steps, and they find the same problems as long as they differ only in the features that
they report as switched off.
-/

namespace BorrowFlow

variable {diagnostic : Diagnostic}

/-- Whether it is a problem of the program, and not a feature that the host has switched off. -/
def Diagnostic.isProblem : Diagnostic → Bool
  | featureDisabled _ => false
  | _ => true

theorem Outcome.isProblem_of_mem {outcome : Outcome} (h : diagnostic ∈ outcome.diagnostics) :
    diagnostic.isProblem = true := by
  unfold diagnostics at h
  rcases List.mem_append.mp h with h | h
  · rcases List.mem_append.mp h with h | h
    · obtain ⟨_, -, rfl⟩ := List.mem_map.mp h
      rfl
    · split at h <;> simp_all [Diagnostic.isProblem]
  · obtain ⟨_, -, rfl⟩ := List.mem_map.mp h
    rfl

namespace Diagnostics

variable {diagnostics diagnostics' : Diagnostics}

/-- The problems of a port, in the order they were found. -/
def problems (diagnostics : Diagnostics) (port : PortId) : List Diagnostic :=
  (diagnostics.forPort port).filter Diagnostic.isProblem

/-- The features that are reported as switched off, with their ports. -/
def flagged (diagnostics : Diagnostics) : Set (PortId × TypeConstructor) :=
  {pair | .featureDisabled pair.2 ∈ diagnostics.forPort pair.1}

theorem flagged_empty : ({} : Diagnostics).flagged = ∅ :=
  Set.eq_empty_of_forall_notMem fun _ => List.not_mem_nil

theorem forPort_push (diagnostics : Diagnostics) (port : PortId) (diagnostic : Diagnostic)
    (other : PortId) :
    (diagnostics.push port diagnostic).forPort other =
      if other = port ∧ diagnostic ∉ diagnostics.forPort port then
        diagnostics.forPort other ++ [diagnostic]
      else diagnostics.forPort other := by
  unfold push
  dsimp only
  split
  · simp_all
  · by_cases ho : other = port <;> simp_all [forPort]

theorem problems_push_feature (diagnostics : Diagnostics) (port : PortId) (head : TypeConstructor) :
    (diagnostics.push port (.featureDisabled head)).problems = diagnostics.problems := by
  funext other
  rw [problems, forPort_push]
  split
  · simp [problems, Diagnostic.isProblem]
  · rfl

theorem flagged_push_feature (diagnostics : Diagnostics) (port : PortId) (head : TypeConstructor) :
    (diagnostics.push port (.featureDisabled head)).flagged =
      diagnostics.flagged ∪ {(port, head)} := by
  ext ⟨other, head'⟩
  simp only [flagged, forPort_push, Set.mem_ofPred_eq, Set.mem_union, Set.mem_singleton_iff]
  grind

theorem problems_push (hproblem : diagnostic.isProblem = true)
    (h : diagnostics'.problems = diagnostics.problems) (port : PortId) :
    (diagnostics'.push port diagnostic).problems = (diagnostics.push port diagnostic).problems := by
  have hpush : ∀ (diagnostics : Diagnostics) (other : PortId),
      (diagnostics.push port diagnostic).problems other =
        if other = port ∧ diagnostic ∉ diagnostics.problems port then
          diagnostics.problems other ++ [diagnostic]
        else diagnostics.problems other := by
    intro diagnostics other
    simp only [problems, forPort_push, List.mem_filter, hproblem, and_true]
    split <;> simp [hproblem]
  funext other
  rw [hpush, hpush, h]

theorem flagged_push (hproblem : diagnostic.isProblem = true) (port : PortId) :
    (diagnostics.push port diagnostic).flagged = diagnostics.flagged := by
  ext ⟨other, head⟩
  have hne : .featureDisabled head ≠ diagnostic := by
    rintro rfl
    cases hproblem
  simp only [flagged, forPort_push, Set.mem_ofPred_eq]
  split <;> simp [hne]

theorem problems_record (h : diagnostics'.problems = diagnostics.problems) (port : PortId)
    (outcome : Outcome) :
    (diagnostics'.record port outcome).problems = (diagnostics.record port outcome).problems := by
  have hproblems : ∀ diagnostic ∈ outcome.diagnostics, diagnostic.isProblem = true :=
    fun _ => outcome.isProblem_of_mem
  unfold record
  generalize outcome.diagnostics = found at hproblems
  induction found generalizing diagnostics diagnostics' with
  | nil => exact h
  | cons first rest ih =>
    obtain ⟨hfirst, hrest⟩ := List.forall_mem_cons.mp hproblems
    exact ih (problems_push hfirst h port) hrest

theorem flagged_record (diagnostics : Diagnostics) (port : PortId) (outcome : Outcome) :
    (diagnostics.record port outcome).flagged = diagnostics.flagged :=
  List.foldlRecOn (motive := fun reached : Diagnostics => reached.flagged = diagnostics.flagged)
    outcome.diagnostics _ rfl fun _ hreached _ hm =>
      (flagged_push (outcome.isProblem_of_mem hm) port).trans hreached

end Diagnostics

def Context.withDiagnostics (ctx : Context) (diagnostics : Diagnostics) : Context :=
  { ctx with diagnostics }

/-- Two contexts that agree on everything but their diagnostics. They have the same problems, and
what is flagged in the first one is restricted. -/
def Comparison.unread (flags : Set (PortId × TypeConstructor) → Prop) : Comparison where
  related ctx ctx' := ∃ diagnostics, ctx' = ctx.withDiagnostics diagnostics ∧
    diagnostics.problems = ctx.diagnostics.problems ∧ flags ctx.diagnostics.flagged
  lost _ _ := True
  fails _ := trivial
  facades := by
    rintro ctx _ ⟨diagnostics, rfl, -⟩
    rfl

namespace Pass

open Comparison

variable {α : Type} {flags : Set (PortId × TypeConstructor) → Prop}

/-! ## Steps that do not read -/

def undiagnosed (diagnostics : Diagnostics) :
    EStateM.Result Fault Context α → EStateM.Result Fault Context α
  | .ok a ctx => .ok a (ctx.withDiagnostics diagnostics)
  | .error fault ctx => .error fault (ctx.withDiagnostics diagnostics)

/-- A step that neither reads nor changes diagnostics does the same to both contexts. -/
theorem mimics_unread {pass : Pass α} (h : ∀ ctx diagnostics,
    pass (ctx.withDiagnostics diagnostics) = undiagnosed diagnostics (pass ctx)) :
    (unread flags).Follows pass := by
  rintro ctx _ ⟨diagnostics, rfl, hproblems, hflags⟩
  -- with its own diagnostics the context is itself, so the step leaves them as they are
  have hown := h ctx ctx.diagnostics
  change pass ctx = _ at hown
  rw [h]
  cases hrun : pass ctx with
  | ok a ctx' =>
    rw [hrun] at hown
    injection hown with _ hown
    refine ⟨_, rfl, diagnostics, rfl, ?_⟩
    rw [hown]
    exact ⟨hproblems, hflags⟩
  | error fault ctx' => exact ⟨_, rfl, trivial⟩

theorem mimics_ask_unread {query : Context → Except Fault α} (h : ∀ ctx diagnostics,
    query (Context.withDiagnostics ctx diagnostics) = query ctx) :
    (unread flags).Follows (ask query) := by
  refine .get_bind ?_
  rintro ctx _ ⟨diagnostics, rfl, -⟩
  rw [h]
  exact mimics_lift _

theorem mimics_changeGroups_unread (change : BorrowGroups → Except Fault BorrowGroups) :
    (unread flags).Follows (changeGroups change) :=
  (mimics_ask_unread fun _ _ => rfl).bind fun _ => mimics_unread fun _ _ => rfl

theorem mimics_carveLifetime_unread (scope : ScopeId) :
    (unread flags).Follows (carveLifetime scope) :=
  (mimics_ask_unread fun _ _ => rfl).bind fun _ => (mimics_unread fun _ _ => rfl).bind
    fun _ => .pure _

theorem mimics_insertFacade_unread (port : PortId) (facade : Facade) :
    (unread flags).Follows (insertFacade port facade) := by
  refine mimics_unread fun ctx diagnostics => ?_
  have hinsert : ∀ ctx : Context, insertFacade port facade ctx =
      if ctx.facades.contains port then
        .error (.facadeTwice port) { ctx with facades := ctx.facades.set port facade }
      else .ok () { ctx with facades := ctx.facades.set port facade } := by
    intro ctx
    change (if ctx.facades.contains port then throw (.facadeTwice port) else pure () : Pass Unit)
      _ = _
    split <;> rfl
  rw [hinsert, hinsert, show (ctx.withDiagnostics diagnostics).facades = ctx.facades from rfl]
  split <;> rfl

/-! ## The small steps of the passes -/

theorem mimics_checkFeatures_unread (config config' : Config) (hflags : ∀ found, flags found)
    (port : PortId) (heads : List TypeConstructor) :
    (unread flags).Mimics (checkFeatures config port heads) (checkFeatures config' port heads) := by
  have hreport : ∀ (config : Config) (head : TypeConstructor),
      (if config.isEnabled head then pure () else diagnose port (.featureDisabled head)) =
        (modify fun ctx => { ctx with
          diagnostics := if config.isEnabled head then ctx.diagnostics
            else ctx.diagnostics.push port (.featureDisabled head) } : Pass Unit) := by
    intro config head
    split <;> rfl
  have hproblems : ∀ (config : Config) (head : TypeConstructor) (diagnostics : Diagnostics),
      (if config.isEnabled head then diagnostics
        else diagnostics.push port (.featureDisabled head)).problems = diagnostics.problems := by
    intro config head diagnostics
    split
    · rfl
    · exact diagnostics.problems_push_feature port head
  refine .forM fun head => ?_
  rw [hreport, hreport]
  refine .modify ?_
  rintro ctx _ ⟨diagnostics, rfl, hsame, -⟩
  refine ⟨_, rfl, ?_, hflags _⟩
  exact (hproblems config' head _).trans (hsame.trans (hproblems config head _).symm)

theorem facing_unread (config config' : Config) (hflags : ∀ found, flags found) :
    (unread flags).Facing config config' where
  newTerm _ := mimics_unread fun _ _ => rfl
  openLifetime scope := (mimics_carveLifetime_unread scope).bind fun _ =>
    (mimics_unread fun _ _ => rfl).bind fun _ => .pure _
  newFlow _ _ := mimics_unread fun _ _ => rfl
  interrupt _ _ := mimics_unread fun _ _ => rfl
  face port facade := (mimics_insertFacade_unread port facade).bind fun _ =>
    mimics_unread fun _ _ => rfl
  newGroup _ _ _ _ := mimics_unread fun _ _ => rfl
  changeGroups := mimics_changeGroups_unread
  checkFeatures := mimics_checkFeatures_unread config config' hflags

theorem mimics_unifyAt_unread (port : PortId) (expected supplied : TermId) :
    (unread flags).Follows (unifyAt port expected supplied) := by
  refine .modify ?_
  rintro ctx _ ⟨diagnostics, rfl, hsame, hflags⟩
  exact ⟨_, rfl, Diagnostics.problems_record hsame _ _,
    (Diagnostics.flagged_record _ _ _).symm ▸ hflags⟩

theorem wiring_unread : (unread flags).Wiring where
  agrees := fun ⟨diagnostics, heq, _⟩ => ⟨diagnostics, heq⟩
  newTerm _ := mimics_unread fun _ _ => rfl
  unifyAt := mimics_unifyAt_unread
  modifyFlows _ := mimics_unread fun _ _ => rfl
  carveLifetime := mimics_carveLifetime_unread
  resolveLifetime _ _ := mimics_unread fun _ _ => rfl
  beginBorrow lifetime member := by
    unfold beginBorrow
    split <;> exact mimics_unread fun _ _ => rfl
  changeGroups := mimics_changeGroups_unread
  setGroups _ := mimics_unread fun _ _ => rfl
  countDecided := mimics_unread fun _ _ => rfl
  countUnified := mimics_unread fun _ _ => rfl
  countWired g := mimics_unread fun ctx diagnostics => by
    unfold countWired
    rw [show (ctx.withDiagnostics diagnostics).groups = ctx.groups from rfl]
    cases BorrowGroups.countWired g ctx.groups <;> rfl
  resolveAll := mimics_unread fun _ _ => rfl

/-! ## The passes -/

theorem mimics_facePorts_unread (config config' : Config) (g : Graph) :
    (unread fun _ => True).Mimics (facePorts config g) (facePorts config' g) := by
  refine (Couples.forM fun scope => ?_).bind fun _ => (mimics_lift _).bind fun order =>
    .bind (mimics_unread fun _ _ => rfl) fun _ => .forM fun n => ?_
  · exact (mimics_lift _).bind fun _ => (mimics_ask_unread fun _ _ => rfl).bind fun _ =>
      mimics_unread fun _ _ => rfl
  · exact (mimics_lift _).bind fun node =>
      (mimics_faceNode (facing_unread config config' fun _ => trivial) g n node).bind
        fun _ => mimics_unread fun _ _ => rfl

end Pass

/-! ## Inserting borrows -/

namespace Insertion

variable {α : Type}

def Alike (ws ws' : Workspace) : Prop :=
  ws'.graph = ws.graph ∧ (Comparison.unread fun _ => True).related ws.context ws'.context

/-- An insertion does not read diagnostics. If it fails, then both leave the same graph. -/
abbrev Alikes (insertion insertion' : Insertion α) : Prop :=
  Couples (fun ws ws' => ws'.graph = ws.graph) Alike insertion insertion' Alike

theorem alikes_edit (change : Edit α) : Alikes (edit change) (edit change) := by
  rintro ws ⟨_, ctx'⟩ ⟨rfl, hrelated⟩
  unfold edit
  cases change ws.graph with
  | ok a g => exact ⟨{ graph := g, context := ctx' }, rfl, rfl, hrelated⟩
  | error fault g => exact ⟨{ graph := g, context := ctx' }, rfl, rfl⟩

theorem alikes_askGraph (query : Graph → Except Fault α) :
    Alikes (askGraph query) (askGraph query) := by
  refine .get_bind ?_
  rintro ws ⟨_, ctx'⟩ ⟨rfl, -⟩
  exact .lift fun _ _ h => h.1

theorem alikes_infer {pass : Pass α} (h : (Comparison.unread fun _ => True).Follows pass) :
    Alikes (infer pass) (infer pass) := by
  rintro ws ⟨_, ctx'⟩ ⟨rfl, hrelated⟩
  unfold infer
  cases hrun : pass ws.context with
  | ok a found =>
    obtain ⟨found', hrun', hrelated'⟩ := h.of_eq_ok hrelated hrun
    exact ⟨{ graph := ws.graph, context := found' }, by rw [hrun'], rfl, hrelated'⟩
  | error fault found =>
    obtain ⟨found', hrun', -⟩ := h.of_eq_error hrelated hrun
    exact ⟨{ graph := ws.graph, context := found' }, by rw [hrun'], rfl⟩

theorem alikes_faceSimply (port : PortId) (flow : FlowId) :
    Alikes (faceSimply port flow) (faceSimply port flow) :=
  alikes_infer (Pass.mimics_insertFacade_unread port _)

theorem alikes_count (change : Stats → Stats) : Alikes (count change) (count change) :=
  alikes_infer (Pass.mimics_unread fun _ _ => rfl)

theorem alikes_ask {query : Context → Except Fault α} (h : ∀ ctx diagnostics,
    query (Context.withDiagnostics ctx diagnostics) = query ctx) :
    Alikes (infer (Pass.ask query)) (infer (Pass.ask query)) :=
  alikes_infer (Pass.mimics_ask_unread h)

theorem alikes_insertBorrow (scope : ScopeId) (mutable : Bool) (wired : List GroupMember) :
    Alikes (insertBorrow scope mutable wired) (insertBorrow scope mutable wired) := by
  refine (alikes_edit _).bind fun borrow => (Couples.forM fun item => ?_).bind
    fun _ => alikes_count _
  exact (alikes_askGraph _).bind fun _ => (alikes_askGraph _).bind fun _ => (alikes_edit _).bind
    fun _ => (alikes_ask fun _ _ => rfl).bind fun _ => (alikes_faceSimply _ _).bind
      fun _ => alikes_faceSimply _ _

theorem alikes_dropValue (scope : ScopeId) (output : PortId) (flow : FlowId) :
    Alikes (dropValue scope output flow) (dropValue scope output flow) :=
  (alikes_edit _).bind fun _ => (alikes_askGraph _).bind fun _ => (alikes_edit _).bind
    fun _ => (alikes_faceSimply _ _).bind fun _ => alikes_count _

variable {config config' : Config}
  (hconfig : config'.inference.insertImplicitDrops = config.inference.insertImplicitDrops)

include hconfig

theorem alikes_insertTermination (scope : ScopeId) (paired : List PortId) :
    Alikes (insertTermination config scope paired) (insertTermination config' scope paired) := by
  refine (alikes_edit _).bind fun terminate => (Couples.forM fun item => ?_).bind
    fun _ => alikes_count _
  refine (alikes_ask fun _ _ => rfl).bind fun _ => (alikes_ask fun _ _ => rfl).bind fun _ =>
    .bind (alikes_infer (Pass.mimics_unread fun _ _ => rfl)) fun _ =>
      (alikes_askGraph _).bind fun _ => (alikes_askGraph _).bind fun _ => (alikes_askGraph _).bind
        fun _ => (alikes_edit _).bind fun _ => (alikes_faceSimply _ _).bind fun _ =>
          (alikes_faceSimply _ _).bind fun _ => ?_
  rw [hconfig]
  split
  · exact alikes_dropValue _ _ _
  · exact .pure _

theorem alikes_insertGroup (group : BorrowGroup) (mutable : Bool) :
    Alikes (insertGroup config group mutable) (insertGroup config' group mutable) := by
  refine (alikes_askGraph _).bind fun wired => ?_
  split
  · refine .bind (.lift fun _ _ h => h.1) fun paired => (alikes_insertBorrow _ _ _).bind fun _ => ?_
    split
    · exact alikes_insertTermination hconfig _ _
    · exact .pure _
  · exact .pure _

theorem alikes_insertBorrows : Alikes (insertBorrows config) (insertBorrows config') := by
  refine .get_bind ?_
  rintro ws ⟨_, _⟩ ⟨-, diagnostics, rfl, -⟩
  refine .forM fun group => ?_
  split
  · exact alikes_insertGroup hconfig _ _
  · exact .pure _

end Insertion

/-! ## The whole run -/

namespace Run

/-- Two inferences under two configurations have the same graph and are in the same phase, and their
contexts agree on what is read. -/
structure Alike (config config' : Config) (state state' : Inference) : Prop where
  config_eq : state.config = config
  config_eq' : state'.config = config'
  graph_eq : state'.graph = state.graph
  phase_eq : state'.phase = state.phase
  related : (Comparison.unread fun _ => True).related state.context state'.context

/-- Two runs go on alike. If they fail, then both leave the same graph. -/
abbrev Alikes (config config' : Config) (run : Run Unit) : Prop :=
  Couples (fun state state' => state'.graph = state.graph) (Alike config config') run run
    (Alike config config')

variable {config config' : Config}

theorem alikes_require (step : Step) : Alikes config config' (require step) := by
  refine .get_bind fun state state' halike => ?_
  dsimp only
  rw [halike.phase_eq]
  split
  · exact .throw _ fun _ _ h => h.graph_eq
  · exact .pure _

theorem alikes_enter (phase : Phase) : Alikes config config' (enter phase) :=
  .modify fun _ _ halike =>
    ⟨halike.config_eq, halike.config_eq', halike.graph_eq, rfl, halike.related⟩

theorem alikes_pass {run : Config → Graph → Pass Unit}
    (h : ∀ g, (Comparison.unread fun _ => True).Mimics (run config g)
      (run config' g)) : Alikes config config' (pass run) := by
  intro state state' halike
  have hrun'' : run state'.config state'.graph = run config' state.graph := by
    rw [halike.config_eq', halike.graph_eq]
  unfold pass
  rw [hrun'']
  cases hrun : run state.config state.graph state.context with
  | ok _ found =>
    rw [halike.config_eq] at hrun
    obtain ⟨found', hrun', hrelated⟩ := (h state.graph).of_eq_ok halike.related hrun
    exact ⟨{ state' with context := found' }, by rw [hrun'], halike.config_eq, halike.config_eq',
      halike.graph_eq, halike.phase_eq, hrelated⟩
  | error fault found =>
    rw [halike.config_eq] at hrun
    obtain ⟨found', hrun', -⟩ := (h state.graph).of_eq_error halike.related hrun
    exact ⟨{ state' with context := found' }, by rw [hrun'], halike.graph_eq⟩

theorem alikes_changing {run : Config → Insertion Unit}
    (h : Insertion.Alikes (run config) (run config')) : Alikes config config' (changing run) := by
  intro state state' halike
  have halike' : Insertion.Alike ⟨state.graph, state.context⟩ ⟨state'.graph, state'.context⟩ :=
    ⟨halike.graph_eq, halike.related⟩
  unfold changing
  rw [halike.config_eq']
  cases hrun : run state.config ⟨state.graph, state.context⟩ with
  | ok _ found =>
    rw [halike.config_eq] at hrun
    obtain ⟨found', hrun', hgraph, hrelated⟩ := h.of_eq_ok halike' hrun
    exact ⟨{ state' with graph := found'.graph, context := found'.context }, by
      rw [hrun', ← halike.config_eq'], halike.config_eq, halike.config_eq', hgraph,
      halike.phase_eq, hrelated⟩
  | error fault found =>
    rw [halike.config_eq] at hrun
    obtain ⟨found', hrun', hgraph⟩ := h.of_eq_error halike' hrun
    exact ⟨{ state' with graph := found'.graph, context := found'.context }, by
      rw [hrun', ← halike.config_eq'], hgraph⟩

def passes : Run Unit := do
  facePorts
  unifyWires
  insertBorrows

theorem all_eq_passes : all = passes >>= fun _ => report := by
  simp [all, passes]

theorem alikes_passes
    (hconfig : config'.inference.insertImplicitDrops = config.inference.insertImplicitDrops) :
    Alikes config config' passes := by
  have hfacePorts : Alikes config config' facePorts :=
    (alikes_require _).bind fun _ =>
      (alikes_pass (Pass.mimics_facePorts_unread config config')).bind fun _ => alikes_enter _
  have hunifyWires : Alikes config config' unifyWires :=
    (alikes_require _).bind fun _ => (alikes_pass (Pass.mimics_unifyWires Pass.wiring_unread)).bind
      fun _ => alikes_enter _
  have hinsertBorrows : Alikes config config' insertBorrows :=
    (alikes_require _).bind fun _ => (alikes_changing (Insertion.alikes_insertBorrows hconfig)).bind
      fun _ => alikes_enter _
  exact hfacePorts.bind fun _ => hunifyWires.bind fun _ => hinsertBorrows

end Run

section Infer

variable {config config' : Config} {g : Graph} {state : Inference}

theorem infer_of_passes_error {fault : Fault}
    (h : Run.passes { config, graph := g } = .error fault state) :
    infer config g = (.error fault, state.graph) := by
  have hrun : Run.all { config, graph := g } = .error fault state := by
    rw [Run.all_eq_passes]
    change EStateM.bind _ _ _ = _
    rw [EStateM.bind, h]
  rw [infer, hrun]

theorem infer_of_passes_ok (h : Run.passes { config, graph := g } = .ok () state) : infer config g =
      if state.phase ≠ .borrowsInserted then
        (.error (.outOfPhase .reporting state.phase), state.graph)
      else (.ok (state.context.report state.graph), state.graph) := by
  have hrun : Run.all { config, graph := g } = Run.report state := by
    rw [Run.all_eq_passes]
    change EStateM.bind _ _ _ = _
    rw [EStateM.bind, h]
  rw [infer, hrun]
  obtain ⟨_, _, _, phase⟩ := state
  cases phase <;> rfl

/-- Two configurations that agree on implicit drops lead to the same graph, and to the same fault or
to reports that differ in their diagnostics alone, and there only in the features that they warn
about. -/
theorem infer_unread (g : Graph)
    (hconfig : config'.inference.insertImplicitDrops = config.inference.insertImplicitDrops) :
    (∀ fault after, infer config g = (.error fault, after) →
      infer config' g = (.error fault, after)) ∧
    ∀ report after, infer config g = (.ok report, after) →
      ∃ report', infer config' g = (.ok report', after) ∧ report'.ports = report.ports ∧
        report'.stats = report.stats ∧
          report'.diagnostics.problems = report.diagnostics.problems := by
  have halike : Run.Alike config config' { config, graph := g } { config := config', graph := g } :=
    ⟨rfl, rfl, rfl, rfl, {}, rfl, rfl, trivial⟩
  cases hrun : Run.passes { config, graph := g } with
  | error fault state =>
    obtain ⟨state', hrun', hgraph⟩ := (Run.alikes_passes hconfig).of_eq_error halike hrun
    rw [infer_of_passes_error hrun, infer_of_passes_error hrun', hgraph]
    exact ⟨fun _ _ => id, fun _ _ h => nomatch h⟩
  | ok _ state =>
    obtain ⟨state', hrun', halike'⟩ := (Run.alikes_passes hconfig).of_eq_ok halike hrun
    obtain ⟨-, -, hgraph, hphase, diagnostics, hcontext, hproblems, -⟩ := halike'
    rw [infer_of_passes_ok hrun, infer_of_passes_ok hrun', hphase, hgraph, hcontext]
    split
    · exact ⟨fun _ _ => id, fun _ _ h => nomatch h⟩
    · refine ⟨fun _ _ h => (nomatch h), fun _ _ h => ?_⟩
      cases h
      exact ⟨_, rfl, rfl, rfl, hproblems⟩

end Infer

end BorrowFlow
