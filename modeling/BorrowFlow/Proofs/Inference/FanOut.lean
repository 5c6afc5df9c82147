import BorrowFlow.Proofs.Graph.Outputs
import BorrowFlow.Proofs.Inference.Unread
import BorrowFlow.Proofs.Term.Checking

/-!
# Who is blamed for a mismatch

A wire may feed inputs that expect different types. The first of its sinks is compared with what the
wire supplies, and every later one with the first. If all these types are known and hold no
reference, a comparison changes no type, so each sink is blamed by itself: the first if it does not
expect what is supplied, and a later one if it does not expect what the first one does. As the first
sink takes over the value, a later sink with the same flow expects the supplied type by then.
-/

namespace BorrowFlow

namespace DataType

/-- Whether no part of the type is unresolved or a reference. -/
def isOwned : DataType → Bool
  | unresolved | reference .. => false
  | constructed _ argument => argument.isOwned
  | _ => true

theorem eq_of_erased_eq_fill {type other part : DataType} (h : type.isOwned = true)
    (hfill : other.erased = type.erased.fill part) : other = type := by
  induction type generalizing other with
  | unresolved | reference => cases h
  | constructed head argument ih =>
    cases other with
    | constructed head' other =>
      obtain ⟨rfl, hargument⟩ := constructed.inj hfill
      rw [ih h hargument]
    | _ => cases hfill
  | void | bool | int32 | int64 | string =>
    cases other with
    | constructed | reference => cases hfill
    | _ => exact hfill

end DataType

namespace TermStore

variable {s s' : TermStore} {term left right : TermId} {result : Unified}

theorem Sound.hasSort_of_isOwned (hs : s.Sound) (h : (s.render term).isOwned = true) :
    s.HasSort term .type := by
  have hrenders := renders_render hs.wellSorted hs.solvable term
  generalize s.render term = type at h hrenders
  cases hrenders with
  | unresolved => cases h
  | constructed hp | reference hp => exact hasSort_of_probe hp
  | literal hp =>
    rcases Nat.lt_or_ge term s.size with hlt | hge
    · exact ⟨hlt, by rw [hp]; rfl⟩
    · rw [probe_of_le hge] at hp
      cases hp
      cases h

/-- A type of which everything is known, and that holds no reference, is always read alike. -/
theorem Extends.render_eq (hext : s.Extends s') (hs : s.Sound) (hs' : s'.Sound)
    (h : (s.render term).isOwned = true) : s'.render term = s.render term := by
  obtain ⟨part, hfill⟩ := hext.fill_render hs hs' (hs.hasSort_of_isOwned h).1
  exact DataType.eq_of_erased_eq_fill h hfill

theorem Sound.cases_of_isOwned (hs : s.Sound) (hplain : s.Plain)
    (h : (s.render term).isOwned = true) :
    (s.probe term = .literal (s.render term) ∧ (s.render term).isBasic = true) ∨
      ∃ head argument, s.probe term = .constructed head argument ∧
        s.render term = .constructed head (s.render argument) ∧
          (s.render argument).isOwned = true := by
  have hlt := (hs.hasSort_of_isOwned h).1
  have hrenders := renders_render hs.wellSorted hs.solvable term
  generalize htype : s.render term = type at h hrenders ⊢
  cases hrenders with
  | unresolved | reference => cases h
  | literal hp =>
    have hbasic := hplain term hlt
    rw [hp] at hbasic
    exact .inl ⟨hp, hbasic⟩
  | constructed hp hargument =>
    rw [← hs.render_eq hargument] at h ⊢
    exact .inr ⟨_, _, hp, rfl, h⟩

theorem Sound.render_ne_of_clash (hs : s.Sound) (hplain : s.Plain)
    (hl : (s.render left).isOwned = true) (hr : (s.render right).isOwned = true)
    (hclash : Clash (s.probe left) (s.probe right)) : s.render left ≠ s.render right := by
  intro heq
  rcases hs.cases_of_isOwned hplain hl with
    ⟨hp, hbasic⟩ | ⟨head, argument, hp, hrender, -⟩ <;>
  rcases hs.cases_of_isOwned hplain hr with
    ⟨hp', hbasic'⟩ | ⟨head', argument', hp', hrender', -⟩
  · rw [hp, hp'] at hclash
    exact hclash heq
  · rw [heq, hrender'] at hbasic
    cases hbasic
  · rw [← heq, hrender] at hbasic'
    cases hbasic'
  · rw [hp, hp'] at hclash
    rw [hrender, hrender'] at heq
    exact hclash (DataType.constructed.inj heq).1

/-- Two types of which everything is known, and that hold no reference, are made equal if they are,
and else reported as they are. -/
theorem Unifies.mismatches_of_isOwned (h : Unifies s left right result) (hs : s.Sound)
    (hplain : s.Plain) (hl : (s.render left).isOwned = true)
    (hr : (s.render right).isOwned = true) :
    (result.equal = true ↔ s.render left = s.render right) ∧
      result.outcome.mismatches = if s.render left = s.render right then []
        else [(s.render left, s.render right)] := by
  induction h with
  | same h => simp [Agree.render_eq (.same h)]
  | literals _ hp hp' =>
    simp [(hs.render_literal hp).trans (hs.render_literal hp').symm, accept]
  | constructors _ hp hp' _ hequal ih =>
    rw [hs.render_constructed hp] at hl ⊢
    rw [hs.render_constructed hp'] at hr ⊢
    have heq := (ih hs hplain hl hr).1.mp hequal
    simp [heq, accept, Outcome.withoutMismatches]
  | argumentsApart _ hp hp' h hequal hrefused ih =>
    have hfirst := hs.wellSorted.hasSort_argument hp
    have hsecond := hs.wellSorted.hasSort_argument hp'
    have hsteps := h.steps hs.wellSorted hfirst hsecond
    have hs' := hs.of_steps hsteps
    have hkept := hsteps.extends.render_eq hs hs' hl
    have hkept' := hsteps.extends.render_eq hs hs' hr
    obtain ⟨_, _, hrenders, hrenders', rfl⟩ := hrefused
    rw [← hs'.render_eq hrenders, ← hs'.render_eq hrenders', hkept, hkept']
    rw [hs.render_constructed hp] at hl ⊢
    rw [hs.render_constructed hp'] at hr ⊢
    have hne := mt (ih hs hplain hl hr).1.mpr (by simp [hequal])
    simp only [DataType.constructed.injEq, true_and, if_neg hne]
    exact ⟨by simp [hne], rfl⟩
  | clash _ hclash hrefused =>
    have hne := hs.render_ne_of_clash hplain hl hr hclash
    obtain ⟨_, _, hrenders, hrenders', rfl⟩ := hrefused
    rw [← hs.render_eq hrenders, ← hs.render_eq hrenders', if_neg hne]
    simp [hne]
  | bindRight _ _ hp =>
    have hview := hs.cases_of_isOwned hplain hr
    simp [hp] at hview
  | references _ hp | unbounds _ hp | bindLeft _ hp | lifetimes _ hp
  | mutabilities _ hp =>
    have hview := hs.cases_of_isOwned hplain hl
    simp [hp] at hview

theorem eq_of_parts (hlabels : s.classes.labels = s'.classes.labels)
    (hvalues : s.classes.values = s'.classes.values) (hnext : s.nextUnbound = s'.nextUnbound) :
    s = s' := by
  obtain ⟨⟨labels, values, _, _⟩, next⟩ := s
  obtain ⟨⟨labels', values', _, _⟩, next'⟩ := s'
  obtain rfl : labels = labels' := hlabels
  obtain rfl : values = values' := hvalues
  obtain rfl : next = next' := hnext
  rfl

end TermStore

namespace Diagnostics

variable {diagnostics diagnostics' diagnostics'' : Diagnostics}
  {blamed blamed' : PortId → DataType → DataType → Prop}

/-- The mismatches that are reported later but not before are those for which a port is blamed. -/
def Blames (diagnostics : Diagnostics) (blamed : PortId → DataType → DataType → Prop)
    (diagnostics' : Diagnostics) : Prop :=
  ∀ port expected found, .typeMismatch expected found ∈ diagnostics'.forPort port ↔
    .typeMismatch expected found ∈ diagnostics.forPort port ∨ blamed port expected found

theorem Blames.trans (h : diagnostics.Blames blamed diagnostics')
    (h' : diagnostics'.Blames blamed' diagnostics'') :
    diagnostics.Blames (fun port expected found =>
      blamed port expected found ∨ blamed' port expected found) diagnostics'' := by
  intro port expected found
  rw [h' port expected found, h port expected found, or_assoc]

theorem mem_forPort_record (diagnostics : Diagnostics) (port : PortId) (outcome : Outcome)
    (other : PortId) (diagnostic : Diagnostic) :
    diagnostic ∈ (diagnostics.record port outcome).forPort other ↔
      diagnostic ∈ diagnostics.forPort other ∨ other = port ∧ diagnostic ∈ outcome.diagnostics := by
  unfold record
  generalize outcome.diagnostics = reported
  induction reported generalizing diagnostics with
  | nil => simp
  | cons first rest ih =>
    rw [List.foldl_cons, ih, forPort_push]
    grind

theorem blames_record (diagnostics : Diagnostics) (port : PortId) (outcome : Outcome) :
    diagnostics.Blames
      (fun other expected found => other = port ∧ (expected, found) ∈ outcome.mismatches)
      (diagnostics.record port outcome) := by
  intro other expected found
  rw [mem_forPort_record]
  simp [Outcome.diagnostics]

end Diagnostics

namespace Context

def Reads (ctx : Context) (flow : FlowId) (type : DataType) : Prop :=
  ∃ term, ctx.flows.term flow = .ok term ∧ ctx.terms.render term = type

/-- A term is about to be supplied to sinks that stand for themselves. Of its type and of theirs
everything is known, and none holds a reference. -/
structure Fans (ctx : Context) (flows : PortId → FlowId) (types : PortId → DataType)
    (supplied : TermId) (sinks : List PortId) : Prop where
  sound : ctx.terms.Sound
  plain : ctx.terms.Plain
  owned : (ctx.terms.render supplied).isOwned = true
  simple : ∀ sink ∈ sinks, ctx.facades.get? sink = some (.simple (flows sink))
  reads : ∀ sink ∈ sinks, ctx.Reads (flows sink) (types sink)
  known : ∀ sink ∈ sinks, (types sink).isOwned = true

/-- The context after a sink that stands for itself was unified. -/
def joined (ctx : Context) (origin : FlowId) (mutable shared : Bool) (supplied : TermId)
    (sink : PortId) (flow : FlowId) (term : TermId) : Context :=
  { ctx with
    terms := (ctx.terms.unify term supplied).store
    diagnostics := ctx.diagnostics.record sink (ctx.terms.unify term supplied).outcome
    flows := if shared then ctx.flows.merge flow origin else ctx.flows.setMutable flow mutable }

/-- Who is blamed for which mismatch when the sinks of a wire are unified: the first sink if its
type is not the supplied one, and another one if its type is not that of the first. By then the flow
of the first sink carries the supplied type. -/
def Blamed (ctx : Context) (flows : PortId → FlowId) (types : PortId → DataType)
    (supplied : DataType) (first : PortId) (rest : List PortId) (port : PortId)
    (expected found : DataType) : Prop :=
  expected ≠ found ∧ (port = first ∧ expected = types first ∧ found = supplied ∨
      port ∈ rest ∧ expected = (if ctx.flows.same (flows port) (flows first) then supplied
        else types port) ∧ found = types first)

variable {ctx ctx' : Context} {flows : PortId → FlowId} {types : PortId → DataType}
  {supplied supplied' term : TermId} {sink : PortId} {sinks : List PortId}

/-- As no type that is known is read anew, sinks stay known in a store that knows more. -/
theorem Fans.of_extends (h : ctx.Fans flows types supplied sinks) {left : List PortId}
    (types' : PortId → DataType)
    (hl : left ⊆ sinks) (hsound : ctx'.terms.Sound) (hplain : ctx'.terms.Plain)
    (hext : ctx.terms.Extends ctx'.terms) (hfacades : ctx'.facades = ctx.facades)
    (howned : (ctx.terms.render supplied').isOwned = true)
    (hknown : ∀ sink ∈ left, (types' sink).isOwned = true)
    (hreads : ∀ sink ∈ left, ∃ term, ctx'.flows.term (flows sink) = .ok term ∧
      ctx.terms.render term = types' sink) : ctx'.Fans flows types' supplied' left where
  sound := hsound
  plain := hplain
  owned := by rwa [hext.render_eq h.sound hsound howned]
  simple sink hsink := hfacades ▸ h.simple sink (hl hsink)
  reads sink hsink := by
    obtain ⟨term, ht, hrender⟩ := hreads sink hsink
    have howned' := hknown sink hsink
    rw [← hrender] at howned'
    exact ⟨term, ht, (hext.render_eq h.sound hsound howned').trans hrender⟩
  known := hknown

theorem Fans.joined (h : ctx.Fans flows types supplied (sink :: sinks))
    (ht : ctx.flows.term (flows sink) = .ok term) (origin : FlowId)
    (mutable shared : Bool) :
    let ctx' := ctx.joined origin mutable shared supplied sink (flows sink) term
    ctx.terms.render term = types sink ∧ ctx'.terms.Sound ∧ ctx'.terms.Plain ∧
      ctx.terms.Extends ctx'.terms ∧
      ctx.diagnostics.Blames (fun port expected found => port = sink ∧ expected = types sink ∧
        found = ctx.terms.render supplied ∧ expected ≠ found) ctx'.diagnostics := by
  obtain ⟨_, hf, hrender⟩ := h.reads sink List.mem_cons_self
  cases ht.symm.trans hf
  have howned := h.known sink List.mem_cons_self
  rw [← hrender] at howned
  have hsort := h.sound.hasSort_of_isOwned howned
  have hsort' := h.sound.hasSort_of_isOwned h.owned
  obtain ⟨hsteps, hsound⟩ := h.sound.unify hsort hsort'
  refine ⟨hrender, hsound, h.plain.steps hsteps, hsteps.extends, ?_⟩
  have hunifies := TermStore.unifies_unify h.sound.wellSorted h.sound.solvable hsort hsort'
  have hmismatches := (hunifies.mismatches_of_isOwned h.sound h.plain howned h.owned).2
  intro port expected found
  refine (ctx.diagnostics.blames_record sink _ port expected found).trans (or_congr_right ?_)
  rw [hmismatches, hrender]
  split
  · grind
  · grind

end Context

namespace Pass

variable {ctx : Context} {flows : PortId → FlowId} {types : PortId → DataType}
  {supplied term : TermId} {sink : PortId} {sinks : List PortId} {flow origin : FlowId}
  {g : Graph} {failed : Context → Prop} {mutable : Bool}

theorem ends_ask_of_ok {α : Type} {query : Context → Except Fault α} {a : α}
    {post : α → Context → Prop} (h : query ctx = .ok a) (hpost : post a ctx) :
    Ends (ask query) ctx post failed :=
  meets_ask (fun _ ha => Except.ok.inj (h.symm.trans ha) ▸ hpost)
    fun _ hfault => nomatch h.symm.trans hfault

theorem ends_unifySink_simple {shared : Bool} {post : TermId → Context → Prop}
    (hfacade : ctx.facades.get? sink = some (.simple flow))
    (ht : ctx.flows.term flow = .ok term)
    (h : post term (ctx.joined origin mutable shared supplied sink flow term)) :
    Ends (unifySink g origin mutable shared supplied sink) ctx post failed := by
  apply Ends.bind
  apply ends_ask_of_ok (Facades.wireSide_eq_ok.mpr ⟨_, hfacade, rfl⟩)
  apply Ends.bind
  apply ends_ask_of_ok ht
  apply Ends.bind
  apply ends_unifyAt
  have hjoin : ∀ {ctx : Context} {next : PUnit → Context → Prop},
      next () { ctx with flows := if shared then ctx.flows.merge flow origin
        else ctx.flows.setMutable flow mutable } →
      Ends (joinSink origin flow shared mutable) ctx next failed := by
    intro ctx next hnext
    cases shared <;> exact hnext
  apply Ends.bind
  apply hjoin
  apply Ends.bind
  apply ends_ask_of_ok (Facades.get_eq_ok.mpr hfacade)
  exact h

theorem ends_unifyDuplicates (h : ctx.Fans flows types supplied sinks) :
    Ends (sinks.forM fun sink => discard (unifySink g origin mutable false supplied sink)) ctx
      (fun _ ctx' => ctx.diagnostics.Blames (fun port expected found => port ∈ sinks ∧
        expected = types port ∧ found = ctx.terms.render supplied ∧ expected ≠ found)
          ctx'.diagnostics) failed := by
  induction sinks generalizing ctx with
  | nil => exact Ends.pure fun port expected found => by simp
  | cons sink rest ih =>
    obtain ⟨term, ht, hrender⟩ := h.reads sink List.mem_cons_self
    obtain ⟨-, hsound, hplain, hext, hblames⟩ := h.joined ht origin mutable false
    have hreads : ∀ other ∈ rest, ∃ term',
        (ctx.joined origin mutable false supplied sink (flows sink) term).flows.term
          (flows other) = .ok term' ∧ ctx.terms.render term' = types other := by
      intro other ho
      obtain ⟨term', ht', hrender'⟩ := h.reads other (List.mem_cons_of_mem _ ho)
      refine ⟨term', ?_, hrender'⟩
      rw [FlowStore.term_eq_ok] at ht' ⊢
      exact (FlowStore.term_setMutable mutable _).trans ht'
    have hnext := h.of_extends types (List.subset_cons_self sink rest) hsound hplain hext rfl
      h.owned (fun other ho => h.known other (List.mem_cons_of_mem _ ho)) hreads
    apply Ends.bind
    apply Meets.discard
    apply ends_unifySink_simple (h.simple sink List.mem_cons_self) ht
    apply (ih hnext).imp
    intro _ ctx' hrest port expected found
    rw [(hblames.trans hrest) port expected found, hext.render_eq h.sound hsound h.owned]
    grind

/-- The first sink gets the value, and is compared with it. The other ones are compared with the
first. -/
theorem ends_fanOut (h : ctx.Fans flows types supplied (sink :: sinks))
    (horigin : ctx.flows.term origin = .ok supplied) :
    Ends (unifySink g origin mutable true supplied sink >>= fun term =>
        sinks.forM fun sink => discard (unifySink g origin mutable false term sink)) ctx
      (fun _ ctx' => ctx.diagnostics.Blames
        (ctx.Blamed flows types (ctx.terms.render supplied) sink sinks) ctx'.diagnostics)
      failed := by
  obtain ⟨term, ht, -⟩ := h.reads sink List.mem_cons_self
  obtain ⟨hrender, hsound, hplain, hext, hblames⟩ := h.joined ht origin mutable true
  have howned : (ctx.terms.render term).isOwned = true :=
    hrender ▸ h.known sink List.mem_cons_self
  have hmerge := FlowStore.term_merge_eq (FlowStore.term_eq_ok.mp ht)
    (FlowStore.term_eq_ok.mp horigin)
  have hnext := h.of_extends (fun port => if ctx.flows.same (flows port) (flows sink) then
      ctx.terms.render supplied else types port) (List.subset_cons_self sink sinks) hsound hplain
    hext rfl howned ?_ ?_
  · apply Ends.bind
    apply ends_unifySink_simple (h.simple sink List.mem_cons_self) ht
    apply (ends_unifyDuplicates hnext).imp
    intro _ ctx' hrest
    rw [hext.render_eq h.sound hsound howned, hrender] at hrest
    intro port expected found
    rw [(hblames.trans hrest) port expected found, Context.Blamed]
    tauto
  · intro other ho
    split
    · exact h.owned
    · exact h.known other (List.mem_cons_of_mem _ ho)
  · intro other ho
    obtain ⟨term', ht', hrender'⟩ := h.reads other (List.mem_cons_of_mem _ ho)
    split
    · rename_i hsame
      exact ⟨supplied, FlowStore.term_eq_ok.mpr ((hmerge _).trans (if_pos hsame)), rfl⟩
    · rename_i hsame
      refine ⟨term', FlowStore.term_eq_ok.mpr ((hmerge _).trans (if_neg hsame) |>.trans ?_),
        hrender'⟩
      exact FlowStore.term_eq_ok.mp ht'

/-- Whether the value can be duplicated is asked without a change of what is known, and no mismatch
is reported at another port. -/
theorem ends_requireCopy {source : PortId} (h : ctx.Fans flows types supplied sinks)
    (hsource : source ∉ sinks) :
    Ends (requireCopy source supplied) ctx (fun _ ctx' => ctx'.flows = ctx.flows ∧
      ctx'.Fans flows types supplied sinks ∧
        ctx'.terms.render supplied = ctx.terms.render supplied ∧
          ∀ sink ∈ sinks, ∀ diagnostic, diagnostic ∈ ctx'.diagnostics.forPort sink ↔
            diagnostic ∈ ctx.diagnostics.forPort sink) failed := by
  have hsort := h.sound.hasSort_of_isOwned h.owned
  have hcreates := h.sound.creates_newUnbound True [.copy]
  have hplain := h.plain.run h.sound
    (show (TermStore.Operation.newUnbound [.copy]).Fits ctx.terms from trivial)
  obtain ⟨hsteps, hsound⟩ := hcreates.sound.unify hcreates.sort (hcreates.keeps.hasSort hsort)
  have hext := hcreates.keeps.trans hsteps.extends
  refine ⟨rfl, h.of_extends types (List.Subset.refl sinks) hsound (hplain.steps hsteps) hext rfl
    h.owned h.known h.reads, hext.render_eq h.sound hsound h.owned, fun sink hsink diagnostic => ?_⟩
  rw [Diagnostics.mem_forPort_record]
  have hne : sink ≠ source := fun heq => hsource (heq ▸ hsink)
  simp [hne]

theorem ends_unifyWire_simple {source : PortId}
    (h : ctx.Fans flows types supplied (sink :: sinks)) (hsource : source ∉ sink :: sinks)
    (hflow : ctx.facades.wireSide source = .ok origin)
    (horigin : ctx.flows.term origin = .ok supplied) :
    Ends (unifyWire g source (sink :: sinks)) ctx (fun _ ctx' => ∀ port ∈ sink :: sinks,
      ∀ expected found, .typeMismatch expected found ∈ ctx'.diagnostics.forPort port ↔
        .typeMismatch expected found ∈ ctx.diagnostics.forPort port ∨
          ctx.Blamed flows types (ctx.terms.render supplied) sink sinks port expected found)
      failed := by
  have hborrowed : (sink :: sinks).all ctx.facades.isReferenceInput = false := by
    simp [Facades.isReferenceInput, h.simple sink List.mem_cons_self, Facade.group?]
  unfold unifyWire
  apply Ends.bind
  apply ends_ask_of_ok hflow
  apply Ends.bind
  apply ends_ask_of_ok horigin
  apply Ends.bind
  apply Ends.get
  dsimp only
  rw [hborrowed]
  split
  · apply Ends.bind
    apply (ends_requireCopy h hsource).imp
    rintro _ ctx1 ⟨hflows, hfans, hrender, hkept⟩
    apply (ends_fanOut hfans (hflows ▸ horigin)).imp
    intro _ ctx' hblames port hport expected found
    rw [hblames port expected found, hkept port hport, hrender, Context.Blamed, hflows]
    rfl
  · exact (ends_fanOut h horigin).imp fun _ _ hblames port _ => hblames port

end Pass

namespace Graph

variable {graph : Graph} {context : Context} {source first : PortId} {rest : List PortId}
  {flow : FlowId} {supplied : DataType} {flows : PortId → FlowId} {types : PortId → DataType}

/-- If all types at the ends of a wire are known and hold no reference, then the first sink is
blamed if and only if it does not expect the supplied type, and a later sink if and only if it does
not expect the type that the first one expects. A later sink with the flow of the first one expects
the supplied type by then. -/
theorem Built.blames_unifyWire (hb : graph.Built)
    (hwire : graph.sinksAt source = first :: rest) (hterms : context.terms.Reachable)
    (hsource : context.facades.wireSide source = .ok flow) (hsupplied : context.Reads flow supplied)
    (howned : supplied.isOwned = true)
    (hsinks : ∀ sink ∈ first :: rest, context.facades.get? sink = some (.simple (flows sink)) ∧
      context.Reads (flows sink) (types sink) ∧ (types sink).isOwned = true) :
    ∃ context', Pass.unifyWire graph source (first :: rest) context = .ok () context' ∧
      (∀ expected found, .typeMismatch expected found ∈ context'.diagnostics.forPort first ↔
        .typeMismatch expected found ∈ context.diagnostics.forPort first ∨
          expected = types first ∧ found = supplied ∧ expected ≠ found) ∧
      ∀ sink ∈ rest, ∀ expected found,
        .typeMismatch expected found ∈ context'.diagnostics.forPort sink ↔
          .typeMismatch expected found ∈ context.diagnostics.forPort sink ∨
            expected = (if context.flows.same (flows sink) (flows first) then supplied
              else types sink) ∧ found = types first ∧ expected ≠ found := by
  obtain ⟨term, ht, rfl⟩ := hsupplied
  have hfans : context.Fans flows types term (first :: rest) :=
    ⟨hterms.sound, hterms.plain, howned, fun sink hsink => (hsinks sink hsink).1,
      fun sink hsink => (hsinks sink hsink).2.1, fun sink hsink => (hsinks sink hsink).2.2⟩
  have hnodup := hb.consistent.nodup_sinksAt source
  rw [hwire, List.nodup_cons] at hnodup
  have hapart : source ∉ first :: rest := by
    intro hm
    obtain ⟨port, port', hport, hport', houtput, hinput, -⟩ :=
      hb.consistent.ends (hwire ▸ hm)
    cases hport.symm.trans hport'
    cases houtput.symm.trans hinput
  obtain ⟨_, context', hrun, hblames⟩ := (Pass.ends_unifyWire_simple hfans hapart hsource ht :
    Ends (Pass.unifyWire graph _ _) context _ fun _ => False).exists_eq_ok
  refine ⟨context', hrun, fun expected found => ?_, fun sink hsink expected found => ?_⟩
  · rw [hblames first List.mem_cons_self, Context.Blamed]
    simp only [hnodup.1, false_and, or_false, true_and]
    tauto
  · have hne : sink ≠ first := fun heq => hnodup.1 (heq ▸ hsink)
    rw [hblames sink (List.mem_cons_of_mem _ hsink), Context.Blamed]
    simp only [hne, hsink, false_and, false_or, true_and]
    tauto

def takeOne (type : DataType) : Signature where
  name := "take_one"
  parameters := [{ name := "taken", direction := .input, type := .concrete type }]

/-- A number goes to an operation that takes a text, and to one that takes a number. -/
def misfedFirst : Graph :=
  leaves (connect 0 2) (leaves (connect 0 1)
    (leaves (addNode rootScope (.functional (takeOne .int32)) false)
      (leaves (addNode rootScope (.functional (takeOne .string)) false)
        (leaves (addNode rootScope (.constant .int32 false) false) empty))))

theorem built_misfedFirst : misfedFirst.Built :=
  .connect (.connect (.addNode (.addNode (.addNode .empty _ _) _ _) _ _) _ _) _ _

def misfedFaced : Context := (leaves Run.facePorts { config := {}, graph := misfedFirst }).context

theorem reachable_misfedFaced : misfedFaced.terms.Reachable := by
  have heq : misfedFaced.terms =
      ({} : TermStore).after [.newType .int32, .newType .string, .newType .int32] := by
    apply TermStore.eq_of_parts
    · decide +kernel
    · decide +kernel
    · decide +kernel
  rw [heq]
  have hfirst := TermStore.Reachable.empty.step (.newType .int32) trivial
  have hsecond := hfirst.step (.newType .string) trivial
  exact hsecond.step (.newType .int32) trivial

theorem blames_unifyWire_misfedFirst : ∃ context,
    Pass.unifyWire misfedFirst 0 [1, 2] misfedFaced = .ok () context ∧
      (∀ expected found, .typeMismatch expected found ∈ context.diagnostics.forPort 1 ↔
        expected = .string ∧ found = .int32) ∧
      ∀ expected found, .typeMismatch expected found ∈ context.diagnostics.forPort 2 ↔
        expected = .int32 ∧ found = .string := by
  let types : PortId → DataType := fun port => if port = 1 then .string else .int32
  have hsinks : ∀ sink ∈ [1, 2], misfedFaced.facades.get? sink = some (.simple (id sink)) ∧
      misfedFaced.Reads (id sink) (types sink) ∧ (types sink).isOwned = true := by
    intro sink hsink
    obtain rfl | rfl : sink = 1 ∨ sink = 2 := by simpa using hsink
    · exact ⟨by decide +kernel, ⟨1, by decide +kernel⟩, by decide⟩
    · exact ⟨by decide +kernel, ⟨2, by decide +kernel⟩, by decide⟩
  obtain ⟨context, hrun, hfirst, hrest⟩ := @Built.blames_unifyWire misfedFirst misfedFaced 0 1 [2] 0
    .int32 id types built_misfedFirst (by decide +kernel) reachable_misfedFaced (by decide +kernel)
    ⟨0, by decide +kernel⟩ (by decide) hsinks
  have hfresh : misfedFaced.diagnostics.forPort 1 = [] ∧
      misfedFaced.diagnostics.forPort 2 = [] := by decide +kernel
  have hapart : misfedFaced.flows.same 2 1 = false := by decide +kernel
  refine ⟨context, hrun, fun expected found => ?_, fun expected found => ?_⟩
  · rw [hfirst, hfresh.1]
    simp +contextual [types]
  · rw [hrest 2 List.mem_cons_self, hfresh.2]
    simp +contextual [types, hapart]

/-- The second operation takes what is supplied, and is blamed all the same. -/
theorem typeMismatch_misfedFirst : ∃ context,
    misfedFirst.sinksAt 0 = [1, 2] ∧ misfedFaced.facades.get? 0 = some (.simple 0) ∧
      misfedFaced.facades.get? 1 = some (.simple 1) ∧
      misfedFaced.facades.get? 2 = some (.simple 2) ∧ misfedFaced.Reads 0 .int32 ∧
      misfedFaced.Reads 1 .string ∧ misfedFaced.Reads 2 .int32 ∧
        misfedFaced.diagnostics.forPort 2 = [] ∧
          Pass.unifyWire misfedFirst 0 [1, 2] misfedFaced = .ok () context ∧
            context.diagnostics.forPort 2 = [.typeMismatch .int32 .string] :=
  ⟨_, by decide +kernel, by decide +kernel, by decide +kernel, by decide +kernel,
    ⟨0, by decide +kernel⟩, ⟨1, by decide +kernel⟩, ⟨2, by decide +kernel⟩, by decide +kernel,
    eq_ok_of_succeeds (by decide +kernel), by decide +kernel⟩

end Graph

end BorrowFlow
