import BorrowFlow.Proofs.Inference.Deciding
import Mathlib.Data.List.Perm.Subperm

/-!
# What unifying the wires does

The second pass makes the two ends of every wire alike, if nothing is reported, and the type of a
value that is duplicated owes it to be copyable. A group with a wired member has been decided when
the pass is over: each sink of a wire lets its group know once. What a group decided takes effect at
once, on what its members take and on what its node hands back.
-/

namespace BorrowFlow

variable {groups : BorrowGroups} {id : GroupId} {data group : BorrowGroup} {g : Graph}
  {facades : Facades} {done : List PortId} {sink source : PortId} {fixed : Prop}
  {ctx start : Context} {left : PortId → Prop} {change : BorrowGroup → BorrowGroup}
  {supplied : TermId} {facade : Facade} {mutable shared : Bool}

/-! ## Counting -/

namespace BorrowGroup

/-- The group without what the second pass finds out. -/
def static (group : BorrowGroup) : BorrowGroup :=
  { group with wired := 0, received := 0, decision := none }

theorem of_static_eq {other : BorrowGroup} (h : group.static = other.static) :
    group.node = other.node ∧ group.scope = other.scope ∧ group.members = other.members ∧
      group.lifetimeTerm = other.lifetimeTerm := by
  obtain ⟨hnode, hscope, -, hmembers, ht, -⟩ := BorrowGroup.mk.inj h
  exact ⟨hnode, hscope, hmembers, ht⟩

theorem wiredIn_of_static_eq {other : BorrowGroup} (h : group.static = other.static) (g : Graph) :
    group.wiredIn g = other.wiredIn g := by
  obtain ⟨-, -, hmembers, -⟩ := of_static_eq h
  rw [wiredIn, wiredIn, hmembers]

/-- A group knows how many of its members have a wire and how many of the sinks that are done are
members, and it has been decided if and only if that is all of them. -/
structure Counts (group : BorrowGroup) (g : Graph) (facades : Facades) (done : List PortId)
    (id : GroupId) : Prop where
  wired : group.wired = (group.wiredIn g).length
  received : group.received =
    done.countP fun sink => (facades.get? sink).bind Facade.group? = some id
  decided : group.decision.isSome = true ↔ 0 < group.wired ∧ group.wired ≤ group.received

end BorrowGroup

namespace BorrowGroups

variable {groups' : BorrowGroups}

/-- Groups differ in nothing but what the second pass finds out. -/
def Follows (groups groups' : BorrowGroups) : Prop :=
  ∀ id : GroupId, (groups.groups[id]?).map BorrowGroup.static =
    (groups'.groups[id]?).map BorrowGroup.static

theorem Follows.symm (h : groups.Follows groups') : groups'.Follows groups :=
  fun id => (h id).symm

theorem Follows.exists_static (h : groups.Follows groups') (hd : groups.groups[id]? = some data) :
    ∃ data', groups'.groups[id]? = some data' ∧ data.static = data'.static := by
  have hstatic := h id
  rw [hd, Option.map_some, eq_comm, Option.map_eq_some_iff] at hstatic
  obtain ⟨data', hd', heq⟩ := hstatic
  exact ⟨data', hd', heq.symm⟩

theorem Follows.modify (h : groups.Follows groups')
    (id : GroupId) (hchange : ∀ data, (change data).static = data.static := by exact fun _ => rfl) :
    (groups.modify id change).Follows groups' := by
  intro other
  rw [← h other, BorrowGroups.modify, Array.getElem?_modify]
  split
  · cases groups.groups[other]? <;> simp [hchange]
  · rfl

theorem modify_modify (id : GroupId) (first second : BorrowGroup → BorrowGroup) :
    (groups.modify id first).modify id second = groups.modify id (second ∘ first) := by
  unfold modify
  congr 1
  refine Array.ext_getElem? fun other => ?_
  rw [Array.getElem?_modify, Array.getElem?_modify, Array.getElem?_modify]
  split <;> simp

end BorrowGroups

/-- Facades are as they were, groups have only found out more, and they have counted. -/
structure Graph.Counted (g : Graph) (facades : Facades) (groups : BorrowGroups)
    (done : List PortId) (facades' : Facades) (groups' : BorrowGroups) : Prop where
  facades_eq : facades' = facades
  follows : groups'.Follows groups
  counts : ∀ (id : GroupId) (data : BorrowGroup), groups'.groups[id]? = some data →
    data.Counts g facades done id

namespace Graph.Counted

variable {facades' : Facades} {groups' : BorrowGroups}

section

variable (h : g.Counted facades groups done facades' groups')
  (hgroup : (facades.get? sink).bind Facade.group? = some id) (hd : groups'.groups[id]? = some data)
include h hgroup hd

/-- The group of a sink counts it, and nothing changes for the other groups. -/
theorem arrive (hstatic : ∀ data, (change data).static = data.static)
    (hwired : (change data).wired = data.wired)
    (hreceived : (change data).received = data.received + 1)
    (hdecided : (change data).decision.isSome = true ↔
      0 < data.wired ∧ data.wired ≤ data.received + 1) :
    g.Counted facades groups (sink :: done) facades' (groups'.modify id change) where
  facades_eq := h.facades_eq
  follows := h.follows.modify id hstatic
  counts other found hf := by
    rcases BorrowGroups.of_getElem?_modify hf with ⟨rfl, old, hold, rfl⟩ | ⟨hne, hf⟩
    · cases hd.symm.trans hold
      have hcounts := h.counts id data hd
      refine ⟨?_, ?_, ?_⟩
      · rw [hwired, hcounts.wired, BorrowGroup.wiredIn_of_static_eq (hstatic data)]
      · rw [hreceived, hcounts.received, List.countP_cons_of_pos]
        simpa using hgroup
      · rw [hwired, hreceived]
        exact hdecided
    · have hcounts := h.counts other found hf
      refine ⟨hcounts.wired, ?_, hcounts.decided⟩
      rw [hcounts.received, List.countP_cons_of_neg]
      simpa [hgroup] using hne

theorem wait (hwaits : data.decision = none → data.received + 1 ≠ data.wired) :
    g.Counted facades groups (sink :: done) facades'
      (groups'.modify id fun group => { group with received := data.received + 1 }) := by
  refine h.arrive hgroup hd (fun _ => rfl) rfl rfl ?_
  have hdecided := (h.counts id data hd).decided
  change data.decision.isSome = true ↔ _
  cases hdecision : data.decision with
  | some decision =>
    simp only [hdecision, Option.isSome_some, true_iff] at hdecided ⊢
    omega
  | none =>
    have hmore := hwaits hdecision
    simp only [hdecision, Option.isSome_none, Bool.false_eq_true, false_iff] at hdecided ⊢
    omega

/-- The last value that a group waits for decides it. -/
theorem decide (hlast : data.received + 1 = data.wired) (decision : Decision) :
    g.Counted facades groups (sink :: done) facades' (groups'.modify id fun group =>
        { group with received := data.received + 1, decision := some decision }) := by
  refine h.arrive hgroup hd (fun _ => rfl) rfl rfl ⟨fun _ => ?_, fun _ => rfl⟩
  omega

end

theorem skip (h : g.Counted facades groups done facades' groups')
    (hnone : (facades.get? sink).bind Facade.group? = none) :
    g.Counted facades groups (sink :: done) facades' groups' where
  __ := h
  counts id data hd := by
    obtain ⟨hwired, hreceived, hdecided⟩ := h.counts id data hd
    refine ⟨hwired, ?_, hdecided⟩
    rw [hreceived, List.countP_cons_of_neg]
    simp [hnone]

end Graph.Counted

/-- What a group decided has taken effect on what its members take. If it has been decided, or
nothing arrives at it, then its node hands back what it should. -/
structure BorrowGroup.Enacted (fixed : Prop) (g : Graph) (ctx : Context)
    (group : BorrowGroup) : Prop where
  takes : ∀ decision, group.decision = some decision →
    ∀ member ∈ group.wiredIn g, ctx.Takes fixed decision member.port
  returns : group.wired = 0 ∨ group.decision.isSome = true → ∀ member ∈ group.members,
    ∀ output, member.pairedOutput = some output →
      ctx.HandsBack g (group.decision.any Decision.isBorrow) member output

theorem BorrowGroup.Enacted.of_grows {ctx' : Context}
    (h : group.Enacted fixed g ctx) (hg : ctx.Grows fixed ctx') :
    group.Enacted fixed g ctx' where
  takes decision hdecision member hmember :=
    (h.takes decision hdecision member hmember).of_grows hg
  returns hsettled member hmember output houtput :=
    (h.returns hsettled member hmember output houtput).of_grows hg

namespace Context

variable {ctx' : Context}

def Enacted (fixed : Prop) (g : Graph) (ctx : Context) : Prop :=
  ∀ (id : GroupId) (group : BorrowGroup), ctx.groups.groups[id]? = some group →
    group.Enacted fixed g ctx

theorem Enacted.of_grows (h : ctx.Enacted fixed g) (hg : ctx.Grows fixed ctx')
    (hgroups : ctx'.groups = ctx.groups) : ctx'.Enacted fixed g := by
  intro id group hgroup
  rw [hgroups] at hgroup
  exact (h id group hgroup).of_grows hg

theorem Enacted.of_modify (h : ctx.Enacted fixed g) (hg : ctx.Grows fixed ctx')
    (hgroups : ctx'.groups = ctx.groups.modify id change)
    (hd : ctx.groups.groups[id]? = some data)
    (hnew : (change data).Enacted fixed g ctx') : ctx'.Enacted fixed g := by
  intro other group hgroup
  rw [hgroups] at hgroup
  rcases BorrowGroups.of_getElem?_modify hgroup with ⟨rfl, old, hold, rfl⟩ | ⟨-, hgroup⟩
  · cases hd.symm.trans hold
    exact hnew
  · exact (h other group hgroup).of_grows hg

/-- The type that the wires see of a port owes it to be copyable, as far as nothing has been
reported. -/
def Copyable (fixed : Prop) (ctx : Context) (port : PortId) : Prop :=
  ∃ facade term, ctx.facades.get? port = some facade ∧ ctx.Carries fixed facade.wireSide term ∧
      (ctx.isClean = true → ctx.terms.Owes fixed .copy term)

theorem Copyable.of_grows {port : PortId} (h : ctx.Copyable fixed port)
    (hg : ctx.Grows fixed ctx') : ctx'.Copyable fixed port := by
  obtain ⟨facade, term, hfacade, hcarries, howes⟩ := h
  exact ⟨facade, term, hg.facades _ _ hfacade, hcarries.of_grows hg,
    fun hclean => (hg.owed hclean).owes (howes (hg.clean hclean))⟩

end Context

/-- The value of an output goes to several sinks, and not all of them borrow it. -/
def Graph.Duplicates (g : Graph) (facades : Facades) (source : PortId) : Prop :=
  1 < (g.sinksAt source).length ∧ (g.sinksAt source).all facades.isReferenceInput = false

namespace Context

variable {ctx' : Context}

/-- What the groups decided has taken effect, the two ends of every wire that is done agree, and a
value that is duplicated along it is copyable. -/
structure Settled (fixed : Prop) (g : Graph) (facades : Facades) (done : List PortId)
    (ctx : Context) : Prop where
  enacted : ctx.Enacted fixed g
  wires : ∀ sink ∈ done, ∀ source, sink ∈ g.sinksAt source → ctx.EndsAgree fixed source sink ∧
      (g.Duplicates facades source → ctx.Copyable fixed source)

/-- Since the pass started the context has grown, and all sinks are done but those that are left. -/
def Unified (fixed : Prop) (g : Graph) (ctx start : Context) (left : PortId → Prop) :
    Prop :=
  start.Grows fixed ctx ∧ ∃ done, ctx.Stands fixed (g.Counted start.facades start.groups done) ∧
      ctx.Settled fixed g start.facades done ∧
        ∀ source, ∀ sink ∈ g.sinksAt source, sink ∈ done ∨ left sink

section

variable (h : ctx.Unified fixed g start left)
include h

theorem Unified.mono {left' : PortId → Prop}
    (hl : ∀ source, ∀ sink ∈ g.sinksAt source, left sink → left' sink) :
    ctx.Unified fixed g start left' := by
  obtain ⟨hgrown, done, hstands, hsettled, hcovers⟩ := h
  exact ⟨hgrown, done, hstands, hsettled, fun source sink hsink =>
    (hcovers source sink hsink).imp_right (hl source sink hsink)⟩

theorem Unified.stands : ctx.Stands fixed fun facades groups =>
      facades = ctx.facades ∧ groups = ctx.groups := by
  obtain ⟨-, _, hstands, -⟩ := h
  exact hstands.exact

theorem Unified.facades_eq : ctx.facades = start.facades := by
  obtain ⟨-, _, hstands, -⟩ := h
  exact hstands.kept.facades_eq

theorem Unified.of_grows (hg : ctx.Grows fixed ctx')
    (hstands : ctx'.Stands fixed fun facades groups =>
      facades = ctx.facades ∧ groups = ctx.groups) :
    ctx'.Unified fixed g start left := by
  obtain ⟨hgrown, done, hstands', hsettled, hcovers⟩ := h
  obtain ⟨hfacades, hgroups⟩ := hstands.kept
  refine ⟨hgrown.trans hg, done, ⟨hstands.typed, ?_⟩, ⟨hsettled.enacted.of_grows hg hgroups, ?_⟩,
    hcovers⟩
  · rw [hfacades, hgroups]
    exact hstands'.kept
  · intro sink hsink source hsource
    obtain ⟨hends, hcopyable⟩ := hsettled.wires sink hsink source hsource
    exact ⟨hends.of_grows hg, fun hduplicates => (hcopyable hduplicates).of_grows hg⟩

end

end Context

namespace Pass

variable {kept : Facades → BorrowGroups → Prop}

/-! ## Sinks -/

section Sinks

theorem progress_receive (h : ctx.Stands fixed kept) (id : GroupId) (received : Nat) :
    Progress fixed (fun facades groups => facades = ctx.facades ∧
        groups = ctx.groups.modify id fun group => { group with received })
      (modify fun ctx' => { ctx' with
        groups := ctx.groups.modify id fun group => { group with received } })
      ctx fun _ ctx' => ctx'.terms = ctx.terms ∧ ctx'.flows = ctx.flows :=
  .setGroup h (fun _ => ⟨rfl, rfl, rfl⟩) ⟨rfl, rfl⟩

theorem progress_arriveAt (h : ctx.Stands fixed (g.Counted facades groups done))
    (henacted : ctx.Enacted fixed g)
    (hgroup : (facades.get? sink).bind Facade.group? = some id) :
    Progress fixed (g.Counted facades groups (sink :: done)) (arriveAt g id) ctx
      fun _ ctx' => ctx'.Enacted fixed g := by
  apply (Progress.ask h).bind
  rintro ⟨ready, arrived⟩ _ - - ⟨harrive, rfl⟩
  obtain ⟨data, hd, rfl, rfl⟩ := BorrowGroups.of_arrive_eq_ok harrive
  apply (progress_receive h id (data.received + 1)).bind
  intro _ ctx1 hg1 hstands1 _
  obtain ⟨hfacades1, hgroups1⟩ := hstands1.kept
  have hd1 : ctx1.groups.groups[id]? =
      some { data with received := data.received + 1 } := by
    rw [hgroups1, BorrowGroups.getElem?_modify_self hd]
  -- the group is decided now, it has been decided before, or more values are to come
  split
  · rename_i hready
    apply (progress_decideGroup hstands1 hd1).imp
    rintro _ ctx2 hg2 hstands2 ⟨decision, hgroups2, htakes, hback⟩
    rw [hgroups1, BorrowGroups.modify_modify] at hgroups2
    constructor
    · rw [hgroups2, hstands2.kept, hfacades1]
      have hlast := (Bool.and_eq_true_iff.mp hready).2
      exact h.kept.decide hgroup hd (of_decide_eq_true hlast) decision
    · apply henacted.of_modify (hg1.trans hg2) hgroups2 hd
      exact ⟨fun _ hdecision => Option.some.inj hdecision ▸ htakes, fun _ => hback⟩
  · rename_i hready
    refine .pure ⟨hstands1.typed, ?_⟩ ?_
    · rw [hgroups1, hfacades1]
      exact h.kept.wait hgroup hd fun hnone hlast => hready (by simp [hnone, hlast])
    · apply henacted.of_modify hg1 hgroups1 hd
      have hd' := (henacted id data hd).of_grows hg1
      exact ⟨hd'.takes, hd'.returns⟩

theorem progress_joinSink {source flow : FlowId} {expected : TermId} (h : ctx.Stands fixed kept)
    (hsource : (ctx.flows.get source).term = some supplied)
    (hflow : (ctx.flows.get flow).term = some expected)
    (halike : ctx.isClean = true → ctx.terms.AlikeIf fixed expected supplied) :
    Progress fixed kept (joinSink source flow shared mutable) ctx
      fun _ ctx' => ctx'.Agreeing fixed source flow := by
  have hjoin : Progress fixed kept (joinSink source flow shared mutable) ctx fun _ _ => True := by
    unfold joinSink
    split
    · exact (Progress.merge h hflow hsource halike).forget
    · exact .modifyFlows h (fun _ _ => rfl) fun _ => FlowStore.term_setMutable ..
  have hagreeing : ctx.Agreeing fixed source flow :=
    ⟨expected, ⟨supplied, hsource, halike⟩, expected, hflow, fun _ => .refl expected⟩
  apply hjoin.mono
  intro _ ctx' hg _ _
  exact hagreeing.of_grows hg

theorem progress_unifySink (h : ctx.Stands fixed (g.Counted facades groups done))
    (hsettled : ctx.Settled fixed g facades done)
    (hfacade : ctx.facades.get? source = some facade)
    (hcopyable : g.Duplicates facades source → ctx.Copyable fixed source)
    (hunique : ∀ other, sink ∈ g.sinksAt other → other = source)
    (hsupplied : ctx.terms.HasSort supplied .type)
    (hsource : ctx.Carries fixed facade.wireSide supplied) :
    Progress fixed (g.Counted facades groups (sink :: done))
      (unifySink g facade.wireSide mutable shared supplied sink) ctx
      fun expected ctx' => ctx'.Settled fixed g facades (sink :: done) ∧
        ctx'.terms.HasSort expected .type ∧
          (ctx'.isClean = true → ctx'.terms.AlikeIf fixed expected supplied) := by
  have hexact := h.exact
  apply (Progress.ask hexact).bind
  rintro flow _ - - ⟨hflow, rfl⟩
  obtain ⟨facade', hfacade', rfl⟩ := Facades.wireSide_eq_ok.mp hflow
  apply (Progress.termOf hexact).bind
  rintro expected _ - - ⟨hexpected, rfl⟩
  have hsort := h.typed.flows _ expected hexpected
  apply (Progress.unifyAt hexact hsort hsupplied).bind
  rintro _ ctx1 hg1 hstands1 ⟨hflows, halike⟩
  obtain ⟨term, ht, hjoin⟩ := (hsource.of_grows hg1).of_alike halike
  rw [← hflows] at hexpected
  apply (progress_joinSink hstands1 ht hexpected hjoin).bind
  intro _ ctx2 hg2 hstands2 hjoined
  have hg := hg1.trans hg2
  obtain ⟨hfacades2, hgroups2⟩ := hstands2.kept
  have hcounted : ctx2.Stands fixed (g.Counted facades groups done) := by
    refine ⟨hstands2.typed, ?_⟩
    rw [hfacades2, hgroups2]
    exact h.kept
  have henacted := hsettled.enacted.of_grows hg hgroups2
  -- whatever the group does now, this sink is done
  have hdone : ∀ ctx3, ctx2.Grows fixed ctx3 → ctx3.Enacted fixed g →
      ctx3.Settled fixed g facades (sink :: done) ∧ ctx3.terms.HasSort expected .type ∧
          (ctx3.isClean = true → ctx3.terms.AlikeIf fixed expected supplied) := by
    intro ctx3 hg3 henacted3
    have hall := hg.trans hg3
    refine ⟨⟨henacted3, ?_⟩, hall.terms.hasSort hsort, ?_⟩
    · rw [List.forall_mem_cons]
      constructor
      · intro other ho
        obtain rfl := hunique other ho
        have hends : ctx2.EndsAgree fixed other sink :=
          ⟨facade, facade', hg.facades _ _ hfacade, hg.facades _ _ hfacade', hjoined⟩
        exact ⟨hends.of_grows hg3, fun hduplicates => (hcopyable hduplicates).of_grows hall⟩
      · intro other ho origin horigin
        obtain ⟨hends, hcopies⟩ := hsettled.wires other ho origin horigin
        exact ⟨hends.of_grows hall, fun hduplicates => (hcopies hduplicates).of_grows hall⟩
    · intro hclean
      exact (hg2.trans hg3).terms.alike (halike ((hg2.trans hg3).clean hclean))
  apply (Progress.ask hcounted).bind
  rintro found _ - - ⟨hf, rfl⟩
  have hgroup : (facades.get? sink).bind Facade.group? = found.group? := by
    rw [← hcounted.kept.facades_eq, Facades.get_eq_ok.mp hf]
    rfl
  split
  · rename_i id hid
    apply (progress_arriveAt hcounted henacted (hgroup.trans hid)).bind
    intro _ ctx3 hg3 hstands3 henacted3
    exact .pure hstands3 (hdone ctx3 hg3 henacted3)
  · rename_i hid
    have hnone := hgroup.trans (Option.eq_none_iff_forall_ne_some.mpr hid)
    exact .pure ⟨hcounted.typed, hcounted.kept.skip hnone⟩ (hdone ctx2 (.refl ctx2) henacted)

/-! ## Wires -/

theorem ends_unifySink (h : ctx.Unified fixed g start fun other => other = sink ∨ left other)
    (hfacade : ctx.facades.get? source = some facade)
    (hcopyable : g.Duplicates start.facades source → ctx.Copyable fixed source)
    (hunique : ∀ other, sink ∈ g.sinksAt other → other = source)
    (hsupplied : ctx.terms.HasSort supplied .type)
    (hsource : ctx.Carries fixed facade.wireSide supplied) :
    Yields (unifySink g facade.wireSide mutable shared supplied sink) ctx
      fun expected ctx' => ctx.Grows fixed ctx' ∧ ctx'.Unified fixed g start left ∧
          ctx'.terms.HasSort expected .type ∧
            (ctx'.isClean = true → ctx'.terms.AlikeIf fixed expected supplied) := by
  obtain ⟨hgrown, done, hstands, hsettled, hcovers⟩ := h
  apply Ends.imp (progress_unifySink hstands hsettled hfacade hcopyable hunique hsupplied hsource)
    ?_
  rintro expected ctx' ⟨hg, hstands', hsettled', hexpected⟩
  refine ⟨hg, ⟨hgrown.trans hg, sink :: done, hstands', hsettled', ?_⟩, hexpected⟩
  intro other found hf
  rcases hcovers other found hf with hdone | rfl | hl
  · exact .inl (List.mem_cons_of_mem _ hdone)
  · exact .inl List.mem_cons_self
  · exact .inr hl

theorem progress_requireCopy {term : TermId} (h : ctx.Stands fixed kept)
    (ht : ctx.terms.HasSort term .type) :
    Progress fixed kept (requireCopy source term) ctx
      fun _ ctx' => ctx'.isClean = true → ctx'.terms.Owes fixed .copy term := by
  apply (Progress.newTerm h (h.typed.sound.creates_newUnbound fixed [.copy])).bind
  rintro copyable ctx' hg hstands ⟨hcopyable, hcreated⟩
  apply (Progress.unifyAt hstands hcopyable (hg.terms.hasSort ht)).mono
  rintro _ ctx'' hg' _ ⟨-, halike⟩ hclean
  -- the new term owes it, and the type of the value has become like it
  have howes : ctx'.terms.Owes fixed .copy copyable :=
    .unbound (TermStore.probe_of_push hcreated) List.mem_cons_self
  exact ((hg'.owed hclean).owes howes).of_alikeIf (halike hclean).symm

theorem ends_unifySinks {term : TermId} {sinks : List PortId} (borrowed : Bool)
    (h : ctx.Unified fixed g start fun other => other ∈ sinks ∨ left other)
    (hfacade : ctx.facades.get? source = some facade)
    (hcopyable : g.Duplicates start.facades source → ctx.Copyable fixed source)
    (hunique : ∀ sink ∈ sinks, ∀ other, sink ∈ g.sinksAt other → other = source)
    (ht : ctx.terms.HasSort term .type)
    (hsource : ctx.Carries fixed facade.wireSide term) :
    Ends
      (match sinks with
        | [] => pure ()
        | first :: rest => do
          let firstTerm ← unifySink g facade.wireSide mutable true term first
          rest.forM fun sink =>
            discard (unifySink g facade.wireSide mutable borrowed firstTerm sink))
      ctx (fun _ ctx' => ctx'.Unified fixed g start left)
      fun _ => True := by
  cases sinks with
  | nil => exact Ends.pure (h.mono fun _ _ _ hl => hl.resolve_left nofun)
  | cons first rest =>
    obtain ⟨hfirst, hrest⟩ := List.forall_mem_cons.mp hunique
    have h' : ctx.Unified fixed g start fun other => other = first ∨ other ∈ rest ∨ left other :=
      h.mono fun _ _ _ ho => by simpa [or_assoc] using ho
    -- the first sink is compared with the source, and all others with the first one
    apply (ends_unifySink h' hfacade hcopyable hfirst ht hsource).seq
    rintro firstTerm ctx1 ⟨hg1, hunified1, hfirstTerm, halike1⟩
    have hsource1 := (hsource.of_grows hg1).of_alike halike1
    apply Ends.forM fun todo ctx' => ctx1.Grows fixed ctx' ∧
      (∀ sink ∈ todo, ∀ other, sink ∈ g.sinksAt other → other = source) ∧
        ctx'.Unified fixed g start fun other => other ∈ todo ∨ left other
    · exact ⟨.refl ctx1, hrest, hunified1⟩
    · rintro sink todo ctx2 ⟨hg2, hunique2, hunified2⟩
      obtain ⟨hsink, htodo⟩ := List.forall_mem_cons.mp hunique2
      have hunified : ctx2.Unified fixed g start fun other => other = sink ∨ other ∈ todo ∨
          left other :=
        hunified2.mono fun _ _ _ ho => by simpa [or_assoc] using ho
      apply Ends.discard
      have hg := hg1.trans hg2
      apply (ends_unifySink hunified (hg.facades _ _ hfacade)
        (fun hduplicates => (hcopyable hduplicates).of_grows hg) hsink
        (hg2.terms.hasSort hfirstTerm) (hsource1.of_grows hg2)).imp ?_
      rintro _ ctx3 ⟨hg3, hunified3, -⟩
      exact ⟨hg2.trans hg3, htodo, hunified3⟩
    · rintro ctx2 ⟨-, -, hunified2⟩
      exact hunified2.mono fun _ _ _ hl => hl.resolve_left nofun

theorem ends_unifyWire (h : ctx.Unified fixed g start
      fun other => other ∈ g.sinksAt source ∨ left other)
    (hunique : ∀ sink ∈ g.sinksAt source, ∀ other, sink ∈ g.sinksAt other → other = source) :
    Yields (unifyWire g source (g.sinksAt source)) ctx
      fun _ ctx' => ctx'.Unified fixed g start left := by
  have hstands := h.stands
  apply (Progress.ask hstands).bind_ends
  rintro flow _ - - ⟨hflow, rfl⟩
  obtain ⟨facade, hfacade, rfl⟩ := Facades.wireSide_eq_ok.mp hflow
  apply (Progress.termOf hstands).bind_ends
  rintro term _ - - ⟨ht, rfl⟩
  have hsort := hstands.typed.flows _ term ht
  have hsource : ctx.Carries fixed facade.wireSide term := Context.carries_of_term ht
  apply (Progress.get hstands).bind_ends
  rintro _ _ - - ⟨rfl, rfl⟩
  dsimp only
  split
  · apply (progress_requireCopy hstands hsort).bind_ends
    intro _ ctx' hg hstands' howes
    have hfacade' := hg.facades _ _ hfacade
    have hsource' := hsource.of_grows hg
    exact ends_unifySinks _ (h.of_grows hg hstands') hfacade'
      (fun _ => ⟨facade, term, hfacade', hsource', howes⟩) hunique (hg.terms.hasSort hsort)
      hsource'
  · rename_i hsingle
    refine ends_unifySinks _ h hfacade (fun ⟨hmany, hall⟩ => absurd ?_ hsingle) hunique hsort
      hsource
    rw [h.facades_eq, hall]
    simpa using hmany

theorem ends_unifyOutput (hc : g.Consistent) {output : PortId} {port : Port}
    (hport : g.ports[output]? = some port)
    (h : ctx.Unified fixed g start fun other => other ∈ g.sinksAt output ∨ left other) :
    Yields (unifyOutput g output) ctx fun _ ctx' => ctx'.Unified fixed g start left := by
  refine Yields.lift_bind fun sinks hsinks => ?_
  obtain rfl : g.sinksAt output = sinks :=
    Except.ok.inj ((hc.sinksOf_eq hport).symm.trans hsinks)
  have hunique : ∀ sink ∈ g.sinksAt output, ∀ other, sink ∈ g.sinksAt other → other = output := by
    intro sink hsink other ho
    rw [hc.mem_sinksAt_iff] at hsink ho
    exact Option.some.inj (ho.symm.trans hsink)
  split
  · apply (ends_unifyWire h hunique).seq
    intro _ ctx' hunified
    apply Ends.imp (Progress.count hunified.stands) ?_
    rintro _ ctx'' ⟨hg, hstands, -⟩
    exact hunified.of_grows hg hstands
  · rename_i hnone
    have hempty : g.sinksAt output = [] := by simpa using hnone
    refine Ends.pure (h.mono fun _ sink _ hsink => hsink.resolve_left ?_)
    rw [hempty]
    exact List.not_mem_nil

end Sinks

end Pass

end BorrowFlow
