import BorrowFlow.Proofs.Inference.Discretion
import BorrowFlow.Proofs.Inference.Timing

/-!
# Groups come to know their lifetimes

As long as a group waits for its wired members, nothing but its node has to do with its lifetime. So
when it is decided, its lifetime is still open, and becomes the one that was decided on. Every wire
that is unified leaves the node of a source whose groups have been decided before.
-/

namespace BorrowFlow

/-! ## Groups that wait -/

/-- A group has a wired member, and has not been decided. -/
def BorrowGroups.Shuts (g : Graph) (groups start : BorrowGroups) (id : GroupId) : Prop :=
  (∃ data, start.groups[id]? = some data ∧ data.wiredIn g ≠ []) ∧ groups.decisionOf? id = none

namespace Context

/-- What is kept along the second pass: the lifetimes of groups that wait are withheld, and those of
groups that were decided are what was decided on. -/
structure Unveils (g : Graph) (ctx start : Context) (pending : PortId → Prop)
    (known : TermId → Prop) : Prop where
  typed : ctx.Typed False
  follows : ctx.groups.Follows start.groups
  withholds : ctx.Withholds g start (ctx.groups.Shuts g start.groups)
    (start.Recorded (ctx.groups.Shuts g start.groups)) pending known
  resolved : ∀ (id : GroupId) (data : BorrowGroup) (decision : Decision),
    start.groups.groups[id]? = some data → ctx.groups.decisionOf? id = some decision →
      ctx.terms.probe data.lifetimeTerm = .lifetime (some decision.lifetime)

/-- A type is supplied along the wire of a source. The groups at the node of the source do not wait
any more. -/
structure Supplies (g : Graph) (ctx start : Context) (source : PortId) (flow : FlowId)
    (supplied : TermId) : Prop where
  sort : ctx.terms.HasSort supplied .type
  facade : ∃ given, start.facades.get? source = some given ∧ given.wireSide = flow
  carried : ∃ term, (ctx.flows.get flow).term = some term
  elsewhere : ∀ (id : GroupId) (data : BorrowGroup), start.groups.groups[id]? = some data →
    ctx.groups.Shuts g start.groups id → ¬g.IsAt data.node source

end Context

variable {g : Graph} {start ctx ctx' : Context} {pending pending' : PortId → Prop}
  {known known' : TermId → Prop} {source sink : PortId} {flow : FlowId}
  {supplied : TermId}

namespace Context

theorem Recorded.exists_isAt (hdrafted : start.Drafted g)
    (harranged : g.Arranged start.facades start.groups) {which : GroupId → Prop} {port : PortId}
    (h : start.Recorded which port) : ∃ (id : GroupId) (data : BorrowGroup), which id ∧
      start.groups.groups[id]? = some data ∧ g.IsAt data.node port := by
  obtain ⟨id, data, hid, hd, member, hmember, houtput⟩ := h
  have hplaced := harranged.placed id data hd
  obtain ⟨_, _, hcloses⟩ := hplaced.closes member hmember port houtput
  obtain ⟨found, hf, hnode⟩ := Option.map_eq_some_iff.mp (hplaced.node member hmember)
  exact ⟨id, data, hid, hd, (hdrafted.of_output hcloses).2.2 data.node ⟨found, hf, hnode⟩⟩

namespace Unveils

variable (h : ctx.Unveils g start pending known)
include h

theorem mono (hknown : ∀ term, known' term → known term) : ctx.Unveils g start pending known' :=
  ⟨h.typed, h.follows, h.withholds.mono (fun _ => id) (fun _ => id) hknown, h.resolved⟩

theorem of_extends (hext : ctx.terms.Extends ctx'.terms) (htyped : ctx'.Typed False)
    (hgroups : ctx'.groups = ctx.groups)
    (hwithholds : ctx'.Withholds g start (ctx.groups.Shuts g start.groups)
      (start.Recorded (ctx.groups.Shuts g start.groups)) pending' known') :
    ctx'.Unveils g start pending' known' where
  typed := htyped
  follows := hgroups ▸ h.follows
  withholds := hgroups ▸ hwithholds
  resolved id data decision hd hdecision :=
    hext.lifetime (h.resolved id data decision hd (hgroups ▸ hdecision))

theorem of_groups (htyped : ctx'.Typed False) (hfollows : ctx'.groups.Follows start.groups)
    (hdecisions : ∀ id, ctx'.groups.decisionOf? id = ctx.groups.decisionOf? id)
    (hfacades : ctx'.facades = ctx.facades) (hterms : ctx'.terms = ctx.terms)
    (hflows : ctx'.flows = ctx.flows) : ctx'.Unveils g start pending known := by
  have hshuts : ∀ id, ctx'.groups.Shuts g start.groups id →
      ctx.groups.Shuts g start.groups id := fun id hshut =>
    ⟨hshut.1, (hdecisions id).symm.trans hshut.2⟩
  refine ⟨htyped, hfollows, (h.withholds.of_eq hfacades hterms hflows).mono hshuts
    (fun _ hport => hport.mono hshuts) fun _ => id, fun id data decision hd hdecision => ?_⟩
  rw [hterms]
  exact h.resolved id data decision hd ((hdecisions id).symm.trans hdecision)

end Unveils

theorem Supplies.of_grows (h : ctx.Supplies g start source flow supplied)
    (hg : ctx.Grows False ctx')
    (hshuts : ∀ id, ctx'.groups.Shuts g start.groups id → ctx.groups.Shuts g start.groups id) :
    ctx'.Supplies g start source flow supplied where
  sort := hg.terms.hasSort h.sort
  facade := h.facade
  carried := by
    obtain ⟨term, ht⟩ := h.carried
    obtain ⟨term', ht', -⟩ := hg.flows flow term ht
    exact ⟨term', ht'⟩
  elsewhere id data hd hshut := h.elsewhere id data hd (hshuts id hshut)

theorem Supplies.not_recorded (h : ctx.Supplies g start source flow supplied)
    (hdrafted : start.Drafted g) (harranged : g.Arranged start.facades start.groups) :
    ¬start.Recorded (ctx.groups.Shuts g start.groups) source := by
  intro hrecorded
  obtain ⟨id, data, hshut, hd, hat⟩ := hrecorded.exists_isAt hdrafted harranged
  exact h.elsewhere id data hd hshut hat

end Context

namespace Pass

variable (hdrafted : start.Drafted g) (harranged : g.Arranged start.facades start.groups)
include hdrafted harranged

/-! ## Sinks -/

theorem ends_joinSink_unveils {taken : Facade} {first : TermId}
    (htaken : start.facades.get? sink = some taken) (hinput : g.IsInput sink)
    (hsink : pending sink) (hpending : ∀ other, pending' other → pending other ∧ other ≠ sink)
    (mutable shared : Bool) (hfirst : (ctx.flows.get taken.wireSide).term = some first)
    (h : ctx.Unveils g start pending known)
    (hsupplies : ctx.Supplies g start source flow supplied) :
    Yields (joinSink flow taken.wireSide shared mutable) ctx fun _ ctx' => ctx'.terms = ctx.terms ∧
        ctx'.Unveils g start pending' known ∧ ctx'.Supplies g start source flow supplied := by
  have hstands : ctx.Stands False fun _ _ => True := ⟨h.typed, trivial⟩
  obtain ⟨given, hgiven, rfl⟩ := hsupplies.facade
  obtain ⟨second, hsecond⟩ := hsupplies.carried
  have hw := h.withholds
  unfold joinSink
  split
  · have hmerge := FlowStore.term_merge hfirst hsecond
    refine ends_modify ⟨rfl, h.of_extends (.refl _) (hstands.of_flows ?_).typed rfl
      ⟨hw.facades_eq, ?_, ?_, ?_⟩, hsupplies.sort, ⟨given, hgiven, rfl⟩, ?_, hsupplies.elsewhere⟩
    · intro other term ht
      rcases hmerge other with hsame | ⟨-, hnew⟩
      · exact h.typed.flows other term (hsame ▸ ht)
      · cases hnew.symm.trans ht
        exact h.typed.flows _ _ hsecond
    · exact hw.secret.join hdrafted hgiven htaken hinput hsupplies.elsewhere
        (hsupplies.not_recorded hdrafted harranged) hfirst hsecond
    · exact hw.steady.join hsink hinput htaken hpending hfirst hsecond
    · exact fun term ht => hw.secret.public_join hdrafted htaken hinput hfirst hsecond
        (hw.harmless term ht)
    · rcases hmerge given.wireSide with hsame | ⟨-, hnew⟩
      · exact ⟨second, hsame.trans hsecond⟩
      · exact ⟨second, hnew⟩
  · have ht : ∀ other, ((ctx.flows.setMutable taken.wireSide mutable).get other).term =
        (ctx.flows.get other).term := FlowStore.term_setMutable mutable
    have hsteady := (hw.steady.mono fun other ho => (hpending other ho).1).of_flows ht
      fun _ _ => rfl
    have hw' : ({ ctx with flows := ctx.flows.setMutable taken.wireSide mutable } :
        Context).Withholds g start _ _ pending known := hw.of_flows rfl rfl ht fun _ _ => rfl
    refine ends_modify ⟨rfl, h.of_extends (.refl _) (hstands.of_flows ?_).typed rfl
      ⟨hw'.facades_eq, hw'.secret, hsteady, hw'.harmless⟩, hsupplies.sort, ⟨given, hgiven, rfl⟩, ?_,
        hsupplies.elsewhere⟩
    · exact fun other term hf => h.typed.flows other term ((ht other).symm.trans hf)
    · exact ⟨second, (ht _).trans hsecond⟩

theorem ends_meetSink_unveils (hinput : g.IsInput sink) (hsink : pending sink)
    (hpending : ∀ other, pending' other → pending other ∧ other ≠ sink) (mutable shared : Bool)
    (h : ctx.Unveils g start pending (· = supplied))
    (hsupplies : ctx.Supplies g start source flow supplied) :
    Yields (meetSink flow mutable shared supplied sink) ctx fun expected ctx' =>
        ctx'.Unveils g start pending' (fun term => term = expected ∨ term = supplied) ∧
          ctx'.Supplies g start source flow supplied ∧ ctx'.terms.HasSort expected .type := by
  have hstands : ctx.Stands False fun _ _ => True := ⟨h.typed, trivial⟩
  refine yields_ask fun flow hflow => ?_
  obtain ⟨taken, htaken, rfl⟩ := Facades.wireSide_eq_ok.mp hflow
  rw [h.withholds.facades_eq] at htaken
  refine yields_ask fun expected hexpected => ?_
  rw [FlowStore.term_eq_ok] at hexpected
  have hsort := h.typed.flows _ _ hexpected
  have hpublic := h.withholds.public_input hdrafted htaken hinput hexpected
  have hlearned := h.withholds.learn (· = expected) fun _ heq => heq ▸ hpublic
  have hunify : Yields (unifyAt sink expected supplied) ctx
      fun _ ctx' => ctx'.groups = ctx.groups ∧ ctx'.flows = ctx.flows ∧
        ctx'.Withholds g start (ctx.groups.Shuts g start.groups)
          (start.Recorded (ctx.groups.Shuts g start.groups)) pending
            fun term => term = expected ∨ term = supplied :=
    ends_unifyAt ⟨rfl, rfl, hlearned.of_discreet rfl rfl (h.withholds.secret.discreet_unify
      h.typed.sound hsort hsupplies.sort hpublic (h.withholds.harmless _ rfl))⟩
  apply ((Progress.unifyAt hstands hsort hsupplies.sort).also hunify).bind_ends
  rintro _ ctx1 hg1 hstands1 ⟨-, hgroups1, hflows1, h1⟩
  rw [← hflows1] at hexpected
  apply (ends_joinSink_unveils hdrafted harranged htaken hinput hsink hpending mutable shared
    hexpected (h.of_extends hg1.terms hstands1.typed hgroups1 h1)
    (hsupplies.of_grows hg1 fun _ => hgroups1 ▸ id)).seq
  rintro _ ctx2 ⟨hterms2, h2, hsupplies2⟩
  exact Ends.pure ⟨h2, hsupplies2, hterms2 ▸ hg1.terms.hasSort hsort⟩

/-! ## Groups -/

theorem progress_decideGroup_unveils {group : GroupId} {data : BorrowGroup}
    (hd : ctx.groups.groups[group]? = some data)
    (hshut : ctx.groups.Shuts g start.groups group)
    (h : ctx.Unveils g start pending known) :
    Progress False (fun _ _ => True) (decideGroup g group) ctx
      fun _ ctx' => ctx'.Unveils g start pending known ∧ ∀ id, ctx'.groups.Shuts g start.groups id →
          ctx.groups.Shuts g start.groups id := by
  have hstands : ctx.Stands False fun _ _ => True := ⟨h.typed, trivial⟩
  obtain ⟨found, hf, hstatic⟩ := h.follows.exists_static hd
  have hwithholds := ends_decideGroup_withholds hdrafted harranged hstands h.follows hf hshut
    (fun other (ho : ctx.groups.Shuts g start.groups other ∧ other ≠ group) => ho)
    h.withholds
  apply (((progress_decideGroup hstands hd).also (ends_decideGroup g group ctx)).also
    hwithholds).imp
  rintro _ ctx' hg hstands' ⟨⟨-, decision, hbooks⟩, ⟨decided, hdecided, hp⟩, h'⟩
  have hgroups : ctx'.groups =
      ctx.groups.modify group fun group => { group with decision := some decision } :=
    congrArg Books.groups hbooks
  have hothers : ∀ id, id ≠ group → ctx'.groups.decisionOf? id = ctx.groups.decisionOf? id := by
    intro id hne
    rw [hgroups, BorrowGroups.decisionOf?_modify, if_neg (Ne.symm hne)]
  have hshuts : ∀ id, ctx'.groups.Shuts g start.groups id →
      ctx.groups.Shuts g start.groups id ∧ id ≠ group := by
    rintro id ⟨hwired, hnone⟩
    have hne : id ≠ group := by
      rintro rfl
      cases hdecided.symm.trans hnone
    exact ⟨⟨hwired, hothers id hne ▸ hnone⟩, hne⟩
  refine ⟨trivial, ⟨hstands'.typed, ?_, ?_, ?_⟩, fun id hid => (hshuts id hid).1⟩
  · rw [hgroups]
    exact h.follows.modify group
  · exact h'.mono hshuts (fun _ hport => hport.mono hshuts) fun _ => id
  · intro id other made ho hmade
    by_cases hid : id = group
    · subst hid
      cases hf.symm.trans ho
      cases hdecided.symm.trans hmade
      exact hp
    · exact hg.terms.lifetime (h.resolved id other made ho (hothers id hid ▸ hmade))

theorem progress_notifyGroup_unveils (hc : g.Consistent) (hsink : sink ∈ g.sinksAt source)
    (h : ctx.Unveils g start pending known) :
    Progress False (fun _ _ => True) (notifyGroup g sink) ctx
      fun _ ctx' => ctx'.Unveils g start pending known ∧ ∀ id, ctx'.groups.Shuts g start.groups id →
          ctx.groups.Shuts g start.groups id := by
  have hstands : ctx.Stands False fun _ _ => True := ⟨h.typed, trivial⟩
  apply (Progress.ask hstands).bind
  rintro facade _ - - ⟨hfacade, rfl⟩
  rw [Facades.get_eq_ok, h.withholds.facades_eq] at hfacade
  cases hgroup : facade.group? with
  | none => exact .pure hstands ⟨h, fun _ => id⟩
  | some group =>
    obtain ⟨nodeSide, wireSide, rfl⟩ := Facade.exists_of_group? hgroup
    obtain ⟨data, hd, member, hmember, rfl⟩ := harranged.joined hfacade
    have hwired := ((harranged.placed group data hd).mem_wiredIn_iff hc hmember).mpr ⟨source, hsink⟩
    apply (Progress.ask hstands).bind
    rintro ⟨ready, arrived⟩ _ - - ⟨harrive, rfl⟩
    obtain ⟨found, hf, rfl, rfl⟩ := BorrowGroups.of_arrive_eq_ok harrive
    apply (progress_receive hstands group (found.received + 1)).bind
    rintro _ ctx1 - hstands1 ⟨hterms1, hflows1⟩
    obtain ⟨hfacades1, hgroups1⟩ := hstands1.kept
    have hdecisions : ∀ id, ctx1.groups.decisionOf? id = ctx.groups.decisionOf? id := by
      intro id
      rw [hgroups1, BorrowGroups.decisionOf?_modify]
      split
      · rename_i heq
        rw [heq] at hf
        rw [heq, hf, BorrowGroups.decisionOf?_of_get hf]
        rfl
      · rfl
    have h1 : ctx1.Unveils g start pending known := by
      refine h.of_groups hstands1.typed ?_ hdecisions hfacades1 hterms1 hflows1
      rw [hgroups1]
      exact h.follows.modify group
    have hshuts : ∀ id, ctx1.groups.Shuts g start.groups id →
        ctx.groups.Shuts g start.groups id := fun id hshut =>
      ⟨hshut.1, (hdecisions id).symm.trans hshut.2⟩
    split
    · rename_i hready
      have hf1 : ctx1.groups.groups[group]? =
          some { found with received := found.received + 1 } := by
        rw [hgroups1, BorrowGroups.getElem?_modify_self hf]
      apply (progress_decideGroup_unveils hdrafted harranged hf1 ⟨⟨data, hd, List.ne_nil_of_mem
        hwired⟩, ?_⟩ h1).mono
      · rintro _ ctx2 - - ⟨h2, hshuts2⟩
        exact ⟨h2, fun id hshut => hshuts id (hshuts2 id hshut)⟩
      · rw [BorrowGroups.decisionOf?_of_get hf1]
        exact Option.isNone_iff_eq_none.mp (Bool.and_eq_true_iff.mp hready).1
    · exact .pure ⟨hstands1.typed, trivial⟩ ⟨h1, hshuts⟩

/-! ## Wires -/

omit hdrafted harranged in
theorem progress_requireCopy_unveils {term : TermId} (hsort : ctx.terms.HasSort term .type)
    (h : ctx.Unveils g start pending known) (ht : known term) :
    Progress False (fun _ groups => groups = ctx.groups) (requireCopy source term) ctx
      fun _ ctx' => ctx'.Unveils g start pending known := by
  have hstands : ctx.Stands False fun _ groups => groups = ctx.groups := ⟨h.typed, rfl⟩
  have hcreates : Yields (newTerm (·.newUnbound [.copy])) ctx
      fun _ ctx' => ctx'.facades = ctx.facades ∧ ctx'.flows = ctx.flows := ⟨rfl, rfl⟩
  apply ((Progress.newTerm hstands (h.typed.sound.creates_newUnbound False [.copy])).also
    hcreates).bind
  rintro copyable ctx1 hg1 hstands1 ⟨⟨hcopyable, hcreated⟩, hfacades1, hflows1⟩
  have hdiscreet := h.withholds.secret.discreet_newUnbound [.copy]
  have hnew := h.withholds.secret.public_of_le (Nat.le_refl ctx.terms.size)
  rw [hcreated] at hdiscreet
  obtain rfl : ctx.terms.size = copyable := (Prod.mk.inj hcreated).1
  have h1 := (h.withholds.learn (· = ctx.terms.size) fun _ heq => heq ▸ hnew).of_discreet
    hfacades1 hflows1 hdiscreet
  have hsort1 := hg1.terms.hasSort hsort
  have hunify : Yields (unifyAt source ctx.terms.size term) ctx1
      fun _ ctx' => ctx'.Withholds g start (ctx.groups.Shuts g start.groups)
        (start.Recorded (ctx.groups.Shuts g start.groups)) pending known := by
    refine ends_unifyAt ((h1.mono (fun _ => id) (fun _ => id) fun _ => .inr).of_discreet rfl rfl ?_)
    exact h1.secret.discreet_unify hstands1.typed.sound hcopyable hsort1
      (h1.harmless _ (.inl rfl)) (h1.harmless _ (.inr ht))
  apply ((Progress.unifyAt hstands1 hcopyable hsort1).also hunify).mono
  rintro _ ctx2 hg2 hstands2 ⟨-, h2⟩
  exact h.of_extends (hg1.trans hg2).terms hstands2.typed hstands2.kept h2

theorem ends_openWire_unveils (sinks : List PortId)
    (htimely : (Moment.opens source ctx).Timely g start.groups)
    (h : ctx.Unveils g start pending fun _ => False) :
    Yields (openWire source sinks) ctx
      fun found ctx' => ctx'.Unveils g start pending (· = found.2.1) ∧
        ctx'.Supplies g start source found.1 found.2.1 := by
  have helsewhere : ∀ (id : GroupId) (data : BorrowGroup), start.groups.groups[id]? = some data →
      ctx.groups.Shuts g start.groups id → ¬g.IsAt data.node source := by
    rintro id data hd ⟨⟨found, hf, hwired⟩, hnone⟩ ⟨port, hport, hnode⟩
    cases hd.symm.trans hf
    have hsome := htimely id data hd (by rw [hport, Option.map_some, hnode]) hwired
    rw [hnone] at hsome
    cases hsome
  refine yields_ask fun flow hflow => ?_
  obtain ⟨given, hgiven, rfl⟩ := Facades.wireSide_eq_ok.mp hflow
  rw [h.withholds.facades_eq] at hgiven
  refine yields_ask fun term ht => ?_
  rw [FlowStore.term_eq_ok] at ht
  have hsupplies : ctx.Supplies g start source given.wireSide term :=
    ⟨h.typed.flows _ _ ht, ⟨given, hgiven, rfl⟩, ⟨term, ht⟩, helsewhere⟩
  have hpublic : Public start (ctx.groups.Shuts g start.groups)
      (start.Recorded (ctx.groups.Shuts g start.groups)) ctx.terms ctx.flows term := by
    refine h.withholds.secret.public_of_exposes
      (fun id data hd hshut => .elsewhere hgiven (helsewhere id data hd hshut) (.inr rfl)) ?_ ht
    rintro port _ _ _ houtput hrecorded heq
    obtain rfl := hdrafted.port_of_shows houtput hgiven (.inr heq.symm)
    exact hsupplies.not_recorded hdrafted harranged hrecorded
  have hopens : ctx.Unveils g start pending (· = term) :=
    h.of_extends (.refl _) h.typed rfl
      ((h.withholds.learn (· = term) fun _ heq => heq ▸ hpublic).mono
        (fun _ => id) (fun _ => id) fun _ => .inl)
  apply Ends.bind
  apply Ends.get
  dsimp only
  split
  · apply (progress_requireCopy_unveils hsupplies.sort hopens rfl).bind_ends
    intro _ ctx' hg hstands' h'
    exact Ends.pure ⟨h', hsupplies.of_grows hg fun _ => hstands'.kept ▸ id⟩
  · exact Ends.pure ⟨hopens, hsupplies⟩

/-- Before the first wire, the outputs of groups that nothing arrives at are settled. -/
theorem ends_settleUnwired_unveils {groups : BorrowGroups} (htyped : start.Typed False)
    (hnumbered : start.groups.Numbered g [] groups) :
    Yields ((unwiredGroups groups).forM fun group => settleOutputs g group false)
      { start with groups }
      fun _ ctx' => ctx'.Unveils g start pending fun _ => False := by
  have hunwired : ∀ id ∈ unwiredGroups groups, (id : GroupId) < groups.groups.size ∧
      ¬groups.Shuts g start.groups id := by
    intro id hid
    obtain ⟨hrange, hzero⟩ := List.mem_filter.mp hid
    refine ⟨List.mem_range.mp hrange, ?_⟩
    rintro ⟨⟨data, hd, hwired⟩, -⟩
    obtain ⟨found, hf, hstatic⟩ := hnumbered.follows.symm.exists_static hd
    have hnumber := (hnumbered.numbered id found hf List.not_mem_nil).1
    rw [hf, Option.map_some, Option.getD_some, decide_eq_true_iff, hnumber,
      List.length_eq_zero_iff] at hzero
    exact hwired (BorrowGroup.wiredIn_of_static_eq hstatic g ▸ hzero)
  have hnodup : (unwiredGroups groups).Nodup := List.nodup_range.filter _
  apply Ends.forM fun rest ctx' => rest.Nodup ∧ rest ⊆ unwiredGroups groups ∧
    ctx'.Stands False (fun _ groups' => groups' = groups) ∧
      ctx'.Withholds g start (groups.Shuts g start.groups)
        (start.Recorded fun id => groups.Shuts g start.groups id ∨ id ∈ rest) pending fun _ => False
  · exact ⟨hnodup, List.Subset.refl _, ⟨htyped.of_follows hnumbered.follows, rfl⟩, rfl,
      hdrafted.secret, .of_drafted hdrafted, fun _ => False.elim⟩
  · rintro group rest ctx' ⟨hnodup', hsubset, hstands', h'⟩
    obtain ⟨hgroup, hrest⟩ := List.cons_subset.mp hsubset
    obtain ⟨hfresh, hnodup''⟩ := List.nodup_cons.mp hnodup'
    obtain ⟨hlt, hopen⟩ := hunwired group hgroup
    have hd : ctx'.groups.groups[group]? = _ :=
      Array.getElem?_eq_getElem (by rw [hstands'.kept]; exact hlt)
    have hfollows' : ctx'.groups.Follows start.groups := hstands'.kept ▸ hnumbered.follows
    apply Ends.imp ((progress_settleOutputs hstands' hd).also
      (ends_settleOutputs_withholds hdrafted harranged hstands' hfollows'
        (.inr List.mem_cons_self) ?_ false h')) ?_
    · exact fun id => groups.Shuts g start.groups id ∨ id ∈ rest
    · rintro other (ho | ho)
      · exact ⟨.inl ho, fun heq => hopen (heq ▸ ho)⟩
      · exact ⟨.inr (List.mem_cons_of_mem _ ho), fun heq => hfresh (heq ▸ ho)⟩
    · rintro _ ctx'' ⟨-, hstands'', -, h''⟩
      exact ⟨hnodup'', hrest, hstands'', h''⟩
  · rintro ctx' ⟨-, -, hstands', h'⟩
    have hgroups := hstands'.kept
    refine ⟨hstands'.typed, hgroups ▸ hnumbered.follows, ?_, ?_⟩
    · rw [hgroups]
      exact h'.mono (fun _ => id) (fun _ hport => hport.mono fun _ => .inl) fun _ => id
    · intro id data decision hd hdecision
      obtain ⟨found, hf, -⟩ := hnumbered.follows.symm.exists_static hd
      rw [hgroups, BorrowGroups.decisionOf?_of_get hf, hnumbered.undecided id found hf] at hdecision
      cases hdecision

end Pass

namespace Watched

/-- Secrets are kept beside the books. -/
def Companion.unveiling (hc : g.Consistent) (hdrafted : start.Drafted g)
    (harranged : g.Arranged start.facades start.groups) :
    Companion g start.facades start.groups where
  rests joined watch := watch.context.Unveils g start (· ∉ joined) fun _ => False
  along source flow supplied joined watch :=
    watch.context.Unveils g start (· ∉ joined) (· = supplied) ∧
      watch.context.Supplies g start source flow supplied
  opens _ htimely hrests := Pass.ends_openWire_unveils hdrafted harranged _ htimely hrests
  joins {_ _ joined _ _ sink _ _} mutable shared _ _ hsink hnodup halong := by
    obtain ⟨h, hsupplies⟩ := halong
    obtain ⟨_, port, -, hport, -, hinput, -⟩ := hc.ends hsink
    have hfresh : sink ∉ joined := fun hmem =>
      List.disjoint_of_nodup_append hnodup hmem List.mem_cons_self
    have hpending : ∀ other, other ∉ joined ++ [sink] → other ∉ joined ∧ other ≠ sink := by simp
    apply Ends.bind
    apply ends_during
    apply (Pass.ends_meetSink_unveils hdrafted harranged ⟨port, hport, hinput⟩ hfresh hpending
      mutable shared h hsupplies).imp ?_
    rintro expected ctx₁ ⟨h₁, hsupplies₁, hsort₁⟩
    apply Ends.bind
    apply ends_note
    apply Ends.bind
    apply ends_during
    apply Ends.imp (Pass.progress_notifyGroup_unveils hdrafted harranged hc hsink h₁) ?_
    rintro _ ctx₂ ⟨hgrows₂, -, h₂, hshuts₂⟩
    have hsupplies₂ := hsupplies₁.of_grows hgrows₂ hshuts₂
    exact Ends.pure ⟨⟨h₂.mono fun _ => .inr, hsupplies₂⟩, h₂.mono fun _ => .inl,
      hgrows₂.terms.hasSort hsort₁, hsupplies₂.facade, hsupplies₂.carried, hsupplies₂.elsewhere⟩
  closes _ halong :=
    halong.1.of_extends (.refl _) ⟨halong.1.typed.sound, halong.1.typed.rigid,
      halong.1.typed.flows, halong.1.typed.groups⟩ rfl
      ((halong.1.withholds.mono (fun _ => id) (fun _ => id) fun _ => False.elim).of_eq rfl rfl rfl)

end Watched

/-! ## The pass -/

/-- Groups that were decided know the lifetimes that they decided on, and what nodes see of members
and of outputs with a signature is what they saw when the second pass started. -/
structure Context.Unveiled (g : Graph) (ctx start : Context) : Prop where
  resolved : ∀ (id : GroupId) (data : BorrowGroup) (decision : Decision),
    start.groups.groups[id]? = some data → ctx.groups.decisionOf? id = some decision →
      ctx.terms.probe data.lifetimeTerm = .lifetime (some decision.lifetime)
  kept : ∀ port facade, start.facades.get? port = some facade → g.Fixes port facade →
    (ctx.flows.get facade.nodeSide).term = (start.flows.get facade.nodeSide).term

theorem Pass.ends_unifyWires_unveiled (hw : g.WellFormed) (hc : g.Consistent)
    (hl : g.Layered) (hdrafted : start.Drafted g)
    (hstands : start.Stands False g.Arranged) (hord : g.visitOrder = .ok start.order)
    (htally : start.tally = (0, 0)) :
    Yields (unifyWires g) start fun _ ctx => ctx.Unveiled g start := by
  apply (Watched.erases_unifyWires g).ends
  apply (Watched.ends_unifyWires_with (.unveiling hc hdrafted hstands.kept) hw hc hl
    hstands.kept hord htally
    fun _ => ends_settleUnwired_unveils hdrafted hstands.kept hstands.typed).imp ?_
  rintro _ watch ⟨-, found, hf, rfl⟩
  refine ⟨hf.resolved, fun port facade hfacade hfixes => ?_⟩
  rw [FlowStore.get_resolveAll, FlowStore.term_rendered]
  exact hf.withholds.steady.kept port facade hfacade hfixes

end BorrowFlow
