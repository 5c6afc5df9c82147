import BorrowFlow.Inference.Wires
import BorrowFlow.Proofs.Choice
import BorrowFlow.Proofs.Inference.Facing

/-!
# What deciding a group does

A group that reuses a lifetime makes its members take what they are supplied with: each derived
reference has the underlying type of the reference that was supplied, and the mutability that it had
then. A group that borrows makes them take references of the mutability that it decided for, to what
they are supplied with or to what that refers to. An output that is paired with a member carries on
what the member was lent, if the group borrows, and else the reference itself. None of the steps on
the way touches facades or groups.
-/

namespace BorrowFlow

variable {ctx ctx' : Context} {decision : Decision} {g : Graph} {member : GroupMember}
  {lifetime : Lifetime} {borrowed mutable : Bool} {fixed : Prop} {id : GroupId}

theorem Decision.exists_of_any_isBorrow {decision : Option Decision}
    (h : decision.any isBorrow = true) :
    ∃ mutable lifetime, decision = some (.borrow mutable lifetime) := by
  rcases decision with _ | ⟨lifetime⟩ | ⟨mutable, lifetime⟩
  · cases h
  · cases h
  · exact ⟨mutable, lifetime, rfl⟩

namespace Context

variable {port source sink : PortId}

/-- Two flows have one type, as far as nothing has been reported. -/
def Agreeing (fixed : Prop) (ctx : Context) (left right : FlowId) : Prop :=
  ∃ term, ctx.Carries fixed left term ∧ ctx.Carries fixed right term

theorem Agreeing.of_grows {left right : FlowId} (h : ctx.Agreeing fixed left right)
    (hg : ctx.Grows fixed ctx') : ctx'.Agreeing fixed left right := by
  obtain ⟨term, hl, hr⟩ := h
  exact ⟨term, hl.of_grows hg, hr.of_grows hg⟩

def TakesSupply (fixed : Prop) (ctx : Context) (port : PortId) : Prop :=
  ∃ facade, ctx.facades.get? port = some facade ∧ ctx.Agreeing fixed facade.wireSide facade.nodeSide

theorem TakesSupply.of_grows (h : ctx.TakesSupply fixed port)
    (hg : ctx.Grows fixed ctx') : ctx'.TakesSupply fixed port := by
  obtain ⟨facade, hfacade, hagree⟩ := h
  exact ⟨facade, hg.facades port facade hfacade, hagree.of_grows hg⟩

/-- The node takes a reference to what the port is supplied with, or to what that refers to. -/
def TakesLoan (fixed : Prop) (ctx : Context) (mutable : Bool) (port : PortId) : Prop :=
  ∃ facade term reference underlying lifetime, ctx.facades.get? port = some facade ∧
    ctx.Carries fixed facade.wireSide term ∧ ctx.Carries fixed facade.nodeSide reference ∧
      ctx.terms.probe reference = .reference (.fixed mutable) underlying lifetime ∧
        (underlying = term ∨ ∃ mutability outer,
          ctx.terms.probe term = .reference mutability underlying outer)

/-- The node takes what its group decided for. -/
def Takes (fixed : Prop) (ctx : Context) (decision : Decision) (port : PortId) : Prop :=
  match decision with
  | .reuse _ => ctx.TakesSupply fixed port
  | .borrow mutable _ => ctx.TakesLoan fixed mutable port

theorem Takes.of_grows (h : ctx.Takes fixed decision port)
    (hg : ctx.Grows fixed ctx') : ctx'.Takes fixed decision port := by
  cases decision with
  | reuse lifetime => exact TakesSupply.of_grows h hg
  | borrow mutable lifetime =>
    obtain ⟨facade, term, reference, underlying, lifetime, hfacade, htaken, hgiven, hreference,
      hcase⟩ := h
    exact ⟨facade, term, reference, underlying, lifetime, hg.facades port facade hfacade,
      htaken.of_grows hg, hgiven.of_grows hg, hg.terms.reference hreference,
      hcase.imp_right fun ⟨mutability, outer, hp⟩ => ⟨mutability, outer, hg.terms.reference hp⟩⟩

def EndsAgree (fixed : Prop) (ctx : Context) (source sink : PortId) : Prop :=
  ∃ facade facade', ctx.facades.get? source = some facade ∧ ctx.facades.get? sink = some facade' ∧
      ctx.Agreeing fixed facade.wireSide facade'.wireSide

theorem EndsAgree.of_grows (h : ctx.EndsAgree fixed source sink)
    (hg : ctx.Grows fixed ctx') : ctx'.EndsAgree fixed source sink := by
  obtain ⟨facade, facade', hfacade, hfacade', hagree⟩ := h
  exact ⟨facade, facade', hg.facades source facade hfacade,
    hg.facades sink facade' hfacade', hagree.of_grows hg⟩

/-- What the wires see of an output that is paired with a member: the value that the member was
lent, or else the reference that the node hands back. -/
structure HandsBack (g : Graph) (ctx : Context) (borrowed : Bool) (member : GroupMember)
    (output : PortId) : Prop where
  lent : borrowed = true → g.isWired member.port = true → ∃ facade taken,
    ctx.facades.get? output = some facade ∧ ctx.facades.get? member.port = some taken ∧
      ctx.flows.same facade.wireSide taken.wireSide = true
  kept : ¬(borrowed = true ∧ g.isWired member.port = true) → ∃ facade,
    ctx.facades.get? output = some facade ∧ ctx.flows.same facade.wireSide facade.nodeSide = true

theorem HandsBack.of_grows {output : PortId}
    (h : ctx.HandsBack g borrowed member output) (hg : ctx.Grows fixed ctx') :
    ctx'.HandsBack g borrowed member output where
  lent hborrowed hwired := by
    obtain ⟨facade, taken, hfacade, htaken, hsame⟩ := h.lent hborrowed hwired
    exact ⟨facade, taken, hg.facades _ _ hfacade, hg.facades _ _ htaken, hg.joined _ _ hsame⟩
  kept hkept := by
    obtain ⟨facade, hfacade, hsame⟩ := h.kept hkept
    exact ⟨facade, hg.facades _ _ hfacade, hg.joined _ _ hsame⟩

end Context

/-! ## Supplies -/

theorem Policy.of_choose_reuse {policy : Policy} {supplied : List Supply}
    (h : policy.choose supplied = .reuse lifetime) :
    supplied ≠ [] ∧ ∃ mutable, ∀ supply ∈ supplied, supply = .reference mutable lifetime := by
  obtain ⟨mutable, hshared, -⟩ := choose_eq_reuse_iff.mp h
  exact ⟨hshared.nonempty, mutable, hshared.eq_reference⟩

/-- What was found out about a member is still so: its flow has a type that is like the term, and if
it was supplied with a reference, then the term is one. -/
structure SuppliedMember.Supplied (fixed : Prop) (member : SuppliedMember) (ctx : Context) :
    Prop where
  facade : ∃ facade, ctx.facades.get? member.port = some facade ∧ facade.wireSide = member.flow
  sort : ctx.terms.HasSort member.term .type
  flow : ctx.Carries fixed member.flow member.term
  reference : ∀ mutable lifetime, member.supply = .reference mutable lifetime →
    ∃ mutability underlying lifetime',
      ctx.terms.probe member.term = .reference mutability underlying lifetime' ∧
        (fixed → mutability = .fixed mutable)

theorem SuppliedMember.Supplied.of_grows {member : SuppliedMember}
    (h : member.Supplied fixed ctx) (hg : ctx.Grows fixed ctx') :
    member.Supplied fixed ctx' where
  facade := by
    obtain ⟨facade, hfacade, hflow⟩ := h.facade
    exact ⟨facade, hg.facades _ _ hfacade, hflow⟩
  sort := hg.terms.hasSort h.sort
  flow := h.flow.of_grows hg
  reference mutable lifetime hsupply := by
    obtain ⟨mutability, underlying, lifetime', hp, hfixed⟩ :=
      h.reference mutable lifetime hsupply
    exact ⟨mutability, underlying, lifetime', hg.terms.reference hp, hfixed⟩

/-- What a member was supplied with is read off its flow. -/
structure SuppliedMember.ReadsOff (supplied : SuppliedMember) (ctx : Context)
    (member : GroupMember) : Prop where
  port : supplied.port = member.port
  facade : ∃ facade, ctx.facades.get? member.port = some facade ∧ facade.wireSide = supplied.flow
  term : (ctx.flows.get supplied.flow).term = some supplied.term
  reference : ∀ mutable, ctx.terms.mutability? supplied.term = some mutable →
    supplied.supply = .reference mutable (ctx.terms.lifetimeOf supplied.term)
  owned : ctx.terms.mutability? supplied.term = none →
    supplied.supply = .owned (ctx.flows.get supplied.flow).mutable

theorem TermStore.exists_of_mutability? {s : TermStore} (hrigid : fixed → s.Rigid)
    {term : TermId} (h : s.mutability? term = some mutable) :
    ∃ mutability underlying lifetime, s.probe term = .reference mutability underlying lifetime ∧
        (fixed → mutability = .fixed mutable) := by
  obtain ⟨⟨mutability, underlying, lifetime⟩, hparts, rfl⟩ := Option.map_eq_some_iff.mp h
  unfold referenceParts? at hparts
  split at hparts
  · rename_i hp
    cases hparts
    refine ⟨mutability, underlying, lifetime, hp, fun hfixed => ?_⟩
    obtain ⟨mutable, rfl⟩ := hrigid hfixed _ _ _ _ hp
    rfl
  · cases hparts

theorem SuppliedMember.ReadsOff.supplied {supplied : SuppliedMember}
    (h : supplied.ReadsOff ctx member) (htyped : ctx.Typed fixed) :
    supplied.Supplied fixed ctx := by
  refine ⟨?_, htyped.flows _ _ h.term, ⟨supplied.term, h.term, fun _ => .refl _⟩, ?_⟩
  · rw [h.port]
    exact h.facade
  · intro mutable lifetime hsupply
    cases hmutability : ctx.terms.mutability? supplied.term with
    | none => cases (h.owned hmutability).symm.trans hsupply
    | some found =>
      cases (h.reference found hmutability).symm.trans hsupply
      exact TermStore.exists_of_mutability? htyped.rigid hmutability

namespace Pass

variable {kept : Facades → BorrowGroups → Prop}

theorem ends_supplyOf : Yields (supplyOf member) ctx
      fun supplied ctx' => ctx = ctx' ∧ supplied.ReadsOff ctx member := by
  refine yields_ask fun flow hflow => ?_
  obtain ⟨facade, hfacade, rfl⟩ := Facades.wireSide_eq_ok.mp hflow
  refine yields_ask fun term ht => ?_
  apply Ends.bind
  apply Ends.get
  refine Ends.pure ⟨rfl, rfl, ⟨facade, hfacade, rfl⟩, FlowStore.term_eq_ok.mp ht, ?_, ?_⟩
  · intro mutable hmutable
    simp only [hmutable]
  · intro hnone
    simp only [hnone]

theorem progress_supplyOf (h : ctx.Stands fixed kept) : Progress fixed kept (supplyOf member) ctx
      fun supplied ctx' => supplied.port = member.port ∧ supplied.Supplied fixed ctx' := by
  apply Ends.imp ends_supplyOf ?_
  rintro supplied _ ⟨rfl, hreads⟩
  exact ⟨.refl _, h, hreads.port, hreads.supplied h.typed⟩

theorem ends_supplies (members : List GroupMember) : Yields (members.mapM supplyOf) ctx
      fun supplied ctx' => ctx = ctx' ∧
        List.Forall₂ (fun member found => found.ReadsOff ctx member) members supplied := by
  induction members with
  | nil => exact Ends.pure ⟨rfl, .nil⟩
  | cons member rest ih =>
    rw [List.mapM_cons]
    apply Ends.seq ends_supplyOf
    rintro first _ ⟨rfl, hfirst⟩
    apply ih.seq
    rintro others _ ⟨rfl, hothers⟩
    exact Ends.pure ⟨rfl, .cons hfirst hothers⟩

/-! ## Deciding groups -/

section

variable (h : ctx.Stands fixed kept)
include h

theorem progress_resolveLifetime {term : TermId} :
    Progress fixed kept (resolveLifetime term lifetime) ctx fun _ _ => True := by
  have hquiet := TermStore.resolveLifetime_quietSteps ctx.terms term lifetime
  have hsteps := hquiet.steps
  exact ends_modify ⟨Context.grows_of_terms hsteps.extends id fun _ => hquiet.honours,
    h.of_terms (h.typed.sound.of_steps hsteps) hsteps.extends fun _ hrigid => hsteps.rigid hrigid,
    trivial⟩

theorem progress_beginBorrow {member : SuppliedMember} :
    Progress fixed kept (beginBorrow lifetime member) ctx fun _ _ => True := by
  unfold beginBorrow
  split
  · exact ends_modify ⟨Context.grows_of_rest _ _, h.of_rest _ _ _ _, trivial⟩
  · exact .modifyFlows h (fun _ _ => rfl) fun _ => FlowStore.term_interrupt ..

theorem progress_makeDecision {group : BorrowGroup} {supplied : List SuppliedMember} :
    Progress fixed kept (makeDecision group supplied) ctx
      fun decision _ => ∀ lifetime, decision = .reuse lifetime →
        ∀ member ∈ supplied, ∃ mutable outer, member.supply = .reference mutable outer := by
  unfold makeDecision
  split
  · rename_i lifetime hchoose
    apply (progress_resolveLifetime h).bind
    intro _ ctx' _ hstands _
    obtain ⟨-, mutable, hall⟩ := Policy.of_choose_reuse hchoose
    exact .pure hstands fun _ _ member hmember =>
      ⟨mutable, lifetime, hall member.supply (List.mem_map_of_mem hmember)⟩
  · apply (Progress.carveLifetime h).bind
    intro lifetime ctx1 _ hstands1 _
    apply (progress_resolveLifetime hstands1).bind
    intro _ ctx2 _ hstands2 _
    apply (Progress.forEach hstands2 fun _ _ _ _ hstands => progress_beginBorrow hstands).bind
    intro _ ctx3 _ hstands3 _
    exact .pure hstands3 nofun

theorem progress_unifyDerived {lifetimeTerm underlying : TermId} {member : SuppliedMember}
    (hmember : member.Supplied fixed ctx)
    (hlifetime : ctx.terms.HasSort lifetimeTerm .lifetime)
    (hunderlying : ctx.terms.HasSort underlying .type) :
    Progress fixed kept (do
        let derived ← newTerm (·.newReference (.fixed mutable) underlying lifetimeTerm)
        let nodeSide ← ask (·.facades.nodeSide member.port)
        let expected ← termOf nodeSide
        unifyAt member.port expected derived) ctx
      fun _ ctx' => ∃ facade reference, ctx'.facades.get? member.port = some facade ∧
        ctx'.Carries fixed facade.wireSide member.term ∧
          ctx'.Carries fixed facade.nodeSide reference ∧
            ctx'.terms.probe reference = .reference (.fixed mutable) underlying lifetimeTerm := by
  apply (Progress.newReference h hunderlying hlifetime).bind
  rintro derived ctx1 hg1 hstands1 ⟨hderived, hcreated⟩
  apply (Progress.ask hstands1).bind
  rintro nodeSide _ - - ⟨hnodeSide, rfl⟩
  apply (Progress.termOf hstands1).bind
  rintro expected _ - - ⟨hexpected, rfl⟩
  apply (Progress.unifyAt hstands1 (hstands1.typed.flows _ expected hexpected) hderived).mono
  rintro _ ctx2 hg2 _ ⟨hflows, halike⟩
  obtain ⟨facade, hfacade, rfl⟩ := Facades.nodeSide_eq_ok.mp hnodeSide
  have hmember1 := hmember.of_grows hg1
  obtain ⟨found, hf, hflow⟩ := hmember1.facade
  cases hfacade.symm.trans hf
  refine ⟨facade, derived, hg2.facades _ _ hfacade, ?_,
    ⟨expected, ?_, fun hclean => (halike hclean).symm⟩,
    hg2.terms.reference (TermStore.probe_of_push hcreated)⟩
  · rw [hflow]
    exact (hmember1.of_grows hg2).flow
  · rw [hflows, hexpected]

theorem progress_deriveReference {lifetimeTerm : TermId}
    {member : SuppliedMember} (hmember : member.Supplied fixed ctx)
    (hlifetime : ctx.terms.HasSort lifetimeTerm .lifetime) :
    Progress fixed kept (deriveReference lifetimeTerm decision member) ctx
      fun _ ctx' => (∀ lifetime, decision = .reuse lifetime →
        ∃ mutable outer, member.supply = .reference mutable outer) →
          ctx'.Takes fixed decision member.port := by
  apply (Progress.get h).bind
  rintro _ _ - - ⟨rfl, rfl⟩
  unfold TermStore.referenceParts?
  cases hp : ctx.terms.probe member.term with
  | reference mutability underlying lifetime =>
    have hunderlying := h.typed.sound.wellSorted.hasSort_part (TermStore.part?_reference hp)
    apply (progress_unifyDerived h hmember hlifetime hunderlying).mono
    rintro _ ctx' hg _ ⟨facade, reference, hfacade, htaken, hgiven, hreference⟩ hreuses
    have hp' := hg.terms.reference hp
    cases decision with
    | borrow mutable lifetime =>
      exact ⟨facade, member.term, reference, underlying, _, hfacade, htaken, hgiven, hreference,
        .inr ⟨_, _, hp'⟩⟩
    | reuse reused =>
      obtain ⟨mutable, outer, hsupply⟩ := hreuses reused rfl
      obtain ⟨mutability', underlying', lifetime', hp'', hmutable⟩ :=
        hmember.reference mutable outer hsupply
      cases hp.symm.trans hp''
      -- the derived reference has the underlying type of the supplied one
      refine ⟨facade, hfacade, member.term, htaken, hgiven.of_alike fun _ => ?_⟩
      exact .reference hp' hreference
        (by simpa [SuppliedMember.derivedMutable, hsupply] using hmutable) (.refl underlying)
  | _ =>
    apply (progress_unifyDerived h hmember hlifetime hmember.sort).mono
    rintro _ ctx' _ _ ⟨facade, reference, hfacade, htaken, hgiven, hreference⟩ hreuses
    cases decision with
    | borrow mutable lifetime =>
      exact ⟨facade, member.term, reference, _, _, hfacade, htaken, hgiven, hreference, .inl rfl⟩
    | reuse reused =>
      obtain ⟨mutable, outer, hsupply⟩ := hreuses reused rfl
      obtain ⟨mutability', underlying', lifetime', hp', -⟩ :=
        hmember.reference mutable outer hsupply
      cases hp.symm.trans hp'

theorem progress_settleOutput {output : PortId} :
    Progress fixed kept (settleOutput g borrowed member output) ctx
      fun _ ctx' => ctx'.HandsBack g borrowed member output := by
  apply (Progress.ask h).bind
  rintro facade _ - - ⟨hfacade, rfl⟩
  rw [Facades.get_eq_ok] at hfacade
  apply (Progress.lift h).bind
  rintro connected _ - - ⟨hconnected, rfl⟩
  obtain rfl := Graph.isWired_of_isConnected hconnected
  have hsettle : ∀ handedBack, Progress fixed kept (do
        let expected ← termOf facade.wireSide
        let supplied ← termOf handedBack
        unifyAt output expected supplied
        modifyFlows (·.merge facade.wireSide handedBack)) ctx
      fun _ ctx' => ctx'.flows.same facade.wireSide handedBack = true := by
    intro handedBack
    apply (Progress.termOf h).bind
    rintro expected _ - - ⟨hexpected, rfl⟩
    apply (Progress.termOf h).bind
    rintro supplied _ - - ⟨hsupplied, rfl⟩
    apply (Progress.unifyAt h (h.typed.flows _ expected hexpected)
      (h.typed.flows _ supplied hsupplied)).bind
    rintro _ ctx' _ hstands ⟨hflows, halike⟩
    rw [← hflows] at hexpected hsupplied
    exact .merge hstands hexpected hsupplied halike
  split
  · rename_i hlent
    apply (Progress.ask h).bind
    rintro handedBack _ - - ⟨hhandedBack, rfl⟩
    obtain ⟨taken, htaken, rfl⟩ := Facades.wireSide_eq_ok.mp hhandedBack
    apply (hsettle taken.wireSide).mono
    intro _ ctx' hg _ hsame
    exact ⟨fun _ _ => ⟨facade, taken, hg.facades _ _ hfacade, hg.facades _ _ htaken, hsame⟩,
      fun hkept => absurd (Bool.and_eq_true_iff.mp hlent) hkept⟩
  · rename_i hkept
    apply (hsettle facade.nodeSide).mono
    intro _ ctx' hg _ hsame
    exact ⟨fun hborrowed hwired => absurd (Bool.and_eq_true_iff.mpr ⟨hborrowed, hwired⟩) hkept,
      fun _ => ⟨facade, hg.facades _ _ hfacade, hsame⟩⟩

theorem progress_settleOutputs {data : BorrowGroup} (hd : ctx.groups.groups[id]? = some data) :
    Progress fixed kept (settleOutputs g id borrowed) ctx
      fun _ ctx' => ∀ member ∈ data.members, ∀ output, member.pairedOutput = some output →
        ctx'.HandsBack g borrowed member output := by
  apply (Progress.ask h).bind
  rintro found _ - - ⟨hf, rfl⟩
  cases (BorrowGroups.get_eq_ok.mp hf).symm.trans hd
  apply Progress.forM _ h
  · exact fun _ _ _ hg hback output houtput => (hback output houtput).of_grows hg
  · intro member _ ctx' _ hstands
    split
    · rename_i output houtput
      apply (progress_settleOutput hstands).mono
      intro _ ctx'' _ _ hback found hf
      cases houtput.symm.trans hf
      exact hback
    · rename_i hnone
      exact .pure hstands fun output houtput => nomatch hnone.symm.trans houtput

end

/-! ## Groups -/

theorem progress_decide {facades : Facades} {groups : BorrowGroups}
    (h : ctx.Stands fixed fun facades' groups' => facades' = facades ∧ groups' = groups) :
    Progress fixed (fun facades' groups' => facades' = facades ∧
        groups' = groups.modify id fun group => { group with decision := some decision })
      (changeGroups (·.decide id decision)) ctx
      fun _ ctx' => ctx'.terms = ctx.terms ∧ ctx'.flows = ctx.flows := by
  apply (Progress.ask h).bind
  rintro decided _ - - ⟨hdecided, rfl⟩
  obtain rfl := BorrowGroups.of_decide_eq_ok hdecided
  exact .setGroup h (fun _ => ⟨rfl, rfl, rfl⟩) ⟨h.kept.1, by rw [h.kept.2]⟩

theorem progress_decideGroup {data : BorrowGroup} (h : ctx.Stands fixed kept)
    (hd : ctx.groups.groups[id]? = some data) :
    Progress fixed (fun facades _ => facades = ctx.facades) (decideGroup g id) ctx
      fun _ ctx' => ∃ decision, ctx'.groups =
          ctx.groups.modify id (fun group => { group with decision := some decision }) ∧
        (∀ member ∈ data.wiredIn g, ctx'.Takes fixed decision member.port) ∧
        ∀ member ∈ data.members, ∀ output, member.pairedOutput = some output →
          ctx'.HandsBack g decision.isBorrow member output := by
  have hexact := h.exact
  apply (Progress.ask hexact).bind
  rintro found _ - - ⟨hf, rfl⟩
  cases (BorrowGroups.get_eq_ok.mp hf).symm.trans hd
  apply (Progress.lift hexact).bind
  rintro wired _ - - ⟨hwired, rfl⟩
  obtain rfl := BorrowGroup.wiredMembers_eq hwired
  refine (Progress.mapM (fun member supplied ctx' =>
    supplied.port = member.port ∧ supplied.Supplied fixed ctx') hexact ?_ ?_).bind ?_
  · rintro member supplied _ _ hg ⟨hport, hsupplied⟩
    exact ⟨hport, hsupplied.of_grows hg⟩
  · intro member _ ctx' _ hstands
    exact progress_supplyOf hstands
  intro supplied ctx1 hg1 hstands1 hsupplied
  have hwired' := exists_of_forall₂ hsupplied
  have hsupplied' := exists_of_forall₂ (List.Forall₂.flip hsupplied)
  apply (progress_makeDecision hstands1).bind
  intro decision ctx2 hg2 hstands2 hreferences
  refine (Progress.forM (fun member ctx' => ctx'.Takes fixed decision member.port) hstands2 ?_
    ?_).bind ?_
  · exact fun _ _ _ hg htakes => htakes.of_grows hg
  · intro member hmember ctx' hg hstands
    obtain ⟨_, _, -, hmember'⟩ := hsupplied' member hmember
    have hg' := hg2.trans hg
    apply (progress_deriveReference hstands (hmember'.of_grows hg')
      ((hg1.trans hg').terms.hasSort (h.typed.groups id data hd))).mono
    exact fun _ _ _ _ htakes => htakes fun lifetime hdecision => hreferences lifetime hdecision
      member hmember
  intro _ ctx3 hg3 hstands3 hderived
  apply (progress_decide hstands3).bind
  intro _ ctx4 hg4 hstands4 _
  apply (Progress.count hstands4).bind
  intro _ ctx5 hg5 hstands5 _
  have hd5 : ctx5.groups.groups[id]? = some { data with decision := some decision } := by
    rw [hstands5.kept.2, BorrowGroups.getElem?_modify_self hd]
  apply (progress_settleOutputs hstands5 hd5).imp
  intro _ ctx6 hg6 hstands6 hback
  refine ⟨hstands6.kept.1, decision, hstands6.kept.2, fun member hmember => ?_, hback⟩
  obtain ⟨found, hf, hport, -⟩ := hwired' member hmember
  rw [← hport]
  exact (hderived found hf).of_grows ((hg4.trans hg5).trans hg6)

end Pass

end BorrowFlow
