import BorrowFlow.Proofs.Inference.Arrivals
import BorrowFlow.Proofs.Inference.Secrecy
import BorrowFlow.Proofs.Term.Knowledge

/-!
# Deciding a group gives away its own lifetime only

When a group is decided, its lifetime becomes known, and so do the types of the outputs that hand
back what its members took. The lifetimes of groups that are still to be decided remain unknown to
everyone else, and what the nodes see of their ports remains what it was.
-/

namespace BorrowFlow

variable {group : GroupId} {data : BorrowGroup} {port : PortId} {nodeSide wireSide : FlowId}
  {which : GroupId → Prop}

namespace Context

/-- Secrets are kept since the second pass started, some types are known to have nothing to do with
them, and nodes see what they saw. -/
structure Withholds (g : Graph) (ctx start : Context) (shut : GroupId → Prop)
    (todo pending : PortId → Prop) (known : TermId → Prop) : Prop where
  facades_eq : ctx.facades = start.facades
  secret : Secret g start shut todo ctx.terms ctx.flows
  steady : Steady g start pending ctx.flows
  harmless : ∀ term, known term → Public start shut todo ctx.terms ctx.flows term

/-- One of the groups has recorded the output as paired with a member. -/
def Recorded (start : Context) (which : GroupId → Prop) (port : PortId) : Prop :=
  ∃ (id : GroupId) (data : BorrowGroup), which id ∧ start.groups.groups[id]? = some data ∧
    ∃ member ∈ data.members, member.pairedOutput = some port

end Context

variable {g : Graph} {start ctx ctx' : Context} {shut shut' : GroupId → Prop}
  {todo todo' pending : PortId → Prop} {known known' : TermId → Prop} {term : TermId}

namespace TermStore.Veils

variable {terms : TermStore} {lifetime : TermId}

theorem resolveLifetime_eq (h : terms.Veils lifetime) (value : Lifetime) :
    terms.resolveLifetime lifetime value = terms.absorb lifetime (.lifetime (some value)) := by
  rw [resolveLifetime, h.probe]

theorem probe_absorb (h : terms.Veils lifetime) (value : Lifetime) :
    (terms.absorb lifetime (.lifetime (some value))).probe lifetime = .lifetime (some value) := by
  rw [TermStore.probe_absorb h.lt, if_pos (same_refl terms lifetime), h.probe]
  rfl

end TermStore.Veils

namespace Context

theorem Recorded.mono {which' : GroupId → Prop} (h : start.Recorded which port)
    (hwhich : ∀ id, which id → which' id) : start.Recorded which' port := by
  obtain ⟨id, data, hid, hd⟩ := h
  exact ⟨id, data, hwhich id hid, hd⟩

theorem Recorded.of_closes (harranged : g.Arranged start.facades start.groups)
    (h : start.Recorded which port) {id : GroupId} (hd : start.groups.groups[id]? = some data)
    {member : GroupMember} (hmember : member ∈ data.members)
    (houtput : member.pairedOutput = some port) : which id := by
  obtain ⟨other, found, ho, hf, partner, hpartner, hpaired⟩ := h
  have hplaced := harranged.placed id data hd
  have hplaced' := harranged.placed other found hf
  obtain ⟨_, _, hcloses⟩ := hplaced.closes member hmember port houtput
  obtain ⟨_, _, hcloses'⟩ := hplaced'.closes partner hpartner port hpaired
  rw [hcloses, Option.some.injEq, Facade.terminationOutput.injEq] at hcloses'
  obtain ⟨_, _, htakes⟩ := hplaced.takes member hmember
  obtain ⟨_, _, htakes'⟩ := hplaced'.takes partner hpartner
  rw [hcloses'.2.2, htakes', Option.some.injEq, Facade.referenceInput.injEq] at htakes
  rwa [← htakes.2.2]

namespace Withholds

theorem mono (h : ctx.Withholds g start shut todo pending known)
    (hshut : ∀ id, shut' id → shut id) (htodo : ∀ port, todo' port → todo port)
    (hknown : ∀ term, known' term → known term) :
    ctx.Withholds g start shut' todo' pending known' :=
  ⟨h.facades_eq, h.secret.mono hshut htodo, h.steady,
    fun term ht => (h.harmless term (hknown term ht)).mono hshut htodo⟩

variable (h : ctx.Withholds g start shut todo pending known)
include h

theorem learn (more : TermId → Prop)
    (hmore : ∀ term, more term → Public start shut todo ctx.terms ctx.flows term) :
    ctx.Withholds g start shut todo pending fun term => more term ∨ known term :=
  ⟨h.facades_eq, h.secret, h.steady, fun term => Or.rec (hmore term) (h.harmless term)⟩

section

variable (hfacades : ctx'.facades = ctx.facades)
include hfacades

theorem of_discreet (hflows : ctx'.flows = ctx.flows)
    (hdiscreet : Discreet start shut todo ctx.flows ctx.terms ctx'.terms) :
    ctx'.Withholds g start shut todo pending known where
  facades_eq := hfacades.trans h.facades_eq
  secret := hflows ▸ h.secret.of_discreet hdiscreet
  steady := hflows ▸ h.steady
  harmless term ht := hflows ▸ (h.harmless term ht).of_discreet hdiscreet

theorem of_flows (hterms : ctx'.terms = ctx.terms)
    (ht : ∀ flow, (ctx'.flows.get flow).term = (ctx.flows.get flow).term)
    (hsame : ∀ left right, ctx'.flows.same left right = ctx.flows.same left right) :
    ctx'.Withholds g start shut todo pending known where
  facades_eq := hfacades.trans h.facades_eq
  secret := hterms ▸ h.secret.of_flows ht hsame
  steady := h.steady.of_flows ht hsame
  harmless term hf :=
    hterms ▸ (h.harmless term hf).of_flows fun _ _ wireSide _ _ _ => ht wireSide

theorem of_eq (hterms : ctx'.terms = ctx.terms) (hflows : ctx'.flows = ctx.flows) :
    ctx'.Withholds g start shut todo pending known :=
  h.of_flows hfacades hterms (fun _ => by rw [hflows]) fun _ _ => by rw [hflows]

end

/-! ## What is harmless -/

theorem public_input (hdrafted : start.Drafted g) {facade : Facade}
    (hfacade : start.facades.get? port = some facade) (hinput : g.IsInput port)
    (ht : (ctx.flows.get facade.wireSide).term = some term) :
    Public start shut todo ctx.terms ctx.flows term :=
  h.secret.public_of_exposes (fun _ _ _ _ => .input hfacade hinput)
    (fun _ _ _ _ houtput _ => hdrafted.wireSide_ne houtput hfacade hinput) ht

theorem public_member (hdrafted : start.Drafted g) {id : GroupId}
    (hfacade : start.facades.get? port = some (.referenceInput nodeSide wireSide id))
    (hopen : ¬shut id) (ht : (ctx.flows.get nodeSide).term = some term) :
    Public start shut todo ctx.terms ctx.flows term := by
  refine h.secret.public_of_exposes (fun other _ _ ho => .member hfacade ?_) ?_ ht
  · rintro rfl
    exact hopen ho
  · rintro output _ _ _ houtput - rfl
    obtain rfl := hdrafted.port_of_shows houtput hfacade (.inl rfl)
    cases houtput.symm.trans hfacade

/-- The lifetime of a group becomes known, and is a secret no longer. -/
theorem reveal (hdrafted : start.Drafted g) (hd : start.groups.groups[group]? = some data)
    (hgroup : shut group) (hshut : ∀ other, shut' other → shut other ∧ other ≠ group)
    (value : Lifetime) (hfacades : ctx'.facades = ctx.facades)
    (hflows : ctx'.flows = ctx.flows)
    (hterms : ctx'.terms = ctx.terms.resolveLifetime data.lifetimeTerm value) :
    ctx'.terms.probe data.lifetimeTerm = .lifetime (some value) ∧
      ctx'.Withholds g start shut' todo pending
        fun other => other = data.lifetimeTerm ∨ known other := by
  have hveils := h.secret.veiled group data hd hgroup
  have hfewer := h.mono (fun other ho => (hshut other ho).1) (fun _ => id) fun _ => id
  have hpublic : Public start shut' todo ctx.terms ctx.flows data.lifetimeTerm := by
    refine hfewer.secret.public_lifetime hveils fun other found hf ho heq => ?_
    exact (hshut other ho).2 (hdrafted.group_unique hf hd heq.symm)
  rw [hveils.resolveLifetime_eq] at hterms
  have hlearned := hfewer.learn (· = data.lifetimeTerm) fun _ heq => heq ▸ hpublic
  refine ⟨hterms ▸ hveils.probe_absorb value, hlearned.of_discreet hfacades hflows ?_⟩
  rw [hterms]
  exact hfewer.secret.discreet_absorb hveils.lt rfl hpublic

end Withholds

end Context

namespace Pass

variable {fixed : Prop} {kept : Facades → BorrowGroups → Prop}

/-! ## Outputs -/

section

variable (hdrafted : start.Drafted g)
include hdrafted

theorem ends_settleOutput_withholds (htyped : ctx.Typed fixed) {borrowed : Bool}
    {member : GroupMember} {output : PortId}
    (houtput : start.facades.get? output = some (.terminationOutput nodeSide wireSide member.port))
    (hinput : g.IsInput member.port) (hport : todo output)
    (htodo : ∀ other, todo' other → todo other ∧ other ≠ output)
    (h : ctx.Withholds g start shut todo pending known) :
    Yields (settleOutput g borrowed member output) ctx
      fun _ ctx' => ctx'.Withholds g start shut todo' pending known := by
  refine yields_ask fun facade hfacade => ?_
  rw [Facades.get_eq_ok, h.facades_eq, houtput] at hfacade
  cases hfacade
  refine Yields.lift_bind fun connected _ => ?_
  have hsettle : ∀ back, (∀ (id : GroupId) (data : BorrowGroup),
      start.groups.groups[id]? = some data → shut id → ¬g.IsAt data.node output →
        start.Exposes g id data.node back) →
      (∀ other nodeSide wireSide input,
        start.facades.get? other = some (.terminationOutput nodeSide wireSide input) →
          todo' other → back ≠ wireSide) →
      Yields (do
        let expected ← termOf wireSide
        let supplied ← termOf back
        unifyAt output expected supplied
        modifyFlows (·.merge wireSide back)) ctx
      fun _ ctx' => ctx'.Withholds g start shut todo' pending known := by
    intro back hexposed hback
    refine yields_ask fun expected hexpected => ?_
    refine yields_ask fun supplied hsupplied => ?_
    rw [FlowStore.term_eq_ok] at hexpected hsupplied
    have hsort := htyped.flows _ _ hexpected
    have hsort' := htyped.flows _ _ hsupplied
    apply Ends.bind
    apply ends_unifyAt
    apply ends_modify
    obtain ⟨found, hblank⟩ := h.secret.blank output _ _ _ houtput hport
    exact ⟨h.facades_eq, h.secret.settle hdrafted htyped.sound houtput hport htodo hexposed hback
      hexpected hsupplied hsort hsort', h.steady.settle hdrafted houtput hblank hsupplied,
      fun term ht => h.secret.public_settle hdrafted htyped.sound houtput hport htodo hexpected
        hsupplied hsort hsort' (h.harmless term ht)⟩
  split
  · refine yields_ask fun handedBack hhandedBack => ?_
    obtain ⟨taken, htaken, rfl⟩ := Facades.wireSide_eq_ok.mp hhandedBack
    rw [h.facades_eq] at htaken
    exact hsettle taken.wireSide (fun _ _ _ _ _ => .input htaken hinput)
      fun _ _ _ _ ho _ => hdrafted.wireSide_ne ho htaken hinput
  · refine hsettle nodeSide (fun _ _ _ _ hat => .elsewhere houtput hat (.inl rfl)) ?_
    rintro other _ _ _ ho hl rfl
    exact (htodo other hl).2 (hdrafted.port_of_shows ho houtput (.inl rfl)).symm

theorem ends_settleOutputs_withholds (harranged : g.Arranged start.facades start.groups)
    (hstands : ctx.Stands fixed kept) (hfollows : ctx.groups.Follows start.groups)
    {which' : GroupId → Prop} (hgroup : which group)
    (hwhich : ∀ other, which' other → which other ∧ other ≠ group) (borrowed : Bool)
    (h : ctx.Withholds g start shut (start.Recorded which) pending known) :
    Yields (settleOutputs g group borrowed) ctx
      fun _ ctx' => ctx'.Withholds g start shut (start.Recorded which') pending known := by
  refine yields_ask fun found hf => ?_
  obtain ⟨data, hd, hstatic⟩ := hfollows.exists_static (BorrowGroups.get_eq_ok.mp hf)
  rw [(BorrowGroup.of_static_eq hstatic).2.2.1]
  have hplaced := harranged.placed group data hd
  -- what is left are the outputs of other groups, and those of the members to come
  apply Ends.forM fun rest ctx' => ctx'.Stands fixed kept ∧ (∃ done, done ++ rest = data.members) ∧
      ctx'.Withholds g start shut (fun port => start.Recorded which' port ∨
        ∃ member ∈ rest, member.pairedOutput = some port) pending known
  · refine ⟨hstands, ⟨[], rfl⟩, h.mono (fun _ => id) ?_ fun _ => id⟩
    rintro port (hport | ⟨member, hmember, houtput⟩)
    · exact hport.mono fun other ho => (hwhich other ho).1
    · exact ⟨group, data, hgroup, hd, member, hmember, houtput⟩
  · rintro member rest ctx' ⟨hstands', ⟨done, hdone⟩, h'⟩
    have hmember : member ∈ data.members := hdone ▸ List.mem_append_cons_self
    have hdone' : (done ++ [member]) ++ rest = data.members := by simpa using hdone
    split
    · rename_i output houtput
      obtain ⟨nodeSide, wireSide, hcloses⟩ := hplaced.closes member hmember output houtput
      obtain ⟨port, hport, hdirection, -⟩ := (hplaced.inputs member hmember).port
      apply Ends.imp ((progress_settleOutput hstands').also (ends_settleOutput_withholds hdrafted
        hstands'.typed hcloses ⟨port, hport, hdirection⟩
        (.inr ⟨member, List.mem_cons_self, houtput⟩) ?_ h')) ?_
      · exact fun other => start.Recorded which' other ∨
          ∃ member ∈ rest, member.pairedOutput = some other
      · rintro other (ho | ⟨partner, hpartner, hpaired⟩)
        · refine ⟨.inl ho, ?_⟩
          rintro rfl
          exact (hwhich group (ho.of_closes harranged hd hmember houtput)).2 rfl
        · refine ⟨.inr ⟨partner, List.mem_cons_of_mem _ hpartner, hpaired⟩, ?_⟩
          rintro rfl
          have hpartner' : partner ∈ data.members := hdone' ▸ List.mem_append_right _ hpartner
          obtain ⟨_, _, hcloses'⟩ := hplaced.closes partner hpartner' other hpaired
          rw [hcloses, Option.some.injEq, Facade.terminationOutput.injEq] at hcloses'
          have hnodup := hplaced.nodup
          rw [← hdone, List.map_append, List.map_cons, List.nodup_append, List.nodup_cons] at hnodup
          exact hnodup.2.1.1 (hcloses'.2.2 ▸ List.mem_map_of_mem hpartner)
      · rintro _ ctx'' ⟨-, hstands'', -, h''⟩
        exact ⟨hstands'', ⟨_, hdone'⟩, h''⟩
    · rename_i hnone
      refine Ends.pure ⟨hstands', ⟨_, hdone'⟩, h'.mono (fun _ => id) ?_ fun _ => id⟩
      exact fun port => Or.imp_right fun ⟨other, ho, houtput⟩ =>
        ⟨other, List.mem_cons_of_mem _ ho, houtput⟩
  · rintro ctx' ⟨-, -, h'⟩
    exact h'.mono (fun _ => id) (fun _ => .inl) fun _ => id

/-! ## References -/

theorem ends_unifyDerived_withholds (hstands : ctx.Stands fixed kept)
    {underlying lifetimeTerm : TermId} (mutable : Bool)
    (hfacade : start.facades.get? port = some (.referenceInput nodeSide wireSide group))
    (hopen : ¬shut group) (hsort : ctx.terms.HasSort underlying .type)
    (hsort' : ctx.terms.HasSort lifetimeTerm .lifetime)
    (hunderlying : Public start shut todo ctx.terms ctx.flows underlying)
    (hlifetime : Public start shut todo ctx.terms ctx.flows lifetimeTerm)
    (h : ctx.Withholds g start shut todo pending known) :
    Yields (do
        let derived ← newTerm (·.newReference (.fixed mutable) underlying lifetimeTerm)
        let nodeSide ← ask (·.facades.nodeSide port)
        let expected ← termOf nodeSide
        unifyAt port expected derived) ctx
      fun _ ctx' => ctx'.Withholds g start shut todo pending known := by
  have hframe : Yields (newTerm (·.newReference (.fixed mutable) underlying lifetimeTerm)) ctx
      fun _ ctx' => ctx'.facades = ctx.facades ∧ ctx'.flows = ctx.flows := ⟨rfl, rfl⟩
  apply ((Progress.newReference hstands hsort hsort').also hframe).bind_ends
  rintro derived ctx1 - hstands1 ⟨⟨hderived, hcreated⟩, hfacades, hflows⟩
  have hdiscreet : Discreet start shut todo ctx.flows ctx.terms
      (ctx.terms.newReference (.fixed mutable) underlying lifetimeTerm).2 :=
    h.secret.discreet_newReference hunderlying hlifetime
  have hnew := h.secret.public_of_le (Nat.le_refl ctx.terms.size)
  rw [hcreated] at hdiscreet
  obtain rfl : ctx.terms.size = derived := (Prod.mk.inj hcreated).1
  have h1 := (h.learn (· = ctx.terms.size) fun _ heq => heq ▸ hnew).of_discreet hfacades hflows
    hdiscreet
  refine yields_ask fun flow hflow => ?_
  obtain ⟨facade, hf, rfl⟩ := Facades.nodeSide_eq_ok.mp hflow
  rw [h1.facades_eq, hfacade] at hf
  cases hf
  refine yields_ask fun expected hexpected => ?_
  rw [FlowStore.term_eq_ok] at hexpected
  apply ends_unifyAt
  refine (h1.mono (fun _ => id) (fun _ => id) fun _ => .inr).of_discreet rfl rfl ?_
  exact h1.secret.discreet_unify hstands1.typed.sound (hstands1.typed.flows _ _ hexpected) hderived
    (h1.public_member hdrafted hfacade hopen hexpected) (h1.harmless _ (.inl rfl))

theorem ends_deriveReference_withholds (hstands : ctx.Stands fixed kept)
    {member : SuppliedMember} {lifetimeTerm : TermId} (decision : Decision)
    (hfacade : start.facades.get? member.port = some (.referenceInput nodeSide wireSide group))
    (hopen : ¬shut group) (hsort : ctx.terms.HasSort member.term .type)
    (hsort' : ctx.terms.HasSort lifetimeTerm .lifetime) (ht : known member.term)
    (hlifetime : known lifetimeTerm) (h : ctx.Withholds g start shut todo pending known) :
    Yields (deriveReference lifetimeTerm decision member) ctx
      fun _ ctx' => ctx'.Withholds g start shut todo pending known := by
  apply Ends.bind
  apply Ends.get
  have hpublic := h.harmless _ ht
  have hpublic' := h.harmless _ hlifetime
  unfold TermStore.referenceParts?
  cases hp : ctx.terms.probe member.term with
  | reference mutability underlying lifetime =>
    have hunderlying := hstands.typed.sound.wellSorted.hasSort_part (TermStore.part?_reference hp)
    have hpart : underlying ∈ (ctx.terms.probe member.term).parts := by
      cases mutability <;> simp [hp, Term.parts]
    exact ends_unifyDerived_withholds hdrafted hstands _ hfacade hopen hunderlying hsort'
      (h.secret.public_part hpublic hpart) hpublic' h
  | _ =>
    exact ends_unifyDerived_withholds hdrafted hstands _ hfacade hopen hsort hsort' hpublic
      hpublic' h

/-! ## Groups -/

theorem ends_makeDecision_withholds {found : BorrowGroup}
    (hd : start.groups.groups[group]? = some data)
    (hlifetime : found.lifetimeTerm = data.lifetimeTerm) (hgroup : shut group)
    (hshut : ∀ other, shut' other → shut other ∧ other ≠ group) (supplied : List SuppliedMember)
    (h : ctx.Withholds g start shut todo pending known) :
    Yields (makeDecision found supplied) ctx fun decision ctx' =>
        ctx'.terms.probe data.lifetimeTerm = .lifetime (some decision.lifetime) ∧
          ctx'.Withholds g start shut' todo pending
            fun other => other = data.lifetimeTerm ∨ known other := by
  unfold makeDecision
  rw [hlifetime]
  split
  · rename_i lifetime _
    apply Ends.bind
    apply ends_modify
    exact Ends.pure (h.reveal hdrafted hd hgroup hshut lifetime rfl rfl rfl)
  · apply Ends.bind
    refine yields_ask fun ⟨lifetime, lifetimes⟩ _ => ?_
    apply Ends.bind
    apply ends_modify
    apply Ends.pure
    apply Ends.bind
    apply ends_modify
    have hcarved : ({ ctx with lifetimes } : Context).Withholds g start shut todo pending
        known := h.of_eq rfl rfl rfl
    apply Ends.bind
    apply Ends.forM fun _ ctx' =>
      ctx'.terms.probe data.lifetimeTerm = .lifetime (some lifetime) ∧
        ctx'.Withholds g start shut' todo pending
          fun other => other = data.lifetimeTerm ∨ known other
    · exact hcarved.reveal hdrafted hd hgroup hshut lifetime rfl rfl rfl
    · rintro member _ ctx' ⟨hp, h'⟩
      unfold beginBorrow
      split
      · exact ends_modify ⟨hp, h'.of_eq rfl rfl rfl⟩
      · exact ends_modify ⟨hp, h'.of_flows rfl rfl (fun _ => rfl) fun _ _ => rfl⟩
    · exact fun _ hdone => Ends.pure hdone

theorem ends_recordDecision_withholds (harranged : g.Arranged start.facades start.groups)
    (hstands : ctx.Stands fixed kept) (hfollows : ctx.groups.Follows start.groups)
    (hd : start.groups.groups[group]? = some data) (hgroup : shut group)
    (hshut : ∀ other, shut' other → shut other ∧ other ≠ group) {decision : Decision}
    (hp : ctx.terms.probe data.lifetimeTerm = .lifetime (some decision.lifetime))
    (h : ctx.Withholds g start shut' (start.Recorded shut) pending known) :
    Yields (do
        changeGroups (·.decide group decision)
        count fun stats => { stats with groupsDecided := stats.groupsDecided + 1 }
        settleOutputs g group decision.isBorrow) ctx
      fun _ ctx' => (∃ decision, ctx'.groups.decisionOf? group = some decision ∧
          ctx'.terms.probe data.lifetimeTerm = .lifetime (some decision.lifetime)) ∧
        ctx'.Withholds g start shut' (start.Recorded shut') pending known := by
  obtain ⟨found, hf, -⟩ := hfollows.symm.exists_static hd
  apply (progress_decide hstands.exact).bind_ends
  rintro _ ctx1 hg1 hstands1 ⟨hterms1, hflows1⟩
  have h1 := h.of_eq hstands1.kept.1 hterms1 hflows1
  have hcounts : Ends
      (count fun stats => { stats with groupsDecided := stats.groupsDecided + 1 }) ctx1
      (fun _ ctx' => ctx'.Withholds g start shut' (start.Recorded shut) pending known)
      fun _ => True := ends_count (h1.of_eq rfl rfl rfl)
  apply ((Progress.count hstands1).also hcounts).bind_ends
  rintro _ ctx2 hg2 hstands2 ⟨-, h2⟩
  have hgroups2 := hstands2.kept.2
  have hfollows2 : ctx2.groups.Follows start.groups := by
    rw [hgroups2]
    exact hfollows.modify group
  have hd2 : ctx2.groups.groups[group]? =
      some { found with decision := some decision } := by
    rw [hgroups2, BorrowGroups.getElem?_modify_self hf]
  apply Ends.imp ((progress_settleOutputs hstands2 hd2).also
    (ends_settleOutputs_withholds hdrafted harranged hstands2 hfollows2 hgroup hshut
      decision.isBorrow h2)) ?_
  rintro _ ctx3 ⟨hg3, hstands3, -, h3⟩
  refine ⟨⟨decision, ?_, ((hg1.trans hg2).trans hg3).terms.lifetime hp⟩, h3⟩
  rw [hstands3.kept.2, ← hgroups2, BorrowGroups.decisionOf?_of_get hd2]

/-- When a group is decided, its lifetime is the one that was decided on, and what is still withheld
are the lifetimes of the other groups and the outputs that they have recorded. -/
theorem ends_decideGroup_withholds (harranged : g.Arranged start.facades start.groups)
    (hstands : ctx.Stands fixed kept) (hfollows : ctx.groups.Follows start.groups)
    (hd : start.groups.groups[group]? = some data) (hgroup : shut group)
    (hshut : ∀ other, shut' other → shut other ∧ other ≠ group)
    (h : ctx.Withholds g start shut (start.Recorded shut) pending known) :
    Yields (decideGroup g group) ctx
      fun _ ctx' => (∃ decision, ctx'.groups.decisionOf? group = some decision ∧
          ctx'.terms.probe data.lifetimeTerm = .lifetime (some decision.lifetime)) ∧
        ctx'.Withholds g start shut' (start.Recorded shut') pending known := by
  have hexact := hstands.exact
  refine yields_ask fun found hf => ?_
  rw [BorrowGroups.get_eq_ok] at hf
  obtain ⟨data', hd', hstatic⟩ := hfollows.exists_static hf
  cases hd.symm.trans hd'
  obtain ⟨-, -, hmembers, hlifetime⟩ := BorrowGroup.of_static_eq hstatic
  refine Yields.lift_bind fun wired hwired => ?_
  obtain rfl := BorrowGroup.wiredMembers_eq hwired
  apply Ends.seq (ends_supplies _)
  rintro supplied _ ⟨rfl, hreads⟩
  have hsupplied : ∀ member ∈ supplied, ∃ partner ∈ data.members, member.ReadsOff ctx partner := by
    intro member hmember
    obtain ⟨partner, hpartner, hread⟩ := exists_of_forall₂ hreads.flip member hmember
    exact ⟨partner, hmembers ▸ (List.mem_filter.mp hpartner).1, hread⟩
  have hharmless : ctx.Withholds g start shut (start.Recorded shut) pending
      fun term => (∃ member ∈ supplied, member.term = term) ∨ known term := by
    refine h.learn _ ?_
    rintro _ ⟨member, hmember, rfl⟩
    obtain ⟨partner, hpartner, hread⟩ := hsupplied member hmember
    obtain ⟨facade, hfacade, hflow⟩ := hread.facade
    rw [h.facades_eq] at hfacade
    obtain ⟨port, hport, hdirection, -⟩ :=
      ((harranged.placed group data hd).inputs partner hpartner).port
    exact h.public_input hdrafted hfacade ⟨port, hport, hdirection⟩ (hflow ▸ hread.term)
  apply ((progress_makeDecision hexact).also
    (ends_makeDecision_withholds hdrafted hd hlifetime hgroup hshut supplied hharmless)).bind_ends
  rintro decision ctx2 hg2 hstands2 ⟨-, hp2, h2⟩
  apply Ends.bind
  apply Ends.forM fun rest ctx' => rest ⊆ supplied ∧ ctx.Grows fixed ctx' ∧
    ctx'.Stands fixed (fun facades groups => facades = ctx.facades ∧ groups = ctx.groups) ∧
    ctx'.terms.probe data.lifetimeTerm = .lifetime (some decision.lifetime) ∧
      ctx'.Withholds g start shut' (start.Recorded shut) pending
        fun term => term = data.lifetimeTerm ∨ (∃ member ∈ supplied, member.term = term) ∨
          known term
  · exact ⟨List.Subset.refl _, hg2, hstands2, hp2, h2⟩
  · rintro member rest ctx' ⟨hrest, hg', hstands', hp', h'⟩
    obtain ⟨hmember, hrest⟩ := List.cons_subset.mp hrest
    obtain ⟨partner, hpartner, hread⟩ := hsupplied member hmember
    have hsupply := (hread.supplied hstands.typed).of_grows hg'
    have hsort : ctx'.terms.HasSort found.lifetimeTerm .lifetime :=
      hg'.terms.hasSort (hstands.typed.groups group found hf)
    obtain ⟨nodeSide, wireSide, htakes⟩ := (harranged.placed group data hd).takes partner hpartner
    rw [← hread.port] at htakes
    have hderives := ends_deriveReference_withholds hdrafted hstands' decision htakes
      (fun hopen => (hshut group hopen).2 rfl) hsupply.sort hsort
      (.inr (.inl ⟨member, hmember, rfl⟩)) (.inl hlifetime) h'
    apply Ends.imp ((progress_deriveReference hstands' hsupply hsort).also hderives) ?_
    rintro _ ctx'' ⟨hg'', hstands'', -, h''⟩
    exact ⟨hrest, hg'.trans hg'', hstands'', hg''.terms.lifetime hp', h''⟩
  · rintro ctx3 ⟨-, -, hstands3, hp3, h3⟩
    exact ends_recordDecision_withholds hdrafted harranged hstands3 (hstands3.kept.2 ▸ hfollows) hd
      hgroup hshut hp3 (h3.mono (fun _ => id) (fun _ => id) fun _ ht => .inr (.inr ht))

end

end Pass

end BorrowFlow
