import BorrowFlow.Proofs.Inference.Opening
import BorrowFlow.Proofs.Inference.Timing
import BorrowFlow.Proofs.LifetimeEdges

/-!
# Lifetimes that groups open

A group that decides to borrow opens a lifetime of its scope that nothing had before. If a member
was supplied with a reference of the same scope, then the lifetime of the reference outlives the new
one: nothing leads away from a lifetime that has just been opened, so this is never dropped. Later
decisions open more lifetimes and record more, and take nothing back.
-/

namespace BorrowFlow

variable {g : Graph} {ctx start : Context} {sink : PortId} {watch : Watch}
  {supplied : List SuppliedMember} {group : BorrowGroup} {place : BoundedLifetime}

namespace LifetimeForest

variable {forest forest' : LifetimeForest} {first second outer : BoundedLifetime}

theorem Extends.owns (h : forest.Extends forest') {value : Lifetime} (howns : forest.Owns value) :
    forest'.Owns value := by
  cases value with
  | bounded place => exact h.has howns
  | _ => trivial

def Last (forest : LifetimeForest) (place : BoundedLifetime) : Prop :=
  ∀ lifetimes, forest.graphs[place.graph]? = some lifetimes →
    ∀ node, ¬lifetimes.Edge place.node node

theorem Last.addOutlives (h : forest.Last place) (longer : Lifetime)
    (hne : longer ≠ .bounded place) : (forest.addOutlives longer (.bounded place)).Last place := by
  unfold LifetimeForest.addOutlives
  split
  · rename_i first _ heq
    cases heq
    split
    · rename_i hgraph
      intro lifetimes hf node hedge
      rw [hgraph, Array.getElem?_modify, if_pos rfl] at hf
      obtain ⟨old, hold, rfl⟩ := Option.map_eq_some_iff.mp hf
      rcases old.addEdge_cases first.node place.node with ⟨hsame, -⟩ | ⟨hlinks, -⟩
      · exact h old hold node (hsame ▸ hedge)
      · rcases (hlinks _ _).mp hedge with hedge | ⟨hnode, -⟩
        · exact h old hold node hedge
        · cases first
          cases place
          cases hgraph
          cases hnode
          exact hne rfl
    · exact h
  · exact h

theorem Last.covers_addOutlives (h : forest.Last place) (hhas : forest.Has outer)
    (hne : outer ≠ place) (hgraph : outer.graph = place.graph) :
    (forest.addOutlives (.bounded outer) (.bounded place)).Covers outer place := by
  obtain ⟨lifetimes, hf, hlt⟩ := hhas
  have hback : ¬lifetimes.Path place.node outer.node := by
    intro hpath
    rcases Relation.ReflTransGen.cases_head hpath with heq | ⟨next, hedge, -⟩
    · cases outer
      cases place
      cases hgraph
      cases heq
      exact hne rfl
    · exact h lifetimes (hgraph ▸ hf) next hedge
  exact ((separates_iff hgraph hf).mpr hback).covers_addOutlives ⟨lifetimes, hf, hlt⟩

variable {home scope : ScopeId}

theorem Lays.outlasts_inside (h : forest.Lays g g.scopes.size) (hn : g.Nested)
    (hl : g.Layered) (hhome : forest.graphOf home = .ok place.graph)
    (hscope : scope < g.scopes.size) :
    ∃ answer, forest.outlasts (.bounded place) scope = .ok answer ∧
      (answer = true ↔ g.Encloses home scope ∧ home ≠ scope) := by
  obtain ⟨-, hplace⟩ := h.graphOf.mp hhome
  refine ⟨_, h.lawful.outlasts_eq (h.graphOf.mpr ⟨hscope, rfl⟩), ?_⟩
  rw [h.lawful.isStrictAncestor_iff, hplace]
  exact h.encloses_iff hn hl

theorem Lays.outlives_of_encloses (h : forest.Lays g g.scopes.size) (hn : g.Nested)
    (hl : g.Layered) (hhome : forest.graphOf home = .ok outer.graph)
    (hscope : forest.graphOf scope = .ok place.graph) (hencloses : g.Encloses home scope)
    (hne : outer ≠ place) (hcovers : outer.graph = place.graph → forest.Covers outer place) :
    forest.outlives (.bounded outer) (.bounded place) = true ∧
      forest.outlives (.bounded place) (.bounded outer) = false := by
  obtain ⟨-, houter⟩ := h.graphOf.mp hhome
  obtain ⟨-, hplace⟩ := h.graphOf.mp hscope
  have hforth : forest.Covers outer place := by
    by_cases heq : home = scope
    · exact hcovers (by rw [houter, hplace, heq])
    · rw [← houter, ← hplace] at hencloses heq
      exact .across ((h.encloses_iff hn hl).mpr ⟨hencloses, heq⟩)
  refine ⟨h.lawful.outlives_iff.mpr (.inr hforth), ?_⟩
  rw [← Bool.not_eq_true, h.lawful.outlives_iff]
  rintro (heq | hback)
  · exact hne heq.symm
  · exact hne (h.lawful.covers_antisymm hforth hback)

end LifetimeForest

/-! ## Decisions -/

/-- The members were supplied with references whose lifetimes have been opened. -/
def Context.Owes (ctx : Context) (supplied : List SuppliedMember) : Prop :=
  ∀ member ∈ supplied, ∀ mutable outer, member.supply = .reference mutable outer →
    ctx.lifetimes.Owns outer

/-- What a decision does to lifetimes: a borrow gets one that was not there before, and is outlived
by those of the same scope that its members were supplied with. A group borrows mutably only what
can be borrowed so. -/
structure Context.Decides (ctx : Context) (group : BorrowGroup) (supplied : List SuppliedMember)
    (decision : Decision) (ctx' : Context) : Prop where
  grounded : ctx'.Grounded
  grows : ctx.lifetimes.Extends ctx'.lifetimes
  borrowed : ∀ mutable lifetime, decision = .borrow mutable lifetime → ∃ place,
    lifetime = .bounded place ∧ ctx'.lifetimes.graphOf group.scope = .ok place.graph ∧
      ¬ctx.lifetimes.Has place ∧ ctx'.lifetimes.Has place ∧
        ∀ member ∈ supplied, ∀ mutable outer, member.supply = .reference mutable (.bounded outer) →
          outer ≠ place ∧ (outer.graph = place.graph → ctx'.lifetimes.Covers outer place)
  lends : ∀ lifetime, decision = .borrow true lifetime →
    group.policy.Lends (supplied.map SuppliedMember.supply)

/-- A lifetime has been opened for a group that is being decided. -/
structure Context.Begins (ctx : Context) (opened : LifetimeForest) (place : BoundedLifetime) :
    Prop where
  grounded : ctx.Grounded
  grows : opened.Extends ctx.lifetimes
  has : ctx.lifetimes.Has place
  last : ctx.lifetimes.Last place

namespace Pass

variable {opened : LifetimeForest}

theorem ends_beginBorrow (h : ctx.Begins opened place) (member : SuppliedMember)
    (howns : ∀ mutable outer, member.supply = .reference mutable outer →
      ctx.lifetimes.Owns outer ∧ outer ≠ .bounded place) :
    Yields (beginBorrow (.bounded place) member) ctx fun _ ctx' => ctx'.Begins opened place ∧
        ctx.lifetimes.Extends ctx'.lifetimes ∧
          ∀ mutable outer, member.supply = .reference mutable (.bounded outer) →
            outer.graph = place.graph → ctx'.lifetimes.Covers outer place := by
  unfold beginBorrow
  split
  · rename_i mutable outer hsupply
    obtain ⟨howns, hne⟩ := howns mutable outer hsupply
    have hext := ctx.lifetimes.extends_addOutlives outer (.bounded place)
    refine ends_modify ⟨⟨⟨h.grounded.lawful.addOutlives howns h.has, fun other hknows =>
      hext.has (h.grounded.has other hknows)⟩, h.grows.trans hext, hext.has h.has,
        h.last.addOutlives outer hne⟩, hext, fun _ first hfirst hgraph => ?_⟩
    cases hsupply.symm.trans hfirst
    exact h.last.covers_addOutlives howns (fun heq => hne (heq ▸ rfl)) hgraph
  · rename_i hsupply
    refine ends_modify ⟨⟨h.grounded, h.grows, h.has, h.last⟩, .refl _, fun _ _ hfirst => ?_⟩
    cases hsupply.symm.trans hfirst

theorem ends_makeDecision_decides (hgrounded : ctx.Grounded) (howes : ctx.Owes supplied) :
    Yields (makeDecision group supplied) ctx
      fun decision ctx' => ctx.Decides group supplied decision ctx' := by
  unfold makeDecision
  split
  · rename_i lifetime hchoose
    apply Ends.bind
    apply ends_modify
    refine Ends.pure ⟨⟨hgrounded.lawful, fun place hknows => ?_⟩, .refl _, nofun, nofun⟩
    rcases TermStore.knows_of_resolveLifetime hknows with hknows | heq
    · exact hgrounded.has place hknows
    · -- the lifetime is that of some member
      obtain ⟨hne, mutable, hall⟩ := Policy.of_choose_reuse hchoose
      obtain ⟨member, hmember⟩ := List.exists_mem_of_ne_nil _ (mt List.map_eq_nil_iff.mpr hne)
      have hsupply := hall member.supply (List.mem_map_of_mem hmember)
      rw [← heq] at hsupply
      exact howes member hmember mutable _ hsupply
  · rename_i hchoose
    apply Ends.bind
    refine yields_ask fun ⟨lifetime, opened⟩ hcarve => ?_
    obtain ⟨place, rfl, hopens⟩ := hgrounded.lawful.opens hcarve
    have hne : ∀ {outer : Lifetime}, ctx.lifetimes.Owns outer → outer ≠ .bounded place := by
      rintro _ howns rfl
      exact hopens.not_has howns
    apply Ends.bind
    apply ends_modify
    apply Ends.pure
    apply Ends.bind
    apply ends_modify
    refine Ends.seq (Ends.forM_each (fun _ ctx' => ctx'.Begins opened place)
      (fun member ctx' => ∀ mutable outer, member.supply = .reference mutable (.bounded outer) →
        outer.graph = place.graph → ctx'.lifetimes.Covers outer place) ?_ ?_) ?_
    · refine ⟨⟨hopens.lawful, fun other hknows => ?_⟩, .refl _, hopens.has, fun _ => hopens.last⟩
      rcases TermStore.knows_of_resolveLifetime hknows with hknows | heq
      · exact hopens.grows.has (hgrounded.has other hknows)
      · cases heq
        exact hopens.has
    · intro done member rest ctx' hitems hbegins
      have hmember : member ∈ supplied := hitems ▸ List.mem_append_cons_self
      have hmembers : ∀ mutable outer, member.supply = .reference mutable outer →
          ctx'.lifetimes.Owns outer ∧ outer ≠ .bounded place := by
        intro mutable outer hsupply
        have howns := howes member hmember mutable outer hsupply
        exact ⟨(hopens.grows.trans hbegins.grows).owns howns, hne howns⟩
      refine (ends_beginBorrow hbegins member hmembers).imp ?_
      rintro _ ctx'' ⟨hbegins', hext, hcovers⟩
      exact ⟨hbegins', hcovers, fun _ _ ho mutable outer hsupply hgraph =>
        (ho mutable outer hsupply hgraph).of_extends hext⟩
    · rintro _ ctx' ⟨hbegins, hcovers⟩
      refine Ends.pure ⟨hbegins.grounded, hopens.grows.trans hbegins.grows, ?_, ?_⟩
      swap
      · rintro _ ⟨⟩
        exact (Policy.choose_eq_borrow_iff.mp hchoose).2.mp rfl
      rintro _ _ ⟨⟩
      refine ⟨place, rfl, ?_, hopens.not_has, hbegins.has,
        fun member hmember mutable outer hsupply =>
          ⟨fun heq => ?_, hcovers member hmember mutable outer hsupply⟩⟩
      · exact ((hopens.grows.trans hbegins.grows).graphOf _).trans hopens.graphOf
      · exact hne (howes member hmember mutable _ hsupply) (heq ▸ rfl)

end Pass

/-! ## Types, flows and references -/

/-- Types were unified and flows were merged. -/
structure Context.Settles (ctx ctx' : Context) : Prop where
  groups : ctx'.groups = ctx.groups
  lifetimes : ctx'.lifetimes = ctx.lifetimes
  grounded : ctx.Grounded → ctx'.Grounded

namespace Pass

def settling : Frame where
  along := Context.Settles
  lost _ _ := True
  refl _ := ⟨rfl, rfl, id⟩
  trans h h' := ⟨h'.groups.trans h.groups, h'.lifetimes.trans h.lifetimes, h'.grounded ∘ h.grounded⟩
  fails _ := trivial
  lost_trans _ _ := trivial

theorem unifying_settling : Unifying settling where
  newTerm hmints := ⟨fun _ => ⟨rfl, rfl, fun h =>
    ⟨h.lawful, fun place hknows => h.has place (hmints.knows hknows)⟩⟩⟩
  unifyAt _ _ _ := .modify fun _ => ⟨rfl, rfl, fun h =>
    ⟨h.lawful, fun place hknows => h.has place (TermStore.knows_of_unify hknows)⟩⟩
  modifyFlows _ := .modify fun _ => ⟨rfl, rfl, id⟩

end Pass

/-! ## Groups -/

namespace Context

variable {ctx' ctx'' : Context}

theorem Decides.settle {decision : Decision} (h : ctx.Decides group supplied decision ctx')
    (hlifetimes : ctx''.lifetimes = ctx'.lifetimes) (hgrounded : ctx''.Grounded) :
    ctx.Decides group supplied decision ctx'' := by
  obtain ⟨-, hg, hborrowed, hlends⟩ := h
  rw [← hlifetimes] at hg hborrowed
  exact ⟨hgrounded, hg, hborrowed, hlends⟩

theorem Grounded.owes {members : List GroupMember} (h : ctx.Grounded)
    (hreads : List.Forall₂ (fun member found =>
      SuppliedMember.ReadsOff found ctx member) members supplied) : ctx.Owes supplied := by
  intro found hf mutable outer hsupply
  obtain ⟨member, -, hread⟩ := exists_of_forall₂ hreads.flip found hf
  cases hmutability : ctx.terms.mutability? found.term with
  | none => cases (hread.owned hmutability).symm.trans hsupply
  | some _ =>
    cases (hread.reference _ hmutability).symm.trans hsupply
    cases hlifetime : ctx.terms.lifetimeOf found.term with
    | bounded place => exact h.has place (TermStore.knows_of_lifetimeOf hlifetime)
    | _ => trivial

/-- The sink is the last one that its group waits for. -/
structure Completes (ctx : Context) (sink : PortId) (id : GroupId) (data : BorrowGroup) : Prop
    where
  group : (ctx.facades.get? sink).bind Facade.group? = some id
  found : ctx.groups.groups[id]? = some data
  undecided : data.decision = none
  last : data.received + 1 = data.wired

/-- What letting the group of a sink know does to lifetimes. -/
inductive Hears (g : Graph) (ctx : Context) (sink : PortId) (ctx' : Context) : Prop
  | waits (hgrounded : ctx'.Grounded) (hlifetimes : ctx'.lifetimes = ctx.lifetimes)
    (hkept : ∀ id, ctx'.groups.decisionOf? id = ctx.groups.decisionOf? id)
  | decides {id : GroupId} {data : BorrowGroup} {supplied : List SuppliedMember}
    {decision : Decision} (hcompletes : ctx.Completes sink id data)
    (hreads : List.Forall₂ (fun member found => SuppliedMember.ReadsOff found ctx member)
      (data.wiredIn g) supplied)
    (hdecides : ctx.Decides data supplied decision ctx')
    (hdecision : ∀ other, ctx'.groups.decisionOf? other =
      if id = other then some decision else ctx.groups.decisionOf? other)

end Context

namespace Pass

theorem ends_decideGroup_decides {id : GroupId} {data : BorrowGroup} (hgrounded : ctx.Grounded)
    (hd : ctx.groups.groups[id]? = some data) :
    Yields (decideGroup g id) ctx fun _ ctx' => ∃ supplied decision,
        List.Forall₂ (fun member found => SuppliedMember.ReadsOff found ctx member)
          (data.wiredIn g) supplied ∧
        ctx.Decides data supplied decision ctx' ∧
        ctx'.groups =
          ctx.groups.modify id fun group => { group with decision := some decision } := by
  refine yields_ask fun found hf => ?_
  cases (BorrowGroups.get_eq_ok.mp hf).symm.trans hd
  refine Yields.lift_bind fun wired hwired => ?_
  obtain rfl := BorrowGroup.wiredMembers_eq hwired
  apply (ends_supplies _).seq
  rintro supplied _ ⟨rfl, hreads⟩
  apply (((keeps_makeDecision data supplied).ends ctx).both
    (ends_makeDecision_decides hgrounded (hgrounded.owes hreads))).seq
  rintro decision ctx1 ⟨hbooks, hdecides⟩
  apply ((Moves.forM fun member => moves_deriveReference unifying_settling data.lifetimeTerm
    decision member).ends ctx1).seq
  rintro _ ctx2 (hsettles : ctx1.Settles ctx2)
  apply Ends.bind
  refine ends_changeGroups (fun groups hgroups => ?_) trivial
  apply Ends.bind
  apply ends_count
  apply ((moves_settleOutputs unifying_settling g id decision.isBorrow).ends _).imp ?_
  rintro _ ctx3 (hsettles' : Context.Settles _ ctx3)
  refine ⟨supplied, decision, hreads, hdecides.settle (hsettles'.lifetimes.trans hsettles.lifetimes)
    (hsettles'.grounded (hsettles.grounded hdecides.grounded)), hsettles'.groups.trans ?_⟩
  have hgroups1 : ctx1.groups = ctx.groups := congrArg Books.groups hbooks
  rw [← hgroups1, ← hsettles.groups]
  exact BorrowGroups.of_decide_eq_ok hgroups

theorem ends_notifyGroup_hears (hgrounded : ctx.Grounded) :
    Yields (notifyGroup g sink) ctx fun _ ctx' => ctx.Hears g sink ctx' := by
  refine yields_ask fun facade hfacade => ?_
  have hgroup : (ctx.facades.get? sink).bind Facade.group? = facade.group? := by
    rw [Facades.get_eq_ok.mp hfacade, Option.bind_some]
  cases hid : facade.group? with
  | none => exact Ends.pure (.waits hgrounded rfl fun _ => rfl)
  | some id =>
    refine yields_ask fun ⟨ready, groups⟩ harrive => ?_
    obtain ⟨data, hd, rfl, rfl⟩ := BorrowGroups.of_arrive_eq_ok harrive
    have hreceived : (ctx.groups.modify id fun group =>
        { group with received := data.received + 1 }).groups[id]? =
          some { data with received := data.received + 1 } :=
      BorrowGroups.getElem?_modify_self hd _
    apply Ends.bind
    refine ends_modify ?_
    split
    · rename_i hready
      obtain ⟨hnone, hlast⟩ := Bool.and_eq_true_iff.mp hready
      apply (ends_decideGroup_decides (by exact hgrounded) hreceived).imp ?_
      rintro _ ctx' ⟨supplied, decision, hreads, hdecides, hgroups⟩
      refine .decides ⟨hgroup.trans hid, hd, Option.isNone_iff_eq_none.mp hnone,
        of_decide_eq_true hlast⟩ (hreads.imp fun _ _ h => ⟨h.port, h.facade, h.term, h.reference,
          h.owned⟩) ⟨hdecides.grounded, hdecides.grows, hdecides.borrowed, hdecides.lends⟩
            fun other => ?_
      rw [hgroups, BorrowGroups.modify_modify, BorrowGroups.decisionOf?_modify, hd]
      rfl
    · refine Ends.pure (.waits hgrounded rfl fun other => ?_)
      rw [BorrowGroups.decisionOf?_modify]
      split
      · rename_i heq
        rw [← heq, BorrowGroups.decisionOf?_of_get hd, hd]
        rfl
      · rfl

end Pass

/-! ## What is known along the second pass -/

/-- The group has opened the lifetime since the second pass started, and is outlived by what its
members were supplied with when it was decided. If it borrows mutably, then all that could be lent
so, and its policy takes mutable references. -/
structure Watch.Borrows (watch : Watch) (g : Graph) (start : Context) (id : GroupId)
    (group : BorrowGroup) (mutable : Bool) (place : BoundedLifetime) : Prop where
  listed : start.groups.groups[id]? = some group
  scope : watch.context.lifetimes.graphOf group.scope = .ok place.graph
  fresh : ¬start.lifetimes.Has place
  has : watch.context.lifetimes.Has place
  accepts : mutable = true → group.policy ≠ .allowImmutable
  supplied : ∃ source sink ctx data, .joins source sink ctx ∈ watch.moments ∧
    ctx.Completes sink id data ∧ ∀ member ∈ group.wiredIn g,
      ∃ found : SuppliedMember, found.ReadsOff ctx member ∧
        (mutable = true → found.supply.lendsMutably = true) ∧
          ∀ mutable outer, found.supply = .reference mutable (.bounded outer) → outer ≠ place ∧
            (outer.graph = place.graph → watch.context.lifetimes.Covers outer place)

/-- Every borrow has opened a lifetime of its own. -/
structure Watch.Ledger (watch : Watch) (g : Graph) (start : Context) : Prop where
  grounded : watch.context.Grounded
  grows : start.lifetimes.Extends watch.context.lifetimes
  borrowed : ∀ id mutable lifetime,
    watch.context.groups.decisionOf? id = some (.borrow mutable lifetime) →
      ∃ group place, lifetime = .bounded place ∧ watch.Borrows g start id group mutable place
  distinct : ∀ id id' mutable mutable' lifetime,
    watch.context.groups.decisionOf? id = some (.borrow mutable lifetime) →
      watch.context.groups.decisionOf? id' = some (.borrow mutable' lifetime) → id = id'

namespace Watch

variable {watch' : Watch}

theorem Borrows.mono {id : GroupId} {mutable : Bool}
    (h : watch.Borrows g start id group mutable place)
    (hext : watch.context.lifetimes.Extends watch'.context.lifetimes)
    (hmoments : watch.moments ⊆ watch'.moments) :
    watch'.Borrows g start id group mutable place := by
  obtain ⟨source, sink, ctx, data, hmoment, hcompletes, hsupplied⟩ := h.supplied
  refine ⟨h.listed, (hext.graphOf _).trans h.scope, h.fresh, hext.has h.has, h.accepts,
    source, sink, ctx, data, hmoments hmoment, hcompletes, fun member hmember => ?_⟩
  obtain ⟨found, hread, hlends, houtlived⟩ := hsupplied member hmember
  refine ⟨found, hread, hlends, fun mutable outer hsupply => ?_⟩
  obtain ⟨hne, hcovers⟩ := houtlived mutable outer hsupply
  exact ⟨hne, fun hgraph => (hcovers hgraph).of_extends hext⟩

namespace Ledger

theorem mono (h : watch.Ledger g start) (hgrounded : watch'.context.Grounded)
    (hlifetimes : watch'.context.lifetimes = watch.context.lifetimes)
    (hkept : ∀ id, watch'.context.groups.decisionOf? id = watch.context.groups.decisionOf? id)
    (hmoments : watch.moments ⊆ watch'.moments) : watch'.Ledger g start where
  grounded := hgrounded
  grows := hlifetimes ▸ h.grows
  borrowed id mutable lifetime hdecision := by
    rw [hkept] at hdecision
    obtain ⟨group, place, hlifetime, hborrows⟩ := h.borrowed id mutable lifetime hdecision
    exact ⟨group, place, hlifetime, hborrows.mono (hlifetimes ▸ .refl _) hmoments⟩
  distinct := by simpa only [hkept] using h.distinct

theorem settles (h : watch.Ledger g start) (hsettles : watch.context.Settles ctx)
    {moments : List Moment} (hmoments : watch.moments ⊆ moments) :
    Ledger { context := ctx, moments } g start :=
  h.mono (hsettles.grounded h.grounded) hsettles.lifetimes (fun _ => by rw [hsettles.groups])
    hmoments

theorem hears (h : watch.Ledger g start) (source : PortId)
    (hfollows : watch.context.groups.Follows start.groups)
    (hhears : watch.context.Hears g sink ctx) :
    Ledger { context := ctx, moments := watch.moments ++ [.joins source sink watch.context] } g
      start := by
  have hmoments := List.subset_append_left watch.moments [.joins source sink watch.context]
  cases hhears with
  | waits hgrounded hlifetimes hkept => exact h.mono hgrounded hlifetimes hkept hmoments
  | @decides new data supplied decision hcompletes hreads hdecides hdecision =>
    -- the lifetime of an earlier borrow had been opened before
    have hfresh : ∀ id mutable mutable' lifetime, decision = .borrow mutable lifetime →
        watch.context.groups.decisionOf? id ≠ some (.borrow mutable' lifetime) := by
      intro id mutable mutable' lifetime hborrow ho
      obtain ⟨place, rfl, -, hnot, -⟩ := hdecides.borrowed mutable lifetime hborrow
      obtain ⟨_, _, heq, hborrows⟩ := h.borrowed id mutable' _ ho
      cases heq
      exact hnot hborrows.has
    refine ⟨hdecides.grounded, h.grows.trans hdecides.grows, ?_, ?_⟩
    · intro id mutable lifetime hborrow
      rw [hdecision] at hborrow
      split at hborrow
      · rename_i heq
        subst heq
        obtain ⟨place, hlifetime, hscope, hnot, hhas, houtlived⟩ :=
          hdecides.borrowed mutable lifetime (Option.some.inj hborrow)
        obtain ⟨group, hgroup, hstatic⟩ := hfollows.exists_static hcompletes.found
        rw [(BorrowGroup.of_static_eq hstatic).2.1] at hscope
        rw [BorrowGroup.wiredIn_of_static_eq hstatic] at hreads
        have hlends : mutable = true → group.policy.Lends (supplied.map SuppliedMember.supply) := by
          rintro rfl
          obtain ⟨-, -, hpolicy, -⟩ := BorrowGroup.mk.inj hstatic
          rw [← hpolicy]
          exact hdecides.lends lifetime (Option.some.inj hborrow)
        refine ⟨group, place, hlifetime, hgroup, hscope, mt h.grows.has hnot, hhas,
          fun hmutability hpolicy => ?_, source, sink, watch.context, data,
          List.mem_append_right _ List.mem_cons_self, hcompletes, fun member hmember => ?_⟩
        · have haccepts := (hlends hmutability).accepts
          rw [hpolicy] at haccepts
          cases haccepts
        · obtain ⟨found, hf, hread⟩ := exists_of_forall₂ hreads member hmember
          exact ⟨found, hread, fun hmutability => Supply.lendsMutably_iff.mpr
            ((hlends hmutability).mutable _ (List.mem_map_of_mem hf)), houtlived found hf⟩
      · obtain ⟨group, place, hlifetime, hborrows⟩ := h.borrowed id mutable lifetime hborrow
        exact ⟨group, place, hlifetime, hborrows.mono hdecides.grows hmoments⟩
    · intro id id' mutable mutable' lifetime hfirst hsecond
      rw [hdecision] at hfirst hsecond
      split at hfirst <;> split at hsecond
      · rename_i heq heq'
        exact heq.symm.trans heq'
      · exact absurd hsecond (hfresh id' mutable mutable' lifetime (Option.some.inj hfirst))
      · exact absurd hfirst (hfresh id mutable' mutable lifetime (Option.some.inj hsecond))
      · exact h.distinct id id' mutable mutable' lifetime hfirst hsecond

end Ledger

end Watch

namespace Watched

open Pass

/-- Lifetimes of borrows are followed beside the books. -/
def Companion.ledger (g : Graph) (start : Context) : Companion g start.facades start.groups where
  rests _ watch := watch.Ledger g start
  along _ _ _ _ watch := watch.Ledger g start
  opens _ _ hrests := ((moves_openWire unifying_settling _ _).ends _).imp fun _ _ hsettles =>
    hrests.settles hsettles (List.subset_append_left _ _)
  joins {_ _ _ _ source _ _ _} mutable shared _ htracks _ _ halong := by
    apply Ends.bind
    apply ends_during
    apply ((moves_meetSink unifying_settling _ mutable shared _ _).ends _).imp ?_
    rintro expected ctx₁ (hsettles : Context.Settles _ ctx₁)
    have h₁ := halong.settles hsettles (List.Subset.refl _)
    apply Ends.bind
    apply ends_note
    apply Ends.bind
    apply ends_during
    apply (ends_notifyGroup_hears h₁.grounded).imp ?_
    intro _ ctx₂ hhears
    have h₂ := h₁.hears source (hsettles.groups ▸ htracks.counted.follows) hhears
    exact Ends.pure ⟨h₂, h₂⟩
  closes _ halong := halong.mono halong.grounded rfl (fun _ => rfl) (List.Subset.refl _)

theorem ends_settleUnwired_ledger {groups : BorrowGroups}
    (hgrounded : start.Grounded) (hnumbered : start.groups.Numbered g [] groups) :
    Yields ((unwiredGroups groups).forM fun group => settleOutputs g group false)
      { start with groups } fun _ ctx => Watch.Ledger { context := ctx } g start := by
  apply ((Moves.forM fun id => moves_settleOutputs unifying_settling g id false).ends _).mono ?_
    fun _ => id
  rintro _ ctx (hsettles : Context.Settles _ ctx)
  have hnone : ∀ id decision, ctx.groups.decisionOf? id ≠ some decision := by
    intro id decision hdecision
    rw [hsettles.groups] at hdecision
    obtain ⟨data, hd, hdecided⟩ := Option.bind_eq_some_iff.mp hdecision
    cases (hnumbered.undecided id data hd).symm.trans hdecided
  exact ⟨hsettles.grounded hgrounded, hsettles.lifetimes ▸ .refl _,
    fun id _ _ hdecision => absurd hdecision (hnone id _),
    fun id _ _ _ _ hdecision => absurd hdecision (hnone id _)⟩

end Watched

/-! ## Every borrow -/

/-- The group has opened the lifetime in its scope. No other group has it, and no node that opens a
lifetime does. It outlasts the scopes inside. When the last sink of the group had been unified, some
of its members were supplied with references, and those whose lifetimes belong to the scope or to
one around it outlive the new one and are not outlived by it. -/
structure Graph.Lends (g : Graph) (faced unified : Context) (moments : List Moment)
    (id : GroupId) (group : BorrowGroup) (place : BoundedLifetime) : Prop where
  scope : unified.lifetimes.graphOf group.scope = .ok place.graph
  groups : ∀ (other : GroupId) (data : BorrowGroup) (mutable : Bool),
    unified.groups.groups[other]? = some data →
      data.decision = some (.borrow mutable (.bounded place)) → other = id
  nodes : ∀ (n : NodeId) (node : Node), g.nodes[n]? = some node → node.kind.opensLifetime = true →
      (∃ own, faced.Opened node own) ∧ ∀ own, faced.Opened node own → own ≠ place
  outlasts : ∀ scope < g.scopes.size, ∃ answer,
    unified.lifetimes.outlasts (.bounded place) scope = .ok answer ∧
      (answer = true ↔ g.Encloses group.scope scope ∧ group.scope ≠ scope)
  outlived : ∃ source sink ctx data, .joins source sink ctx ∈ moments ∧
    ctx.Completes sink id data ∧ ∀ member ∈ group.wiredIn g,
      ∃ found : SuppliedMember, found.ReadsOff ctx member ∧
        ∀ mutable outer home, found.supply = .reference mutable (.bounded outer) →
          unified.lifetimes.graphOf home = .ok outer.graph → g.Encloses home group.scope →
            unified.lifetimes.outlives (.bounded outer) (.bounded place) = true ∧
              unified.lifetimes.outlives (.bounded place) (.bounded outer) = false

namespace Graph

variable {graph : Graph}

theorem lends_of_borrows {faced : Context} {id : GroupId} {data : BorrowGroup}
    (hn : g.Nested) (hl : g.Layered)
    (hlays : watch.context.lifetimes.Lays g g.scopes.size)
    (hopened : ∀ (n : NodeId) (node : Node), g.nodes[n]? = some node →
      node.kind.opensLifetime = true → ∃ own, faced.Opened node own)
    (hledger : watch.Ledger g faced) {mutable : Bool}
    (h : watch.Borrows g faced id data mutable place)
    (hgroup : watch.context.groups.groups[id]? = some group) (hstatic : group.static = data.static)
    (hdecision : group.decision = some (.borrow mutable (.bounded place))) :
    g.Lends faced watch.context watch.moments id group place := by
  have hscope := h.scope
  obtain ⟨source, sink, ctx, waiting, hmoment, hcompletes, hsupplied⟩ := h.supplied
  rw [← (BorrowGroup.of_static_eq hstatic).2.1] at hscope
  rw [← BorrowGroup.wiredIn_of_static_eq hstatic] at hsupplied
  refine ⟨hscope, ?_, ?_, fun scope hlt => hlays.outlasts_inside hn hl hscope hlt, source,
    sink, ctx, waiting, hmoment, hcompletes, fun member hmember => ?_⟩
  · intro other found mutable' hf ho
    rw [← BorrowGroups.decisionOf?_of_get hgroup] at hdecision
    rw [← BorrowGroups.decisionOf?_of_get hf] at ho
    exact hledger.distinct other id _ _ _ ho hdecision
  · intro n node hnode hopens
    refine ⟨hopened n node hnode hopens, ?_⟩
    rintro own hown rfl
    exact h.fresh hown.has
  · obtain ⟨found, hread, -, houtlived⟩ := hsupplied member hmember
    refine ⟨found, hread, fun mutable outer home hsupply hhome hencloses => ?_⟩
    obtain ⟨hne, hcovers⟩ := houtlived mutable outer hsupply
    exact hlays.outlives_of_encloses hn hl hhome hscope hencloses hne hcovers

theorem Built.exists_ledger (hb : g.Built) {config : Config} {faced unified : Inference}
    (hfaced : Run.facePorts { config, graph := g } = .ok () faced)
    (hunified : Run.unifyWires faced = .ok () unified) :
    ∃ moments, Watched.unifyWires g { context := faced.context } =
        .ok () { context := unified.context, moments } ∧
      Watch.Ledger { context := unified.context, moments } g faced.context ∧
        unified.context.groups.Follows faced.context.groups := by
  have hw := hb.wellFormed
  have hc := hb.consistent
  have hl := hb.layered
  have huncounted :=
    (Run.ends_facePorts_keeps (Pass.keeps_uncounted_facePorts config g)).of_eq_ok hfaced
  have htally : faced.context.tally = (0, 0) := congrArg Stats.tally huncounted
  obtain ⟨-, hgrounded, -, -⟩ := (Run.ends_facePorts_of (Pass.ends_facePorts_opened hw)).of_eq_ok
    hfaced
  obtain ⟨rfl, hphase, -, hstands, hawaits, hord⟩ := (Run.meets_facePorts hw hc hl).of_eq_ok hfaced
  obtain ⟨_, context, hrun, -⟩ := (Pass.meets_unifyWires hw hc hl hawaits hord).exists_eq_ok
  cases hunified.symm.trans (Run.unifyWires_eq_ok hphase hrun)
  obtain ⟨moments, hwatched⟩ :=
    (Watched.erases_unifyWires faced.graph).exists_eq_ok { context := faced.context } hrun
  obtain ⟨hdone, found, hf, heq⟩ := (Watched.ends_unifyWires_with
    (.ledger faced.graph faced.context) hw hc hl hstands.kept hord htally
      fun _ => Watched.ends_settleUnwired_ledger hgrounded).of_eq_ok hwatched
  exact ⟨moments, hwatched, heq ▸ hf.mono hf.grounded rfl (fun _ => rfl) (List.Subset.refl _),
    hdone.counted.follows⟩

/-- Every borrow has a lifetime of its own, in the scope of its group. -/
theorem Built.borrows_lend (hbuilt : graph.Built) {config : Config} {faced unified : Inference}
    (hfaced : Run.facePorts { config, graph } = .ok () faced)
    (hunified : Run.unifyWires faced = .ok () unified) :
    ∃ moments, Watched.unifyWires graph { context := faced.context } =
        .ok () { context := unified.context, moments } ∧
      ∀ (id : GroupId) (group : BorrowGroup) (mutable : Bool) (lifetime : Lifetime),
        unified.context.groups.groups[id]? = some group →
          group.decision = some (.borrow mutable lifetime) →
            ∃ place, lifetime = .bounded place ∧
              graph.Lends faced.context unified.context moments id group place := by
  obtain ⟨-, -, hlays, hopened⟩ :=
    (Run.ends_facePorts_of (Pass.ends_facePorts_opened hbuilt.wellFormed)).of_eq_ok hfaced
  obtain ⟨moments, hwatched, hledger, hfollows⟩ := hbuilt.exists_ledger hfaced hunified
  refine ⟨moments, hwatched, fun id group mutable lifetime hgroup hdecision => ?_⟩
  obtain ⟨data, place, rfl, hborrows⟩ := hledger.borrowed id mutable lifetime
    ((BorrowGroups.decisionOf?_of_get hgroup).trans hdecision)
  obtain ⟨_, hdata, hstatic⟩ := hfollows.exists_static hgroup
  cases hdata.symm.trans hborrows.listed
  exact ⟨place, rfl, lends_of_borrows hbuilt.wellFormed.nested hbuilt.layered
    (hlays.of_extends hledger.grounded.lawful hledger.grows) hopened hledger hborrows hgroup hstatic
    hdecision⟩

/-- Two numbers are borrowed, and one of the references is selected. -/
def reborrow : Graph :=
  leaves (connect 6 9) (leaves (connect 4 8) (leaves (connect 0 7) (leaves (connect 2 5)
    (leaves (connect 1 3)
      (leaves (addNode rootScope (.functional .selectReference) false)
        (leaves (addNode rootScope (.explicitBorrow true 1) false)
          (leaves (addNode rootScope (.explicitBorrow true 1) false)
            (leaves (addNode rootScope (.constant .int32 true) false)
              (leaves (addNode rootScope (.constant .int32 true) false)
                (leaves (addNode rootScope (.constant .bool false) false) empty))))))))))

theorem built_reborrow : reborrow.Built := by
  unfold reborrow
  repeat apply Built.connect
  repeat apply Built.addNode
  exact .empty

/-- The references have different lifetimes, so they are borrowed again. -/
theorem borrows_lend_reborrow : ∃ faced unified moments group,
    Run.facePorts { config := {}, graph := reborrow } = .ok () faced ∧
      Run.unifyWires faced = .ok () unified ∧
        Watched.unifyWires reborrow { context := faced.context } =
          .ok () { context := unified.context, moments } ∧
        unified.context.groups.groups[1]? = some group ∧
          group.decision = some (.borrow true (.bounded ⟨0, 3⟩)) ∧
            reborrow.Lends faced.context unified.context moments 1 group ⟨0, 3⟩ := by
  obtain ⟨faced, unified, hfaced, hunified, hdecided⟩ : ∃ faced unified,
      Run.facePorts { config := {}, graph := reborrow } = .ok () faced ∧
        Run.unifyWires faced = .ok () unified ∧
          unified.context.groups.decisionOf? 1 = some (.borrow true (.bounded ⟨0, 3⟩)) :=
    ⟨_, _, eq_ok_of_succeeds (by decide +kernel), eq_ok_of_succeeds (by decide +kernel),
      by decide +kernel⟩
  obtain ⟨moments, hwatched, hlends⟩ := built_reborrow.borrows_lend hfaced hunified
  obtain ⟨group, hgroup, hdecision⟩ := Option.bind_eq_some_iff.mp hdecided
  obtain ⟨place, hplace, hlend⟩ := hlends 1 group true _ hgroup hdecision
  cases hplace
  exact ⟨_, _, moments, group, hfaced, hunified, hwatched, hgroup, hdecision, hlend⟩

end Graph

end BorrowFlow
