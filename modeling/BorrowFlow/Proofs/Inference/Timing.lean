import BorrowFlow.Proofs.Graph.Outputs
import BorrowFlow.Proofs.Inference.Arrivals
import BorrowFlow.Proofs.Inference.Faults
import BorrowFlow.Signature.Catalogue

/-!
# When groups are decided

A group counts the sinks that have been unified, and is decided by the last one. So it is undecided
when one of its wired members has just been unified, and since everything that feeds a node is
visited before the node, it is decided when the first wire leaves its node.
-/

namespace BorrowFlow

variable {g : Graph} {groups groups' : BorrowGroups} {watch : Watch} {facades : Facades}
  {wires : Nat} {id : GroupId} {order : List NodeId} {ctx : Context}

/-! ## Moments -/

/-- When the wire of an output is about to be unified, the groups of its node that have a wired
member have been decided. When a sink has just been unified with what feeds it, its group has not
been decided. -/
def Moment.Timely (g : Graph) (groups : BorrowGroups) : Moment → Prop
  | opens source ctx => ∀ (id : GroupId) (group : BorrowGroup),
      groups.groups[id]? = some group → (g.ports[source]?).map Port.node = some group.node →
        group.wiredIn g ≠ [] → (ctx.groups.decisionOf? id).isSome = true
  | joins source sink ctx => sink ∈ g.sinksAt source ∧
      ∀ (id : GroupId) (group : BorrowGroup), groups.groups[id]? = some group →
        sink ∈ group.members.map GroupMember.port → ctx.groups.decisionOf? id = none

/-- The moments show that every wire is unified once, as is each of its sinks, that groups are
decided in time, and that no decision is taken back. -/
structure Graph.InTime (g : Graph) (groups : BorrowGroups) (moments : List Moment) : Prop where
  opened_nodup : (moments.filterMap Moment.opened?).Nodup
  mem_opened : ∀ source, source ∈ moments.filterMap Moment.opened? ↔ g.sinksAt source ≠ []
  joined_nodup : (moments.filterMap Moment.joined?).Nodup
  mem_joined : ∀ sink, sink ∈ moments.filterMap Moment.joined? ↔ ∃ source, sink ∈ g.sinksAt source
  timely : ∀ moment ∈ moments, moment.Timely g groups
  kept : ∀ moment ∈ moments, ∀ id decision, moment.context.groups.decisionOf? id = some decision →
    groups.decisionOf? id = some decision

namespace Moment

variable {moment : Moment}

theorem Timely.of_follows (h : moment.Timely g groups) (hfollows : groups'.Follows groups) :
    moment.Timely g groups' := by
  cases moment with
  | opens source ctx =>
    intro id group hgroup hnode hwired
    obtain ⟨data, hd, hstatic⟩ := hfollows.exists_static hgroup
    rw [(BorrowGroup.of_static_eq hstatic).1] at hnode
    rw [BorrowGroup.wiredIn_of_static_eq hstatic] at hwired
    exact h id data hd hnode hwired
  | joins source sink ctx =>
    refine ⟨h.1, fun id group hgroup hmember => ?_⟩
    obtain ⟨data, hd, hstatic⟩ := hfollows.exists_static hgroup
    obtain ⟨-, -, hmembers, -⟩ := BorrowGroup.of_static_eq hstatic
    rw [hmembers] at hmember
    exact h.2 id data hd hmember

end Moment

/-! ## The books reflect the moments -/

/-- What the books and the moments say once some wires have been opened, some sinks have been
joined, and some wires have been counted. -/
structure Watch.Tracks (watch : Watch) (g : Graph) (facades : Facades) (groups : BorrowGroups)
    (opened joined : List PortId) (wires : Nat) : Prop where
  opened_eq : watch.moments.filterMap Moment.opened? = opened
  joined_eq : watch.moments.filterMap Moment.joined? = joined
  counted : g.Counted facades groups joined.reverse watch.context.facades watch.context.groups
  groupsDecided : watch.context.stats.groupsDecided = watch.context.groups.decided
  wiresUnified : watch.context.stats.wiresUnified = wires
  timely : ∀ moment ∈ watch.moments, moment.Timely g groups
  kept : ∀ moment ∈ watch.moments, ∀ id decision,
    moment.context.groups.decisionOf? id = some decision →
      watch.context.groups.decisionOf? id = some decision

namespace Watch.Tracks

variable {opened joined : List PortId} {source sink : PortId}

section

variable {group : BorrowGroup} (h : watch.Tracks g facades groups opened joined wires)
include h

theorem of_books (hbooks : ctx.books = watch.context.books) :
    Tracks { watch with context := ctx } g facades groups opened joined wires := by
  obtain ⟨hfacades, hgroups, hstats, -⟩ := Books.mk.inj hbooks
  obtain ⟨hopened, hjoined, hcounted, hdecided, hwires, htimely, hkept⟩ := h
  rw [← hfacades, ← hgroups] at hcounted
  rw [← hgroups, ← hstats] at hdecided
  rw [← hstats] at hwires
  rw [← hgroups] at hkept
  exact ⟨hopened, hjoined, hcounted, hdecided, hwires, htimely, hkept⟩

theorem fed : ∀ sink ∈ joined, ∃ source, sink ∈ g.sinksAt source := by
  intro sink hsink
  rw [← h.joined_eq, List.mem_filterMap] at hsink
  obtain ⟨moment, hmoment, hjoined⟩ := hsink
  cases moment with
  | opens => cases hjoined
  | joins source other ctx =>
    cases hjoined
    exact ⟨source, (h.timely _ hmoment).1⟩

/-- A group waits for its wired members that have not been joined. -/
theorem received_add_le (harranged : g.Arranged facades groups) (hc : g.Consistent)
    {data : BorrowGroup} (hgroup : groups.groups[id]? = some group)
    (hd : watch.context.groups.groups[id]? = some data) {more : List PortId}
    (hfed : ∀ sink ∈ more, ∃ source, sink ∈ g.sinksAt source)
    (hmembers : ∀ sink ∈ more, sink ∈ group.members.map GroupMember.port)
    (hnodup : (joined ++ more).Nodup) : data.received + more.length ≤ data.wired := by
  obtain ⟨found, hf, hstatic⟩ := h.counted.follows.symm.exists_static hgroup
  cases hd.symm.trans hf
  have hcounts := h.counted.counts id data hd
  have hle := harranged.countP_le_length_wiredIn hc hgroup hnodup
    (List.forall_mem_append.mpr ⟨h.fed, hfed⟩)
  have hall : more.countP (fun sink => (facades.get? sink).bind Facade.group? = some id) =
      more.length :=
    List.countP_eq_length.mpr fun sink hsink =>
      decide_eq_true ((harranged.group?_eq_some_iff hgroup).mpr (hmembers sink hsink))
  rwa [List.countP_append, hall, ← List.countP_reverse, ← hcounts.received,
    BorrowGroup.wiredIn_of_static_eq hstatic, ← hcounts.wired] at hle

theorem decisionOf?_eq_none (harranged : g.Arranged facades groups) (hc : g.Consistent)
    (hsink : sink ∈ g.sinksAt source) (hnodup : (joined ++ [sink]).Nodup)
    (hgroup : groups.groups[id]? = some group)
    (hmember : sink ∈ group.members.map GroupMember.port) :
    watch.context.groups.decisionOf? id = none := by
  obtain ⟨data, hd, -⟩ := h.counted.follows.symm.exists_static hgroup
  have hle := h.received_add_le harranged hc hgroup hd
    (List.forall_mem_singleton.mpr ⟨source, hsink⟩) (List.forall_mem_singleton.mpr hmember) hnodup
  rw [BorrowGroups.decisionOf?_of_get hd, ← Option.not_isSome_iff_eq_none,
    (h.counted.counts id data hd).decided]
  rw [List.length_singleton] at hle
  omega

theorem isSome_decisionOf? (harranged : g.Arranged facades groups)
    (hgroup : groups.groups[id]? = some group) (hwired : group.wiredIn g ≠ [])
    (hjoined : ∀ member ∈ group.wiredIn g, member.port ∈ joined) :
    (watch.context.groups.decisionOf? id).isSome = true := by
  obtain ⟨data, hd, hstatic⟩ := h.counted.follows.symm.exists_static hgroup
  have hplaced := (harranged.placed id group hgroup).of_static_eq hstatic.symm
  obtain ⟨member, hmember⟩ := List.exists_mem_of_ne_nil _ hwired
  rw [BorrowGroup.wiredIn_of_static_eq hstatic] at hjoined hmember
  rw [BorrowGroups.decisionOf?_of_get hd]
  exact (h.counted.counts id data hd).isSome_decision hplaced
    (fun other ho => List.mem_reverse.mpr (hjoined other ho)) hmember

theorem opens (htimely : (Moment.opens source watch.context).Timely g groups) :
    Tracks { watch with moments := watch.moments ++ [.opens source watch.context] } g facades
      groups (opened ++ [source]) joined wires where
  opened_eq := by simp [h.opened_eq, Moment.opened?]
  joined_eq := by simp [h.joined_eq, Moment.joined?]
  __ := h
  timely := List.forall_mem_append.mpr ⟨h.timely, by simpa using htimely⟩
  kept := List.forall_mem_append.mpr ⟨h.kept, by simp [Moment.context]⟩

theorem count :
    Tracks { watch with context := { watch.context with
      stats := { watch.context.stats with
        wiresUnified := watch.context.stats.wiresUnified + 1 } } }
      g facades groups opened joined (wires + 1) where
  __ := h
  wiresUnified := congrArg (· + 1) h.wiresUnified

theorem joins (harranged : g.Arranged facades groups) (hc : g.Consistent)
    (hsink : sink ∈ g.sinksAt source) (hnodup : (joined ++ [sink]).Nodup)
    (hnotified : watch.context.books.Notified sink ctx.books) :
    Tracks { context := ctx, moments := watch.moments ++ [.joins source sink watch.context] } g
      facades groups opened (joined ++ [sink]) wires where
  opened_eq := by simp [h.opened_eq, Moment.opened?]
  joined_eq := by simp [h.joined_eq, Moment.joined?]
  counted := by
    rw [List.reverse_append, List.reverse_singleton, List.singleton_append]
    exact hnotified.counted h.counted
  groupsDecided := hnotified.groupsDecided h.groupsDecided
  wiresUnified := hnotified.wiresUnified.trans h.wiresUnified
  timely := by
    refine List.forall_mem_append.mpr ⟨h.timely, List.forall_mem_singleton.mpr ⟨hsink, ?_⟩⟩
    intro id group hgroup hmember
    exact h.decisionOf?_eq_none harranged hc hsink hnodup hgroup hmember
  kept := by
    refine List.forall_mem_append.mpr ⟨fun moment hmoment id decision hdecision => ?_,
      List.forall_mem_singleton.mpr fun id decision hdecision => hnotified.kept hdecision⟩
    exact hnotified.kept (h.kept moment hmoment id decision hdecision)

end

end Watch.Tracks

/-! ## The watched pass -/

namespace Watched

variable {α : Type} {pass : Pass α} {opened joined : List PortId} {source sink : PortId}

theorem ends_during {post : α → Watch → Prop}
    (h : Yields pass watch.context fun a ctx => post a { watch with context := ctx }) :
    Yields (during pass) watch post :=
  Ends.of_part rfl h

theorem ends_note {moment : Context → Moment} {post : PUnit → Watch → Prop}
    (h : post () { watch with moments := watch.moments ++ [moment watch.context] }) :
    Yields (note moment) watch post :=
  h

theorem ends_of_keeps (hkeeps : Pass.Keeps Context.books pass)
    (h : watch.Tracks g facades groups opened joined wires) :
    Yields (during pass) watch
      fun _ watch' => watch'.Tracks g facades groups opened joined wires := by
  apply ends_during
  exact (hkeeps.ends watch.context).yields fun _ _ => h.of_books

theorem ends_unifySink (flow : FlowId) (mutable shared : Bool) (supplied : TermId)
    (h : watch.Tracks g facades groups opened joined wires)
    (harranged : g.Arranged facades groups) (hc : g.Consistent)
    (hsink : sink ∈ g.sinksAt source) (hnodup : (joined ++ [sink]).Nodup) :
    Yields (unifySink g source flow mutable shared supplied sink) watch
      fun _ watch' => watch'.Tracks g facades groups opened (joined ++ [sink]) wires := by
  apply (ends_of_keeps (Pass.keeps_meetSink ..) h).seq
  intro expected watch' h'
  -- the moment is noted before the group knows
  apply Ends.bind
  apply ends_note
  apply Ends.bind
  apply ends_during
  apply (Pass.ends_notifyGroup g sink _).imp ?_
  intro _ ctx hnotified
  exact Ends.pure (h'.joins harranged hc hsink hnodup hnotified)

/-! ## What is followed beside the books -/

/-- Something that is followed through the watched pass: what holds between two wires, once some
sinks have been joined, and what holds along the wire of a source, given the flow of the source and
the type that sinks are unified with. -/
structure Companion (g : Graph) (facades : Facades) (groups : BorrowGroups) where
  rests : List PortId → Watch → Prop
  along : PortId → FlowId → TermId → List PortId → Watch → Prop
  opens : ∀ {watch : Watch} {opened joined : List PortId} {wires : Nat} {source : PortId},
    watch.Tracks g facades groups opened joined wires →
      (Moment.opens source watch.context).Timely g groups → rests joined watch →
        Yields (Pass.openWire source (g.sinksAt source)) watch.context
          fun found ctx => along source found.1 found.2.1 joined
            { context := ctx, moments := watch.moments ++ [.opens source watch.context] }
  joins : ∀ {watch : Watch} {opened joined : List PortId} {wires : Nat} {source sink : PortId}
    {flow : FlowId} {supplied : TermId} (mutable shared : Bool),
      (shared = true ∨ 1 < (g.sinksAt source).length) →
        watch.Tracks g facades groups opened joined wires → sink ∈ g.sinksAt source →
        (joined ++ [sink]).Nodup → along source flow supplied joined watch →
          Yields (unifySink g source flow mutable shared supplied sink) watch
            fun expected watch' => along source flow supplied (joined ++ [sink]) watch' ∧
              along source flow expected (joined ++ [sink]) watch'
  closes : ∀ {watch : Watch} {joined : List PortId} {source : PortId} {flow : FlowId}
    {supplied : TermId} (stats : Stats), along source flow supplied joined watch →
      rests joined { watch with context := { watch.context with stats } }

/-- Nothing is followed beside the books. -/
def Companion.idle (g : Graph) (facades : Facades) (groups : BorrowGroups) :
    Companion g facades groups where
  rests _ _ := True
  along _ _ _ _ _ := True
  opens _ _ _ := .trivially _ _
  joins _ _ _ _ _ _ _ := (Ends.trivially _ _).imp fun _ _ _ => ⟨trivial, trivial⟩
  closes _ _ := trivial

section Companions

variable (companion : Companion g facades groups)

theorem ends_joinSink {flow : FlowId} {supplied : TermId} (mutable shared : Bool)
    (hshared : shared = true ∨ 1 < (g.sinksAt source).length)
    (h : watch.Tracks g facades groups opened joined wires)
    (halong : companion.along source flow supplied joined watch)
    (harranged : g.Arranged facades groups) (hc : g.Consistent)
    (hsink : sink ∈ g.sinksAt source) (hnodup : (joined ++ [sink]).Nodup) :
    Yields (unifySink g source flow mutable shared supplied sink) watch
      fun expected watch' => watch'.Tracks g facades groups opened (joined ++ [sink]) wires ∧
        companion.along source flow supplied (joined ++ [sink]) watch' ∧
          companion.along source flow expected (joined ++ [sink]) watch' :=
  (ends_unifySink flow mutable shared supplied h harranged hc hsink hnodup).both
    (companion.joins mutable shared hshared h hsink hnodup halong)

theorem ends_unifySinks {flow : FlowId} {supplied : TermId} (mutable shared : Bool)
    {sinks : List PortId} (h : watch.Tracks g facades groups opened joined wires)
    (halong : companion.along source flow supplied joined watch)
    (harranged : g.Arranged facades groups) (hc : g.Consistent)
    (hsinks : ∀ sink ∈ sinks, sink ∈ g.sinksAt source ∧ 1 < (g.sinksAt source).length)
    (hnodup : (joined ++ sinks).Nodup) :
    Yields (sinks.forM fun sink =>
        discard (unifySink g source flow mutable shared supplied sink)) watch
      fun _ watch' => watch'.Tracks g facades groups opened (joined ++ sinks) wires ∧
        companion.along source flow supplied (joined ++ sinks) watch' := by
  apply Ends.forM fun left watch' => ∃ done, done ++ left = joined ++ sinks ∧
    (∀ sink ∈ left, sink ∈ g.sinksAt source ∧ 1 < (g.sinksAt source).length) ∧
      watch'.Tracks g facades groups opened done wires ∧
        companion.along source flow supplied done watch'
  · exact ⟨joined, rfl, hsinks, h, halong⟩
  · rintro sink left watch' ⟨done, hdone, hleft, h', halong'⟩
    rw [← hdone, List.append_cons] at hnodup
    obtain ⟨⟨hsink, hmany⟩, hleft⟩ := List.forall_mem_cons.mp hleft
    apply Ends.discard
    apply (ends_joinSink companion mutable shared (.inr hmany) h' halong' harranged hc hsink
      hnodup.of_append_left).imp ?_
    rintro _ watch'' ⟨h'', halong'', -⟩
    exact ⟨done ++ [sink], by rw [← hdone, ← List.append_cons], hleft, h'', halong''⟩
  · rintro watch' ⟨done, hdone, -, h', halong'⟩
    rw [← hdone, List.append_nil]
    exact ⟨h', halong'⟩

theorem ends_unifyWire (h : watch.Tracks g facades groups opened joined wires)
    (hrests : companion.rests joined watch) (harranged : g.Arranged facades groups)
    (hc : g.Consistent) (htimely : (Moment.opens source watch.context).Timely g groups)
    (hnodup : (joined ++ g.sinksAt source).Nodup) :
    Yields (unifyWire g source (g.sinksAt source)) watch fun _ watch' =>
        watch'.Tracks g facades groups (opened ++ [source]) (joined ++ g.sinksAt source) wires ∧
          ∃ flow supplied,
            companion.along source flow supplied (joined ++ g.sinksAt source) watch' := by
  apply Ends.bind
  apply ends_note
  have hopens : Yields (during (Pass.openWire source (g.sinksAt source)))
      { watch with moments := watch.moments ++ [.opens source watch.context] }
      fun found watch' => companion.along source found.1 found.2.1 joined watch' :=
    ends_during (companion.opens h htimely hrests)
  apply ((ends_of_keeps (Pass.keeps_openWire source _) (h.opens htimely)).both hopens).seq
  rintro ⟨flow, term, mutable, borrowed⟩ watch' ⟨h', halong⟩
  cases hsinks : g.sinksAt source with
  | nil =>
    rw [List.append_nil]
    exact Ends.pure ⟨h', flow, term, halong⟩
  | cons first rest =>
    rw [hsinks, List.append_cons joined] at hnodup
    rw [List.append_cons joined]
    apply (ends_joinSink companion mutable true (.inl rfl) h' halong harranged hc
      (hsinks ▸ List.mem_cons_self) hnodup.of_append_left).seq
    rintro firstTerm watch'' ⟨h'', -, halong'⟩
    have hrest : ∀ sink ∈ rest, sink ∈ g.sinksAt source ∧ 1 < (g.sinksAt source).length := by
      intro sink hsink
      rw [hsinks]
      exact ⟨List.mem_cons_of_mem _ hsink, Nat.succ_lt_succ (List.length_pos_of_mem hsink)⟩
    apply (ends_unifySinks companion mutable borrowed h'' halong' harranged hc hrest hnodup).imp ?_
    rintro _ last ⟨hlast, halong''⟩
    exact ⟨hlast, flow, firstTerm, halong''⟩

/-! ## Every output in its turn -/

section Visits

variable {before after : List PortId}

/-- All wires that leave the given outputs are done. -/
def Done (g : Graph) (facades : Facades) (groups : BorrowGroups) (outputs : List PortId)
    (watch : Watch) : Prop :=
  watch.Tracks g facades groups (outputs.filter fun output => g.sinksAt output ≠ [])
    (outputs.flatMap g.sinksAt)
    (outputs.filter fun output => g.sinksAt output ≠ []).length

/-- What feeds the node of an output has been unified before, so the groups of the node have been
decided. -/
theorem Done.opens_timely (h : Done g facades groups before watch) (hw : g.WellFormed)
    (hc : g.Consistent) (hl : g.Layered) (harranged : g.Arranged facades groups)
    (horder : g.visitOrder = .ok order)
    (hsplit : order.flatMap g.outputsAt = before ++ source :: after) :
    (Moment.opens source watch.context).Timely g groups := by
  intro id group hgroup hnode hwired
  apply h.isSome_decisionOf? harranged hgroup hwired
  intro member hmember
  have hplaced := harranged.placed id group hgroup
  have hmember' : member ∈ group.members := (List.mem_filter.mp hmember).1
  obtain ⟨origin, horigin⟩ := (hplaced.mem_wiredIn_iff hc hmember').mp hmember
  have hbefore := hw.mem_before_of_feeds hc hl horder hsplit horigin
    ((hplaced.node member hmember').trans hnode.symm)
  exact List.mem_flatMap.mpr ⟨origin, hbefore, horigin⟩

section

variable (hw : g.WellFormed) (hc : g.Consistent) (hl : g.Layered)
  (harranged : g.Arranged facades groups) (horder : g.visitOrder = .ok order)
include hw hc hl harranged horder

theorem ends_unifyOutput (hsplit : order.flatMap g.outputsAt = before ++ source :: after)
    (h : Done g facades groups before watch)
    (hrests : companion.rests (before.flatMap g.sinksAt) watch) :
    Yields (unifyOutput g source) watch
      fun _ watch' => Done g facades groups (before ++ [source]) watch' ∧
        companion.rests ((before ++ [source]).flatMap g.sinksAt) watch' := by
  have hm : source ∈ order.flatMap g.outputsAt := hsplit ▸ List.mem_append_cons_self
  obtain ⟨n, -, hn⟩ := List.mem_flatMap.mp hm
  obtain ⟨port, hport, -⟩ := hw.seated.mem_outputsAt_iff.mp hn
  have hflat : (before ++ [source]).flatMap g.sinksAt =
      before.flatMap g.sinksAt ++ g.sinksAt source := by simp
  refine Yields.lift_bind fun sinks hsinks => ?_
  obtain rfl : g.sinksAt source = sinks :=
    Except.ok.inj ((hc.sinksOf_eq hport).symm.trans hsinks)
  split
  · rename_i hsome
    have hne : g.sinksAt source ≠ [] := by simpa using hsome
    have hnodup : (before ++ [source]).Nodup := by
      have hall := hw.nodup_flatMap_outputsAt hc hl horder
      rw [hsplit, List.append_cons] at hall
      exact hall.of_append_left
    have hsinks := hc.nodup_flatMap_sinksAt hnodup
    rw [hflat] at hsinks
    have htimely := h.opens_timely hw hc hl harranged horder hsplit
    apply (ends_unifyWire companion h hrests harranged hc htimely hsinks).seq
    rintro _ watch' ⟨h', flow, supplied, halong⟩
    apply ends_during
    apply Pass.ends_count
    refine ⟨by simpa [Done, hne] using h'.count, ?_⟩
    rw [hflat]
    exact companion.closes _ halong
  · rename_i hnone
    have hempty : g.sinksAt source = [] := by simpa using hnone
    apply Ends.pure
    refine ⟨by simpa [Done, hempty] using h, ?_⟩
    rwa [hflat, hempty, List.append_nil]

theorem ends_unifyNodes (h : Done g facades groups [] watch) (hrests : companion.rests [] watch) :
    Yields (order.forM fun n => show Watched Unit from do
        let data ← g.getNode n
        data.outputs.forM (unifyOutput g)) watch
      fun _ watch' => Done g facades groups (order.flatMap g.outputsAt) watch' ∧
        companion.rests ((order.flatMap g.outputsAt).flatMap g.sinksAt) watch' := by
  apply Ends.forM fun nodes watch' => ∃ before,
    order.flatMap g.outputsAt = before ++ nodes.flatMap g.outputsAt ∧
      Done g facades groups before watch' ∧ companion.rests (before.flatMap g.sinksAt) watch'
  · exact ⟨[], rfl, h, hrests⟩
  · rintro n rest watch' ⟨before, hsplit, h'⟩
    refine Yields.lift_bind fun node hnode => ?_
    rw [Graph.getNode_eq_ok] at hnode
    rw [List.flatMap_cons, Graph.outputsAt_of_node hnode] at hsplit
    apply Ends.forM fun outputs watch' => ∃ before,
      order.flatMap g.outputsAt = before ++ (outputs ++ rest.flatMap g.outputsAt) ∧
        Done g facades groups before watch' ∧ companion.rests (before.flatMap g.sinksAt) watch'
    · exact ⟨before, hsplit, h'⟩
    · rintro output outputs watch'' ⟨before, hsplit, h'', hrests''⟩
      apply (ends_unifyOutput companion hw hc hl harranged horder hsplit h'' hrests'').imp ?_
      intro _ next hnext
      exact ⟨before ++ [output], by simp [hsplit], hnext⟩
    · exact fun _ hdone => hdone
  · rintro watch' ⟨before, hsplit, h'⟩
    rwa [hsplit, List.flatMap_nil, List.append_nil]

end

theorem done_nil (htally : ctx.tally = (0, 0)) (hnumbered : ctx.groups.Numbered g [] groups') :
    Done g ctx.facades ctx.groups [] { context := { ctx with groups := groups' } }
    where
  opened_eq := rfl
  joined_eq := rfl
  counted := hnumbered.counted ctx.facades
  groupsDecided := by
    have hnone : groups'.decided = 0 := by
      rw [BorrowGroups.decided, List.countP_eq_zero]
      intro group hgroup
      obtain ⟨id, hid⟩ := Array.mem_iff_getElem?.mp (Array.mem_toList_iff.mp hgroup)
      rw [hnumbered.undecided id group hid]
      exact Bool.false_ne_true
    exact (congrArg Prod.fst htally).trans hnone.symm
  wiresUnified := congrArg Prod.snd htally
  timely := nofun
  kept := nofun

theorem ends_unifyWires_with (companion : Companion g ctx.facades ctx.groups)
    (hw : g.WellFormed) (hc : g.Consistent) (hl : g.Layered)
    (harranged : g.Arranged ctx.facades ctx.groups)
    (horder : g.visitOrder = .ok ctx.order) (htally : ctx.tally = (0, 0))
    (hstart : ∀ groups', ctx.groups.Numbered g [] groups' →
      Yields ((Pass.unwiredGroups groups').forM fun group => Pass.settleOutputs g group false)
        { ctx with groups := groups' } fun _ ctx' => companion.rests [] { context := ctx' }) :
    Yields (unifyWires g) { context := ctx } fun _ watch => Done g ctx.facades ctx.groups
        (ctx.order.flatMap g.outputsAt) watch ∧
        ∃ found, companion.rests ((ctx.order.flatMap g.outputsAt).flatMap g.sinksAt) found ∧
          watch = { found with context := { found.context with
            flows := found.context.flows.resolveAll found.context.terms } } := by
  apply Ends.bind
  apply ends_during
  apply Ends.of_part (Pass.countWired_eq g ctx)
  apply (BorrowGroups.ends_countWired harranged.undecided).imp ?_
  intro _ groups' hnumbered
  apply Ends.bind
  apply Ends.get
  have hsettles : Yields (during ((Pass.unwiredGroups groups').forM fun group =>
      Pass.settleOutputs g group false)) { context := { ctx with groups := groups' } }
      fun _ watch => companion.rests [] watch :=
    ends_during (hstart groups' hnumbered)
  apply ((ends_of_keeps (.forM fun id => Pass.keeps_settleOutputs g id false)
    (done_nil htally hnumbered)).both hsettles).seq
  rintro _ watch ⟨h, hrests⟩
  apply (ends_unifyNodes companion hw hc hl harranged horder h hrests).seq
  rintro _ watch' ⟨h', hrests'⟩
  exact ends_during ⟨h'.of_books rfl, watch', hrests', rfl⟩

theorem ends_unifyWires (hw : g.WellFormed) (hc : g.Consistent) (hl : g.Layered)
    (harranged : g.Arranged ctx.facades ctx.groups)
    (horder : g.visitOrder = .ok ctx.order) (htally : ctx.tally = (0, 0)) :
    Yields (unifyWires g) { context := ctx } fun _ watch => Done g ctx.facades ctx.groups
        (ctx.order.flatMap g.outputsAt) watch :=
  (ends_unifyWires_with (.idle g ctx.facades ctx.groups) hw hc hl harranged horder htally
    fun _ _ => .trivially _ _).imp fun _ _ hdone => hdone.1

end Visits

end Companions

end Watched

/-! ## All groups are decided in time -/

/-- Every group has received what it waits for, it has been decided if and only if it waits for
anything, the numbers say so, and it happened in time. -/
structure Context.DecidedInTime (ctx : Context) (g : Graph) (moments : List Moment) : Prop
    where
  received : ∀ group ∈ ctx.groups.groups.toList, group.received = group.wired
  wired : ∀ group ∈ ctx.groups.groups.toList, group.wired = (group.wiredIn g).length
  decided : ∀ group ∈ ctx.groups.groups.toList,
    group.decision.isSome = true ↔ 1 ≤ (group.wiredIn g).length
  groupsDecided : ctx.stats.groupsDecided =
    ctx.groups.groups.toList.countP fun group => 1 ≤ (group.wiredIn g).length
  wiresUnified : ctx.stats.wiresUnified = g.liveWires.length
  inTime : g.InTime ctx.groups moments

namespace Watched.Done

variable {graph : Graph}

section

variable (h : Done g facades groups (order.flatMap g.outputsAt) watch) (hw : g.WellFormed)
  (hc : g.Consistent) (hl : g.Layered)
include h hw hc hl

theorem inTime (horder : g.visitOrder = .ok order) :
    g.InTime watch.context.groups watch.moments := by
  have hnodup := hw.nodup_flatMap_outputsAt hc hl horder
  refine ⟨?_, fun source => ?_, ?_, fun sink => ?_, fun moment hmoment => ?_, h.kept⟩
  · rw [h.opened_eq]
    exact hnodup.filter _
  · rw [h.opened_eq, List.mem_filter, decide_eq_true_iff, and_iff_right_iff_imp]
    intro hne
    obtain ⟨sink, hsink⟩ := List.exists_mem_of_ne_nil _ hne
    exact hw.mem_flatMap_outputsAt hc horder hsink
  · rw [h.joined_eq]
    exact hc.nodup_flatMap_sinksAt hnodup
  · rw [h.joined_eq, List.mem_flatMap]
    exact ⟨fun ⟨source, _, hsink⟩ => ⟨source, hsink⟩,
      fun ⟨source, hsink⟩ => ⟨source, hw.mem_flatMap_outputsAt hc horder hsink, hsink⟩⟩
  · exact (h.timely moment hmoment).of_follows h.counted.follows

theorem received_eq (harranged : g.Arranged facades groups)
    (horder : g.visitOrder = .ok order) {data : BorrowGroup}
    (hd : watch.context.groups.groups[id]? = some data) :
    data.received = (data.wiredIn g).length := by
  obtain ⟨group, hgroup, hstatic⟩ := h.counted.follows.exists_static hd
  have hplaced := (harranged.placed id group hgroup).of_static_eq hstatic
  have hcounts := h.counted.counts id data hd
  apply Nat.le_antisymm
  · have hnodup := hw.nodup_flatMap_outputsAt hc hl horder
    rw [hcounts.received, BorrowGroup.wiredIn_of_static_eq hstatic]
    exact harranged.countP_le_length_wiredIn hc hgroup
      (List.nodup_reverse.mpr (hc.nodup_flatMap_sinksAt hnodup))
      fun sink hsink => h.fed sink (List.mem_reverse.mp hsink)
  · rw [← hcounts.wired]
    refine hcounts.wired_le_received hplaced fun member hmember => List.mem_reverse.mpr ?_
    obtain ⟨source, hsource⟩ :=
      (hplaced.mem_wiredIn_iff hc (List.mem_filter.mp hmember).1).mp hmember
    exact List.mem_flatMap.mpr ⟨source, hw.mem_flatMap_outputsAt hc horder hsource, hsource⟩

theorem decidedInTime (harranged : g.Arranged facades groups)
    (horder : g.visitOrder = .ok order) : watch.context.DecidedInTime g watch.moments := by
  have hgroups : ∀ group ∈ watch.context.groups.groups.toList,
        group.wired = (group.wiredIn g).length ∧ group.received = (group.wiredIn g).length ∧
          (group.decision.isSome = true ↔ 1 ≤ (group.wiredIn g).length) := by
    intro group hm
    obtain ⟨id, hgroup⟩ := Array.mem_iff_getElem?.mp (Array.mem_toList_iff.mp hm)
    have hcounts := h.counted.counts id group hgroup
    have hreceived := h.received_eq hw hc hl harranged horder hgroup
    refine ⟨hcounts.wired, hreceived, ?_⟩
    rw [hcounts.decided, hreceived, hcounts.wired]
    exact and_iff_left (Nat.le_refl _)
  refine ⟨fun group hm => ?_, fun group hm => (hgroups group hm).1,
    fun group hm => (hgroups group hm).2.2, ?_, ?_, h.inTime hw hc hl horder⟩
  · obtain ⟨hwired, hreceived, -⟩ := hgroups group hm
    rw [hwired, hreceived]
  · rw [h.groupsDecided, BorrowGroups.decided]
    apply List.countP_congr
    intro group hm
    rw [decide_eq_true_iff]
    exact (hgroups group hm).2.2
  · rw [h.wiresUnified, hw.length_liveWires hc hl horder]

end

end Watched.Done

namespace Run

theorem ends_facePorts_keeps {γ : Type} {observe : Context → γ} {config : Config}
    (h : Pass.Keeps observe (Pass.facePorts config g)) :
    Yields facePorts { config, graph := g } fun _ state => observe state.context = observe {} :=
  (ends_facePorts_of ((h.ends {}).yields fun _ _ => id)).imp fun _ _ hkept => hkept.2

theorem ends_unifyWires_keeps {γ : Type} {observe : Context → γ} {state : Inference}
    (h : Pass.Keeps observe (Pass.unifyWires state.graph)) :
    Yields unifyWires state fun _ state' => observe state'.context = observe state.context :=
  (ends_unifyWires_of ((h.ends state.context).yields fun _ _ => id)).imp fun _ _ hkept => hkept.2

theorem unifyWires_eq_ok {state : Inference} (hphase : state.phase = .facadesConstructed)
    (hrun : Pass.unifyWires state.graph state.context = .ok () ctx) :
    unifyWires state = .ok () { state with context := ctx, phase := .edgesUnified } := by
  have hmeets : Meets unifyWires state
      (fun _ state' => state' = { state with context := ctx, phase := .edgesUnified })
      fun _ _ => False := by
    apply Meets.bind
    apply meets_require
    · intro _
      apply Meets.bind
      apply meets_pass
      exact Meets.of_ok hrun rfl
    · exact fun ho => ho hphase
  obtain ⟨_, _, hok, rfl⟩ := hmeets.exists_eq_ok
  exact hok

end Run

namespace Graph

/-- Once all ports are faced, the wires can be unified, and every group is decided in time. -/
theorem Built.groups_decidedInTime {graph : Graph} (hbuilt : graph.Built) {config : Config}
    {faced : Inference} (hfaced : Run.facePorts { config, graph } = .ok () faced) :
    ∃ unified moments, Run.unifyWires faced = .ok () unified ∧
      Watched.unifyWires graph { context := faced.context } =
        .ok () { context := unified.context, moments } ∧
      unified.context.groups.Follows faced.context.groups ∧
      unified.context.DecidedInTime graph moments := by
  have hw := hbuilt.wellFormed
  have hc := hbuilt.consistent
  have hl := hbuilt.layered
  have huncounted :=
    (Run.ends_facePorts_keeps (Pass.keeps_uncounted_facePorts config graph)).of_eq_ok hfaced
  have htally : faced.context.tally = (0, 0) := congrArg Stats.tally huncounted
  obtain ⟨rfl, hphase, -, hstands, hawaits, horder⟩ :=
    (Run.meets_facePorts hw hc hl).of_eq_ok hfaced
  obtain ⟨_, context, hrun, -⟩ := (Pass.meets_unifyWires hw hc hl hawaits horder).exists_eq_ok
  have herases := Watched.erases_unifyWires faced.graph
  obtain ⟨moments, hwatched⟩ := herases.exists_eq_ok { context := faced.context } hrun
  have hdone := (Watched.ends_unifyWires hw hc hl hstands.kept horder htally).of_eq_ok hwatched
  exact ⟨_, moments, Run.unifyWires_eq_ok hphase hrun, hwatched, hdone.counted.follows,
    hdone.decidedInTime hw hc hl hstands.kept horder⟩

/-- A value is both choices of a selection, and its result is one choice of another selection that
gets nothing else. A wire to the other choice was taken away again. -/
def sharedSelection : Graph :=
  leaves (connect 5 7) (leaves (disconnect 8) (leaves (connect 5 8)
    (leaves (connect 1 4) (leaves (connect 1 3) (leaves (connect 0 2)
      (leaves (addNode rootScope (.functional .selectReference) false)
        (leaves (addNode rootScope (.functional .selectReference) false)
          (leaves (addNode rootScope (.constant .int32 true) false)
            (leaves (addNode rootScope (.constant .bool false) false) empty)))))))))

theorem built_sharedSelection : sharedSelection.Built := by
  refine .connect (.disconnect ?_
    (by decide +kernel : _ = some (⟨3, .input, 2, rootScope, some 2⟩ : Port)) rfl) _ _
  repeat apply Built.connect
  repeat apply Built.addNode
  exact .empty

theorem groups_decidedInTime_sharedSelection : sharedSelection.wires.size = 4 ∧
    sharedSelection.liveWires.length = 3 ∧
    ∃ faced, Run.facePorts { config := {}, graph := sharedSelection } = .ok () faced ∧
      (faced.context.groups.groups.toList.map fun group =>
        (group.wiredIn sharedSelection).length) = [1, 2, 0, 1] ∧
      ∃ unified moments, Run.unifyWires faced = .ok () unified ∧
        Watched.unifyWires sharedSelection { context := faced.context } =
          .ok () { context := unified.context, moments } ∧
        unified.context.groups.Follows faced.context.groups ∧
        unified.context.DecidedInTime sharedSelection moments := by
  have hfaced := eq_ok_of_succeeds (x := Run.facePorts)
    (s := { config := {}, graph := sharedSelection }) (by decide +kernel)
  exact ⟨by decide +kernel, by decide +kernel, _, hfaced, by decide +kernel,
    built_sharedSelection.groups_decidedInTime hfaced⟩

end Graph

end BorrowFlow
