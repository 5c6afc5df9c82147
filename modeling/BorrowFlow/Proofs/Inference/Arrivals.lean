import BorrowFlow.Proofs.Inference.Settling
import BorrowFlow.Proofs.Inference.Watching

/-!
# What arrives at a group

Each sink lets its group know once, so a group receives no more values than it has wired members.
Letting a group know changes nothing in the books but what the group has received and, if that was
the last value, its decision and the number of decided groups.
-/

namespace BorrowFlow

variable {g : Graph} {facades : Facades} {groups : BorrowGroups} {id : GroupId} {done : List PortId}
  {sink : PortId}

/-! ## Members and sinks -/

section Arrivals

variable {group : BorrowGroup}

theorem Graph.Arranged.group?_eq_some_iff (h : g.Arranged facades groups)
    (hgroup : groups.groups[id]? = some group) :
    (facades.get? sink).bind Facade.group? = some id ↔
      sink ∈ group.members.map GroupMember.port := by
  constructor
  · intro hfacade
    obtain ⟨facade, hf, hid⟩ := Option.bind_eq_some_iff.mp hfacade
    obtain ⟨nodeSide, wireSide, rfl⟩ := Facade.exists_of_group? hid
    obtain ⟨found, hf', member, hmember, rfl⟩ := h.joined hf
    cases hgroup.symm.trans hf'
    exact List.mem_map_of_mem hmember
  · intro hm
    obtain ⟨member, hmember, rfl⟩ := List.mem_map.mp hm
    obtain ⟨nodeSide, wireSide, hfacade⟩ := (h.placed id group hgroup).takes member hmember
    rw [hfacade]
    rfl

section

variable (h : g.Arranged facades groups) (hc : g.Consistent)
  (hgroup : groups.groups[id]? = some group)
  (hnodup : done.Nodup) (hfed : ∀ sink ∈ done, ∃ source, sink ∈ g.sinksAt source)
include h hc hgroup hnodup hfed

theorem Graph.Arranged.subperm_wiredIn :
    (done.filter fun sink => (facades.get? sink).bind Facade.group? = some id).Subperm
      ((group.wiredIn g).map GroupMember.port) := by
  refine (hnodup.filter _).subperm fun sink hsink => ?_
  obtain ⟨hdone, hfacade⟩ := List.mem_filter.mp hsink
  obtain ⟨member, hmember, rfl⟩ :=
    List.mem_map.mp ((h.group?_eq_some_iff hgroup).mp (of_decide_eq_true hfacade))
  exact List.mem_map_of_mem (((h.placed id group hgroup).mem_wiredIn_iff hc hmember).mpr
    (hfed _ hdone))

theorem Graph.Arranged.countP_le_length_wiredIn :
    done.countP (fun sink => (facades.get? sink).bind Facade.group? = some id) ≤
      (group.wiredIn g).length := by
  rw [List.countP_eq_length_filter, ← List.length_map GroupMember.port]
  exact (h.subperm_wiredIn hc hgroup hnodup hfed).length_le

end

end Arrivals

/-! ## What letting a group know does -/

namespace BorrowGroups

variable {data : BorrowGroup}

def decisionOf? (groups : BorrowGroups) (id : GroupId) : Option Decision :=
  (groups.groups[id]?).bind BorrowGroup.decision

def decided (groups : BorrowGroups) : Nat :=
  groups.groups.toList.countP (·.decision.isSome)

theorem decisionOf?_of_get (hd : groups.groups[id]? = some data) :
    groups.decisionOf? id = data.decision := by
  rw [decisionOf?, hd, Option.bind_some]

theorem decisionOf?_modify (change : BorrowGroup → BorrowGroup) (other : GroupId) :
    (groups.modify id change).decisionOf? other =
      if id = other then ((groups.groups[id]?).map change).bind BorrowGroup.decision
      else groups.decisionOf? other := by
  rw [decisionOf?, modify, Array.getElem?_modify]
  split
  · rename_i heq
    rw [heq]
  · rfl

theorem decided_modify (hd : groups.groups[id]? = some data) (change : BorrowGroup → BorrowGroup) :
    (groups.modify id change).decided + data.decision.isSome.toNat =
      groups.decided + (change data).decision.isSome.toNat := by
  have hd' : groups.groups.toList[id]? = some data := by rwa [Array.getElem?_toList]
  obtain ⟨hid, hget⟩ := List.getElem?_eq_some_iff.mp hd'
  have hpos : data.decision.isSome = true → 0 < groups.decided := fun hsome =>
    List.countP_pos_iff.mpr ⟨data, List.mem_of_getElem? hd', hsome⟩
  have hmodify : (groups.modify id change).groups.toList =
      groups.groups.toList.set id (change data) := by
    rw [modify, Array.toList_modify, List.modify_eq_set_getElem?, hd']
    rfl
  rw [decided, hmodify, List.countP_set hid, hget]
  change groups.decided - _ + _ + _ = _
  cases hold : data.decision.isSome <;> cases (change data).decision.isSome <;>
    simp only [hold, Bool.toNat_true, Bool.toNat_false, Bool.false_eq_true, if_true, if_false,
      forall_const] at hpos ⊢ <;>
    omega

end BorrowGroups

/-- What letting the group of a sink know does to the books: there is no group, the group waits for
more, or it is decided. -/
inductive Books.Notified (books : Books) (sink : PortId) : Books → Prop
  | unheard (hnone : (books.facades.get? sink).bind Facade.group? = none) :
    Notified books sink books
  | waits {id : GroupId} {data : BorrowGroup}
    (hgroup : (books.facades.get? sink).bind Facade.group? = some id)
    (hdata : books.groups.groups[id]? = some data)
    (hwaits : data.decision = none → data.received + 1 ≠ data.wired) :
    Notified books sink { books with
      groups := books.groups.modify id fun group => { group with received := data.received + 1 } }
  | decides {id : GroupId} {data : BorrowGroup}
    (hgroup : (books.facades.get? sink).bind Facade.group? = some id)
    (hdata : books.groups.groups[id]? = some data) (hnone : data.decision = none)
    (hlast : data.received + 1 = data.wired) (decision : Decision) :
    Notified books sink { books with
      groups := books.groups.modify id fun group =>
        { group with received := data.received + 1, decision := some decision }
      stats := { books.stats with groupsDecided := books.stats.groupsDecided + 1 } }

namespace Books.Notified

variable {books books' : Books}

section

variable (h : books.Notified sink books')
include h

theorem counted (hcounted : g.Counted facades groups done books.facades books.groups) :
    g.Counted facades groups (sink :: done) books'.facades books'.groups := by
  have hfacades := hcounted.facades_eq
  cases h with
  | unheard hnone => exact hcounted.skip (hfacades ▸ hnone)
  | waits hgroup hd hwaits => exact hcounted.wait (hfacades ▸ hgroup) hd hwaits
  | decides hgroup hd _ hlast decision =>
    exact hcounted.decide (hfacades ▸ hgroup) hd hlast decision

theorem groupsDecided (hdecided : books.stats.groupsDecided = books.groups.decided) :
    books'.stats.groupsDecided = books'.groups.decided := by
  cases h with
  | unheard => exact hdecided
  | waits _ hd =>
    exact hdecided.trans (Nat.add_right_cancel (BorrowGroups.decided_modify hd _)).symm
  | @decides id data _ hd hnone _ decision =>
    have hmodify := BorrowGroups.decided_modify hd fun group =>
      { group with received := data.received + 1, decision := some decision }
    rw [hnone] at hmodify
    exact (congrArg (· + 1) hdecided).trans hmodify.symm

theorem wiresUnified : books'.stats.wiresUnified = books.stats.wiresUnified := by
  cases h <;> rfl

theorem kept {decision : Decision} (hdecision : books.groups.decisionOf? id = some decision) :
    books'.groups.decisionOf? id = some decision := by
  cases h with
  | unheard => exact hdecision
  | waits _ hd =>
    rw [BorrowGroups.decisionOf?_modify]
    split
    · rename_i heq
      subst heq
      rw [hd]
      rwa [BorrowGroups.decisionOf?_of_get hd] at hdecision
    · exact hdecision
  | decides _ hd hnone =>
    rw [BorrowGroups.decisionOf?_modify]
    split
    · rename_i heq
      subst heq
      rw [BorrowGroups.decisionOf?_of_get hd, hnone] at hdecision
      cases hdecision
    · exact hdecision

end

end Books.Notified

namespace Pass

theorem ends_decideGroup (g : Graph) (id : GroupId) (ctx : Context) : Yields (decideGroup g id) ctx
      fun _ ctx' => ∃ decision, ctx'.books = { ctx.books with
        groups := ctx.groups.modify id fun group => { group with decision := some decision }
        stats := { ctx.stats with groupsDecided := ctx.stats.groupsDecided + 1 } } := by
  refine yields_ask fun data _ => ?_
  refine Yields.lift_bind fun wired _ => ?_
  apply (Keeps.mapM fun member => keeps_supplyOf member).bind_ends
  intro supplied ctx1 hbooks1
  apply (keeps_makeDecision data supplied).bind_ends
  intro decision ctx2 hbooks2
  apply (Keeps.forM fun member =>
    keeps_deriveReference data.lifetimeTerm decision member).bind_ends
  intro _ ctx3 hbooks3
  have hbooks : ctx3.books = ctx.books := by rw [hbooks3, hbooks2, hbooks1]
  apply Ends.bind
  refine ends_changeGroups (fun groups hgroups => ?_) trivial
  rw [BorrowGroups.of_decide_eq_ok hgroups]
  apply Ends.bind
  refine ends_count ?_
  apply ((keeps_settleOutputs g id decision.isBorrow).ends _).yields
  intro _ ctx4 hbooks4
  refine ⟨decision, hbooks4.trans ?_⟩
  obtain ⟨hfacades, hgroups, hstats, hord⟩ := Books.mk.inj hbooks
  simp only [Context.books, hfacades, hgroups, hstats, hord]

theorem ends_notifyGroup (g : Graph) (sink : PortId) (ctx : Context) :
    Yields (notifyGroup g sink) ctx fun _ ctx' => ctx.books.Notified sink ctx'.books := by
  refine yields_ask fun facade hfacade => ?_
  have hgroup : (ctx.facades.get? sink).bind Facade.group? = facade.group? := by
    rw [Facades.get_eq_ok.mp hfacade, Option.bind_some]
  cases hid : facade.group? with
  | none => exact Ends.pure (.unheard (hgroup.trans hid))
  | some id =>
    refine yields_ask fun ⟨ready, groups⟩ harrive => ?_
    obtain ⟨data, hd, rfl, rfl⟩ := BorrowGroups.of_arrive_eq_ok harrive
    apply Ends.bind
    refine ends_modify ?_
    split
    · rename_i hready
      obtain ⟨hnone, hlast⟩ := Bool.and_eq_true_iff.mp hready
      apply (ends_decideGroup g id _).imp ?_
      rintro _ ctx' ⟨decision, hbooks⟩
      rw [hbooks, BorrowGroups.modify_modify]
      exact .decides (hgroup.trans hid) hd (Option.isNone_iff_eq_none.mp hnone)
        (of_decide_eq_true hlast) decision
    · rename_i hready
      exact Ends.pure (.waits (hgroup.trans hid) hd fun hnone hlast =>
        hready (by simp [hnone, hlast]))

end Pass

end BorrowFlow
