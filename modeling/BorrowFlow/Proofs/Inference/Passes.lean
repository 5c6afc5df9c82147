import BorrowFlow.Inference.Context
import BorrowFlow.Proofs.Effects

/-!
# The small steps of the passes

What each of the small steps that the passes are made of ends with. The passes themselves are
followed through these rules and never opened further.
-/

namespace BorrowFlow

variable {id : GroupId} {post : PUnit → Context → Prop} {facade : Facade} {port : PortId}

@[simp] theorem Facade.wireSide_simple (flow : FlowId) : (simple flow).wireSide = flow :=
  rfl

@[simp] theorem Facade.nodeSide_simple (flow : FlowId) : (simple flow).nodeSide = flow :=
  rfl

theorem Facade.exists_of_group? (h : facade.group? = some id) :
    ∃ nodeSide wireSide, facade = .referenceInput nodeSide wireSide id := by
  cases facade with
  | referenceInput nodeSide wireSide group =>
    cases h
    exact ⟨nodeSide, wireSide, rfl⟩
  | simple => cases h
  | tunnel => cases h
  | terminationOutput => cases h

namespace Facades

variable {table : Facades}

theorem get_eq_ok : table.get port = .ok facade ↔ table.get? port = some facade := by
  unfold get
  cases table.get? port <;> simp

theorem wireSide_eq_ok {flow : FlowId} :
    table.wireSide port = .ok flow ↔ ∃ facade, table.get? port = some facade ∧
      facade.wireSide = flow := by
  unfold wireSide get
  cases table.get? port <;> simp [Functor.map, Except.map]

theorem nodeSide_eq_ok {flow : FlowId} :
    table.nodeSide port = .ok flow ↔ ∃ facade, table.get? port = some facade ∧
      facade.nodeSide = flow := by
  unfold nodeSide get
  cases table.get? port <;> simp [Functor.map, Except.map]

theorem eq_of_collapse_ok {collapsed : FlowId × Facades} (hfacade : table.get? port = some facade)
    (h : table.collapse port = .ok collapsed) :
    collapsed = (facade.nodeSide, table.set port (.simple facade.nodeSide)) := by
  unfold collapse at h
  obtain ⟨flow, hflow, h⟩ := Except.bind_eq_ok.mp h
  obtain ⟨found, hf, rfl⟩ := nodeSide_eq_ok.mp hflow
  cases hfacade.symm.trans hf
  exact (Except.ok.inj h).symm

theorem get?_of_not_contains (h : table.contains port = false) : table.get? port = none := by
  unfold contains IdMap.contains at h
  unfold get?
  exact Option.not_isSome_iff_eq_none.mp (by simp [h])

theorem contains_eq_false (h : table.get? port = none) : table.contains port = false := by
  unfold get? at h
  simp [contains, IdMap.contains, h]

@[simp] theorem get?_set (facade : Facade) (other : PortId) :
    (table.set port facade).get? other = if other = port then some facade else table.get? other :=
  IdMap.get?_insert ..

theorem of_get?_set {other : PortId} {found : Facade}
    (h : (table.set port facade).get? other = some found) :
    other = port ∧ facade = found ∨ other ≠ port ∧ table.get? other = some found := by
  rw [get?_set] at h
  split at h
  · exact .inl ⟨‹_›, Option.some.inj h⟩
  · exact .inr ⟨‹_›, h⟩

end Facades

namespace BorrowGroups

variable {groups groups' : BorrowGroups} {data : BorrowGroup}

theorem get_eq_ok : groups.get id = .ok data ↔ groups.groups[id]? = some data := by
  unfold get
  cases groups.groups[id]? <;> simp

theorem getElem?_modify_self (hd : groups.groups[id]? = some data)
    (change : BorrowGroup → BorrowGroup) :
    (groups.modify id change).groups[id]? = some (change data) := by
  rw [modify, Array.getElem?_modify, if_pos rfl, hd, Option.map_some]

theorem of_getElem?_modify {change : BorrowGroup → BorrowGroup} {other : GroupId}
    (h : (groups.modify id change).groups[other]? = some data) :
    (id = other ∧ ∃ old, groups.groups[id]? = some old ∧ change old = data) ∨
      id ≠ other ∧ groups.groups[other]? = some data := by
  rw [modify, Array.getElem?_modify] at h
  split at h
  · rename_i heq
    exact .inl ⟨heq, Option.map_eq_some_iff.mp (heq ▸ h)⟩
  · exact .inr ⟨‹_›, h⟩

theorem getElem?_create {node : NodeId} {scope : ScopeId} {policy : Policy} {lifetimeTerm : TermId}
    {other : GroupId} : (groups.create node scope policy lifetimeTerm).2.groups[other]? =
      if other = groups.size then some { node, scope, policy, lifetimeTerm }
      else groups.groups[other]? :=
  Array.getElem?_push

theorem of_arrive_eq_ok {ready : Bool} (h : groups.arrive id = .ok (ready, groups')) :
    ∃ data, groups.groups[id]? = some data ∧
      ready = (data.decision.isNone && data.received + 1 = data.wired) ∧
        groups' = groups.modify id fun group => { group with received := data.received + 1 } := by
  obtain ⟨data, hd, h⟩ := Except.bind_eq_ok.mp h
  cases h
  exact ⟨data, get_eq_ok.mp hd, rfl, rfl⟩

theorem of_decide_eq_ok {decision : Decision} (h : groups.decide id decision = .ok groups') :
    groups' = groups.modify id fun group => { group with decision := some decision } := by
  obtain ⟨data, -, h⟩ := Except.bind_eq_ok.mp h
  split at h
  · cases h
  · exact (Except.ok.inj h).symm

end BorrowGroups

namespace Pass

variable {α : Type} {ctx : Context} {query : Context → Except Fault α}

section Rules

variable {failed : Fault → Context → Prop}

theorem meets_ask {post : α → Context → Prop} (hok : ∀ a, query ctx = .ok a → post a ctx)
    (hfailed : ∀ fault, query ctx = .error fault → failed fault ctx) :
    Meets (ask query) ctx post failed :=
  Meets.lift hok hfailed

theorem meets_insertFacade (hok : ctx.facades.contains port = false →
      post () { ctx with facades := ctx.facades.set port facade })
    (hfailed : ctx.facades.contains port = true →
      failed (.facadeTwice port) { ctx with facades := ctx.facades.set port facade }) :
    Meets (insertFacade port facade) ctx post failed := by
  unfold insertFacade
  apply Meets.bind
  apply Meets.bind
  change Meets (if ctx.facades.contains port then throw (Fault.facadeTwice port) else pure () :
    Pass Unit) { ctx with facades := ctx.facades.set port facade } post failed
  cases hcontains : ctx.facades.contains port with
  | true => exact hfailed hcontains
  | false => exact hok hcontains

theorem meets_changeGroups {change : BorrowGroups → Except Fault BorrowGroups}
    (hok : ∀ groups, change ctx.groups = .ok groups → post () { ctx with groups })
    (hfailed : ∀ fault, change ctx.groups = .error fault → failed fault ctx) :
    Meets (changeGroups change) ctx post failed := by
  apply Meets.bind
  apply meets_ask
  · intro groups hgroups
    exact hok groups hgroups
  · exact hfailed

end Rules

variable {failed : Context → Prop}

theorem ends_ask {post : α → Context → Prop}
    (hok : ∀ a, query ctx = .ok a → post a ctx) (hfailed : failed ctx) :
    Ends (ask query) ctx post failed :=
  meets_ask hok fun _ _ => hfailed

theorem yields_ask {β : Type} {next : α → Pass β}
    {post : β → Context → Prop} (h : ∀ a, query ctx = .ok a → Yields (next a) ctx post) :
    Yields (ask query >>= next) ctx post :=
  Ends.bind (ends_ask h trivial)

theorem ends_modify {change : Context → Context} (h : post () (change ctx)) :
    Ends (modify change : Pass PUnit) ctx post failed :=
  h

theorem ends_count {change : Stats → Stats} (h : post () { ctx with stats := change ctx.stats }) :
    Ends (count change) ctx post failed :=
  h

theorem ends_newFlow {mutable : Bool} {term : TermId} {post : FlowId → Context → Prop}
    (h : post ctx.flows.size { ctx with flows := (ctx.flows.new mutable (some term)).2 }) :
    Ends (newFlow mutable term) ctx post failed :=
  h

theorem ends_insertFacade (hok : ctx.facades.contains port = false →
      post () { ctx with facades := ctx.facades.set port facade })
    (hfailed : failed { ctx with facades := ctx.facades.set port facade }) :
    Ends (insertFacade port facade) ctx post failed :=
  meets_insertFacade hok fun _ => hfailed

theorem ends_changeGroups {change : BorrowGroups → Except Fault BorrowGroups}
    (hok : ∀ groups, change ctx.groups = .ok groups → post () { ctx with groups })
    (hfailed : failed ctx) : Ends (changeGroups change) ctx post failed :=
  meets_changeGroups hok fun _ _ => hfailed

theorem ends_unifyAt {expected supplied : TermId} (h : post ()
      { ctx with
        terms := (ctx.terms.unify expected supplied).store
        diagnostics := ctx.diagnostics.record port (ctx.terms.unify expected supplied).outcome }) :
    Ends (unifyAt port expected supplied) ctx post failed :=
  h

end Pass

end BorrowFlow
