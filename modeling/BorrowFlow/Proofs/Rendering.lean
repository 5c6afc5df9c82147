import BorrowFlow.Proofs.Inference.Settling

/-!
# Flows and what they are rendered to

Flows are created, merged and changed in any order, and then all of them are rendered at once from
their type terms. Rendering is described in a second way here, by going through the flows one by
one: whatever was merged before, each class has one flow that it is named after, and rendering the
class of every such flow in turn renders each class once and comes to the same.
-/

namespace BorrowFlow

variable {left right : Nat}

/-! ## The key that a class is named after -/

namespace Classes

variable {α : Type} {classes : Classes α}

/-- Every class has the label of one of its own keys. -/
def Named (classes : Classes α) : Prop :=
  ∀ key, classes.label (classes.label key) = classes.label key

theorem named_empty : (∅ : Classes α).Named := fun _ => rfl

theorem Named.push (h : classes.Named) (value : α) : (classes.push value).Named := by
  intro key
  rw [label_push, label_push]
  exact h key

theorem Named.union (h : classes.Named) (combine : α → α → α) (left right : Nat) :
    (classes.union combine left right).Named := by
  by_cases hcreated : left < classes.size ∧ right < classes.size
  · obtain ⟨hl, hr⟩ := hcreated
    intro key
    rw [label_union hl hr key]
    split
    · -- the joined class is named after the key that named the left one
      rw [label_union hl hr, h left]
      split <;> rfl
    · rename_i hne
      rw [label_union hl hr, h key, if_neg hne]
  · have hnone : classes.value? left = none ∨ classes.value? right = none := by
      by_contra hboth
      simp only [not_or, ← Option.isSome_iff_ne_none, value?_isSome] at hboth
      exact hcreated hboth
    rwa [classes.union_of_value?_eq_none hnone]

theorem Named.existsUnique (h : classes.Named) (key : Nat) :
    ∃! name, classes.same key name = true ∧ classes.label name = name := by
  refine ⟨classes.label key, ⟨(classes.same_iff).mpr (h key).symm, h key⟩, ?_⟩
  rintro name ⟨hsame, hname⟩
  rw [(classes.same_iff).mp hsame, hname]

end Classes

namespace FlowStore

variable {flows : FlowStore} {terms : TermStore}

/-! ## Runs -/

inductive Operation where
  | new (mutable : Bool) (term : Option TermId)
  | merge (earlier later : FlowId)
  | setMutable (flow : FlowId) (mutable : Bool)
  | setTerm (flow : FlowId) (term : TermId)
  | setRendered (flow : FlowId) (type : DataType) (lifetime : Lifetime)

/-- The flows that an operation leaves. A type term that is refused leaves them as they are. -/
def Operation.run (flows : FlowStore) : Operation → FlowStore
  | new mutable term => (flows.new mutable term).2
  | merge earlier later => flows.merge earlier later
  | setMutable flow mutable => flows.setMutable flow mutable
  | setTerm flow term => (flows.setTerm flow term).toOption.getD flows
  | setRendered flow type lifetime => flows.setRendered flow type lifetime

def after (operations : List Operation) : FlowStore :=
  operations.foldl Operation.run {}

theorem Operation.named_run (operation : Operation) (h : flows.classes.Named) :
    (operation.run flows).classes.Named := by
  cases operation with
  | new mutable term => exact h.push _
  | merge earlier later => exact h.union _ _ _
  | setMutable flow mutable => exact h
  | setTerm flow term =>
    change ((flows.setTerm flow term).toOption.getD flows).classes.Named
    unfold FlowStore.setTerm
    cases (flows.get flow).term <;> exact h
  | setRendered flow type lifetime => exact h

theorem named_after (operations : List Operation) : (after operations).classes.Named := by
  have hrun : ∀ (operations : List Operation) (flows : FlowStore), flows.classes.Named →
      (operations.foldl Operation.run flows).classes.Named := by
    intro operations
    induction operations with
    | nil => exact fun _ h => h
    | cons operation operations ih => exact fun flows h => ih _ (operation.named_run h)
  exact hrun operations {} Classes.named_empty

/-! ## Flows rendered one by one -/

/-- Renders the class of a flow from its type term, if the class is named after the flow. -/
def resolve (terms : TermStore) (flows : FlowStore) (flow : FlowId) : FlowStore :=
  if flows.classes.label flow = flow then
    match (flows.get flow).term with
    | some term => flows.setRendered flow (terms.render term) (terms.lifetimeOf term)
    | none => flows
  else flows

def resolveInTurn (flows : FlowStore) (terms : TermStore) : FlowStore :=
  (List.range flows.size).foldl (resolve terms) flows

theorem rendered_rendered (terms : TermStore) (flow : Flow) :
    rendered terms (rendered terms flow) = rendered terms flow := by
  unfold rendered
  cases hterm : flow.term <;> simp [hterm]

@[simp] theorem label_resolve (terms : TermStore) (flows : FlowStore) (flow other : FlowId) :
    (flows.resolve terms flow).classes.label other = flows.classes.label other := by
  unfold resolve
  split
  · split <;> rfl
  · rfl

theorem get_modify {flow : FlowId} (hlt : flow < flows.size) (change : Flow → Flow)
    (other : FlowId) :
    (flows.modify flow change).get other =
      if flows.same flow other = true then change (flows.get other) else flows.get other := by
  have hvalue : (flows.modify flow change).classes.value? other = _ :=
    flows.classes.value?_modify flow change other
  rw [get, hvalue]
  by_cases hsame : flows.same flow other = true
  · obtain ⟨data, hdata⟩ := flows.classes.exists_value? (flows.classes.lt_size_of_same hsame hlt)
    have hget : flows.get other = data := by simp [get, hdata]
    rw [if_pos hsame, if_pos (show flows.classes.same flow other = true from hsame), hget, hdata]
    rfl
  · rw [if_neg hsame, if_neg (show ¬flows.classes.same flow other = true from hsame), get]

theorem rendered_of_term_eq_none {flow : Flow} (h : flow.term = none) :
    rendered terms flow = flow := by
  rw [rendered, h]

theorem get_resolve (flows : FlowStore) (flow other : FlowId) :
    (flows.resolve terms flow).get other =
      if flows.classes.label other = flow ∧ flows.classes.label flow = flow then
        rendered terms (flows.get other)
      else flows.get other := by
  unfold resolve
  by_cases hname : flows.classes.label flow = flow
  · rw [if_pos hname]
    have hsame : flows.same flow other = true ↔ flows.classes.label other = flow := by
      rw [same, Classes.same_iff, hname, eq_comm]
    cases hterm : (flows.get flow).term with
    | none =>
      dsimp only
      split
      · rename_i hother
        rw [rendered_of_term_eq_none (get_of_same (hsame.mpr hother.1) ▸ hterm)]
      · rfl
    | some term =>
      dsimp only
      rw [setRendered, get_modify (lt_size_of_term hterm)]
      by_cases hother : flows.classes.label other = flow
      · have hterm' := get_of_same (hsame.mpr hother) ▸ hterm
        rw [if_pos (hsame.mpr hother), if_pos ⟨hother, hname⟩, rendered, hterm']
      · rw [if_neg (mt hsame.mp hother), if_neg fun h => hother h.1]
  · rw [if_neg hname, if_neg fun h => hname h.2]

/-- A run of the loop: exactly the classes whose names it came by are rendered. -/
theorem get_foldl_resolve (h : flows.classes.Named) (visited : List FlowId) (other : FlowId) :
    (visited.foldl (resolve terms) flows).get other =
      if flows.classes.label other ∈ visited then rendered terms (flows.get other)
      else flows.get other := by
  induction visited generalizing flows with
  | nil => simp
  | cons flow visited ih =>
    have hlabel := label_resolve terms flows flow
    have hnamed : (flows.resolve terms flow).classes.Named := by
      intro key
      rw [hlabel, hlabel]
      exact h key
    rw [List.foldl_cons, ih hnamed, hlabel, get_resolve]
    by_cases hother : flows.classes.label other = flow
    · have hname : flows.classes.label flow = flow := by
        rw [← hother]
        exact h other
      simp [hother, hname, rendered_rendered]
    · simp [hother]

theorem get_resolveInTurn (h : flows.classes.Named) (flow : FlowId) :
    (flows.resolveInTurn terms).get flow = (flows.resolveAll terms).get flow := by
  rw [resolveInTurn, get_foldl_resolve h, get_resolveAll]
  split
  · rfl
  · rename_i hout
    have hge : ¬flow < flows.size := by
      rw [List.mem_range] at hout
      exact fun hlt => hout ((flows.classes.label_lt_iff flow).mpr hlt)
    cases hterm : (flows.get flow).term with
    | none => rw [rendered_of_term_eq_none hterm]
    | some term => exact absurd (lt_size_of_term hterm) hge

/-! ## All flows rendered -/

theorem rendered_attributes (terms : TermStore) (flow : Flow) :
    (rendered terms flow).id = flow.id ∧ (rendered terms flow).mutable = flow.mutable ∧
      (rendered terms flow).term = flow.term := by
  unfold rendered
  split <;> exact ⟨rfl, rfl, rfl⟩

theorem resolveAll_resolveAll (flows : FlowStore) (terms : TermStore) :
    (flows.resolveAll terms).resolveAll terms = flows.resolveAll terms := by
  simp [resolveAll, Classes.mapValues, Function.comp_def, rendered_rendered]

/-- After any operations on flows, and any run of operations on terms: rendering all flows gives
every flow whose class has a type term the type that the term is read as and the term's lifetime,
and leaves the others as they are. It changes no number, no mutability, no type term and no class,
and doing it again changes nothing. Each class is named after exactly one flow, and going through
the flows to render the class of each of those gives all flows the same. -/
theorem resolveAll_renders (operations : List Operation) (hterms : terms.Reachable) :
    let flows := after operations
    let resolved := flows.resolveAll terms
    (∀ flow member term, flows.same flow member = true → (flows.get member).term = some term →
        (resolved.get flow).type = terms.render term ∧
          terms.Renders term (resolved.get flow).type ∧
          (resolved.get flow).lifetime = terms.lifetimeOf term) ∧
      (∀ flow, (flows.get flow).term = none → resolved.get flow = flows.get flow) ∧
      (∀ flow, (resolved.get flow).id = (flows.get flow).id ∧
        (resolved.get flow).mutable = (flows.get flow).mutable ∧
        (resolved.get flow).term = (flows.get flow).term) ∧
      (∀ left right, resolved.same left right = flows.same left right) ∧
      resolved.resolveAll terms = resolved ∧
      (∀ flow, ∃! name, flows.same flow name = true ∧ flows.classes.label name = name) ∧
      ∀ flow, (flows.resolveInTurn terms).get flow = resolved.get flow := by
  intro flows resolved
  have hnamed : flows.classes.Named := named_after operations
  have hget : ∀ flow, resolved.get flow = rendered terms (flows.get flow) :=
    flows.get_resolveAll terms
  refine ⟨fun flow member term hsame hterm => ?_, fun flow hterm => ?_, fun flow => ?_,
    fun _ _ => rfl, flows.resolveAll_resolveAll terms, hnamed.existsUnique,
    get_resolveInTurn hnamed⟩
  · have hread := TermStore.renders_render hterms.sound.wellSorted hterms.sound.solvable term
    rw [hget, rendered, get_of_same hsame, hterm]
    exact ⟨rfl, hread, rfl⟩
  · rw [hget, rendered_of_term_eq_none hterm]
  · rw [hget]
    exact rendered_attributes terms (flows.get flow)

/-- A flow of a vector, merged into a flow without a type term, and a flow that stays alone. -/
def mergedFlows : List Operation :=
  [.new false (some 1), .new true none, .merge 0 1, .new false none]

/-- The vector's elements are numbers by the time the flows are rendered. The merged flow has the
number and the mutability of the later one, and still the type term of the earlier one. -/
theorem resolveAll_renders_mergedFlows :
    let terms := TermStore.twoVectors.after [.unify 0 2]
    let resolved := (after mergedFlows).resolveAll terms
    terms.Reachable ∧
      resolved.get 0 = ⟨1, true, .constructed .vector .int32, .unbounded, some 1⟩ ∧
      resolved.get 2 = { id := 2, mutable := false } ∧
      (resolved.get 1).type = terms.render 1 ∧
      ((after mergedFlows).resolveInTurn terms).get 1 = resolved.get 1 := by
  intro terms resolved
  have hterms : terms.Reachable := TermStore.reachable_twoVectors.step (.unify 0 2)
    ⟨.type, by decide, by decide⟩
  obtain ⟨htypes, -, -, -, -, -, hinturn⟩ := resolveAll_renders mergedFlows hterms
  exact ⟨hterms, by decide +kernel, by decide +kernel,
    (htypes 1 0 1 (by decide +kernel) (by decide +kernel)).1, hinturn 1⟩

end FlowStore

end BorrowFlow
