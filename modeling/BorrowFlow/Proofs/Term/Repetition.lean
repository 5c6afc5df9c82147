import BorrowFlow.Proofs.Term.Failure
import BorrowFlow.Proofs.Term.Mutabilities

/-!
# Unification that is repeated

After two types were unified, successfully or not, unifying them again changes nothing. Wherever the
second time comes to, the first time has been: mutabilities that met have nothing to restrict any
more, lifetimes that met are one or were resolved differently for good, and two parts that could not
be made equal are what they were.
-/

namespace BorrowFlow

theorem Classes.modify_eq_self {α : Type} (classes : Classes α) {key : Nat} {change : α → α}
    (h : (classes.value? key).map change = classes.value? key) :
    classes.modify key change = classes := by
  have hvalues : classes.values.modify (classes.label key) change = classes.values := by
    apply Array.ext_getElem?
    intro index
    rw [Array.getElem?_modify]
    split
    · rename_i heq
      exact heq ▸ h
    · rfl
  cases classes
  simpa [modify] using hvalues

namespace TermStore

variable {s s' store : TermStore} {term left right : TermId} {first second : Mutability}
  {answer : Bool}

/-! ## Lifetimes and mutabilities that met -/

theorem absorb_eq_self {other : Term} (hlt : term < s.size)
    (h : (s.probe term).merge other = s.probe term) : s.absorb term other = s := by
  have hvalue : (s.classes.value? term).map (·.merge other) = s.classes.value? term := by
    rw [value?_eq_probe hlt, Option.map_some, h]
  rw [absorb, s.classes.modify_eq_self hvalue]

theorem MutabilitiesMet.unifyMutability_eq (h : s.MutabilitiesMet first second)
    (left right : TermId) : (s.unifyMutability left right first second).2 = s := by
  have hrestricted : ∀ {term mutable}, (∃ value, s.probe term = .mutability (some value) ∧
      (value = true → mutable = true)) → s.constrainMutability term mutable = s := by
    rintro term mutable ⟨value, hp, hvalue⟩
    refine absorb_eq_self (lt_size_of_probe hp) ?_
    rw [hp]
    cases value with
    | false => rfl
    | true => rw [hvalue rfl]; rfl
  cases first with
  | fixed mutable =>
    cases second with
    | fixed => exact unifyMutability_fixed_store ..
    | shared => cases mutable <;> exact hrestricted h
  | shared term =>
    cases second with
    | fixed => exact hrestricted h
    | shared => exact union_of_same h

/-- Two lifetimes have been unified: they are one, or they were resolved differently. -/
def LifetimesMet (s : TermStore) (left right : TermId) : Prop :=
  s.same left right = true ∨ ∃ first second, s.probe left = .lifetime (some first) ∧
      s.probe right = .lifetime (some second) ∧ first ≠ second

theorem LifetimesMet.mono (h : s.LifetimesMet left right) (hext : s.Extends s') :
    s'.LifetimesMet left right := by
  rcases h with hsame | ⟨first, second, hl, hr, hne⟩
  · exact .inl (hext.same _ _ hsame)
  · exact .inr ⟨first, second, hext.lifetime hl, hext.lifetime hr, hne⟩

theorem LifetimesMet.unifyLifetimes_eq (h : s.LifetimesMet left right) :
    s.unifyLifetimes left right = s := by
  unfold unifyLifetimes
  rcases h with hsame | ⟨first, second, hl, hr, hne⟩
  · rw [union_of_same hsame]
    split
    · split <;> rfl
    · rfl
    · rfl
  · simp [hl, hr, hne]

theorem lifetimesMet_unifyLifetimes (hl : s.HasSort left .lifetime)
    (hr : s.HasSort right .lifetime) :
    (s.unifyLifetimes left right).LifetimesMet left right := by
  have hjoined : (s.union left right).LifetimesMet left right :=
    .inl (same_union_self hl.1 hr.1)
  unfold unifyLifetimes
  split
  · rename_i hp hp'
    split
    · exact hjoined
    · rename_i hne
      exact .inr ⟨_, _, hp, hp', hne⟩
  · exact hjoined
  · rename_i hnot
    have hlifetime : ∀ {term}, s.HasSort term .lifetime → ∃ value,
        s.probe term = .lifetime value := by
      intro term ht
      cases hp : s.probe term with
      | lifetime value => exact ⟨value, rfl⟩
      | _ => simp [HasSort, hp, Term.sort] at ht
    obtain ⟨_, hp⟩ := hlifetime hl
    obtain ⟨_, hp'⟩ := hlifetime hr
    exact (hnot _ _ hp hp').elim

/-! ## Types at rest -/

/-- Two types are at rest: unifying them has the given answer, and finds nothing to do. -/
inductive AtRest (s : TermStore) : TermId → TermId → Bool → Prop
  | same {left right : TermId} (h : s.same left right = true) : AtRest s left right true
  | references {left right underlying underlying' lifetime lifetime' : TermId}
      {first second : Mutability} {answer : Bool}
      (hleft : s.probe left = .reference first underlying lifetime)
      (hright : s.probe right = .reference second underlying' lifetime')
      (hmutabilities : s.MutabilitiesMet first second)
      (hlifetimes : s.LifetimesMet lifetime lifetime')
      (h : AtRest s underlying underlying' answer) : AtRest s left right answer
  | arguments {left right argument argument' : TermId} {head : TypeConstructor}
      (hleft : s.probe left = .constructed head argument)
      (hright : s.probe right = .constructed head argument')
      (h : AtRest s argument argument' false) : AtRest s left right false
  | infiniteLeft {left right : TermId} {id : Nat} {constraints : List Constraint}
      (hleft : s.probe left = .unbound id constraints)
      (hright : ∀ id constraints, s.probe right ≠ .unbound id constraints)
      (h : s.Occurs left right) : AtRest s left right false
  | infiniteRight {left right : TermId} {id : Nat} {constraints : List Constraint}
      (hleft : ∀ id constraints, s.probe left ≠ .unbound id constraints)
      (hright : s.probe right = .unbound id constraints)
      (h : s.Occurs right left) : AtRest s left right false
  | clash {left right : TermId} (h : Clash (s.probe left) (s.probe right)) :
      AtRest s left right false

theorem not_clash_self (data : Term) : ¬Clash data data := by
  cases data <;> simp [Clash]

theorem AtRest.eq_true_of_same (h : s.AtRest left right answer)
    (hsame : s.same left right = true) : answer = true := by
  have hp := probe_of_same hsame
  induction h with
  | same => rfl
  | references hl hr _ _ _ ih =>
    cases hl.symm.trans (hp.trans hr)
    exact ih (same_refl _ _) rfl
  | arguments hl hr _ ih =>
    cases hl.symm.trans (hp.trans hr)
    exact ih (same_refl _ _) rfl
  | infiniteLeft hl hr _ => exact absurd (hp.symm.trans hl) (hr _ _)
  | infiniteRight hl hr _ => exact absurd (hp.trans hr) (hl _ _)
  | clash h => exact absurd (hp ▸ h) (not_clash_self _)

/-- Types at rest stay so as long as only lifetimes and mutabilities come to be known. -/
theorem AtRest.mono (h : s.AtRest left right answer) (hs : s.WellSorted)
    (hintact : s.TypesIntact s') (hext : s.Extends s')
    (hl : s.HasSort left .type) (hr : s.HasSort right .type) :
    s'.AtRest left right answer := by
  induction h with
  | same h => exact .same (hext.same _ _ h)
  | references hp hp' hmutabilities hlifetimes _ ih =>
    exact .references (hext.reference hp) (hext.reference hp')
      (hmutabilities.mono hext) (hlifetimes.mono hext)
      (ih (hs.reference hp).2.1 (hs.reference hp').2.1)
  | arguments hp hp' _ ih =>
    exact .arguments ((hintact.probe _ hl).trans hp) ((hintact.probe _ hr).trans hp')
      (ih (hs.hasSort_argument hp) (hs.hasSort_argument hp'))
  | infiniteLeft hp hknown hoccurs =>
    exact .infiniteLeft ((hintact.probe _ hl).trans hp)
      (by rwa [hintact.probe _ hr]) ((hintact.typesKept.occurs_iff hs hr).mpr hoccurs)
  | infiniteRight hknown hp hoccurs =>
    exact .infiniteRight (by rwa [hintact.probe _ hl])
      ((hintact.probe _ hr).trans hp) ((hintact.typesKept.occurs_iff hs hl).mpr hoccurs)
  | clash h =>
    exact .clash (by rwa [hintact.probe _ hl, hintact.probe _ hr])

/-- Unification finds nothing to do in two types at rest. -/
theorem AtRest.unifyTo_eq (h : s.AtRest left right answer) (hs : s.Sound) {depth : Nat}
    (hends : s.EndsWithin depth left) :
    (unifyTo depth s left right).store = s ∧ (unifyTo depth s left right).equal = answer := by
  induction depth generalizing left right answer with
  | zero => exact hends.elim
  | succ depth ih =>
    cases hsame : s.same left right with
    | true => simp [unifyTo, hsame, h.eq_true_of_same hsame]
    | false =>
      cases h with
      | same h => simp [hsame] at h
      | references hl hr hmutabilities hlifetimes h =>
        obtain ⟨hstore, hanswer⟩ := ih h (hends _ (part?_reference hl))
        simp [unifyTo, hsame, hl, hr, hmutabilities.unifyMutability_eq, hstore, hanswer,
          hlifetimes.unifyLifetimes_eq]
      | arguments hl hr h =>
        obtain ⟨hstore, hanswer⟩ := ih h (hends _ (part?_constructed hl))
        simp [unifyTo, hsame, hl, hr, hstore, hanswer, refuse]
      | infiniteLeft hl hr h =>
        have hoccurs : s.occurs left right = true :=
          (searches_occurs hs.wellSorted hs.solvable left right).occurs_iff.mpr h
        cases hp : s.probe right with
        | unbound id constraints => exact absurd hp (hr id constraints)
        | _ => simp [unifyTo, hsame, hl, hp, bindTo, hoccurs, refuse]
      | infiniteRight hl hr h =>
        have hoccurs : s.occurs right left = true :=
          (searches_occurs hs.wellSorted hs.solvable right left).occurs_iff.mpr h
        cases hp : s.probe left with
        | unbound id constraints => exact absurd hp (hl id constraints)
        | _ => simp [unifyTo, hsame, hr, hp, bindTo, hoccurs, refuse]
      | clash h =>
        cases hl : s.probe left <;> cases hr : s.probe right <;> simp_all [unifyTo, Clash, refuse]

/-! ## Repetition -/

theorem Binds.same_of_bound (hs : s.WellSorted) {inner : TermId} {id : Nat}
    {constraints : List Constraint} {result : Unified}
    (hinner : s.probe inner = .unbound id constraints) (ht : s.HasSort term .type)
    (h : s.Binds inner constraints term left right result) :
    (result.store.same inner term = true ∧ result.equal = true) ∨
      (s.Occurs inner term ∧ result.store = s ∧ result.equal = false) := by
  have hsame := (h.steps hs hinner ht).2
  cases h with
  | infinite hf hrefuses => exact .inr ⟨hf.occurs_iff.mp rfl, hrefuses.store_eq⟩
  | bound => exact .inl ⟨hsame rfl, rfl⟩

/-- Unification leaves its two types at rest, with the answer that it gave. -/
theorem Unifies.atRest {result : Unified} (h : Unifies s left right result) :
    s.WellSorted → s.HasSort left .type → s.HasSort right .type →
      result.store.AtRest left right result.equal := by
  induction h with
  | same h => exact fun _ _ _ => .same h
  | literals | unbounds => exact fun _ hsort hsort' => .same (same_union_self hsort.1 hsort'.1)
  | constructors hapart hl hr h hequal _ =>
    intro hs hsort hsort'
    have hext := (h.steps hs (hs.hasSort_argument hl) (hs.hasSort_argument hr)).extends
    exact .same (same_union_self (hext.hasSort hsort).1 (hext.hasSort hsort').1)
  | argumentsApart hapart hl hr h hequal hrefused ih =>
    intro hs hsort hsort'
    have hfirst := hs.hasSort_argument hl
    have hsecond := hs.hasSort_argument hr
    have hintact := (h.refused hs hfirst hsecond hequal).2
    have hinner := ih hs hfirst hsecond
    rw [hequal] at hinner
    obtain ⟨_, _, -, -, rfl⟩ := hrefused
    exact .arguments ((hintact.probe _ hsort).trans hl) ((hintact.probe _ hsort').trans hr) hinner
  | @references s left right first second lifetime lifetime' mutability mutability' unified
      hapart hl hr _ h ih =>
    intro hs hsort hsort'
    obtain ⟨hquiet, hs', ⟨hfirst, hlifetime⟩, hsecond, hlifetime'⟩ := hs.descend hl hr
    have hsteps := h.steps hs' hfirst hsecond
    have hinner := hsteps.extends
    have hlast := (unifyLifetimes_quietSteps unified.store lifetime lifetime').steps.extends
    have hall := hquiet.steps.extends.trans (hinner.trans hlast)
    refine .references (hall.reference hl) (hall.reference hr) ?_
      (lifetimesMet_unifyLifetimes (hinner.hasSort hlifetime) (hinner.hasSort hlifetime')) ?_
    · exact (mutabilitiesMet_unifyMutability left right (hs.reference hl).1
        (hs.reference hr).1).mono (hinner.trans hlast)
    · -- the lifetimes are unified after the types, and leave those at rest
      exact (ih hs' hfirst hsecond).mono (hsteps.wellSorted hs')
        (unifyLifetimes_typesIntact (hinner.hasSort hlifetime) (hinner.hasSort hlifetime')) hlast
        (hinner.hasSort hfirst) (hinner.hasSort hsecond)
  | lifetimes hapart hl hr | mutabilities hapart hl hr =>
    intro _ hsort
    simp [HasSort, hl, Term.sort] at hsort
  | bindLeft hapart hl hr h =>
    intro hs hsort hsort'
    rcases h.same_of_bound hs hl hsort' with ⟨hsame, hequal⟩ | ⟨hoccurs, hstore, hequal⟩
    · exact hequal ▸ .same hsame
    · rw [hstore, hequal]
      exact .infiniteLeft hl hr hoccurs
  | bindRight hapart hl hr h =>
    intro hs hsort hsort'
    rcases h.same_of_bound hs hr hsort with ⟨hsame, hequal⟩ | ⟨hoccurs, hstore, hequal⟩
    · exact hequal ▸ .same (same_symm hsame)
    · rw [hstore, hequal]
      exact .infiniteRight hl hr hoccurs
  | clash hapart hclash hrefuses =>
    intro _ _ _
    obtain ⟨hstore, hequal⟩ := hrefuses.store_eq
    rw [hstore, hequal]
    exact .clash hclash

/-- Unifying two types a second time gives the answer of the first time, and leaves the store as the
first time left it. -/
theorem Reachable.unify_unify (h : Reachable store) (hleft : store.HasSort left .type)
    (hright : store.HasSort right .type) :
    let result := store.unify left right
    (result.store.unify left right).equal = result.equal ∧
      (result.store.unify left right).store = result.store := by
  intro result
  obtain ⟨hs, hsolvable⟩ := h.sound
  have hs' := (h.sound.unify hleft hright).2
  have hrest := (unifies_unify hs hsolvable hleft hright).atRest hs hleft hright
  exact (hrest.unifyTo_eq hs' (hs'.solvable.endsWithin_depth hs'.wellSorted left)).symm

/-- Under handles five and seven, references to references to numbers. A mutability is shared by
both references of the first, and the two lifetimes are used crosswise. -/
def crossedReferences : TermStore :=
  ({} : TermStore).after [.newMutability, .newLifetime none, .newLifetime (some .unbounded),
    .newType .int32, .newReference (.shared 0) 3 1, .newReference (.shared 0) 4 2,
    .newReference (.fixed true) 3 2, .newReference (.fixed false) 6 1]

theorem reachable_crossedReferences : Reachable crossedReferences := by
  have hmutability := Reachable.empty.step .newMutability trivial
  have hopen := hmutability.step (.newLifetime none) trivial
  have hresolved := hopen.step (.newLifetime (some .unbounded)) trivial
  have hnumber := hresolved.step (.newType .int32) trivial
  have hinner := hnumber.step (.newReference (.shared 0) 3 1)
    ⟨show HasSort _ 0 .mutability by decide, by decide, by decide⟩
  have houter := hinner.step (.newReference (.shared 0) 4 2)
    ⟨show HasSort _ 0 .mutability by decide, by decide, by decide⟩
  have hinner' := houter.step (.newReference (.fixed true) 3 2) ⟨trivial, by decide, by decide⟩
  exact hinner'.step (.newReference (.fixed false) 6 1) ⟨trivial, by decide, by decide⟩

theorem unify_unify_crossedReferences :
    let result := crossedReferences.unify 5 7
    crossedReferences.HasSort 5 .type ∧ crossedReferences.HasSort 7 .type ∧
      result.store.probe 0 = .mutability (some false) ∧
      result.store.probe 1 = .lifetime (some .unbounded) ∧
      (result.store.unify 5 7).equal = result.equal ∧
      (result.store.unify 5 7).store = result.store :=
  ⟨by decide, by decide, by decide +kernel, by decide +kernel,
    reachable_crossedReferences.unify_unify (by decide) (by decide)⟩

end TermStore

end BorrowFlow
