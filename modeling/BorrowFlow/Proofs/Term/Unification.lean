import BorrowFlow.Proofs.Term.Evaluation

/-!
# What unification does

Unification takes steps of the store, makes the two types alike when it succeeds, and keeps every
solution under which the two types are equal; if there is such a solution, then it succeeds. All of
this is by induction on the rules. As no step closes a cycle, the rules derive a result for any two
types of a store that has a solution, and that result is what `unify` computes.
-/

namespace BorrowFlow

variable {constraints : List Constraint} {result : Unified} {sort : TermSort} {id : Nat}

namespace TermStore

variable {s s' : TermStore} {term left right inner : TermId}

abbrev QuietSteps : TermStore → TermStore → Prop := Relation.ReflTransGen Quiet

theorem QuietSteps.steps (h : s.QuietSteps s') : s.Steps s' := by
  induction h with
  | refl => exact .refl
  | tail _ hstep ih => exact ih.tail (.quiet hstep)

theorem QuietSteps.typesKept (h : s.QuietSteps s') : s.TypesKept s' := by
  induction h with
  | refl => exact .refl s
  | tail _ hstep ih => exact ih.trans hstep.typesKept

/-! ## The parts of unification that concern no types -/

theorem unifyMutability_quietSteps (left right : TermId) {first second : Mutability}
    (hfirst : s.MutabilityFits first) (hsecond : s.MutabilityFits second) :
    s.QuietSteps (s.unifyMutability left right first second).2 := by
  have hmutability : ∀ {term}, s.HasSort term .mutability → ∃ value,
      s.probe term = .mutability value := by
    intro term ht
    cases hp : s.probe term with
    | mutability value => exact ⟨value, rfl⟩
    | _ => simp [HasSort, hp, Term.sort] at ht
  cases first with
  | fixed mutable =>
    cases second with
    | fixed mutable' => cases mutable <;> cases mutable' <;> exact .refl
    | shared other =>
      obtain ⟨value, hp⟩ := hmutability hsecond
      cases mutable <;> exact .single (.restrict hp)
  | shared term =>
    obtain ⟨value, hp⟩ := hmutability hfirst
    cases second with
    | fixed mutable => exact .single (.restrict hp)
    | shared other =>
      obtain ⟨value', hp'⟩ := hmutability hsecond
      exact .single (.mutabilities hp hp')

theorem unifyLifetimes_quietSteps (s : TermStore) (left right : TermId) :
    s.QuietSteps (s.unifyLifetimes left right) := by
  unfold unifyLifetimes
  split
  · rename_i first second hl hr
    split
    · rename_i heq
      exact .single (.lifetimes hl hr (by simp [heq]))
    · exact .refl
  · rename_i first second hnot hl hr
    refine .single (.lifetimes hl hr fun value value' hvalue hvalue' => ?_)
    exact (hnot value value' hvalue hvalue').elim
  · exact .refl

theorem Checks.quietSteps {constraint : Constraint} {answer : Bool × TermStore}
    (h : s.Checks constraint term answer) : s.QuietSteps answer.2 := by
  induction h with
  | assumed => exact .refl
  | taken hp => exact .single (.constrain hp)
  | literal => exact .refl
  | option _ _ _ ih => exact ih
  | constructed => exact .refl
  | copied => exact .refl
  | displayed _ _ _ ih => exact ih
  | other => exact .refl

theorem ChecksAll.quietSteps {outcome : Outcome} {result : Outcome × TermStore}
    (h : ChecksAll term s outcome constraints result) : s.QuietSteps result.2 := by
  induction h with
  | nil => exact .refl
  | cons h _ ih => exact h.quietSteps.trans ih

/-- What holds of two references when their mutabilities have been unified. -/
theorem WellSorted.descend (hs : s.WellSorted) {mutability mutability' : Mutability}
    {first second lifetime lifetime' : TermId}
    (hl : s.probe left = .reference mutability first lifetime)
    (hr : s.probe right = .reference mutability' second lifetime') :
    let inner := (s.unifyMutability left right mutability mutability').2
    s.QuietSteps inner ∧ inner.WellSorted ∧
      (inner.HasSort first .type ∧ inner.HasSort lifetime .lifetime) ∧
      inner.HasSort second .type ∧ inner.HasSort lifetime' .lifetime := by
  have hfit := hs.reference hl
  have hfit' := hs.reference hr
  have hquiet := unifyMutability_quietSteps left right hfit.1 hfit'.1
  have hext := hquiet.steps.extends
  exact ⟨hquiet, hquiet.steps.wellSorted hs, ⟨hext.hasSort hfit.2.1, hext.hasSort hfit.2.2⟩,
    hext.hasSort hfit'.2.1, hext.hasSort hfit'.2.2⟩

/-! ## Steps and likeness -/

theorem Refuses.store_eq (h : s.Refuses left right result) :
    result.store = s ∧ result.equal = false := by
  obtain ⟨first, second, -, -, rfl⟩ := h
  exact ⟨rfl, rfl⟩

theorem same_union_self (hl : left < s.size) (hr : right < s.size) :
    (s.union left right).same left right = true :=
  (same_union hl hr left right).mpr (.inr ⟨.inl (same_refl _ _), .inr (same_refl _ _)⟩)

section

variable (hs : s.WellSorted) (hinner : s.probe inner = .unbound id constraints)
  (ht : s.HasSort term .type)
include hs hinner ht

/-- After the constraints of an unbound type are checked on another type, the two can be made one
if the first does not occur in the second. -/
theorem step_bind_of_checksAll {outcome : Outcome} (hfree : s.Searches inner term false)
    (hchecks : ChecksAll term s {} constraints (outcome, s')) :
    s'.Step (s'.union inner term) := by
  have hkept := hchecks.quietSteps.typesKept
  have hinner' : ∃ id constraints, s'.probe inner = .unbound id constraints := by
    rcases hkept.probe inner (hasSort_of_probe hinner) with heq | ⟨-, h⟩
    · exact ⟨id, constraints, heq.trans hinner⟩
    · exact h
  obtain ⟨id', constraints', hinner'⟩ := hinner'
  refine .bind hinner' ((hkept.hasSort _ _).mpr ht) fun hoccurs => ?_
  have hoccurs' := (hkept.occurs_iff hs ht).mp hoccurs
  simpa using hfree.occurs_iff.mpr hoccurs'

theorem Binds.steps (h : s.Binds inner constraints term left right result) :
    s.Steps result.store ∧ (result.equal = true → result.store.same inner term = true) := by
  cases h with
  | infinite _ hrefuses =>
    obtain ⟨hstore, hequal⟩ := hrefuses.store_eq
    rw [hstore]
    exact ⟨.refl, fun htrue => by simp [hequal] at htrue⟩
  | bound hfree hchecks =>
    have hquiet := hchecks.quietSteps
    refine ⟨hquiet.steps.tail (step_bind_of_checksAll hs hinner ht hfree hchecks), fun _ => ?_⟩
    have hkept := hquiet.typesKept
    exact same_union_self ((hkept.hasSort _ _).mpr (hasSort_of_probe hinner)).1
      ((hkept.hasSort _ _).mpr ht).1

end

/-- In a store that knows the arguments of two constructed types to be alike, the types can be made
one. -/
theorem step_constructors {first second : TermId} {head : TypeConstructor}
    (hl : s.probe left = .constructed head first)
    (hr : s.probe right = .constructed head second) (hext : s.Extends s')
    (halike : s'.AlikeShape first second) : s'.Step (s'.union left right) := by
  obtain ⟨first', hl', hfirst⟩ := hext.constructed hl
  obtain ⟨second', hr', hsecond⟩ := hext.constructed hr
  exact .constructors hl' hr' ((hfirst.symm.trans halike).trans hsecond)

/-- Unification of two terms of one sort takes steps, and types that it makes equal are alike
afterwards. -/
theorem Unifies.steps_and_alike (h : Unifies s left right result) :
    ∀ {sort : TermSort}, s.WellSorted → s.HasSort left sort → s.HasSort right sort →
      s.Steps result.store ∧
        (result.equal = true → sort = .type → result.store.AlikeShape left right) := by
  induction h with
  | same h => exact fun _ _ _ => ⟨.refl, fun _ _ => .same h⟩
  | literals hapart hl hr =>
    intro sort hs hsort hsort'
    exact ⟨.single (.literals hsort.1 hsort'.1 hl hr),
      fun _ _ => .same (same_union_self hsort.1 hsort'.1)⟩
  | @constructors s left right first second head unified hapart hl hr h hequal ih =>
    intro sort hs hsort hsort'
    have hfirst := hs.hasSort_argument hl
    have hsecond := hs.hasSort_argument hr
    obtain ⟨hsteps, halike⟩ := ih hs hfirst hsecond
    have hext := hsteps.extends
    exact ⟨hsteps.tail (step_constructors hl hr hext (halike hequal rfl)),
      fun _ _ => .same (same_union_self (hext.hasSort hsort).1 (hext.hasSort hsort').1)⟩
  | @argumentsApart s left right first second head unified refused hapart hl hr h _
      hrefused ih =>
    intro sort hs hsort hsort'
    have hfirst := hs.hasSort_argument hl
    have hsecond := hs.hasSort_argument hr
    obtain ⟨hstore, hequal⟩ := hrefused.store_eq
    refine ⟨?_, fun htrue => by simp [hequal] at htrue⟩
    show s.Steps refused.store
    rw [hstore]
    exact (ih hs hfirst hsecond).1
  | @references s left right first second lifetime lifetime' mutability mutability' unified
      hapart hl hr _ h ih =>
    intro sort hs hsort hsort'
    obtain ⟨hquiet, hs', hfirst, hsecond⟩ := hs.descend hl hr
    obtain ⟨hsteps, halike⟩ := ih hs' hfirst.1 hsecond.1
    have hlast := unifyLifetimes_quietSteps unified.store lifetime lifetime'
    have hall := hquiet.steps.extends.trans (hsteps.extends.trans hlast.steps.extends)
    exact ⟨hquiet.steps.trans (hsteps.trans hlast.steps), fun hequal _ =>
      .reference (hall.reference hl) (hall.reference hr) trivial
        (hlast.steps.extends.alike (halike hequal rfl))⟩
  | lifetimes hapart hl hr =>
    intro sort hs hsort hsort'
    refine ⟨(unifyLifetimes_quietSteps _ _ _).steps, fun _ htype => ?_⟩
    subst htype
    simp [HasSort, hl, Term.sort] at hsort
  | mutabilities hapart hl hr =>
    intro sort hs hsort hsort'
    refine ⟨.single (.quiet (.mutabilities hl hr)), fun _ htype => ?_⟩
    subst htype
    simp [HasSort, hl, Term.sort] at hsort
  | @unbounds s left right _ _ _ _ hapart hl hr =>
    intro sort hs hsort hsort'
    refine ⟨.single (.bind hl (hasSort_of_probe hr) ?_),
      fun _ _ => .same (same_union_self hsort.1 hsort'.1)⟩
    intro hoccurs
    cases hoccurs with
    | here hsame => simp [hapart] at hsame
    | inside hpart _ => simp [part?, hr] at hpart
  | bindLeft hapart hl hr h =>
    intro sort hs hsort hsort'
    have htype : sort = .type := by
      rw [← hsort.2, hl]
      rfl
    subst htype
    obtain ⟨hsteps, hsame⟩ := h.steps hs hl hsort'
    exact ⟨hsteps, fun hequal _ => .same (hsame hequal)⟩
  | bindRight hapart hl hr h =>
    intro sort hs hsort hsort'
    have htype : sort = .type := by
      rw [← hsort'.2, hr]
      rfl
    subst htype
    obtain ⟨hsteps, hsame⟩ := h.steps hs hr hsort
    exact ⟨hsteps, fun hequal _ => .same (same_symm (hsame hequal))⟩
  | clash hapart hclash hrefuses =>
    intro sort hs hsort hsort'
    obtain ⟨hstore, hequal⟩ := hrefuses.store_eq
    rw [hstore]
    exact ⟨.refl, fun htrue => by simp [hequal] at htrue⟩

theorem Unifies.steps (h : Unifies s left right result) (hs : s.WellSorted)
    (hl : s.HasSort left sort) (hr : s.HasSort right sort) :
    s.Steps result.store :=
  (h.steps_and_alike hs hl hr).1

/-! ## Solutions -/

theorem Solves.ne_of_clash {shapes : TermId → Shape} (h : s.Solves shapes)
    (hleft : s.HasSort left .type) (hright : s.HasSort right .type)
    (hclash : Clash (s.probe left) (s.probe right)) : shapes left ≠ shapes right := by
  have hshape : ∀ {term}, s.HasSort term .type →
      (∃ id constraints, s.probe term = .unbound id constraints) ∨
      (∃ type, s.probe term = .literal type ∧ shapes term = .literal type) ∨
      (∃ head argument, s.probe term = .constructed head argument ∧
        shapes term = .constructed head (shapes argument)) ∨
      ∃ mutability underlying lifetime, s.probe term = .reference mutability underlying lifetime ∧
          shapes term = .reference (shapes underlying) := by
    intro term ht
    cases hp : s.probe term with
    | unbound id constraints => exact .inl ⟨_, _, rfl⟩
    | literal type => exact .inr (.inl ⟨_, rfl, h.literal _ _ ht.1 hp⟩)
    | constructed head argument =>
      exact .inr (.inr (.inl ⟨_, _, rfl, h.constructed _ _ _ hp⟩))
    | reference mutability underlying lifetime =>
      exact .inr (.inr (.inr ⟨_, _, _, rfl, h.reference _ _ _ _ hp⟩))
    | lifetime value => simp [HasSort, hp, Term.sort] at ht
    | mutability value => simp [HasSort, hp, Term.sort] at ht
  intro heq
  rcases hshape hleft with ⟨_, _, hl⟩ | ⟨_, hl, hl'⟩ | ⟨_, _, hl, hl'⟩ | ⟨_, _, _, hl, hl'⟩ <;>
    rcases hshape hright with ⟨_, _, hr⟩ | ⟨_, hr, hr'⟩ | ⟨_, _, hr, hr'⟩ | ⟨_, _, _, hr, hr'⟩ <;>
    simp_all [Clash]

theorem Binds.complete (hs : s.WellSorted)
    (hinner : s.probe inner = .unbound id constraints) (ht : s.HasSort term .type)
    (hapart : s.same inner term = false)
    (h : s.Binds inner constraints term left right result) {shapes : TermId → Shape}
    (hshapes : s.Solves shapes) (heq : shapes inner = shapes term) :
    result.equal = true ∧ result.store.Solves shapes := by
  cases h with
  | infinite hf _ =>
    exact absurd heq (hshapes.ne_of_occurs hs hapart (hf.occurs_iff.mp rfl))
  | bound hfree hchecks =>
    have hkept := hchecks.quietSteps.typesKept
    exact ⟨rfl, (hkept.solves hshapes).union ((hkept.hasSort _ _).mpr (hasSort_of_probe hinner))
      ((hkept.hasSort _ _).mpr ht) heq⟩

/-- A solution that makes the two types equal is kept, and if there is one then unification
succeeds. -/
theorem Unifies.complete (h : Unifies s left right result) :
    s.WellSorted → s.HasSort left .type → s.HasSort right .type →
      ∀ {shapes : TermId → Shape}, s.Solves shapes → shapes left = shapes right →
        result.equal = true ∧ result.store.Solves shapes := by
  induction h with
  | same h => exact fun _ _ _ _ hshapes _ => ⟨rfl, hshapes⟩
  | literals => exact fun _ hsort hsort' _ hshapes heq => ⟨rfl, hshapes.union hsort hsort' heq⟩
  | constructors hapart hl hr h hequal ih =>
    intro hs hsort hsort' shapes hshapes heq
    have hfirst := hs.hasSort_argument hl
    have hsecond := hs.hasSort_argument hr
    have hargument := heq
    rw [hshapes.constructed _ _ _ hl, hshapes.constructed _ _ _ hr,
      Shape.constructed.injEq] at hargument
    have hext := (h.steps hs hfirst hsecond).extends
    exact ⟨rfl, (ih hs hfirst hsecond hshapes hargument.2).2.union (hext.hasSort hsort)
      (hext.hasSort hsort') heq⟩
  | argumentsApart hapart hl hr h hequal hrefused ih =>
    intro hs hsort hsort' shapes hshapes heq
    have hfirst := hs.hasSort_argument hl
    have hsecond := hs.hasSort_argument hr
    rw [hshapes.constructed _ _ _ hl, hshapes.constructed _ _ _ hr, Shape.constructed.injEq] at heq
    have htrue := (ih hs hfirst hsecond hshapes heq.2).1
    simp [hequal] at htrue
  | @references s left right first second lifetime lifetime' mutability mutability' unified
      hapart hl hr _ h ih =>
    intro hs hsort hsort' shapes hshapes heq
    rw [hshapes.reference _ _ _ _ hl, hshapes.reference _ _ _ _ hr, Shape.reference.injEq] at heq
    obtain ⟨hquiet, hs', hfirst, hsecond⟩ := hs.descend hl hr
    obtain ⟨hequal, hsolves⟩ := ih hs' hfirst.1 hsecond.1 (hquiet.typesKept.solves hshapes) heq
    exact ⟨hequal, (unifyLifetimes_quietSteps _ _ _).typesKept.solves hsolves⟩
  | lifetimes _ hl | mutabilities _ hl =>
    intro hs hsort
    simp [HasSort, hl, Term.sort] at hsort
  | unbounds => exact fun _ hsort hsort' _ hshapes heq => ⟨rfl, hshapes.union hsort hsort' heq⟩
  | bindLeft hapart hl hr h =>
    exact fun hs _ hsort' _ hshapes heq => h.complete hs hl hsort' hapart hshapes heq
  | bindRight hapart hl hr h =>
    intro hs hsort _ shapes hshapes heq
    refine h.complete hs hr hsort ?_ hshapes heq.symm
    rw [← Bool.not_eq_true] at hapart ⊢
    exact fun hsame => hapart (same_symm hsame)
  | clash hapart hclash hrefuses =>
    intro hs hsort hsort' shapes hshapes heq
    exact absurd heq (hshapes.ne_of_clash hsort hsort' hclash)

/-! ## Unification comes to an end -/

section

variable (hs : s.WellSorted) (h : s.Solvable)
include hs h

theorem Solvable.endsWithin_depth (term : TermId) : s.EndsWithin s.depth term := by
  cases hpart : s.part? term with
  | none =>
    intro part hpart'
    simp [hpart] at hpart'
  | some part => exact (h.endsWithin hs (hasSort_of_part? hpart)).mono (Nat.le_succ _)

theorem renders_render (term : TermId) : s.Renders term (s.render term) :=
  renders_renderTo (h.endsWithin_depth hs term) (Nat.le_refl _)

theorem searches_occurs (inner term : TermId) : s.Searches inner term (s.occurs inner term) :=
  searches_occursTo (h.endsWithin_depth hs term) (Nat.le_refl _)

theorem checks_check (term : TermId) (constraint : Constraint) :
    s.Checks constraint term (s.check term constraint) :=
  checks_checkTo (h.endsWithin_depth hs term) (Nat.le_refl _)

theorem refuses_refuse (left right : TermId) : s.Refuses left right (s.refuse left right) :=
  ⟨_, _, renders_render hs h left, renders_render hs h right, rfl⟩

theorem checksAll_checkAll (term : TermId) (constraints : List Constraint) :
    ChecksAll term s {} constraints (s.checkAll term constraints) := by
  unfold checkAll
  generalize ({} : Outcome) = outcome
  induction constraints generalizing s outcome with
  | nil => exact .nil
  | cons constraint constraints ih =>
    have hchecks := checks_check hs h term constraint
    have hsteps := hchecks.quietSteps.steps
    exact .cons hchecks (ih (hsteps.wellSorted hs) (hsteps.solvable hs h) _)

theorem binds_bindTo (inner : TermId) (constraints : List Constraint)
    (term expected found : TermId) : s.Binds inner constraints term expected found
      (s.bindTo inner constraints term expected found) := by
  have hsearch := searches_occurs hs h inner term
  unfold bindTo
  cases hoccurs : s.occurs inner term with
  | true =>
    rw [hoccurs] at hsearch
    exact .infinite hsearch (refuses_refuse hs h expected found)
  | false =>
    rw [hoccurs] at hsearch
    exact .bound hsearch (checksAll_checkAll hs h term constraints)

/-- To the depth where the left type ends, unification computes what the rules derive. -/
theorem unifies_unifyTo {depth : Nat} (hl : s.HasSort left sort)
    (hr : s.HasSort right sort) (hends : s.EndsWithin depth left) :
    Unifies s left right (unifyTo depth s left right) := by
  induction depth generalizing s left right sort with
  | zero => exact hends.elim
  | succ depth ih =>
    have hpart : ∀ {part}, s.part? left = some part → s.EndsWithin depth part :=
      fun hpart => hends _ hpart
    unfold unifyTo
    cases hapart : s.same left right with
    | true => exact .same hapart
    | false =>
      simp only [Bool.false_eq_true, if_false]
      split
      · rename_i first second hp hp'
        split
        · rename_i heq
          exact .literals hapart hp (heq ▸ hp')
        · rename_i hne
          exact .clash hapart (by simpa [hp, hp', Clash] using hne) (refuses_refuse hs h left right)
      · rename_i first leftArgument second rightArgument hp hp'
        split
        · rename_i heq
          subst heq
          have hfirst := part?_constructed hp
          have hsort := hs.hasSort_part hfirst
          have hsort' := hs.hasSort_argument hp'
          have hinner := ih hs h hsort hsort' (hpart hfirst)
          cases hequal : (unifyTo depth s leftArgument rightArgument).equal with
          | true => exact .constructors hapart hp hp' hinner hequal
          | false =>
            have hsteps := hinner.steps hs hsort hsort'
            exact .argumentsApart hapart hp hp' hinner hequal
              (refuses_refuse (hsteps.wellSorted hs) (hsteps.solvable hs h) left right)
        · rename_i hne
          exact .clash hapart (by simpa [hp, hp', Clash] using hne) (refuses_refuse hs h left right)
      · rename_i hp hp'
        obtain ⟨hquiet, hs', hfirst, hsecond⟩ := hs.descend hp hp'
        refine .references hapart hp hp'
          (fun _ _ => ⟨⟨_, renders_render hs h left⟩, ⟨_, renders_render hs h right⟩⟩) ?_
        exact ih hs' (hquiet.steps.solvable hs h) hfirst.1 hsecond.1
          (hquiet.typesKept.endsWithin hs (hs.reference hp).2.1 (hpart (part?_reference hp)))
      · rename_i hp hp'
        exact .lifetimes hapart hp hp'
      · rename_i hp hp'
        exact .mutabilities hapart hp hp'
      · rename_i hp hp'
        exact .unbounds hapart hp hp'
      · rename_i hp hp'
        exact .bindLeft hapart hp hp' (binds_bindTo hs h ..)
      · rename_i hp' hp
        exact .bindRight hapart hp hp' (binds_bindTo hs h ..)
      · refine .clash hapart ?_ (refuses_refuse hs h left right)
        unfold Clash
        split <;> grind

theorem unifies_unify (hl : s.HasSort left sort) (hr : s.HasSort right sort) :
    Unifies s left right (s.unify left right) :=
  unifies_unifyTo hs h hl hr (h.endsWithin_depth hs left)

end

end TermStore

end BorrowFlow
