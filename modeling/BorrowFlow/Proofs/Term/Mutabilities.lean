import BorrowFlow.Proofs.Term.Knowledge

/-!
# Mutabilities that meet

Two references that are unified keep a mutability each. A shared mutability is restricted by a fixed
one, and two shared ones become one, so afterwards a shared mutability is never more than what it
met. It may be less: it may have been restricted before, or be restricted further down. That is
where unification that reports nothing leaves two types with different mutabilities, and it is the
only such place.
-/

namespace BorrowFlow

namespace Outcome

@[simp] theorem expectedMutable_append (first second : Outcome) :
    (first ++ second).expectedMutable = (first.expectedMutable || second.expectedMutable) := rfl

end Outcome

namespace TermStore

variable {s s' store : TermStore} {term left right : TermId} {first second : Mutability}

/-! ## Unification that reports nothing -/

/-- One mutability is fixed as mutable, and the other one is shared and turned out immutable. -/
def Withheld (s : TermStore) : Mutability → Mutability → Prop
  | .fixed true, .shared term | .shared term, .fixed true =>
    s.probe term = .mutability (some false)
  | _, _ => False

theorem Withheld.isMutable_ne (h : s.Withheld first second) :
    s.isMutable first ≠ s.isMutable second := by
  cases first with
  | fixed mutable =>
    cases mutable with
    | false => cases second <;> cases h
    | true =>
      cases second with
      | fixed => cases h
      | shared term =>
        have hp : s.probe term = .mutability (some false) := h
        simp [isMutable, hp]
  | shared term =>
    cases second with
    | shared => cases h
    | fixed mutable =>
      cases mutable with
      | false => cases h
      | true =>
        have hp : s.probe term = .mutability (some false) := h
        simp [isMutable, hp]

theorem MutabilitiesSettled.isMutable_eq (h : s.MutabilitiesSettled first second)
    (hgranted : ¬s.Withheld first second) :
    s.isMutable first = s.isMutable second := by
  obtain ⟨hmet, hfixed⟩ := h
  cases first with
  | fixed mutable =>
    cases second with
    | fixed mutable' => exact hfixed _ _ rfl rfl
    | shared term =>
      obtain ⟨value, hp, hvalue⟩ := hmet
      cases mutable <;> cases value <;> simp_all [isMutable, Withheld]
  | shared term =>
    cases second with
    | fixed mutable =>
      obtain ⟨value, hp, hvalue⟩ := hmet
      cases mutable <;> cases value <;> simp_all [isMutable, Withheld]
    | shared other => simp only [isMutable, probe_of_same hmet]

/-- Among the references that two types begin with, a mutable one faces one whose mutability is
withheld. -/
inductive Diverges (s : TermStore) : TermId → TermId → Prop
  | here {left right : TermId} {first second : Mutability}
      {underlying underlying' lifetime lifetime' : TermId}
      (hleft : s.probe left = .reference first underlying lifetime)
      (hright : s.probe right = .reference second underlying' lifetime')
      (h : s.Withheld first second) : Diverges s left right
  | inside {left right : TermId} {first second : Mutability}
      {underlying underlying' lifetime lifetime' : TermId}
      (hleft : s.probe left = .reference first underlying lifetime)
      (hright : s.probe right = .reference second underlying' lifetime')
      (h : Diverges s underlying underlying') : Diverges s left right

theorem Diverges.render_ne (h : s.Diverges left right) (hs : s.Sound) :
    s.render left ≠ s.render right := by
  induction h with
  | here hl hr hwithheld =>
    rw [hs.render_reference hl, hs.render_reference hr]
    exact fun heq => hwithheld.isMutable_ne (DataType.reference.inj heq).1
  | inside hl hr _ ih =>
    rw [hs.render_reference hl, hs.render_reference hr]
    exact fun heq => ih (DataType.reference.inj heq).2

theorem render_eq_of_settled (h : s.Alike s.MutabilitiesSettled left right)
    (hs : s.Sound) (hdiverges : ¬s.Diverges left right) :
    s.render left = s.render right := by
  induction h with
  | same hsame => exact Agree.render_eq (.same hsame)
  | reference hl hr hsettled _ ih =>
    have hgranted : ¬s.Withheld _ _ := fun h => hdiverges (.here hl hr h)
    rw [hs.render_reference hl, hs.render_reference hr, hsettled.isMutable_eq hgranted,
      ih fun h => hdiverges (.inside hl hr h)]

/-! ## Mutable references that are expected -/

/-- Unifying two types comes to a pair of references with the given mutabilities. It does not look
into two types that are one already. -/
inductive Meets (s : TermStore) (first second : Mutability) : TermId → TermId → Prop
  | here {left right underlying underlying' lifetime lifetime' : TermId}
      (hapart : s.same left right = false)
      (hleft : s.probe left = .reference first underlying lifetime)
      (hright : s.probe right = .reference second underlying' lifetime') :
      Meets s first second left right
  | underlying {left right underlying underlying' lifetime lifetime' : TermId}
      {mutability mutability' : Mutability} (hapart : s.same left right = false)
      (hleft : s.probe left = .reference mutability underlying lifetime)
      (hright : s.probe right = .reference mutability' underlying' lifetime')
      (h : Meets s first second underlying underlying') : Meets s first second left right
  | argument {left right argument argument' : TermId} {head : TypeConstructor}
      (hapart : s.same left right = false)
      (hleft : s.probe left = .constructed head argument)
      (hright : s.probe right = .constructed head argument')
      (h : Meets s first second argument argument') : Meets s first second left right

/-- What unification comes to is in the types, which stay as they are on the way down. -/
theorem Meets.of_typesKept (h : s.Meets first second left right)
    (hkept : s.TypesKept s') : s'.Meets first second left right := by
  have hapart : ∀ {left right}, s.HasSort left .type → s.same left right = false →
      s'.same left right = false := fun hsort hapart => by
    rw [Bool.eq_false_iff, ne_eq, hkept.same _ _ hsort, hapart]
    exact Bool.false_ne_true
  have hp : ∀ {term data}, s.probe term = data → data.sort = .type →
      data ≠ .literal .unresolved → (∀ id constraints, data ≠ .unbound id constraints) →
      s'.probe term = data := by
    intro term data hp hsort hne hknown
    rcases hkept.probe term (hasSort_of_probe hp hne hsort) with heq | ⟨⟨_, _, hunbound⟩, -⟩
    · exact heq.trans hp
    · exact absurd (hp.symm.trans hunbound) (hknown _ _)
  induction h with
  | here hnot hl hr =>
    exact .here (hapart (hasSort_of_probe hl) hnot)
      (hp hl rfl (by simp) (by simp)) (hp hr rfl (by simp) (by simp))
  | underlying hnot hl hr _ ih =>
    exact .underlying (hapart (hasSort_of_probe hl) hnot)
      (hp hl rfl (by simp) (by simp)) (hp hr rfl (by simp) (by simp)) ih
  | argument hnot hl hr _ ih =>
    exact .argument (hapart (hasSort_of_probe hl) hnot)
      (hp hl rfl (by simp) (by simp)) (hp hr rfl (by simp) (by simp)) ih

/-- A fixed immutable reference in the place of a fixed mutable one is always reported. -/
theorem Unifies.expectedMutable {result : Unified} (h : Unifies s left right result) :
    s.WellSorted → s.Meets (.fixed true) (.fixed false) left right →
      result.outcome.expectedMutable = true := by
  induction h with
  | same hsame =>
    intro _ hmeets
    cases hmeets with
    | here hapart | underlying hapart | argument hapart => simp [hsame] at hapart
  | constructors _ hl hr _ _ ih =>
    intro hs hmeets
    cases hmeets with
    | here _ hp | underlying _ hp => cases hl.symm.trans hp
    | argument _ hp hp' hinside =>
      cases hl.symm.trans hp
      cases hr.symm.trans hp'
      exact ih hs hinside
  | argumentsApart _ hl hr _ _ _ ih =>
    intro hs hmeets
    cases hmeets with
    | here _ hp | underlying _ hp => cases hl.symm.trans hp
    | argument _ hp hp' hinside =>
      cases hl.symm.trans hp
      cases hr.symm.trans hp'
      rw [Outcome.expectedMutable_append, Bool.or_eq_true]
      exact .inl (ih hs hinside)
  | @references s left right _ _ _ _ _ _ _ _ hl hr _ _ ih =>
    intro hs hmeets
    rw [Outcome.expectedMutable_append, Bool.or_eq_true]
    cases hmeets with
    | here _ hp hp' =>
      cases hl.symm.trans hp
      cases hr.symm.trans hp'
      exact .inl rfl
    | underlying _ hp hp' hinside =>
      cases hl.symm.trans hp
      cases hr.symm.trans hp'
      obtain ⟨hquiet, hs', -⟩ := hs.descend hl hr
      exact .inr (ih hs' (hinside.of_typesKept hquiet.typesKept))
    | argument _ hp => cases hl.symm.trans hp
  | literals _ hl | lifetimes _ hl | mutabilities _ hl | unbounds _ hl
  | bindLeft _ hl =>
    intro _ hmeets
    cases hmeets with
    | here _ hp | underlying _ hp | argument _ hp => cases hl.symm.trans hp
  | bindRight _ _ hr =>
    intro _ hmeets
    cases hmeets with
    | here _ _ hp | underlying _ _ hp | argument _ _ hp =>
      cases hr.symm.trans hp
  | clash _ hclash =>
    intro _ hmeets
    cases hmeets with
    | here _ hp hp' | underlying _ hp hp' =>
      rw [hp, hp'] at hclash
      exact hclash.elim
    | argument _ hp hp' =>
      rw [hp, hp'] at hclash
      exact absurd rfl hclash

/-- Unification that succeeds and reports nothing leaves two types that differ at most in the
mutability of the references that they begin with. They are equal unless a reference that is fixed
as mutable faces one with a shared mutability that turned out immutable. Between fixed mutabilities
there is no such exception: an immutable reference in the place of a mutable one is reported. -/
theorem Reachable.render_eq_iff_of_isClean (h : Reachable store)
    (hleft : store.HasSort left .type) (hright : store.HasSort right .type) :
    let result := store.unify left right
    (result.equal = true → result.outcome.isClean = true →
      (result.store.render left).frozen = (result.store.render right).frozen ∧
        (result.store.render left = result.store.render right ↔
          ¬result.store.Diverges left right)) ∧
      (store.Meets (.fixed true) (.fixed false) left right →
        result.outcome.expectedMutable = true) := by
  obtain ⟨hs, hsolvable⟩ := h.sound
  have hunifies := unifies_unify hs hsolvable hleft hright
  refine ⟨fun _ hclean => ?_, hunifies.expectedMutable hs⟩
  have hsettled := hunifies.settled hs hleft hright hclean
  have hs' := (h.sound.unify hleft hright).2
  exact ⟨AlikeShape.frozen_renderTo (hsettled.weaken fun _ _ _ => trivial) _,
    fun heq hdiverges => hdiverges.render_ne hs' heq, render_eq_of_settled hsettled hs'⟩

/-- Under handle three, a reference to a number whose shared mutability was restricted. Under
handles six and nine, a mutable and an immutable reference to numbers. -/
def restrictedReference : TermStore :=
  ({} : TermStore).after [.newMutability, .newType .int32, .newLifetime none,
    .newReference (.shared 0) 1 2, .constrainMutability 0 false,
    .newType (.reference true .int32), .newType (.reference false .int32)]

theorem reachable_restrictedReference : Reachable restrictedReference := by
  have hmutability := Reachable.empty.step .newMutability trivial
  have hnumber := hmutability.step (.newType .int32) trivial
  have hlifetime := hnumber.step (.newLifetime none) trivial
  have hreference := hlifetime.step (.newReference (.shared 0) 1 2)
    ⟨show HasSort _ 0 .mutability by decide, by decide, by decide⟩
  have hrestricted := hreference.step (.constrainMutability 0 false)
    (show HasSort _ 0 .mutability by decide)
  have hmutable := hrestricted.step (.newType (.reference true .int32)) trivial
  exact hmutable.step (.newType (.reference false .int32)) trivial

theorem render_eq_iff_of_isClean_restrictedReference :
    let result := restrictedReference.unify 9 3
    restrictedReference.HasSort 9 .type ∧ restrictedReference.HasSort 3 .type ∧
      restrictedReference.HasSort 6 .type ∧ result.equal = true ∧
      result.outcome.isClean = true ∧
      result.store.render 3 = .reference false .int32 ∧
      (result.store.render 9 = result.store.render 3 ↔ ¬result.store.Diverges 9 3) ∧
      restrictedReference.Meets (.fixed true) (.fixed false) 6 9 ∧
      (restrictedReference.unify 6 9).outcome.expectedMutable = true := by
  intro result
  have hclean := (reachable_restrictedReference.render_eq_iff_of_isClean
    (show restrictedReference.HasSort 9 .type by decide)
    (show restrictedReference.HasSort 3 .type by decide)).1 (by decide) (by decide)
  have hmeets : restrictedReference.Meets (.fixed true) (.fixed false) 6 9 :=
    .here (by decide) (show _ = Term.reference (.fixed true) 4 5 by decide)
      (show _ = Term.reference (.fixed false) 7 8 by decide)
  have hreported := (reachable_restrictedReference.render_eq_iff_of_isClean
    (show restrictedReference.HasSort 6 .type by decide)
    (show restrictedReference.HasSort 9 .type by decide)).2 hmeets
  exact ⟨by decide, by decide, by decide, by decide, by decide, by decide +kernel, hclean.2, hmeets,
    hreported⟩

/-- Where a mutable reference is expected, one with a restricted mutability passes, and stays
immutable. -/
theorem render_ne_restrictedReference :
    let result := restrictedReference.unify 6 3
    Reachable restrictedReference ∧ restrictedReference.HasSort 6 .type ∧
      restrictedReference.HasSort 3 .type ∧ result.equal = true ∧
      result.outcome.isClean = true ∧ result.outcome.expectedMutable = false ∧
      result.store.render 6 = .reference true .int32 ∧
      result.store.render 3 = .reference false .int32 ∧
      result.store.render 6 ≠ result.store.render 3 :=
  ⟨reachable_restrictedReference, by decide, by decide, by decide, by decide, by decide,
    by decide +kernel, by decide +kernel, by decide +kernel⟩

end TermStore

end BorrowFlow
