import BorrowFlow.Proofs.Term.Unification

/-!
# Runs of a term store

A run applies operations to the empty store, each to handles of the sorts that it calls for. After
any run the store is well sorted and has a solution. So no type is infinite, every operation comes
to an end, and unification finds the most general way to make two types equal.
-/

namespace BorrowFlow

namespace TermStore

variable {s s' store : TermStore} {term left right : TermId}

/-- What every run of operations keeps up: parts have the sorts that their places call for, and the
equations between types have a solution. -/
structure Sound (s : TermStore) : Prop where
  wellSorted : s.WellSorted
  solvable : s.Solvable

theorem Sound.of_steps (h : s.Sound) (hsteps : s.Steps s') : s'.Sound :=
  ⟨hsteps.wellSorted h.wellSorted, hsteps.solvable h.wellSorted h.solvable⟩

theorem sound_empty : ({} : TermStore).Sound := by
  have hp : ∀ term, ({} : TermStore).probe term = .literal .unresolved :=
    fun term => probe_of_le (Nat.zero_le term)
  refine ⟨fun term => ?_, fun _ => .literal .unresolved, ?_, ?_, ?_, ?_⟩
  · rw [hp]
    trivial
  · exact fun left right hl _ => rfl
  · exact fun term type hlt => absurd hlt (Nat.not_lt_zero term)
  · exact fun term head argument h => by simp [hp] at h
  · exact fun term mutability underlying lifetime h => by simp [hp] at h

/-! ## New terms -/

/-- The shape that a new term gets from the shapes of its parts. -/
def shapeFrom (shapes : TermId → Shape) : Term → Shape
  | .literal type => .literal type
  | .constructed head argument => .constructed head (shapes argument)
  | .reference _ underlying _ => .reference (shapes underlying)
  | _ => .literal .unresolved

theorem eq_size_of_same (h : s.same s.size term = true) : term = s.size := by
  have hge : s.size ≤ term := by
    apply Nat.le_of_not_lt
    intro hlt
    exact Nat.lt_irrefl _ (lt_size_of_same (same_symm h) hlt)
  have hlabel : s.classes.label s.classes.size = s.classes.label term :=
    (s.classes.same_iff).mp h
  rw [s.classes.label_of_le (Nat.le_refl _), s.classes.label_of_le hge] at hlabel
  exact hlabel.symm

theorem Solvable.push (hs : s.WellSorted) (h : s.Solvable) {data : Term}
    (hd : s.PartsFit data) : (s.push data).2.Solvable := by
  obtain ⟨shapes, h⟩ := h
  let shapes' : TermId → Shape := fun term =>
    if term = s.size then shapeFrom shapes data else shapes term
  have hold : ∀ {term sort}, s.HasSort term sort → shapes' term = shapes term :=
    fun ht => if_neg (Nat.ne_of_lt ht.1)
  refine ⟨shapes', fun left right hl hsame => ?_, fun term type hlt hp => ?_,
    fun term head argument hp => ?_, fun term mutability underlying lifetime hp => ?_⟩
  · rw [same_push] at hsame
    by_cases hnew : left = s.size
    · subst hnew
      rw [eq_size_of_same hsame]
    · have hlt : left < s.size := by
        have hle := hl.1
        rw [size_push] at hle
        exact Nat.lt_of_le_of_ne (Nat.le_of_lt_succ hle) hnew
      have hsort : s.HasSort left .type := by
        refine ⟨hlt, ?_⟩
        rw [← hl.2, probe_push, if_neg hnew]
      rw [hold hsort, hold (hsort.of_same hsame), h.same _ _ hsort hsame]
  · rw [probe_push] at hp
    split at hp
    · rename_i hnew
      simp [shapes', hnew, hp, shapeFrom]
    · rename_i hnew
      have hlt' : term < s.size := by
        rw [size_push] at hlt
        exact Nat.lt_of_le_of_ne (Nat.le_of_lt_succ hlt) hnew
      rw [hold ⟨hlt', rfl⟩, h.literal _ _ hlt' hp]
  · rw [probe_push] at hp
    split at hp
    · rename_i hnew
      rw [hp] at hd
      rw [hold hd]
      simp [shapes', hnew, hp, shapeFrom]
    · have hpart := part?_constructed hp
      rw [hold (hasSort_of_part? hpart), hold (hs.hasSort_part hpart), h.constructed _ _ _ hp]
  · rw [probe_push] at hp
    split at hp
    · rename_i hnew
      rw [hp] at hd
      rw [hold hd.2.1]
      simp [shapes', hnew, hp, shapeFrom]
    · have hpart := part?_reference hp
      rw [hold (hasSort_of_part? hpart), hold (hs.hasSort_part hpart), h.reference _ _ _ _ hp]

theorem Sound.push (h : s.Sound) {data : Term} (hd : s.PartsFit data) : (s.push data).2.Sound :=
  ⟨h.wellSorted.push hd, h.solvable.push h.wellSorted hd⟩

theorem Sound.nextUnbound (h : s.Sound) (next : Nat) :
    ({ s with nextUnbound := next } : TermStore).Sound :=
  ⟨h.wellSorted, h.solvable.imp fun _ hshapes => ⟨hshapes.1, hshapes.2, hshapes.3, hshapes.4⟩⟩

theorem Sound.newUnbound (h : s.Sound) (constraints : List Constraint) :
    (s.newUnbound constraints).2.Sound :=
  (h.nextUnbound (s.nextUnbound + 1)).push trivial

theorem extends_newUnbound (s : TermStore) (constraints : List Constraint) :
    s.Extends (s.newUnbound constraints).2 :=
  have h := extends_push { s with nextUnbound := s.nextUnbound + 1 }
    (.unbound s.nextUnbound constraints)
  ⟨h.1, h.2, h.3⟩

theorem hasSort_newUnbound (s : TermStore) (constraints : List Constraint) :
    (s.newUnbound constraints).2.HasSort (s.newUnbound constraints).1 .type :=
  hasSort_push_self { s with nextUnbound := s.nextUnbound + 1 } _

theorem newType_sound (h : s.Sound) (type : DataType) :
    (s.newType type).2.Sound ∧ s.Extends (s.newType type).2 ∧
      (s.newType type).2.HasSort (s.newType type).1 .type := by
  induction type with
  | unresolved =>
    exact ⟨h.newUnbound [], extends_newUnbound s [], hasSort_newUnbound s []⟩
  | constructed head argument ih =>
    obtain ⟨hsound, hext, hsort⟩ := ih
    exact ⟨hsound.push hsort, hext.trans (extends_push _ _), hasSort_push_self _ _⟩
  | reference mutable referent ih =>
    obtain ⟨hsound, hext, hsort⟩ := ih
    have hsound' : (((s.newType referent).2).newLifetime none).2.Sound := hsound.push trivial
    exact ⟨hsound'.push ⟨trivial, hasSort_push _ hsort, hasSort_push_self _ _⟩,
      (hext.trans (extends_push _ _)).trans (extends_push _ _), hasSort_push_self _ _⟩
  | void => exact ⟨h.push trivial, extends_push _ _, hasSort_push_self _ _⟩
  | bool => exact ⟨h.push trivial, extends_push _ _, hasSort_push_self _ _⟩
  | int32 => exact ⟨h.push trivial, extends_push _ _, hasSort_push_self _ _⟩
  | int64 => exact ⟨h.push trivial, extends_push _ _, hasSort_push_self _ _⟩
  | string => exact ⟨h.push trivial, extends_push _ _, hasSort_push_self _ _⟩

/-! ## Runs -/

inductive Operation where
  | newType (type : DataType)
  | newUnbound (constraints : List Constraint)
  | newConstructed (head : TypeConstructor) (argument : TermId)
  | newReference (mutability : Mutability) (underlying lifetime : TermId)
  | newLifetime (value : Option Lifetime)
  | newMutability
  | unify (left right : TermId)
  | check (term : TermId) (constraint : Constraint)
  | resolveLifetime (term : TermId) (value : Lifetime)
  | constrainMutability (term : TermId) (mutable : Bool)

namespace Operation

/-- The store that an operation leaves. -/
def run (s : TermStore) : Operation → TermStore
  | newType type => (s.newType type).2
  | newUnbound constraints => (s.newUnbound constraints).2
  | newConstructed head argument => (s.newConstructed head argument).2
  | newReference mutability underlying lifetime =>
    (s.newReference mutability underlying lifetime).2
  | newLifetime value => (s.newLifetime value).2
  | newMutability => s.newMutability.2
  | unify left right => (s.unify left right).store
  | check term constraint => (s.check term constraint).2
  | resolveLifetime term value => s.resolveLifetime term value
  | constrainMutability term mutable => s.constrainMutability term mutable

/-- Every handle that an operation is given was created, and has the sort that its place calls for.
Two terms may be unified if they have one sort. -/
def Fits (s : TermStore) : Operation → Prop
  | newConstructed _ argument => s.HasSort argument .type
  | newReference mutability underlying lifetime =>
    s.MutabilityFits mutability ∧ s.HasSort underlying .type ∧ s.HasSort lifetime .lifetime
  | unify left right => ∃ sort, s.HasSort left sort ∧ s.HasSort right sort
  | check term _ => s.HasSort term .type
  | resolveLifetime term _ => s.HasSort term .lifetime
  | constrainMutability term _ => s.HasSort term .mutability
  | newType _ | newUnbound _ | newLifetime _ | newMutability => True

end Operation

/-- The stores that some run of operations leaves. -/
inductive Reachable : TermStore → Prop
  | empty : Reachable {}
  | step {s : TermStore} (h : Reachable s) (operation : Operation)
      (hfits : operation.Fits s) : Reachable (operation.run s)

instance (s : TermStore) (term : TermId) (sort : TermSort) :
    Decidable (s.HasSort term sort) :=
  inferInstanceAs (Decidable (_ ∧ _))

theorem Sound.unify (h : s.Sound) {sort : TermSort} (hl : s.HasSort left sort)
    (hr : s.HasSort right sort) :
    s.Steps (s.unify left right).store ∧ (s.unify left right).store.Sound := by
  have hsteps := (unifies_unify h.wellSorted h.solvable hl hr).steps h.wellSorted hl hr
  exact ⟨hsteps, h.of_steps hsteps⟩

theorem resolveLifetime_quietSteps (s : TermStore) (term : TermId) (value : Lifetime) :
    s.QuietSteps (s.resolveLifetime term value) := by
  unfold resolveLifetime
  split
  · rename_i hp
    exact .single (.resolve hp)
  · exact .refl

theorem constrainMutability_quietSteps (h : s.HasSort term .mutability) (mutable : Bool) :
    s.QuietSteps (s.constrainMutability term mutable) := by
  cases hp : s.probe term with
  | mutability value => exact .single (.restrict hp)
  | _ => simp [HasSort, hp, Term.sort] at h

theorem Sound.run (h : s.Sound) {operation : Operation} (hfits : operation.Fits s) :
    (operation.run s).Sound := by
  cases operation with
  | newType type => exact (newType_sound h type).1
  | newUnbound constraints => exact h.newUnbound constraints
  | newConstructed head argument => exact h.push hfits
  | newReference mutability underlying lifetime => exact h.push hfits
  | newLifetime value => exact h.push trivial
  | newMutability => exact h.push trivial
  | unify left right =>
    obtain ⟨sort, hl, hr⟩ := hfits
    exact (h.unify hl hr).2
  | check term constraint =>
    exact h.of_steps (checks_check h.wellSorted h.solvable term constraint).quietSteps.steps
  | resolveLifetime term value =>
    exact h.of_steps (resolveLifetime_quietSteps s term value).steps
  | constrainMutability term mutable =>
    exact h.of_steps (constrainMutability_quietSteps hfits mutable).steps

theorem Reachable.sound (h : Reachable s) : s.Sound := by
  induction h with
  | empty => exact sound_empty
  | step _ _ hfits ih => exact ih.run hfits

/-! ## No infinite types -/

/-- After any run no type contains itself. So reading a type, searching it, checking a constraint on
it and unifying it with another come to an end, with the answers that the bounded operations give.
-/
theorem Reachable.types_end (h : Reachable store) :
    (∀ term, ¬Relation.TransGen store.Contains term term) ∧
      (∀ term, store.HasSort term .type → store.Renders term (store.render term)) ∧
      (∀ inner term, store.HasSort inner .type → store.HasSort term .type →
        store.Searches inner term (store.occurs inner term)) ∧
      (∀ term constraint, store.HasSort term .type →
        store.Checks constraint term (store.check term constraint)) ∧
      ∀ left right, store.HasSort left .type → store.HasSort right .type →
        Unifies store left right (store.unify left right) := by
  obtain ⟨hs, hsolvable⟩ := h.sound
  refine ⟨fun term hcycle => ?_, fun term _ => renders_render hs hsolvable term,
    fun inner term _ _ => searches_occurs hs hsolvable inner term,
    fun term constraint _ => checks_check hs hsolvable term constraint,
    fun left right hleft hright => unifies_unify hs hsolvable hleft hright⟩
  obtain ⟨shapes, hshapes⟩ := hsolvable
  -- shapes get smaller with every step into a type
  have hsmaller : ∀ {whole part}, Relation.TransGen store.Contains whole part →
      (shapes part).size < (shapes whole).size := by
    intro whole part hsteps
    induction hsteps with
    | single hstep => exact hshapes.size_lt_of_contains hs hstep
    | tail _ hstep ih => exact Nat.lt_trans (hshapes.size_lt_of_contains hs hstep) ih
  exact Nat.lt_irrefl _ (hsmaller hcycle)

/-- A vector of an unbound type under handle one, and a vector of numbers under handle three. -/
def twoVectors : TermStore :=
  [.newUnbound [], .newConstructed .vector 0, .newType .int32, .newConstructed .vector 2].foldl
    Operation.run {}

theorem reachable_twoVectors : Reachable twoVectors := by
  have hunbound := Reachable.empty.step (.newUnbound []) trivial
  have hfirst := hunbound.step (.newConstructed .vector 0) (show HasSort _ 0 .type by decide)
  have hnumber := hfirst.step (.newType .int32) trivial
  exact hnumber.step (.newConstructed .vector 2) (show HasSort _ 2 .type by decide)

theorem types_end_twoVectors :
    ¬Relation.TransGen twoVectors.Contains 1 1 ∧
      twoVectors.Renders 3 (.constructed .vector .int32) ∧
      Unifies twoVectors 0 3 (twoVectors.unify 0 3) :=
  have h := reachable_twoVectors.types_end
  ⟨h.1 1, h.2.1 3 (by decide), h.2.2.2.2 0 3 (by decide) (by decide)⟩

/-! ## Most general unifiers -/

/-- Unification succeeded if, and only if, some assignment of shapes to the unbound classes makes
the two types equal. If so, then the assignments of the store that it left give the handles exactly
the shapes that the assignments of the former store give them which make the two types equal. -/
def IsMostGeneral (s : TermStore) (left right : TermId) (result : Unified) : Prop :=
  (result.equal = true ↔ ∃ assigned, s.shape assigned left = s.shape assigned right) ∧
    (result.equal = true → ∀ shapes : TermId → Shape, (∃ assigned, ∀ term, s.HasSort term .type →
          shapes term = result.store.shape assigned term) ↔
        ∃ assigned, (∀ term, s.HasSort term .type → shapes term = s.shape assigned term) ∧
          s.shape assigned left = s.shape assigned right)

theorem Sound.solves_unify_iff (h : s.Sound) (hl : s.HasSort left .type)
    (hr : s.HasSort right .type) (hequal : (s.unify left right).equal = true)
    (shapes : TermId → Shape) :
    (s.unify left right).store.Solves shapes ↔ s.Solves shapes ∧ shapes left = shapes right := by
  have hunifies := unifies_unify h.wellSorted h.solvable hl hr
  obtain ⟨hsteps, halike⟩ := hunifies.steps_and_alike h.wellSorted hl hr
  constructor
  · intro hshapes
    exact ⟨hsteps.solves h.wellSorted hshapes, hshapes.alikeShape (hsteps.wellSorted h.wellSorted)
      (hsteps.extends.hasSort hl) (halike hequal rfl)⟩
  · rintro ⟨hshapes, heq⟩
    exact (hunifies.complete h.wellSorted hl hr hshapes heq).2

/-- Unification computes a most general unifier of type shapes. -/
theorem Reachable.unify_isMostGeneral (h : Reachable store) (hleft : store.HasSort left .type)
    (hright : store.HasSort right .type) :
    store.IsMostGeneral left right (store.unify left right) := by
  have hsound := h.sound
  have hs := hsound.wellSorted
  have hsolvable := hsound.solvable
  have hunifies := unifies_unify hs hsolvable hleft hright
  have hsteps := hunifies.steps hs hleft hright
  have hsound' := hsound.of_steps hsteps
  have hsolutions := hsound.solves_unify_iff hleft hright
  refine ⟨⟨fun hequal => ?_, ?_⟩, fun hequal shapes => ?_⟩
  · obtain ⟨shapes, hshapes⟩ := hsound'.solvable
    obtain ⟨hshapes, heq⟩ := (hsolutions hequal shapes).mp hshapes
    obtain ⟨assigned, hassigned⟩ := (solves_iff_exists_shape hs hsolvable shapes).mpr hshapes
    exact ⟨assigned, by rw [← hassigned left hleft, ← hassigned right hright, heq]⟩
  · rintro ⟨assigned, heq⟩
    exact (hunifies.complete hs hleft hright (hsolvable.solves_shape hs assigned) heq).1
  · have hnew := solves_iff_exists_shape hsound'.wellSorted hsound'.solvable shapes
    simp only [hsteps.hasSort_iff] at hnew
    rw [hnew, hsolutions hequal, ← solves_iff_exists_shape hs hsolvable shapes]
    constructor
    · rintro ⟨⟨assigned, hassigned⟩, heq⟩
      exact ⟨assigned, hassigned,
        by rw [← hassigned left hleft, ← hassigned right hright, heq]⟩
    · rintro ⟨assigned, hassigned, heq⟩
      exact ⟨⟨assigned, hassigned⟩, by rw [hassigned left hleft, hassigned right hright, heq]⟩

theorem unify_isMostGeneral_twoVectors :
    twoVectors.HasSort 1 .type ∧ twoVectors.HasSort 3 .type ∧
      (twoVectors.unify 1 3).equal = true ∧
      twoVectors.IsMostGeneral 1 3 (twoVectors.unify 1 3) :=
  ⟨by decide, by decide, by decide,
    reachable_twoVectors.unify_isMostGeneral (by decide) (by decide)⟩

end TermStore

end BorrowFlow
