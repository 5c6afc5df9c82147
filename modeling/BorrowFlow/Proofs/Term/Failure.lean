import BorrowFlow.Proofs.Term.Knowledge

/-!
# Unification that fails

A type is a chain, so unification goes down to one pair of parts that decides whether the two types
can be made equal. Types are bound and merged only after that, on the way back up. So if the types
cannot be made equal, no type has changed, and a mismatch is reported. Mutabilities and lifetimes
keep what they came to know on the way.
-/

namespace BorrowFlow

variable {result : Unified}

namespace TermStore

variable {s s' s'' store : TermStore} {term left right : TermId}

/-! ## Types that stay as they are -/

/-- Every type is what it was, with the constraints that it had. -/
structure TypesIntact (s s' : TermStore) : Prop where
  hasSort : ∀ term sort, s'.HasSort term sort ↔ s.HasSort term sort
  same : ∀ left right, s.HasSort left .type → s'.same left right = s.same left right
  probe : ∀ term, s.HasSort term .type → s'.probe term = s.probe term

namespace TypesIntact

theorem refl (s : TermStore) : s.TypesIntact s :=
  ⟨fun _ _ => Iff.rfl, fun _ _ _ => rfl, fun _ _ => rfl⟩

theorem trans (h : s.TypesIntact s') (h' : s'.TypesIntact s'') : s.TypesIntact s'' where
  hasSort term sort := (h'.hasSort term sort).trans (h.hasSort term sort)
  same left right hl :=
    (h'.same left right ((h.hasSort _ _).mpr hl)).trans (h.same left right hl)
  probe term ht := (h'.probe term ((h.hasSort _ _).mpr ht)).trans (h.probe term ht)

theorem typesKept (h : s.TypesIntact s') : s.TypesKept s' where
  hasSort := h.hasSort
  same left right hl := by rw [h.same left right hl]
  probe term ht := .inl (h.probe term ht)

theorem hasSort_of_probe_ne (h : s.TypesIntact s') (hne : s'.probe term ≠ s.probe term) :
    s.HasSort term .lifetime ∨ s.HasSort term .mutability := by
  have hlt : term < s.size := by
    apply Nat.lt_of_not_le
    intro hle
    have hlt' : ¬term < s'.size := fun hlt' =>
      Nat.not_lt.mpr hle ((h.hasSort term _).mp ⟨hlt', rfl⟩).1
    exact hne ((probe_of_le (Nat.le_of_not_lt hlt')).trans (probe_of_le hle).symm)
  cases hsort : (s.probe term).sort with
  | type => exact absurd (h.probe term ⟨hlt, hsort⟩) hne
  | lifetime => exact .inl ⟨hlt, hsort⟩
  | mutability => exact .inr ⟨hlt, hsort⟩

end TypesIntact

theorem typesIntact_absorb {other : Term} (ht : s.HasSort term other.sort)
    (hne : other.sort ≠ .type) : s.TypesIntact (s.absorb term other) where
  hasSort := by
    refine (typesKept_absorb ht (fun id constraints hp => ?_) fun h => absurd h hne).hasSort
    exact absurd (ht.2.symm.trans (congrArg Term.sort hp)) hne
  same _ _ _ := rfl
  probe _ hkey := probe_absorb_of_sort_ne ht fun h => hne (h.symm.trans hkey.2)

theorem typesIntact_union {sort : TermSort} (hne : sort ≠ .type) (hl : s.HasSort left sort)
    (hr : s.HasSort right sort) : s.TypesIntact (s.union left right) where
  hasSort := (typesKept_union hne hl hr).hasSort
  same first second hfirst :=
    Bool.eq_iff_iff.mpr ((typesKept_union hne hl hr).same first second hfirst)
  probe _ hkey := probe_union_of_sort_ne hl hr fun h => hne (h.symm.trans hkey.2)

theorem unifyMutability_typesIntact (left right : TermId) {first second : Mutability}
    (hfirst : s.MutabilityFits first) (hsecond : s.MutabilityFits second) :
    s.TypesIntact (s.unifyMutability left right first second).2 := by
  have hrestrict : ∀ {term}, s.HasSort term .mutability → ∀ mutable,
      s.TypesIntact (s.constrainMutability term mutable) :=
    fun ht _ => typesIntact_absorb ht nofun
  cases first with
  | fixed mutable =>
    cases second with
    | fixed mutable' =>
      rw [unifyMutability_fixed_store]
      exact .refl s
    | shared other => cases mutable <;> exact hrestrict hsecond _
  | shared term =>
    cases second with
    | fixed mutable => exact hrestrict hfirst mutable
    | shared other =>
      exact typesIntact_union (show TermSort.mutability ≠ .type from nofun) hfirst hsecond

theorem unifyLifetimes_typesIntact (hl : s.HasSort left .lifetime)
    (hr : s.HasSort right .lifetime) :
    s.TypesIntact (s.unifyLifetimes left right) := by
  have hunion := typesIntact_union (show TermSort.lifetime ≠ .type from nofun) hl hr
  unfold unifyLifetimes
  split
  · split
    · exact hunion
    · exact .refl s
  · exact hunion
  · exact .refl s

/-! ## Failure -/

theorem Refuses.reported (h : s.Refuses left right result) : result.outcome.mismatches ≠ [] := by
  obtain ⟨first, second, -, -, rfl⟩ := h
  exact List.cons_ne_nil _ _

theorem Refuses.typesIntact (h : s.Refuses left right result) : s.TypesIntact result.store :=
  h.store_eq.1 ▸ .refl s

theorem Unifies.refused (h : Unifies s left right result) :
    s.WellSorted → s.HasSort left .type → s.HasSort right .type → result.equal = false →
        result.outcome.mismatches ≠ [] ∧ s.TypesIntact result.store := by
  induction h with
  | same | literals | constructors | lifetimes | mutabilities | unbounds =>
    intro _ _ _ hequal
    cases hequal
  | argumentsApart _ hl hr _ hequal hrefused ih =>
    intro hs _ _ _
    have hinner := ih hs (hs.hasSort_argument hl) (hs.hasSort_argument hr) hequal
    exact ⟨fun hnone => hrefused.reported (List.append_eq_nil_iff.mp hnone).2,
      hinner.2.trans hrefused.typesIntact⟩
  | @references s left right first second lifetime lifetime' mutability mutability' unified
      _ hl hr _ _ ih =>
    intro hs _ _ hequal
    obtain ⟨-, hs', ⟨hfirst, hlifetime⟩, hsecond, hlifetime'⟩ := hs.descend hl hr
    have hconstrained :=
      unifyMutability_typesIntact left right (hs.reference hl).1 (hs.reference hr).1
    obtain ⟨hreported, hinner⟩ := ih hs' hfirst hsecond hequal
    exact ⟨fun hnone => hreported (List.append_eq_nil_iff.mp hnone).2,
      (hconstrained.trans hinner).trans (unifyLifetimes_typesIntact
        ((hinner.hasSort _ _).mpr hlifetime) ((hinner.hasSort _ _).mpr hlifetime'))⟩
  | bindLeft _ _ _ h | bindRight _ _ _ h =>
    intro _ _ _ hequal
    cases h with
    | infinite _ hrefuses => exact ⟨hrefuses.reported, hrefuses.typesIntact⟩
    | bound => cases hequal
  | clash _ _ hrefuses => exact fun _ _ _ _ => ⟨hrefuses.reported, hrefuses.typesIntact⟩

/-- Two types that cannot be made equal are reported as a mismatch. Then no handle stands for
another type than before, or is in one class with another type than before: what has changed are
lifetimes and mutabilities. -/
theorem Reachable.types_unchanged_of_refused (h : Reachable store)
    (hleft : store.HasSort left .type) (hright : store.HasSort right .type)
    (hequal : (store.unify left right).equal = false) :
    let result := store.unify left right
    result.outcome.mismatches ≠ [] ∧
      (∀ term, store.HasSort term .type → result.store.probe term = store.probe term) ∧
      (∀ first second, store.HasSort first .type → store.HasSort second .type →
        result.store.same first second = store.same first second) ∧
      (∀ term sort, result.store.HasSort term sort ↔ store.HasSort term sort) ∧
      ∀ term, result.store.probe term ≠ store.probe term →
        store.HasSort term .lifetime ∨ store.HasSort term .mutability := by
  obtain ⟨hs, hsolvable⟩ := h.sound
  obtain ⟨hreported, hintact⟩ :=
    (unifies_unify hs hsolvable hleft hright).refused hs hleft hright hequal
  exact ⟨hreported, hintact.probe, fun first second hfirst _ => hintact.same first second hfirst,
    hintact.hasSort, fun _ => hintact.hasSort_of_probe_ne⟩

/-- Under handle three, a reference to a number, with mutability and lifetime open. Under handle
six, a mutable reference to a string. -/
def apartReferences : TermStore :=
  ({} : TermStore).after [.newMutability, .newType .int32, .newLifetime none,
    .newReference (.shared 0) 1 2, .newType (.reference true .string)]

theorem reachable_apartReferences : Reachable apartReferences := by
  have hmutability := Reachable.empty.step .newMutability trivial
  have hnumber := hmutability.step (.newType .int32) trivial
  have hlifetime := hnumber.step (.newLifetime none) trivial
  have hreference := hlifetime.step (.newReference (.shared 0) 1 2)
    ⟨show HasSort _ 0 .mutability by decide, by decide, by decide⟩
  exact hreference.step (.newType (.reference true .string)) trivial

/-- The mutability is settled and the lifetimes are linked before the number and the string turn out
to be different types. -/
theorem types_unchanged_of_refused_apartReferences :
    let result := apartReferences.unify 3 6
    apartReferences.HasSort 3 .type ∧ apartReferences.HasSort 6 .type ∧ result.equal = false ∧
      result.store.probe 0 ≠ apartReferences.probe 0 ∧
      result.store.same 2 5 ≠ apartReferences.same 2 5 ∧
      result.outcome.mismatches ≠ [] ∧
      result.store.probe 3 = apartReferences.probe 3 ∧
      result.store.same 1 4 = apartReferences.same 1 4 ∧
      (apartReferences.HasSort 0 .lifetime ∨ apartReferences.HasSort 0 .mutability) := by
  intro result
  obtain ⟨hreported, hprobe, hsame, -, hchanged⟩ :=
    reachable_apartReferences.types_unchanged_of_refused
      (show apartReferences.HasSort 3 .type by decide)
      (show apartReferences.HasSort 6 .type by decide) (by decide)
  have hmutability : result.store.probe 0 ≠ apartReferences.probe 0 := by decide +kernel
  exact ⟨by decide, by decide, by decide, hmutability, by decide +kernel, hreported,
    hprobe 3 (by decide), hsame 1 4 (by decide) (by decide), hchanged 0 hmutability⟩

end TermStore

end BorrowFlow
