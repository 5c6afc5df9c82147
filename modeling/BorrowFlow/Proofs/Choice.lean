import BorrowFlow.Borrow.Decision

/-!
# What a choice depends on

A group chooses by looking at its values as a whole: which values it was supplied with decides, in
any order, and any number of times each. References that share a bounded lifetime are reused if the
policy accepts them as they are. Otherwise the values are borrowed, mutably if the policy accepts it
and every one of them allows it.
-/

namespace BorrowFlow

variable {policy : Policy} {supplied supplied' : List Supply} {mutable : Bool} {lifetime : Lifetime}

/-- The values are references with one mutability and one bounded lifetime. -/
structure Shared (mutable : Bool) (lifetime : Lifetime) (supplied : List Supply) : Prop where
  bounded : lifetime.isBounded = true
  nonempty : supplied ≠ []
  eq_reference : ∀ value ∈ supplied, value = .reference mutable lifetime

theorem sharedLifetime?_eq_some_iff :
    sharedLifetime? mutable supplied = some lifetime ↔ Shared mutable lifetime supplied := by
  constructor
  · intro h
    unfold sharedLifetime? at h
    split at h
    · rename_i place rest
      split at h
      · rename_i hall
        cases h
        refine ⟨rfl, List.cons_ne_nil _ _, fun value hmem => ?_⟩
        exact of_decide_eq_true (List.all_eq_true.mp hall value hmem)
      · cases h
    · cases h
  · rintro ⟨hbounded, hne, hall⟩
    obtain ⟨first, rest, rfl⟩ := List.exists_cons_of_ne_nil hne
    obtain rfl := hall first List.mem_cons_self
    cases lifetime with
    | bounded place =>
      rw [sharedLifetime?, if_pos]
      exact List.all_eq_true.mpr fun value hmem => decide_eq_true (hall value hmem)
    | _ => cases hbounded

theorem Supply.lendsMutably_iff {value : Supply} : value.lendsMutably = true ↔
      (∃ lifetime, value = .reference true lifetime) ∨ value = .owned true := by
  cases value <;> simp [lendsMutably]

namespace Policy

/-- The values are references that the policy takes as they are, with one bounded lifetime. -/
def Reuses (policy : Policy) (lifetime : Lifetime) (supplied : List Supply) : Prop :=
  ∃ mutable, Shared mutable lifetime supplied ∧ (mutable = false ∨ policy.acceptsMutable = true)

/-- The policy takes mutable references, and every value is one or can be borrowed as one. -/
structure Lends (policy : Policy) (supplied : List Supply) : Prop where
  accepts : policy.acceptsMutable = true
  nonempty : supplied ≠ []
  mutable : ∀ value ∈ supplied, (∃ lifetime, value = .reference true lifetime) ∨ value = .owned true

theorem lends_iff : (policy.acceptsMutable && !supplied.isEmpty &&
    supplied.all Supply.lendsMutably) = true ↔ policy.Lends supplied := by
  simp only [Bool.and_eq_true, Bool.not_eq_true', List.isEmpty_eq_false_iff, List.all_eq_true,
    Supply.lendsMutably_iff]
  exact ⟨fun ⟨⟨haccepts, hne⟩, hall⟩ => ⟨haccepts, hne, hall⟩,
    fun ⟨haccepts, hne, hall⟩ => ⟨⟨haccepts, hne⟩, hall⟩⟩

/-- Immutable references cannot be borrowed mutably, so borrowing mutably does not come before
reusing what they share. -/
theorem not_lends_of_shared (h : Shared false lifetime supplied) : ¬policy.Lends supplied := by
  intro hlends
  obtain ⟨value, hmem⟩ := List.exists_mem_of_ne_nil _ h.nonempty
  rcases hlends.mutable value hmem with ⟨_, heq⟩ | heq
  · cases (h.eq_reference value hmem).symm.trans heq
  · cases (h.eq_reference value hmem).symm.trans heq

theorem choose_cases (policy : Policy) (supplied : List Supply) :
    (∃ lifetime, policy.choose supplied = .reuse lifetime ∧ policy.Reuses lifetime supplied) ∨
      (∀ lifetime, ¬policy.Reuses lifetime supplied) ∧
        (policy.choose supplied = .borrow true ∧ policy.Lends supplied ∨
          policy.choose supplied = .borrow false ∧ ¬policy.Lends supplied) := by
  unfold choose
  split
  · rename_i lifetime hshared
    split at hshared
    · rename_i haccepts
      exact .inl ⟨lifetime, rfl, true, sharedLifetime?_eq_some_iff.mp hshared, .inr haccepts⟩
    · cases hshared
  · rename_i hnone
    -- mutable references share nothing that the policy would take
    have hnot : ∀ lifetime, policy.acceptsMutable = true → ¬Shared true lifetime supplied := by
      intro lifetime haccepts hshared
      rw [if_pos haccepts, sharedLifetime?_eq_some_iff.mpr hshared] at hnone
      cases hnone
    split
    · rename_i hlends
      have hlends := lends_iff.mp hlends
      refine .inr ⟨fun lifetime ⟨mutable, hshared, _⟩ => ?_, .inl ⟨rfl, hlends⟩⟩
      cases mutable with
      | false => exact not_lends_of_shared hshared hlends
      | true => exact hnot lifetime hlends.accepts hshared
    · rename_i hlends
      have hlends : ¬policy.Lends supplied := fun h => hlends (lends_iff.mpr h)
      split
      · rename_i lifetime hshared
        exact .inl ⟨lifetime, rfl, false, sharedLifetime?_eq_some_iff.mp hshared, .inl rfl⟩
      · rename_i hnone'
        refine .inr ⟨fun lifetime ⟨mutable, hshared, hmutable⟩ => ?_, .inr ⟨rfl, hlends⟩⟩
        cases mutable with
        | false =>
          rw [sharedLifetime?_eq_some_iff.mpr hshared] at hnone'
          cases hnone'
        | true => exact hnot lifetime (hmutable.resolve_left nofun) hshared

theorem Reuses.eq {lifetime' : Lifetime} (h : policy.Reuses lifetime supplied)
    (h' : policy.Reuses lifetime' supplied) : lifetime = lifetime' := by
  obtain ⟨mutable, hshared, -⟩ := h
  obtain ⟨mutable', hshared', -⟩ := h'
  obtain ⟨value, hmem⟩ := List.exists_mem_of_ne_nil _ hshared.nonempty
  have heq := (hshared.eq_reference value hmem).symm.trans (hshared'.eq_reference value hmem)
  injection heq

theorem choose_eq_reuse_iff :
    policy.choose supplied = .reuse lifetime ↔ policy.Reuses lifetime supplied := by
  rcases policy.choose_cases supplied with
    ⟨other, hother, hreuses⟩ | ⟨hnot, ⟨hchoose, -⟩ | ⟨hchoose, -⟩⟩
  · rw [hother, Choice.reuse.injEq]
    exact ⟨fun heq => heq ▸ hreuses, fun h => hreuses.eq h⟩
  all_goals
    rw [hchoose]
    exact ⟨nofun, fun h => absurd h (hnot lifetime)⟩

theorem choose_eq_borrow_iff : policy.choose supplied = .borrow mutable ↔
    (∀ lifetime, ¬policy.Reuses lifetime supplied) ∧ (mutable = true ↔ policy.Lends supplied) := by
  rcases policy.choose_cases supplied with
    ⟨lifetime, hchoose, hreuses⟩ | ⟨hnot, ⟨hchoose, hlends⟩ | ⟨hchoose, hlends⟩⟩
  · rw [hchoose]
    exact ⟨nofun, fun h => absurd hreuses (h.1 lifetime)⟩
  all_goals
    rw [hchoose, Choice.borrow.injEq]
    cases mutable <;> simp [hnot, hlends]

/-! ## Which values there are -/

section Same

variable (hsame : ∀ value, value ∈ supplied' ↔ value ∈ supplied)
include hsame

theorem nonempty_of_same (h : supplied ≠ []) : supplied' ≠ [] := by
  obtain ⟨value, hmem⟩ := List.exists_mem_of_ne_nil _ h
  exact List.ne_nil_of_mem ((hsame value).mpr hmem)

theorem Reuses.of_same (h : policy.Reuses lifetime supplied) :
    policy.Reuses lifetime supplied' := by
  obtain ⟨mutable, hshared, haccepts⟩ := h
  exact ⟨mutable, ⟨hshared.bounded, nonempty_of_same hsame hshared.nonempty,
    fun value hmem => hshared.eq_reference value ((hsame value).mp hmem)⟩, haccepts⟩

theorem Lends.of_same (h : policy.Lends supplied) : policy.Lends supplied' where
  accepts := h.accepts
  nonempty := nonempty_of_same hsame h.nonempty
  mutable value hmem := h.mutable value ((hsame value).mp hmem)

end Same

/-- Lists with the same values lead to the same choice, so neither order nor repetition matters. A
lifetime is reused if and only if all values are references with that bounded lifetime and with one
mutability, which the policy takes. Otherwise the values are borrowed, and mutably if and only if
the policy takes mutable references and each value is one or is bound mutably. -/
theorem choose_determined (policy : Policy) (supplied : List Supply) :
    (∀ supplied' : List Supply, (∀ value, value ∈ supplied' ↔ value ∈ supplied) →
        policy.choose supplied' = policy.choose supplied) ∧
      (∀ lifetime, policy.choose supplied = .reuse lifetime ↔ policy.Reuses lifetime supplied) ∧
        (policy.choose supplied = .borrow true ↔
          (∀ lifetime, ¬policy.Reuses lifetime supplied) ∧ policy.Lends supplied) ∧
          (policy.choose supplied = .borrow false ↔
            (∀ lifetime, ¬policy.Reuses lifetime supplied) ∧ ¬policy.Lends supplied) := by
  refine ⟨fun supplied' hsame => ?_, fun lifetime => choose_eq_reuse_iff, ?_, ?_⟩
  · have hback : ∀ value, value ∈ supplied ↔ value ∈ supplied' := fun value => (hsame value).symm
    cases hchoose : policy.choose supplied with
    | reuse lifetime =>
      rw [choose_eq_reuse_iff] at hchoose ⊢
      exact hchoose.of_same hsame
    | borrow mutable =>
      rw [choose_eq_borrow_iff] at hchoose ⊢
      refine ⟨fun lifetime hreuses => hchoose.1 lifetime (hreuses.of_same hback), ?_⟩
      exact hchoose.2.trans ⟨fun h => h.of_same hsame, fun h => h.of_same hback⟩
  · rw [choose_eq_borrow_iff, eq_self_iff_true, true_iff]
  · rw [choose_eq_borrow_iff]
    simp

/-- Two values, in another order and one of them twice. -/
theorem choose_determined_repeated :
    requireMutable.choose [.owned true, .reference true .static, .owned true] =
      requireMutable.choose [.reference true .static, .owned true] ∧
        requireMutable.choose [.reference true .static, .owned true] = .borrow true := by
  obtain ⟨hsame, -, -, -⟩ :=
    choose_determined requireMutable [.reference true .static, .owned true]
  exact ⟨hsame _ (by grind), by decide⟩

end Policy

end BorrowFlow
