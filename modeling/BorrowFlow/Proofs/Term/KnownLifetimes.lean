import BorrowFlow.Proofs.Term.Sorts

/-!
# Where lifetimes come from

A store knows a lifetime if one of its terms is resolved to it. Unification makes up no lifetime:
whatever it unifies, the lifetimes that are known afterwards were known before. So a lifetime gets
into a store only when a term is created with it or resolved to it.
-/

namespace BorrowFlow

variable {constraints : List Constraint}

theorem Term.lifetime_of_merge {left right : Term} {value : Lifetime}
    (h : left.merge right = .lifetime (some value)) :
    left = .lifetime (some value) ∨ right = .lifetime (some value) := by
  cases left <;> cases right <;> simp_all [merge]
  exact h.imp_right And.right

namespace TermStore

variable {s : TermStore} {term left right : TermId} {value : Lifetime}

def Knows (s : TermStore) (value : Lifetime) : Prop :=
  ∃ term, s.probe term = .lifetime (some value)

theorem knows_of_lifetimeOf {place : BoundedLifetime}
    (h : s.lifetimeOf term = .bounded place) : s.Knows (.bounded place) := by
  unfold lifetimeOf at h
  split at h
  · rename_i lifetime _
    unfold lifetimeValue at h
    split at h
    · rename_i hp
      exact ⟨lifetime, h ▸ hp⟩
    · cases h
  all_goals cases h

/-! ## Creating and changing terms -/

theorem knows_of_push {data : Term} (h : (s.push data).2.Knows value) :
    s.Knows value ∨ data = .lifetime (some value) := by
  obtain ⟨term, hp⟩ := h
  rw [probe_push] at hp
  split at hp
  · exact .inr hp
  · exact .inl ⟨term, hp⟩

theorem knows_of_newUnbound (h : (s.newUnbound constraints).2.Knows value) : s.Knows value :=
  (knows_of_push h).resolve_right nofun

theorem knows_of_newType (type : DataType) :
    ∀ {s : TermStore}, (s.newType type).2.Knows value → s.Knows value := by
  induction type with
  | unresolved => exact knows_of_newUnbound
  | constructed head argument ih =>
    exact fun h => ih ((knows_of_push h).resolve_right nofun)
  | reference mutable referent ih =>
    intro s h
    have hlifetime := (knows_of_push h).resolve_right nofun
    exact ih ((knows_of_push hlifetime).resolve_right nofun)
  | void | bool | int32 | int64 | string =>
    exact fun h => (knows_of_push h).resolve_right nofun

theorem knows_of_absorb {other : Term} (h : (s.absorb term other).Knows value) :
    s.Knows value ∨ other = .lifetime (some value) := by
  obtain ⟨key, hp⟩ := h
  unfold probe absorb at hp
  rw [Classes.value?_modify] at hp
  split at hp
  · cases hvalue : s.classes.value? key with
    | none =>
      rw [hvalue] at hp
      cases hp
    | some data =>
      rw [hvalue] at hp
      refine (Term.lifetime_of_merge hp).imp_left fun hd => ⟨key, ?_⟩
      rw [probe, hvalue, hd]
      rfl
  · exact .inl ⟨key, hp⟩

theorem knows_of_union (h : (s.union left right).Knows value) : s.Knows value := by
  obtain ⟨key, hp⟩ := h
  have hkept : s.classes.union Term.merge left right = s.classes → s.Knows value := by
    intro heq
    rw [union, heq] at hp
    exact ⟨key, hp⟩
  cases hapart : s.classes.same left right with
  | true => exact hkept (s.classes.union_of_same hapart)
  | false =>
    cases hl : s.classes.value? left with
    | none => exact hkept (s.classes.union_of_value?_eq_none (.inl hl))
    | some first =>
      cases hr : s.classes.value? right with
      | none => exact hkept (s.classes.union_of_value?_eq_none (.inr hr))
      | some second =>
        unfold probe union at hp
        rw [Classes.value?_union hl hr hapart] at hp
        split at hp
        · rcases Term.lifetime_of_merge hp with rfl | rfl
          · exact ⟨left, by rw [probe, hl, Option.getD_some]⟩
          · exact ⟨right, by rw [probe, hr, Option.getD_some]⟩
        · exact ⟨key, hp⟩

theorem knows_of_resolveLifetime {resolved : Lifetime}
    (h : (s.resolveLifetime term resolved).Knows value) : s.Knows value ∨ value = resolved := by
  unfold resolveLifetime at h
  split at h
  · exact (knows_of_absorb h).imp_right fun heq => by cases heq; rfl
  · exact .inl h

/-! ## Unification -/

theorem knows_of_checkTo {constraint : Constraint} (depth : Nat)
    (h : (s.checkTo depth term constraint).2.Knows value) : s.Knows value := by
  fun_induction checkTo s depth term constraint with
  | case3 => exact (knows_of_absorb h).resolve_right nofun
  | case5 | case9 => rename_i ih; exact ih h
  | _ => exact h

theorem knows_of_checkAll (h : (s.checkAll term constraints).2.Knows value) : s.Knows value := by
  unfold checkAll at h
  revert h
  refine List.foldlRecOn
    (motive := fun report : Outcome × TermStore => report.2.Knows value → s.Knows value)
    constraints _ id ?_
  exact fun report hreport constraint _ h => hreport (knows_of_checkTo _ h)

theorem knows_of_bindTo {inner expected found : TermId}
    (h : (s.bindTo inner constraints term expected found).store.Knows value) :
    s.Knows value := by
  unfold bindTo at h
  split at h
  · exact h
  · exact knows_of_checkAll (knows_of_union h)

theorem knows_of_unifyMutability {first second : Mutability}
    (h : (s.unifyMutability left right first second).2.Knows value) : s.Knows value := by
  unfold unifyMutability at h
  split at h
  · exact h
  · exact h
  · exact h
  · exact (knows_of_absorb h).resolve_right nofun
  · exact (knows_of_absorb h).resolve_right nofun
  · exact knows_of_union h

theorem knows_of_unifyLifetimes (h : (s.unifyLifetimes left right).Knows value) :
    s.Knows value := by
  unfold unifyLifetimes at h
  split at h
  · split at h
    · exact knows_of_union h
    · exact h
  · exact knows_of_union h
  · exact h

theorem knows_of_unifyTo (depth : Nat) (h : (unifyTo depth s left right).store.Knows value) :
    s.Knows value := by
  induction depth generalizing s left right with
  | zero => exact h
  | succ depth ih =>
    unfold unifyTo at h
    split at h
    · exact h
    · split at h
      · -- Two literals.
        split at h
        · exact knows_of_union h
        · exact h
      · -- Two constructed types: their arguments first.
        split at h
        · dsimp only at h
          split at h
          · exact ih (knows_of_union h)
          · exact ih h
        · exact h
      · -- Two references: the mutabilities, the referents, then the lifetimes.
        exact knows_of_unifyMutability (ih (knows_of_unifyLifetimes h))
      · exact knows_of_unifyLifetimes h
      · exact knows_of_union h
      · exact knows_of_union h
      · exact knows_of_bindTo h
      · exact knows_of_bindTo h
      · exact h

theorem knows_of_unify (h : (s.unify left right).store.Knows value) : s.Knows value :=
  knows_of_unifyTo s.depth h

end TermStore

end BorrowFlow
