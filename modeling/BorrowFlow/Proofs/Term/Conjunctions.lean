import BorrowFlow.Proofs.Term.Components

/-!
# Mutabilities that accumulate

Shared mutabilities are restricted one by one and made one with each other, in any order. Those that
were made one have a common value, which is the conjunction of everything that any of them was ever
restricted to. A restriction that came before two of them were joined counts for both of them as
much as one that comes later.
-/

namespace BorrowFlow

variable {count : Nat}

/-- A value is the conjunction of the booleans that were applied. There is none if nothing was. -/
structure IsConjunction (value : Option Bool) (applied : Bool → Prop) : Prop where
  eq_none_iff : value = none ↔ ∀ mutable, ¬applied mutable
  eq_true_iff : ∀ result, value = some result →
    (result = true ↔ ∀ mutable, applied mutable → mutable = true)

namespace IsConjunction

variable {value other : Option Bool} {applied applied' : Bool → Prop}

theorem congr (h : IsConjunction value applied)
    (happlied : ∀ mutable, applied mutable ↔ applied' mutable) : IsConjunction value applied' := by
  have heq : applied = applied' := funext fun mutable => propext (happlied mutable)
  exact heq ▸ h

theorem unique (h : IsConjunction value applied) (h' : IsConjunction other applied) :
    value = other := by
  cases value with
  | none => exact (h'.eq_none_iff.mpr (h.eq_none_iff.mp rfl)).symm
  | some first =>
    cases other with
    | none => exact h.eq_none_iff.mpr (h'.eq_none_iff.mp rfl)
    | some second =>
      have hiff := (h.eq_true_iff first rfl).trans (h'.eq_true_iff second rfl).symm
      rw [Bool.eq_iff_iff.mpr hiff]

theorem of_forall_not (h : ∀ mutable, ¬applied mutable) : IsConjunction none applied :=
  ⟨⟨fun _ => h, fun _ => rfl⟩, nofun⟩

theorem singleton (mutable : Bool) : IsConjunction (some mutable) (· = mutable) := by
  refine ⟨⟨nofun, fun h => absurd rfl (h mutable)⟩, fun result hsome => ?_⟩
  cases hsome
  exact ⟨fun htrue other heq => heq.trans htrue, fun hall => hall mutable rfl⟩

theorem both (h : IsConjunction value applied) (h' : IsConjunction other applied') :
    IsConjunction (Term.bothMutable value other) fun mutable =>
      applied mutable ∨ applied' mutable := by
  cases value with
  | none =>
    have hnot := h.eq_none_iff.mp rfl
    exact h'.congr fun mutable => (or_iff_right (hnot mutable)).symm
  | some first =>
    cases other with
    | none =>
      have hnot := h'.eq_none_iff.mp rfl
      exact h.congr fun mutable => (or_iff_left (hnot mutable)).symm
    | some second =>
      refine ⟨⟨nofun, fun hnot => ?_⟩, fun result hsome => ?_⟩
      · have hnone := h.eq_none_iff.mpr fun mutable happlied => hnot mutable (.inl happlied)
        cases hnone
      · cases hsome
        rw [Bool.and_eq_true, h.eq_true_iff first rfl, h'.eq_true_iff second rfl]
        simp only [or_imp, forall_and]

end IsConjunction

/-- What is done to some of a number of shared mutabilities: one is restricted, or two are made
one. -/
inductive Restriction (count : Nat) where
  | restrict (index : Fin count) (mutable : Bool)
  | join (first second : Fin count)

namespace Restriction

variable {first second index other : Fin count} {steps steps' : List (Restriction count)}
  {mutable : Bool}

def pair? : Restriction count → Option (Fin count × Fin count)
  | restrict _ _ => none
  | join first second => some (first, second)

/-- The operation on a store whose mutabilities have consecutive handles. -/
def operation (base : TermId) : Restriction count → TermStore.Operation
  | restrict index mutable => .constrainMutability (base + index.val) mutable
  | join first second => .unify (base + first.val) (base + second.val)

abbrev Joined (steps : List (Restriction count)) : Fin count → Fin count → Prop :=
  Connected (steps.filterMap pair?)

/-- A mutability was applied to one that is connected to the given one. -/
def Applied (steps : List (Restriction count)) (index : Fin count) (mutable : Bool) : Prop :=
  ∃ other, Joined steps index other ∧ restrict other mutable ∈ steps

theorem joined_restrict (steps : List (Restriction count)) (index : Fin count) (mutable : Bool) :
    Joined (steps ++ [restrict index mutable]) = Joined steps := by
  have heq : (steps ++ [restrict index mutable]).filterMap pair? = steps.filterMap pair? := by
    simp [List.filterMap_cons, pair?]
  rw [Joined, heq]

theorem joined_join_iff {left right : Fin count} :
    Joined (steps ++ [join first second]) left right ↔ Joined steps left right ∨
        ((Joined steps left first ∨ Joined steps left second) ∧
          (Joined steps right first ∨ Joined steps right second)) := by
  have heq : (steps ++ [join first second]).filterMap pair? =
      steps.filterMap pair? ++ [(first, second)] := by
    simp [pair?]
  rw [Joined, heq]
  exact connected_concat_iff

theorem applied_restrict_iff {target : Fin count} {value : Bool} :
    Applied (steps ++ [restrict target value]) index mutable ↔
      Applied steps index mutable ∨ Joined steps index target ∧ mutable = value := by
  simp only [Applied, joined_restrict, List.mem_append, List.mem_singleton, and_or_left,
    exists_or, restrict.injEq]
  refine or_congr_right ⟨?_, ?_⟩
  · rintro ⟨_, hjoined, rfl, hvalue⟩
    exact ⟨hjoined, hvalue⟩
  · rintro ⟨hjoined, hvalue⟩
    exact ⟨target, hjoined, rfl, hvalue⟩

theorem applied_iff_of_joined (h : Joined steps first second) :
    Applied steps first mutable ↔ Applied steps second mutable :=
  exists_congr fun _ => and_congr_left fun _ => ⟨h.symm.trans, h.trans⟩

theorem applied_join_of_not (hnot : ¬(Joined steps index first ∨ Joined steps index second)) :
    Applied (steps ++ [join first second]) index mutable ↔ Applied steps index mutable := by
  simp [Applied, joined_join_iff, hnot]

theorem applied_join (hindex : Joined steps index first ∨ Joined steps index second) :
    Applied (steps ++ [join first second]) index mutable ↔
      Applied steps first mutable ∨ Applied steps second mutable := by
  have hjoined : ∀ other, Joined (steps ++ [join first second]) index other ↔
      Joined steps first other ∨ Joined steps second other := by
    intro other
    rw [joined_join_iff]
    constructor
    · rintro (h | ⟨-, h⟩)
      · exact hindex.imp (fun h' => h'.symm.trans h) fun h' => h'.symm.trans h
      · exact h.imp Connected.symm Connected.symm
    · exact fun h => .inr ⟨hindex, h.imp Connected.symm Connected.symm⟩
  simp [Applied, hjoined, or_and_right, exists_or]

theorem applied_perm (h : steps.Perm steps') :
    Applied steps index mutable ↔ Applied steps' index mutable := by
  have hm : ∀ pair, pair ∈ steps.filterMap pair? ↔ pair ∈ steps'.filterMap pair? :=
    fun pair => (h.filterMap pair?).mem_iff
  have hjoined : Joined steps = Joined steps' := by
    simp only [Joined, Connected, hm]
  simp only [Applied, hjoined, h.mem_iff]

end Restriction

namespace TermStore

open Restriction

variable {s : TermStore} {left right base : TermId} {steps : List (Restriction count)}

/-- The mutabilities from a handle on are in one class if the steps connect them, and only then.
Each has the conjunction of what was applied to its class. -/
structure Accumulates (s : TermStore) (base : TermId) (steps : List (Restriction count)) :
    Prop where
  same_iff : ∀ first second : Fin count,
    s.same (base + first.val) (base + second.val) = true ↔ Joined steps first second
  value : ∀ index : Fin count, ∃ value,
    s.probe (base + index.val) = .mutability value ∧ IsConjunction value (Applied steps index)

theorem unify_mutabilities {value value' : Option Bool} (hl : s.probe left = .mutability value)
    (hr : s.probe right = .mutability value') :
    (s.unify left right).store = s.union left right := by
  cases hsame : s.same left right with
  | true => simp [unify, depth, unifyTo, hsame, union_of_same]
  | false => simp [unify, depth, unifyTo, hsame, hl, hr, accept]

theorem Accumulates.restrict (h : s.Accumulates base steps) (target : Fin count) (mutable : Bool) :
    (s.constrainMutability (base + target.val) mutable).Accumulates base
      (steps ++ [.restrict target mutable]) := by
  obtain ⟨before, htarget, hbefore⟩ := h.value target
  refine ⟨fun first second => ?_, fun index => ?_⟩
  · rw [constrainMutability, same_absorb, joined_restrict]
    exact h.same_iff first second
  · have hp := probe_absorb (lt_size_of_probe htarget) (.mutability (some mutable))
      (base + index.val)
    by_cases hsame : s.same (base + target.val) (base + index.val) = true
    · rw [if_pos hsame, htarget] at hp
      refine ⟨_, hp, (hbefore.both (.singleton mutable)).congr fun applied => ?_⟩
      have hjoined : Joined steps target index := (h.same_iff _ _).mp hsame
      rw [applied_restrict_iff, applied_iff_of_joined hjoined, and_iff_right hjoined.symm]
    · rw [if_neg hsame] at hp
      obtain ⟨value, hvalue, hconjunction⟩ := h.value index
      refine ⟨value, hp.trans hvalue, hconjunction.congr fun applied => ?_⟩
      have hapart : ¬Joined steps index target := fun hjoined =>
        hsame ((h.same_iff _ _).mpr hjoined.symm)
      rw [applied_restrict_iff, or_iff_left fun happlied => hapart happlied.1]

theorem Accumulates.join (h : s.Accumulates base steps) (first second : Fin count) :
    (s.unify (base + first.val) (base + second.val)).store.Accumulates base
      (steps ++ [.join first second]) := by
  obtain ⟨left, hl, hconjunction⟩ := h.value first
  obtain ⟨right, hr, hconjunction'⟩ := h.value second
  have hlt : base + first.val < s.size := lt_size_of_probe hl
  have hlt' : base + second.val < s.size := lt_size_of_probe hr
  rw [unify_mutabilities hl hr]
  refine ⟨fun index other => ?_, fun index => ?_⟩
  · rw [same_union hlt hlt', joined_join_iff]
    simp only [h.same_iff]
  · cases hapart : s.same (base + first.val) (base + second.val) with
    | true =>
      -- a second join of what is one already
      have hjoined : Joined steps first second := (h.same_iff _ _).mp hapart
      obtain ⟨value, hvalue, hconjunction⟩ := h.value index
      rw [union_of_same hapart]
      refine ⟨value, hvalue, hconjunction.congr fun applied => ?_⟩
      by_cases hindex : Joined steps index first
      · rw [applied_join (.inl hindex), applied_iff_of_joined hindex,
          ← applied_iff_of_joined hjoined, or_self]
      · have ho : ¬Joined steps index second := fun h => hindex (h.trans hjoined.symm)
        rw [applied_join_of_not (not_or.mpr ⟨hindex, ho⟩)]
    | false =>
      have hp := probe_union hlt hlt' hapart (base + index.val)
      rw [hl, hr] at hp
      split at hp
      · rename_i hsame
        have hindex : Joined steps index first ∨ Joined steps index second :=
          hsame.imp (h.same_iff _ _).mp (h.same_iff _ _).mp
        exact ⟨_, hp, (hconjunction.both hconjunction').congr fun applied =>
          (applied_join hindex).symm⟩
      · rename_i hsame
        have hindex : ¬(Joined steps index first ∨ Joined steps index second) :=
          fun hjoined => hsame (hjoined.imp (h.same_iff _ _).mpr (h.same_iff _ _).mpr)
        obtain ⟨value, hvalue, hconjunction⟩ := h.value index
        exact ⟨value, hp.trans hvalue, hconjunction.congr fun applied =>
          (applied_join_of_not hindex).symm⟩

theorem Accumulates.after (h : s.Accumulates base steps) (more : List (Restriction count)) :
    (s.after (more.map (·.operation base))).Accumulates base (steps ++ more) := by
  induction more generalizing s steps with
  | nil =>
    rw [List.append_nil]
    exact h
  | cons step rest ih =>
    rw [← List.singleton_append, ← List.append_assoc]
    cases step with
    | restrict target mutable => exact ih (h.restrict target mutable)
    | join first second => exact ih (h.join first second)

/-! ## New mutabilities -/

theorem newMutabilities_spec (s : TermStore) (count : Nat) :
    let created := s.after (List.replicate count .newMutability)
    (∀ left right, created.same left right = s.same left right) ∧
      (∀ term, term < s.size → created.probe term = s.probe term) ∧
      ∀ index < count, created.probe (s.size + index) = .mutability none := by
  induction count generalizing s with
  | zero => exact ⟨fun _ _ => rfl, fun _ _ => rfl, fun _ hlt => absurd hlt (Nat.not_lt_zero _)⟩
  | succ count ih =>
    obtain ⟨hsame, hold, hnew⟩ := ih s.newMutability.2
    have hsize : s.newMutability.2.size = s.size + 1 := size_push ..
    rw [hsize] at hold hnew
    refine ⟨fun left right => (hsame left right).trans (same_push ..), fun term hlt => ?_,
      fun index hlt => ?_⟩
    · refine (hold term (Nat.lt_succ_of_lt hlt)).trans ?_
      rw [newMutability, probe_push, if_neg (Nat.ne_of_lt hlt)]
    · cases index with
      | zero => exact (hold _ (Nat.lt_succ_self _)).trans (probe_push_self ..)
      | succ index =>
        rw [Nat.add_comm index, ← Nat.add_assoc]
        exact hnew index (Nat.lt_of_succ_lt_succ hlt)

theorem accumulates_newMutabilities (s : TermStore) (count : Nat) :
    (s.after (List.replicate count .newMutability)).Accumulates s.size
      ([] : List (Restriction count)) := by
  obtain ⟨hsame, -, hnew⟩ := newMutabilities_spec s count
  refine ⟨fun first second => ?_, fun index => ⟨none, hnew index.val index.isLt, ?_⟩⟩
  · rw [hsame]
    exact same_size_add_iff.trans connected_nil_iff.symm
  · exact .of_forall_not fun _ ⟨_, _, hm⟩ => by cases hm

def newRestricted (s : TermStore) (count : Nat) (steps : List (Restriction count)) :
    TermStore :=
  (s.after (List.replicate count .newMutability)).after (steps.map (·.operation s.size))

/-- However many mutabilities there are and in whatever order they are restricted and joined, each
has in the end the conjunction of what was applied to any mutability that the joins connect it with,
or no value if nothing was. So any other order of the same steps leaves the same values. -/
theorem probe_newRestricted (store : TermStore) (count : Nat) (steps : List (Restriction count))
    (index : Fin count) :
    ∃ value, (store.newRestricted count steps).probe (store.size + index.val) = .mutability value ∧
      IsConjunction value (Applied steps index) ∧
      ∀ steps', steps.Perm steps' →
        (store.newRestricted count steps').probe (store.size + index.val) = .mutability value := by
  have hstart := accumulates_newMutabilities store count
  obtain ⟨value, hvalue, hconjunction⟩ := (hstart.after steps).value index
  refine ⟨value, hvalue, hconjunction, fun steps' hperm => ?_⟩
  obtain ⟨value', hvalue', hconjunction'⟩ := (hstart.after steps').value index
  have heq : value' = value := hconjunction'.unique
    (hconjunction.congr fun _ => applied_perm hperm)
  exact heq ▸ hvalue'

/-- The first of three mutabilities is restricted before it is joined with the second. -/
def restrictedThenJoined : List (Restriction 3) :=
  [.restrict 0 true, .restrict 0 false, .join 1 0, .restrict 1 true]

/-- The second mutability has what the first was restricted to, and the third has nothing. The other
way round it is the same. -/
theorem probe_newRestricted_three :
    ∃ value, (({} : TermStore).newRestricted 3 restrictedThenJoined).probe 1 =
        .mutability value ∧
      IsConjunction value (Applied restrictedThenJoined 1) ∧ value = some false ∧
      restrictedThenJoined.Perm restrictedThenJoined.reverse ∧
      (({} : TermStore).newRestricted 3 restrictedThenJoined.reverse).probe 1 =
        .mutability value := by
  obtain ⟨value, hprobe, hconjunction, hperm⟩ :=
    probe_newRestricted {} 3 restrictedThenJoined (1 : Fin 3)
  have hvalue : (({} : TermStore).newRestricted 3 restrictedThenJoined).probe 1 =
      .mutability (some false) := by
    decide +kernel
  have hreverse := (List.reverse_perm restrictedThenJoined).symm
  exact ⟨value, hprobe, hconjunction, Term.mutability.inj (hprobe.symm.trans hvalue), hreverse,
    hperm _ hreverse⟩

end TermStore

end BorrowFlow
