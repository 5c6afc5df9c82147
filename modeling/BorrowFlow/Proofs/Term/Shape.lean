import BorrowFlow.Proofs.Term.Growth
import Mathlib.Data.Fintype.Card
import Mathlib.Data.Fintype.Pigeonhole
import Mathlib.Logic.Relation

/-!
# Shapes of types

The shape of a type is the finite tree that is left of it when mutabilities and lifetimes are
forgotten. A store is a system of equations between the shapes of its handles, and an assignment of
shapes to the unbound classes determines a solution of it, provided that there is any: then no type
contains itself, and what a handle is made of ends after no more parts than the store has terms.
-/

namespace BorrowFlow

variable {count : Nat} {shapes : TermId → Shape}

/-- A type without the mutability and the lifetime of its references. -/
inductive Shape where
  | literal (type : DataType)
  | constructed (head : TypeConstructor) (argument : Shape)
  | reference (referent : Shape)
  deriving DecidableEq

def Shape.size : Shape → Nat
  | literal _ => 1
  | constructed _ argument => argument.size + 1
  | reference referent => referent.size + 1

namespace TermStore

variable {s s' : TermStore} {term part left right inner : TermId}

/-! ## Parts -/

def part? (s : TermStore) (term : TermId) : Option TermId :=
  match s.probe term with
  | .constructed _ argument => some argument
  | .reference _ underlying _ => some underlying
  | _ => none

/-- One step from a type into what it is made of. Handles of one class are not told apart. -/
def Contains (s : TermStore) (whole inner : TermId) : Prop :=
  ∃ part, s.part? whole = some part ∧ s.same part inner = true

/-- The first handle is in the class of the second, or of something that the second is made of. -/
inductive Occurs (s : TermStore) (inner : TermId) : TermId → Prop
  | here {term : TermId} (h : s.same inner term = true) : Occurs s inner term
  | inside {term part : TermId} (hpart : s.part? term = some part)
      (h : Occurs s inner part) : Occurs s inner term

/-- Following the parts of a term comes to an end within the given number of terms. -/
def EndsWithin (s : TermStore) : Nat → TermId → Prop
  | 0, _ => False
  | count + 1, term => ∀ part, s.part? term = some part → s.EndsWithin count part

theorem part?_eq_some_iff : s.part? term = some part ↔
    (∃ head, s.probe term = .constructed head part) ∨
      ∃ mutability lifetime, s.probe term = .reference mutability part lifetime := by
  unfold part?
  split <;> simp_all

theorem part?_constructed {head : TypeConstructor} (h : s.probe term = .constructed head part) :
    s.part? term = some part :=
  part?_eq_some_iff.mpr (.inl ⟨head, h⟩)

theorem part?_reference {mutability : Mutability} {lifetime : TermId}
    (h : s.probe term = .reference mutability part lifetime) : s.part? term = some part :=
  part?_eq_some_iff.mpr (.inr ⟨mutability, lifetime, h⟩)

theorem lt_size_of_part? (h : s.part? term = some part) : term < s.size := by
  apply lt_size_of_probe_ne
  rcases part?_eq_some_iff.mp h with ⟨head, h⟩ | ⟨mutability, lifetime, h⟩ <;> simp [h]

theorem WellSorted.hasSort_argument (hs : s.WellSorted) {head : TypeConstructor}
    (h : s.probe term = .constructed head part) : s.HasSort part .type := by
  have hfit := hs term
  rwa [h] at hfit

theorem WellSorted.reference (hs : s.WellSorted) {mutability : Mutability}
    {underlying lifetime : TermId}
    (h : s.probe term = .reference mutability underlying lifetime) :
    s.MutabilityFits mutability ∧ s.HasSort underlying .type ∧ s.HasSort lifetime .lifetime := by
  have hfit := hs term
  rwa [h] at hfit

theorem WellSorted.hasSort_part (hs : s.WellSorted) (h : s.part? term = some part) :
    s.HasSort part .type := by
  rcases part?_eq_some_iff.mp h with ⟨head, h⟩ | ⟨mutability, lifetime, h⟩
  · exact hs.hasSort_argument h
  · exact (hs.reference h).2.1

theorem hasSort_of_part? (h : s.part? term = some part) : s.HasSort term .type := by
  refine ⟨lt_size_of_part? h, ?_⟩
  rcases part?_eq_some_iff.mp h with ⟨head, h⟩ | ⟨mutability, lifetime, h⟩ <;> rw [h] <;> rfl

theorem EndsWithin.mono {count' : Nat} (h : s.EndsWithin count term) (hle : count ≤ count') :
    s.EndsWithin count' term := by
  induction count generalizing term count' with
  | zero => exact h.elim
  | succ count ih =>
    obtain ⟨count', rfl⟩ : ∃ other, count' = other + 1 := ⟨count' - 1, by omega⟩
    intro part hpart
    exact ih (h part hpart) (by omega)

/-! ## Solutions -/

/-- The shapes satisfy every equation between types that the store has. -/
structure Solves (s : TermStore) (shapes : TermId → Shape) : Prop where
  same : ∀ left right, s.HasSort left .type → s.same left right = true → shapes left = shapes right
  literal : ∀ term type, term < s.size → s.probe term = .literal type → shapes term = .literal type
  constructed : ∀ term head argument, s.probe term = .constructed head argument →
    shapes term = .constructed head (shapes argument)
  reference : ∀ term mutability underlying lifetime,
    s.probe term = .reference mutability underlying lifetime →
      shapes term = .reference (shapes underlying)

def Solvable (s : TermStore) : Prop := ∃ shapes, s.Solves shapes

namespace Solves

theorem size_part_lt (h : s.Solves shapes) (hpart : s.part? term = some part) :
    (shapes part).size < (shapes term).size := by
  rcases part?_eq_some_iff.mp hpart with ⟨head, hp⟩ | ⟨mutability, lifetime, hp⟩
  · rw [h.constructed _ _ _ hp]
    exact Nat.lt_succ_self _
  · rw [h.reference _ _ _ _ hp]
    exact Nat.lt_succ_self _

section

variable (hs : s.WellSorted) (h : s.Solves shapes)
include hs h

theorem size_le_of_occurs (ht : s.HasSort term .type) (hoccurs : s.Occurs inner term) :
    (shapes inner).size ≤ (shapes term).size := by
  induction hoccurs with
  | here hsame => rw [h.same _ _ ht (same_symm hsame)]
  | inside hpart _ ih =>
    exact Nat.le_trans (ih (hs.hasSort_part hpart)) (Nat.le_of_lt (h.size_part_lt hpart))

theorem ne_of_occurs (hapart : s.same inner term = false) (hoccurs : s.Occurs inner term) :
    shapes inner ≠ shapes term := by
  intro heq
  cases hoccurs with
  | here hsame => simp [hapart] at hsame
  | inside hpart hoccurs =>
    have hle := h.size_le_of_occurs hs (hs.hasSort_part hpart) hoccurs
    have hlt := h.size_part_lt hpart
    rw [heq] at hle
    omega

theorem size_lt_of_contains (hcontains : s.Contains term inner) :
    (shapes inner).size < (shapes term).size := by
  obtain ⟨part, hpart, hsame⟩ := hcontains
  rw [← h.same _ _ (hs.hasSort_part hpart) hsame]
  exact h.size_part_lt hpart

theorem alikeShape (hl : s.HasSort left .type) (halike : s.AlikeShape left right) :
    shapes left = shapes right := by
  induction halike with
  | same hsame => exact h.same _ _ hl hsame
  | reference hp hp' _ _ ih =>
    rw [h.reference _ _ _ _ hp, h.reference _ _ _ _ hp', ih (hs.reference hp).2.1]

end

/-- What a store has come to know are further equations. -/
theorem of_extends (hs : s.WellSorted) (hs' : s'.WellSorted)
    (hext : s.Extends s') (h : s'.Solves shapes) : s.Solves shapes where
  same left right hl hsame := h.same _ _ (hext.hasSort hl) (hext.same _ _ hsame)
  literal term type hlt hp :=
    h.literal _ _ (Nat.lt_of_lt_of_le hlt hext.size_le) (hext.literal hlt hp)
  constructed term head argument hp := by
    obtain ⟨argument', hp', halike⟩ := hext.constructed hp
    have hargument : s.HasSort argument .type :=
      hs.hasSort_argument hp
    rw [h.constructed _ _ _ hp', h.alikeShape hs' (hext.hasSort hargument) halike]
  reference term mutability underlying lifetime hp :=
    h.reference _ _ _ _ (hext.reference hp)

end Solves

/-! ## Types end -/

theorem exists_chain (h : ¬s.EndsWithin count term) : ∃ chain : Nat → TermId, chain 0 = term ∧
      ∀ index < count, s.part? (chain index) = some (chain (index + 1)) := by
  induction count generalizing term with
  | zero => exact ⟨fun _ => term, rfl, fun _ hlt => absurd hlt (Nat.not_lt_zero _)⟩
  | succ count ih =>
    simp only [EndsWithin, not_forall] at h
    obtain ⟨part, hpart, h⟩ := h
    obtain ⟨chain, hstart, hchain⟩ := ih h
    refine ⟨fun index => if index = 0 then term else chain (index - 1), rfl, fun index hlt => ?_⟩
    cases index with
    | zero => simpa [hstart] using hpart
    | succ index => simpa using hchain index (by omega)

theorem Solves.size_chain (h : s.Solves shapes) {chain : Nat → TermId}
    (hchain : ∀ index < count, s.part? (chain index) = some (chain (index + 1)))
    {first second : Nat} (hlt : first < second) (hle : second ≤ count) :
    (shapes (chain second)).size < (shapes (chain first)).size := by
  induction second, hlt using Nat.le_induction with
  | base => exact h.size_part_lt (hchain first (by omega))
  | succ second hlt ih =>
    exact Nat.lt_trans (h.size_part_lt (hchain second (by omega))) (ih (by omega))

/-- In a store that has a solution, following parts passes no class twice, so it ends within as many
terms as there are. -/
theorem Solvable.endsWithin (hs : s.WellSorted) (h : s.Solvable)
    (ht : s.HasSort term .type) : s.EndsWithin s.size term := by
  obtain ⟨shapes, h⟩ := h
  by_contra hends
  obtain ⟨chain, hstart, hchain⟩ := exists_chain hends
  have hsort : ∀ index ≤ s.size, s.HasSort (chain index) .type := by
    intro index hle
    cases index with
    | zero => rwa [hstart]
    | succ index => exact hs.hasSort_part (hchain index hle)
  let label : Fin (s.size + 1) → Fin s.size := fun index =>
    ⟨s.classes.label (chain index),
      (s.classes.label_lt_iff _).mpr (hsort index (Nat.le_of_lt_succ index.2)).1⟩
  obtain ⟨first, second, hne, heq⟩ :=
    Fintype.exists_ne_map_eq_of_card_lt label (by simp)
  -- two places of the chain in one class have shapes of one size, but sizes decrease
  have hsame : ∀ {one other : Fin (s.size + 1)}, label one = label other →
      (shapes (chain one)).size = (shapes (chain other)).size := by
    intro one other heq
    rw [h.same _ _ (hsort one (Nat.le_of_lt_succ one.2))
      ((s.classes.same_iff).mpr (Fin.mk.inj heq))]
  rcases Nat.lt_or_gt_of_ne (fun hval => hne (Fin.ext hval)) with hlt | hlt
  · exact absurd (hsame heq) (Nat.ne_of_gt (h.size_chain hchain hlt (Nat.le_of_lt_succ second.2)))
  · exact absurd (hsame heq) (Nat.ne_of_lt (h.size_chain hchain hlt (Nat.le_of_lt_succ first.2)))

/-! ## The solution of an assignment -/

/-- The shape of a term to the given depth, if the unbound classes have the assigned shapes. -/
def shapeTo (s : TermStore) (assigned : Nat → Shape) : Nat → TermId → Shape
  | 0, _ => .literal .unresolved
  | depth + 1, term =>
    match s.probe term with
    | .literal type => .literal type
    | .constructed head argument => .constructed head (s.shapeTo assigned depth argument)
    | .reference _ underlying _ => .reference (s.shapeTo assigned depth underlying)
    | _ => assigned (s.classes.label term)

/-- The shape of a term, if the unbound classes have the assigned shapes. Shapes are assigned to the
labels of classes. -/
def shape (s : TermStore) (assigned : Nat → Shape) (term : TermId) : Shape :=
  s.shapeTo assigned s.depth term

variable {assigned : Nat → Shape}

theorem shapeTo_eq_of_endsWithin {depth depth' : Nat} (h : s.EndsWithin count term)
    (hdepth : count ≤ depth) (hdepth' : count ≤ depth') :
    s.shapeTo assigned depth term = s.shapeTo assigned depth' term := by
  induction count generalizing term depth depth' with
  | zero => exact h.elim
  | succ count ih =>
    obtain ⟨depth, rfl⟩ : ∃ other, depth = other + 1 := ⟨depth - 1, by omega⟩
    obtain ⟨depth', rfl⟩ : ∃ other, depth' = other + 1 := ⟨depth' - 1, by omega⟩
    have hpart : ∀ part, s.part? term = some part →
        s.shapeTo assigned depth part = s.shapeTo assigned depth' part :=
      fun part hpart => ih (h part hpart) (by omega) (by omega)
    simp only [shapeTo]
    split
    · rfl
    · rename_i hp
      rw [hpart _ (part?_eq_some_iff.mpr (.inl ⟨_, hp⟩))]
    · rename_i hp
      rw [hpart _ (part?_eq_some_iff.mpr (.inr ⟨_, _, hp⟩))]
    · rfl

theorem shape_of_unbound {id : Nat} {constraints : List Constraint}
    (h : s.probe term = .unbound id constraints) :
    s.shape assigned term = assigned (s.classes.label term) := by
  simp [shape, depth, shapeTo, h]

theorem shape_eq_shapeTo (hs : s.WellSorted) (h : s.Solvable) (ht : s.HasSort term .type) :
    s.shapeTo assigned s.size term = s.shape assigned term :=
  shapeTo_eq_of_endsWithin (h.endsWithin hs ht) (Nat.le_refl _) (Nat.le_succ _)

/-- If there is a solution at all, then there is one for every assignment. -/
theorem Solvable.solves_shape (hs : s.WellSorted) (h : s.Solvable)
    (assigned : Nat → Shape) : s.Solves (s.shape assigned) where
  same left right _ hsame := by
    simp only [shape, depth, shapeTo, probe_of_same hsame]
    rw [(s.classes.same_iff).mp hsame]
  literal term type _ hp := by
    simp [shape, depth, shapeTo, hp]
  constructed term head argument hp := by
    have hargument := hs.hasSort_argument hp
    rw [← shape_eq_shapeTo hs h hargument]
    simp [shape, depth, shapeTo, hp]
  reference term mutability underlying lifetime hp := by
    have hunderlying :=
      (hs.reference hp).2.1
    rw [← shape_eq_shapeTo hs h hunderlying]
    simp [shape, depth, shapeTo, hp]

/-- Two solutions that agree on the unbound terms inside a type agree on the type. -/
theorem Solves.eq_of_unbound {shapes' : TermId → Shape} (hs : s.WellSorted)
    (h : s.Solves shapes) (h' : s.Solves shapes') (hends : s.EndsWithin count term)
    (ht : s.HasSort term .type) (hunbound : ∀ other id constraints, s.Occurs other term →
      s.probe other = .unbound id constraints → shapes other = shapes' other) :
    shapes term = shapes' term := by
  induction count generalizing term with
  | zero => exact hends.elim
  | succ count ih =>
    have hpart : ∀ part, s.part? term = some part → shapes part = shapes' part :=
      fun part hpart => ih (hends part hpart) (hs.hasSort_part hpart)
        fun other id constraints hoccurs => hunbound other id constraints (.inside hpart hoccurs)
    cases hp : s.probe term with
    | unbound id constraints => exact hunbound term id constraints (.here (same_refl _ _)) hp
    | literal type => rw [h.literal _ _ ht.1 hp, h'.literal _ _ ht.1 hp]
    | constructed head argument =>
      rw [h.constructed _ _ _ hp, h'.constructed _ _ _ hp,
        hpart _ (part?_eq_some_iff.mpr (.inl ⟨_, hp⟩))]
    | reference mutability underlying lifetime =>
      rw [h.reference _ _ _ _ hp, h'.reference _ _ _ _ hp,
        hpart _ (part?_eq_some_iff.mpr (.inr ⟨_, _, hp⟩))]
    | lifetime value => simp [HasSort, hp, Term.sort] at ht
    | mutability value => simp [HasSort, hp, Term.sort] at ht

theorem solves_iff_exists_shape (hs : s.WellSorted) (h : s.Solvable) (shapes : TermId → Shape) :
    (∃ assigned, ∀ term, s.HasSort term .type → shapes term = s.shape assigned term) ↔
      s.Solves shapes := by
  constructor
  · rintro ⟨assigned, hshapes⟩
    have hshape := h.solves_shape hs assigned
    refine ⟨fun left right hl hsame => ?_, fun term type hlt hp => ?_,
      fun term head argument hp => ?_, fun term mutability underlying lifetime hp => ?_⟩
    · rw [hshapes left hl, hshapes right (hl.of_same hsame), hshape.same _ _ hl hsame]
    · rw [hshapes term ⟨hlt, by rw [hp]; rfl⟩, hshape.literal _ _ hlt hp]
    · have hpart := part?_eq_some_iff.mpr (.inl ⟨head, hp⟩)
      rw [hshapes term (hasSort_of_part? hpart), hshapes argument (hs.hasSort_part hpart),
        hshape.constructed _ _ _ hp]
    · have hpart := part?_eq_some_iff.mpr (.inr ⟨mutability, lifetime, hp⟩)
      rw [hshapes term (hasSort_of_part? hpart), hshapes underlying (hs.hasSort_part hpart),
        hshape.reference _ _ _ _ hp]
  · intro hshapes
    classical
    -- a class is assigned the shape of any of its handles
    let assigned : Nat → Shape := fun label =>
      if hex : ∃ term, s.HasSort term .type ∧ s.classes.label term = label then
        shapes hex.choose
      else .literal .unresolved
    refine ⟨assigned, fun term ht => ?_⟩
    refine hshapes.eq_of_unbound hs (h.solves_shape hs assigned) (h.endsWithin hs ht) ht ?_
    intro other id constraints _ hp
    have ho : s.HasSort other .type := hasSort_of_probe hp
    have hex : ∃ term, s.HasSort term .type ∧
        s.classes.label term = s.classes.label other := ⟨other, ho, rfl⟩
    rw [shape_of_unbound hp]
    simp only [assigned, dif_pos hex]
    exact hshapes.same _ _ ho ((s.classes.same_iff).mpr hex.choose_spec.2.symm)

end TermStore

end BorrowFlow
