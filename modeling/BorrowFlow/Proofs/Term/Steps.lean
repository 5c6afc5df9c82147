import BorrowFlow.Proofs.Term.Shape

/-!
# The steps a store can take

Everything that the operations do to terms which are there already is a sequence of a few kinds of
steps. Quiet steps leave the types as they are. The others make two types one: an unbound type and a
type that it does not occur in, two equal literals, or two constructed types whose arguments are
alike already. No step closes a cycle.
-/

namespace BorrowFlow

variable {shapes : TermId → Shape}

namespace TermStore

variable {s s' s'' : TermStore} {term left right inner : TermId}

/-- A step that concerns constraints, lifetimes or mutabilities only. -/
inductive Quiet (s : TermStore) : TermStore → Prop
  | constrain {term : TermId} {id id' : Nat} {constraints added : List Constraint}
      (h : s.probe term = .unbound id constraints) :
      Quiet s (s.absorb term (.unbound id' added))
  | resolve {term : TermId} {value : Lifetime} (h : s.probe term = .lifetime none) :
      Quiet s (s.absorb term (.lifetime (some value)))
  | restrict {term : TermId} {value : Option Bool} {mutable : Bool}
      (h : s.probe term = .mutability value) :
      Quiet s (s.absorb term (.mutability (some mutable)))
  | lifetimes {left right : TermId} {first second : Option Lifetime}
      (hleft : s.probe left = .lifetime first) (hright : s.probe right = .lifetime second)
      (hcompatible : ∀ value value', first = some value → second = some value' → value = value') :
      Quiet s (s.union left right)
  | mutabilities {left right : TermId} {first second : Option Bool}
      (hleft : s.probe left = .mutability first)
      (hright : s.probe right = .mutability second) :
      Quiet s (s.union left right)

inductive Step (s : TermStore) : TermStore → Prop
  | quiet {s' : TermStore} (h : s.Quiet s') : Step s s'
  | bind {inner term : TermId} {id : Nat} {constraints : List Constraint}
      (hinner : s.probe inner = .unbound id constraints) (hterm : s.HasSort term .type)
      (hfree : ¬s.Occurs inner term) : Step s (s.union inner term)
  | literals {left right : TermId} {type : DataType} (hlt : left < s.size)
      (hlt' : right < s.size) (hleft : s.probe left = .literal type)
      (hright : s.probe right = .literal type) : Step s (s.union left right)
  | constructors {left right first second : TermId} {head : TypeConstructor}
      (hleft : s.probe left = .constructed head first)
      (hright : s.probe right = .constructed head second)
      (halike : s.AlikeShape first second) : Step s (s.union left right)

abbrev Steps : TermStore → TermStore → Prop := Relation.ReflTransGen Step

/-! ## Terms grow -/

theorem extends_union (hlt : left < s.size) (hlt' : right < s.size)
    (hapart : s.same left right = false)
    (hl : (s.probe left).Grows (s.union left right).AlikeShape
      ((s.probe left).merge (s.probe right)))
    (hr : (s.probe right).Grows (s.union left right).AlikeShape
      ((s.probe left).merge (s.probe right))) :
    s.Extends (s.union left right) where
  size_le := by rw [size_union]
  same first second h := (same_union hlt hlt' first second).mpr (.inl h)
  grows term _ := by
    rw [probe_union hlt hlt' hapart]
    split
    · rename_i hkey
      rcases hkey with hkey | hkey
      · rwa [probe_of_same hkey]
      · rwa [probe_of_same hkey]
    · exact Term.Grows.refl Alike.refl _

theorem extends_absorb {other : Term} (hlt : term < s.size)
    (h : (s.probe term).Grows (s.absorb term other).AlikeShape ((s.probe term).merge other)) :
    s.Extends (s.absorb term other) where
  size_le := Nat.le_refl _
  same _ _ h := h
  grows key _ := by
    rw [probe_absorb hlt]
    split
    · rename_i hkey
      rwa [← probe_of_same hkey]
    · exact Term.Grows.refl Alike.refl _

theorem Quiet.extends (h : s.Quiet s') : s.Extends s' := by
  cases h with
  | constrain h =>
    apply extends_absorb (lt_size_of_probe h)
    rw [h]
    rfl
  | resolve h =>
    apply extends_absorb (lt_size_of_probe h)
    rw [h]
    exact ⟨_, rfl, fun _ hknown => by simp at hknown⟩
  | @restrict _ value mutable h =>
    apply extends_absorb (lt_size_of_probe h)
    rw [h]
    refine ⟨_, rfl, fun known hknown => ⟨known && mutable, ?_, ?_⟩⟩
    · rw [hknown]
      rfl
    · exact fun h => (Bool.and_eq_true_iff.mp h).1
  | @lifetimes left right first second hl hr hcompatible =>
    cases hapart : s.same left right with
    | true =>
      rw [union_of_same hapart]
      exact .refl s
    | false =>
      apply extends_union (lt_size_of_probe hl) (lt_size_of_probe hr) hapart
      · rw [hl, hr]
        refine ⟨_, rfl, fun known hknown => ?_⟩
        simp [hknown]
      · rw [hl, hr]
        refine ⟨_, rfl, fun known hknown => ?_⟩
        cases first with
        | none => simpa using hknown
        | some value => simp [hcompatible value known rfl hknown]
  | @mutabilities left right first second hl hr =>
    cases hapart : s.same left right with
    | true =>
      rw [union_of_same hapart]
      exact .refl s
    | false =>
      apply extends_union (lt_size_of_probe hl) (lt_size_of_probe hr) hapart
      · rw [hl, hr]
        refine ⟨_, rfl, fun known hknown => ?_⟩
        subst hknown
        cases second with
        | none => exact ⟨known, rfl, id⟩
        | some other => exact ⟨known && other, rfl, fun h => (Bool.and_eq_true_iff.mp h).1⟩
      · rw [hl, hr]
        refine ⟨_, rfl, fun known hknown => ?_⟩
        subst hknown
        cases first with
        | none => exact ⟨known, rfl, id⟩
        | some other => exact ⟨other && known, rfl, fun h => (Bool.and_eq_true_iff.mp h).2⟩

theorem merge_unbound_left (id : Nat) (constraints : List Constraint) {data : Term}
    (h : data.sort = .type) :
    ((Term.unbound id constraints).merge data).sort = .type ∧
      ∀ alike : TermId → TermId → Prop, (∀ term, alike term term) →
        data.Grows alike ((Term.unbound id constraints).merge data) := by
  cases data with
  | unbound id' constraints' => exact ⟨rfl, fun _ _ => rfl⟩
  | literal type => exact ⟨rfl, fun _ hrefl => Term.Grows.refl hrefl _⟩
  | constructed head argument => exact ⟨rfl, fun _ hrefl => Term.Grows.refl hrefl _⟩
  | reference mutability underlying lifetime =>
    exact ⟨rfl, fun _ hrefl => Term.Grows.refl hrefl _⟩
  | lifetime value => cases h
  | mutability value => cases h

theorem Step.extends (h : s.Step s') : s.Extends s' := by
  cases h with
  | quiet h => exact h.extends
  | @bind inner term id constraints hinner ht hfree =>
    have hapart : s.same inner term = false := by
      rw [← Bool.not_eq_true]
      exact fun hsame => hfree (.here hsame)
    obtain ⟨hsort, hg⟩ := merge_unbound_left id constraints ht.2
    apply extends_union (lt_size_of_probe hinner) ht.1 hapart
    · rw [hinner]
      exact hsort
    · rw [hinner]
      exact hg _ Alike.refl
  | @literals left right type hlt hlt' hl hr =>
    cases hapart : s.same left right with
    | true =>
      rw [union_of_same hapart]
      exact .refl s
    | false =>
      apply extends_union hlt hlt' hapart
      · rw [hl, hr]
        rfl
      · rw [hl, hr]
        rfl
  | @constructors left right first second head hl hr halike =>
    cases hapart : s.same left right with
    | true =>
      rw [union_of_same hapart]
      exact .refl s
    | false =>
      have hlt : left < s.size := lt_size_of_probe hl
      have hlt' : right < s.size := lt_size_of_probe hr
      -- the classes that are merged hold no reference, so everything alike stays so
      have hmono : (s.union left right).AlikeShape first second := by
        refine halike.mono (fun one other h => (same_union hlt hlt' one other).mpr (.inl h)) ?_
        intro term mutability underlying lifetime hp
        rw [probe_union hlt hlt' hapart, if_neg, hp]
        rintro (hsame | hsame)
        · simp [probe_of_same hsame, hl] at hp
        · simp [probe_of_same hsame, hr] at hp
      apply extends_union hlt hlt' hapart
      · rw [hl, hr]
        exact ⟨first, rfl, Alike.refl first⟩
      · rw [hl, hr]
        exact ⟨first, rfl, hmono.symm⟩

theorem Steps.extends (h : s.Steps s') : s.Extends s' := by
  induction h with
  | refl => exact .refl s
  | tail _ hstep ih => exact ih.trans hstep.extends

theorem Quiet.size_eq (h : s.Quiet s') : s'.size = s.size := by
  cases h <;> simp

theorem Step.size_eq (h : s.Step s') : s'.size = s.size := by
  cases h with
  | quiet h => exact h.size_eq
  | bind => simp
  | literals => simp
  | constructors => simp

theorem Steps.hasSort_iff (h : s.Steps s') (sort : TermSort) :
    s'.HasSort term sort ↔ s.HasSort term sort := by
  have hsize : s'.size = s.size := by
    induction h with
    | refl => rfl
    | tail _ hstep ih => rw [hstep.size_eq, ih]
  constructor
  · intro hsort
    have hlt : term < s.size := hsize ▸ hsort.1
    exact ⟨hlt, (h.extends.hasSort ⟨hlt, rfl⟩).2.symm.trans hsort.2⟩
  · exact h.extends.hasSort

/-! ## Sorts are kept -/

theorem Quiet.wellSorted (hs : s.WellSorted) (h : s.Quiet s') : s'.WellSorted := by
  cases h with
  | constrain h => exact hs.absorb (hasSort_of_probe h) trivial
  | resolve h => exact hs.absorb (hasSort_of_probe h) trivial
  | restrict h => exact hs.absorb (hasSort_of_probe h) trivial
  | lifetimes hl hr _ =>
    exact hs.union (hasSort_of_probe hl) (hasSort_of_probe hr)
  | mutabilities hl hr =>
    exact hs.union (hasSort_of_probe hl) (hasSort_of_probe hr)

theorem Step.wellSorted (hs : s.WellSorted) (h : s.Step s') : s'.WellSorted := by
  cases h with
  | quiet h => exact h.wellSorted hs
  | bind hinner ht _ => exact hs.union (hasSort_of_probe hinner) ht
  | literals hlt hlt' hl hr =>
    exact hs.union ⟨hlt, congrArg Term.sort hl⟩ ⟨hlt', congrArg Term.sort hr⟩
  | constructors hl hr _ =>
    exact hs.union (hasSort_of_probe hl) (hasSort_of_probe hr)

theorem Steps.wellSorted (hs : s.WellSorted) (h : s.Steps s') : s'.WellSorted := by
  induction h with
  | refl => exact hs
  | tail _ hstep ih => exact hstep.wellSorted ih

/-! ## Quiet steps -/

/-- The types are what they were, but for the constraints of unbound ones. -/
structure TypesKept (s s' : TermStore) : Prop where
  hasSort : ∀ term sort, s'.HasSort term sort ↔ s.HasSort term sort
  same : ∀ left right, s.HasSort left .type → (s'.same left right = true ↔ s.same left right = true)
  probe : ∀ term, s.HasSort term .type → s'.probe term = s.probe term ∨
      (∃ id constraints, s.probe term = .unbound id constraints) ∧
        ∃ id constraints, s'.probe term = .unbound id constraints

theorem typesKept_absorb {other : Term} (ho : s.HasSort term other.sort)
    (hkept : ∀ id constraints, s.probe term = .unbound id constraints →
      ∃ id constraints, (s.probe term).merge other = .unbound id constraints)
    (hunbound : other.sort = .type → ∃ id constraints, s.probe term = .unbound id constraints) :
    s.TypesKept (s.absorb term other) where
  hasSort key sort := by
    constructor
    · intro h
      refine ⟨h.1, h.2 ▸ ?_⟩
      rw [probe_absorb ho.1]
      split
      · rename_i hsame
        rw [Term.sort_merge ho.2, probe_of_same hsame]
      · rfl
    · exact hasSort_absorb ho
  same _ _ _ := Iff.rfl
  probe key hkey := by
    rw [probe_absorb ho.1]
    split
    · rename_i hsame
      have htype : other.sort = .type := by
        rw [← ho.2, probe_of_same hsame]
        exact hkey.2
      obtain ⟨id, constraints, hp⟩ := hunbound htype
      exact .inr ⟨⟨id, constraints, (probe_of_same hsame).symm.trans hp⟩, hkept _ _ hp⟩
    · exact .inl rfl

theorem typesKept_union {sort : TermSort} (hne : sort ≠ .type) (hl : s.HasSort left sort)
    (hr : s.HasSort right sort) : s.TypesKept (s.union left right) := by
  have houtside : ∀ key, s.HasSort key .type →
      ¬(s.same key left = true ∨ s.same key right = true) := by
    rintro key hkey (hsame | hsame)
    · exact hne (hl.2.symm.trans ((probe_of_same hsame) ▸ hkey.2))
    · exact hne (hr.2.symm.trans ((probe_of_same hsame) ▸ hkey.2))
  cases hapart : s.same left right with
  | true =>
    rw [union_of_same hapart]
    exact ⟨fun _ _ => Iff.rfl, fun _ _ _ => Iff.rfl, fun _ _ => .inl rfl⟩
  | false =>
    refine ⟨fun key sort' => ⟨fun h => ?_, hasSort_union hl hr⟩, fun first second h => ?_,
      fun key hkey => ?_⟩
    · have hlt : key < s.size := by
        rw [← size_union s left right]
        exact h.1
      exact ⟨hlt, (hasSort_union hl hr ⟨hlt, rfl⟩).2.symm.trans h.2⟩
    · rw [same_union hl.1 hr.1]
      exact or_iff_left fun hjoined => houtside first h hjoined.1
    · rw [probe_union hl.1 hr.1 hapart, if_neg (houtside key hkey)]
      exact .inl rfl

theorem Quiet.typesKept (h : s.Quiet s') : s.TypesKept s' := by
  cases h with
  | constrain h =>
    refine typesKept_absorb (hasSort_of_probe h) ?_ fun _ => ⟨_, _, h⟩
    intro id constraints hp
    rw [hp]
    exact ⟨_, _, rfl⟩
  | resolve h =>
    refine typesKept_absorb (hasSort_of_probe h) ?_ (by simp [Term.sort])
    simp [h]
  | restrict h =>
    refine typesKept_absorb (hasSort_of_probe h) ?_ (by simp [Term.sort])
    simp [h]
  | lifetimes hl hr _ =>
    exact typesKept_union (by simp [Term.sort]) (hasSort_of_probe hl (by simp) rfl)
      (hasSort_of_probe hr)
  | mutabilities hl hr =>
    exact typesKept_union (by simp [Term.sort]) (hasSort_of_probe hl (by simp) rfl)
      (hasSort_of_probe hr)

namespace TypesKept

theorem refl (s : TermStore) : s.TypesKept s :=
  ⟨fun _ _ => Iff.rfl, fun _ _ _ => Iff.rfl, fun _ _ => .inl rfl⟩

theorem trans (h : s.TypesKept s') (h' : s'.TypesKept s'') : s.TypesKept s'' where
  hasSort term sort := (h'.hasSort term sort).trans (h.hasSort term sort)
  same left right hl :=
    (h'.same left right ((h.hasSort _ _).mpr hl)).trans (h.same left right hl)
  probe term ht := by
    rcases h'.probe term ((h.hasSort _ _).mpr ht) with heq | ⟨⟨id, constraints, hmid⟩, hlast⟩
    · rw [heq]
      exact h.probe term ht
    · rcases h.probe term ht with heq | ⟨hfirst, -⟩
      · exact .inr ⟨⟨id, constraints, heq ▸ hmid⟩, hlast⟩
      · exact .inr ⟨hfirst, hlast⟩

theorem part? (h : s.TypesKept s') (ht : s.HasSort term .type) : s'.part? term = s.part? term := by
  rcases h.probe term ht with heq | ⟨⟨_, _, hp⟩, ⟨_, _, hp'⟩⟩
  · rw [TermStore.part?, TermStore.part?, heq]
  · rw [TermStore.part?, TermStore.part?, hp, hp']

theorem occurs_iff (hs : s.WellSorted) (h : s.TypesKept s') (ht : s.HasSort term .type) :
    s'.Occurs inner term ↔ s.Occurs inner term := by
  constructor
  · intro hoccurs
    induction hoccurs with
    | here hsame =>
      exact .here (same_symm ((h.same _ _ ht).mp (same_symm hsame)))
    | inside hpart _ ih =>
      rw [h.part? ht] at hpart
      exact .inside hpart (ih (hs.hasSort_part hpart))
  · intro hoccurs
    induction hoccurs with
    | here hsame =>
      exact .here (same_symm ((h.same _ _ ht).mpr (same_symm hsame)))
    | inside hpart _ ih =>
      exact .inside ((h.part? ht).trans hpart) (ih (hs.hasSort_part hpart))

theorem endsWithin (hs : s.WellSorted) (h : s.TypesKept s') {count : Nat}
    (ht : s.HasSort term .type) (hends : s.EndsWithin count term) :
    s'.EndsWithin count term := by
  induction count generalizing term with
  | zero => exact hends.elim
  | succ count ih =>
    intro part hpart
    rw [h.part? ht] at hpart
    exact ih (hs.hasSort_part hpart) (hends part hpart)

theorem solves (h : s.TypesKept s') (hshapes : s.Solves shapes) : s'.Solves shapes := by
  have hback : ∀ term data, term < s'.size → s'.probe term = data →
      data.sort = .type → (∀ id constraints, data ≠ .unbound id constraints) →
      s.HasSort term .type ∧ s.probe term = data := by
    intro term data hlt hp hsort hknown
    have ht : s.HasSort term .type := (h.hasSort _ _).mp ⟨hlt, hp ▸ hsort⟩
    rcases h.probe term ht with heq | ⟨-, id, constraints, hp'⟩
    · exact ⟨ht, heq ▸ hp⟩
    · exact absurd (hp.symm.trans hp') (hknown id constraints)
  refine ⟨fun left right hl hsame => ?_, fun term type hlt hp => ?_,
    fun term head argument hp => ?_, fun term mutability underlying lifetime hp => ?_⟩
  · have hl := (h.hasSort _ _).mp hl
    exact hshapes.same _ _ hl ((h.same _ _ hl).mp hsame)
  · obtain ⟨ht, hp⟩ := hback term _ hlt hp rfl (by simp)
    exact hshapes.literal _ _ ht.1 hp
  · obtain ⟨-, hp⟩ :=
      hback term _ (lt_size_of_probe hp) hp rfl (by simp)
    exact hshapes.constructed _ _ _ hp
  · obtain ⟨-, hp⟩ :=
      hback term _ (lt_size_of_probe hp) hp rfl (by simp)
    exact hshapes.reference _ _ _ _ hp

end TypesKept

/-! ## Solutions are kept -/

theorem merge_cases {first second : Term} (hfirst : first.sort = .type)
    (hsecond : second.sort = .type) :
    (∃ id constraints, first.merge second = .unbound id constraints) ∨
      first.merge second = first ∨ first.merge second = second := by
  cases first <;> cases second <;> simp_all [Term.merge, Term.sort]

theorem Solves.union (h : s.Solves shapes) (hl : s.HasSort left .type)
    (hr : s.HasSort right .type) (heq : shapes left = shapes right) :
    (s.union left right).Solves shapes := by
  cases hapart : s.same left right with
  | true => rwa [union_of_same hapart]
  | false =>
    have hjoined : ∀ key, s.same key left = true ∨ s.same key right = true →
        shapes key = shapes left ∧ shapes key = shapes right := by
      rintro key (hsame | hsame)
      · have hkey := h.same _ _ hl (same_symm hsame)
        exact ⟨hkey.symm, hkey.symm.trans heq⟩
      · have hkey := h.same _ _ hr (same_symm hsame)
        exact ⟨hkey.symm.trans heq.symm, hkey.symm⟩
    -- what a handle stands for now, it or something with its shape stood for before
    have hback : ∀ key data, (s.union left right).probe key = data →
        (∀ id constraints, data ≠ .unbound id constraints) →
        ∃ other, s.probe other = data ∧ shapes key = shapes other ∧
          (key < s.size → other < s.size) := by
      intro key data hp hknown
      rw [probe_union hl.1 hr.1 hapart] at hp
      split at hp
      · rename_i hkey
        obtain ⟨heqLeft, heqRight⟩ := hjoined key hkey
        rcases merge_cases hl.2 hr.2 with ⟨id, constraints, hmerge⟩ | hmerge | hmerge
        · exact absurd (hp.symm.trans hmerge) (hknown id constraints)
        · exact ⟨left, hmerge ▸ hp, heqLeft, fun _ => hl.1⟩
        · exact ⟨right, hmerge ▸ hp, heqRight, fun _ => hr.1⟩
      · exact ⟨key, hp, rfl, id⟩
    refine ⟨fun first second hfirst hsame => ?_, fun term type hlt hp => ?_,
      fun term head argument hp => ?_, fun term mutability underlying lifetime hp => ?_⟩
    · rcases (same_union hl.1 hr.1 first second).mp hsame with hsame | ⟨hone, ho⟩
      · refine h.same _ _ ?_ hsame
        have hlt : first < s.size := by
          rw [← size_union s left right]
          exact hfirst.1
        exact ⟨hlt, (hasSort_union hl hr ⟨hlt, rfl⟩).2.symm.trans hfirst.2⟩
      · rw [(hjoined first hone).1, (hjoined second ho).1]
    · obtain ⟨other, hp, hshape, ho⟩ := hback term _ hp (by simp)
      rw [size_union] at hlt
      rw [hshape, h.literal _ _ (ho hlt) hp]
    · obtain ⟨other, hp, hshape, -⟩ := hback term _ hp (by simp)
      rw [hshape, h.constructed _ _ _ hp]
    · obtain ⟨other, hp, hshape, -⟩ := hback term _ hp (by simp)
      rw [hshape, h.reference _ _ _ _ hp]

/-- An unbound type can be given the shape of any type that it does not occur in. -/
theorem Solvable.exists_eq (hs : s.WellSorted) (h : s.Solvable) {id : Nat}
    {constraints : List Constraint} (hinner : s.probe inner = .unbound id constraints)
    (ht : s.HasSort term .type) (hfree : ¬s.Occurs inner term) :
    ∃ shapes, s.Solves shapes ∧ shapes inner = shapes term := by
  let before : Nat → Shape := fun _ => .literal .unresolved
  let after : Nat → Shape := fun label =>
    if label = s.classes.label inner then s.shape before term else before label
  refine ⟨s.shape after, h.solves_shape hs after, ?_⟩
  rw [shape_of_unbound hinner]
  simp only [after, if_true]
  refine (h.solves_shape hs before).eq_of_unbound hs (h.solves_shape hs after)
    (h.endsWithin hs ht) ht ?_
  intro other id' constraints' hoccurs hp
  rw [shape_of_unbound hp, shape_of_unbound hp]
  have hne : s.classes.label other ≠ s.classes.label inner := by
    intro hlabel
    apply hfree
    clear ht
    induction hoccurs with
    | here hsame =>
      exact .here (same_trans ((s.classes.same_iff).mpr hlabel.symm) hsame)
    | inside hpart _ ih => exact .inside hpart (ih fun hoccurs => hfree (.inside hpart hoccurs))
  simp [hne]

theorem Step.solvable (hs : s.WellSorted) (h : s.Step s') (hsolvable : s.Solvable) :
    s'.Solvable := by
  cases h with
  | quiet h =>
    obtain ⟨shapes, hshapes⟩ := hsolvable
    exact ⟨shapes, h.typesKept.solves hshapes⟩
  | bind hinner ht hfree =>
    obtain ⟨shapes, hshapes, heq⟩ := hsolvable.exists_eq hs hinner ht hfree
    exact ⟨shapes, hshapes.union (hasSort_of_probe hinner) ht heq⟩
  | literals hlt hlt' hl hr =>
    obtain ⟨shapes, hshapes⟩ := hsolvable
    refine ⟨shapes, hshapes.union ⟨hlt, congrArg Term.sort hl⟩ ⟨hlt', congrArg Term.sort hr⟩ ?_⟩
    rw [hshapes.literal _ _ hlt hl, hshapes.literal _ _ hlt' hr]
  | constructors hl hr halike =>
    obtain ⟨shapes, hshapes⟩ := hsolvable
    refine ⟨shapes, hshapes.union (hasSort_of_probe hl) (hasSort_of_probe hr) ?_⟩
    have hargument := hs.hasSort_argument hl
    rw [hshapes.constructed _ _ _ hl, hshapes.constructed _ _ _ hr, hshapes.alikeShape hs hargument
      halike]

theorem Steps.solvable (hs : s.WellSorted) (h : s.Steps s') (hsolvable : s.Solvable) :
    s'.Solvable := by
  induction h with
  | refl => exact hsolvable
  | tail hsteps hstep ih => exact hstep.solvable (Steps.wellSorted hs hsteps) ih

theorem Steps.solves (hs : s.WellSorted) (h : s.Steps s')
    (hshapes : s'.Solves shapes) : s.Solves shapes :=
  hshapes.of_extends hs (h.wellSorted hs) h.extends

end TermStore

end BorrowFlow
