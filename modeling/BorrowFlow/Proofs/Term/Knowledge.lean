import BorrowFlow.Proofs.Term.Obligations

/-!
# What a store comes to know

Nothing that a store knows is lost, whatever is done to it. Classes are never split, a lifetime that
was resolved stays what it is, a mutability is only restricted, and a type that was read once reads
the same ever after, but for the mutability of its references and for a part that was not resolved.
-/

namespace BorrowFlow

namespace DataType

/-- The type with all of its references read as immutable ones. -/
def erased : DataType → DataType
  | constructed head argument => constructed head argument.erased
  | reference _ referent => reference false referent.erased
  | type => type

/-- The type with another one in the place of its unresolved part. Types are chains, so there is at
most one such part. -/
def fill : DataType → DataType → DataType
  | unresolved, part => part
  | constructed head argument, part => constructed head (argument.fill part)
  | reference mutable referent, part => reference mutable (referent.fill part)
  | type, _ => type

@[simp] theorem fill_unresolved (type : DataType) : type.fill .unresolved = type := by
  induction type <;> simp_all [fill]

theorem erased_frozen (type : DataType) : type.frozen.erased = type.erased := by
  induction type with
  | reference mutable referent ih => simp only [frozen, erased, ih]
  | constructed | unresolved | void | bool | int32 | int64 | string => rfl

end DataType

/-- What may become of a mutability that several references share: it may get a value, and it may be
restricted. -/
def Term.Restricts (before after : Option Bool) : Prop :=
  after = before ∨ before = none ∨ before = some true ∧ after = some false

namespace TermStore

variable {s s' store store' : TermStore} {term left right : TermId}

/-! ## Types are read in one way only -/

theorem Renders.unique {type type' : DataType} (h : s.Renders term type)
    (h' : s.Renders term type') : type = type' := by
  induction h generalizing type' with
  | unresolved hpart hliteral =>
    cases h' with
    | unresolved => rfl
    | literal hp => exact absurd hp (hliteral _)
    | constructed hp => simp [part?, hp] at hpart
    | reference hp => simp [part?, hp] at hpart
  | literal hp =>
    cases h' with
    | unresolved _ hliteral => exact absurd hp (hliteral _)
    | literal hp' => exact Term.literal.inj (hp.symm.trans hp')
    | constructed hp' => cases hp.symm.trans hp'
    | reference hp' => cases hp.symm.trans hp'
  | constructed hp _ ih =>
    cases h' with
    | unresolved hpart => simp [part?, hp] at hpart
    | literal hp' => cases hp.symm.trans hp'
    | constructed hp' hargument =>
      cases hp.symm.trans hp'
      rw [ih hargument]
    | reference hp' => cases hp.symm.trans hp'
  | reference hp _ ih =>
    cases h' with
    | unresolved hpart => simp [part?, hp] at hpart
    | literal hp' => cases hp.symm.trans hp'
    | constructed hp' => cases hp.symm.trans hp'
    | reference hp' hunderlying =>
      cases hp.symm.trans hp'
      rw [ih hunderlying]

theorem Sound.render_eq (h : s.Sound) {type : DataType} (hrenders : s.Renders term type) :
    s.render term = type :=
  (renders_render h.wellSorted h.solvable term).unique hrenders

theorem Sound.render_constructed (h : s.Sound) {head : TypeConstructor} {argument : TermId}
    (hp : s.probe term = .constructed head argument) :
    s.render term = .constructed head (s.render argument) :=
  h.render_eq (.constructed hp (renders_render h.wellSorted h.solvable argument))

theorem Sound.render_reference (h : s.Sound) {mutability : Mutability}
    {underlying lifetime : TermId}
    (hp : s.probe term = .reference mutability underlying lifetime) :
    s.render term = .reference (s.isMutable mutability) (s.render underlying) :=
  h.render_eq (.reference hp (renders_render h.wellSorted h.solvable underlying))

theorem AlikeShape.erased_render (h : s.AlikeShape left right) :
    (s.render left).erased = (s.render right).erased := by
  rw [← DataType.erased_frozen, render, h.frozen_renderTo, DataType.erased_frozen, render]

/-! ## What was read once -/

/-- A type is read again as it was before, except that its unresolved part may be known now. -/
theorem Extends.fill_render (hext : s.Extends s') (h : s.Sound)
    (h' : s'.Sound) (ht : term < s.size) :
    ∃ part, (s'.render term).erased = (s.render term).erased.fill part := by
  have hrenders := renders_render h.wellSorted h.solvable term
  generalize s.render term = type at hrenders
  induction hrenders with
  | unresolved => exact ⟨_, rfl⟩
  | literal hp =>
    refine ⟨.unresolved, ?_⟩
    rw [DataType.fill_unresolved, h'.render_eq (.literal (hext.literal ht hp))]
  | constructed hp _ ih =>
    have hpart := part?_constructed hp
    obtain ⟨part, hfill⟩ := ih (h.wellSorted.hasSort_part hpart).1
    -- the argument may have been replaced, by one that is like it
    obtain ⟨argument', hp', halike⟩ := hext.constructed hp
    refine ⟨part, ?_⟩
    rw [h'.render_constructed hp', DataType.erased, ← halike.erased_render, hfill]
    rfl
  | reference hp _ ih =>
    have hpart := part?_reference hp
    obtain ⟨part, hfill⟩ := ih (h.wellSorted.hasSort_part hpart).1
    refine ⟨part, ?_⟩
    rw [h'.render_reference (hext.reference hp), DataType.erased, hfill]
    rfl

theorem Extends.lifetime (h : s.Extends s') {known : Lifetime}
    (hp : s.probe term = .lifetime (some known)) :
    s'.probe term = .lifetime (some known) := by
  have hg := h.grows term (lt_size_of_probe hp)
  rw [hp] at hg
  obtain ⟨value', hp', hknown⟩ := hg
  rw [hp', hknown known rfl]

theorem Extends.mutability (h : s.Extends s') {value : Option Bool}
    (hp : s.probe term = .mutability value) :
    ∃ value', s'.probe term = .mutability value' ∧ Term.Restricts value value' := by
  have hg := h.grows term (lt_size_of_probe hp)
  rw [hp] at hg
  obtain ⟨value', hp', hknown⟩ := hg
  refine ⟨value', hp', ?_⟩
  cases value with
  | none => exact .inr (.inl rfl)
  | some known =>
    obtain ⟨known', rfl, himp⟩ := hknown known rfl
    cases known' with
    | true => exact .inl (congrArg some (himp rfl).symm)
    | false =>
      cases known with
      | true => exact .inr (.inr ⟨rfl, rfl⟩)
      | false => exact .inl rfl

/-! ## Runs -/

theorem Sound.extends_run (h : s.Sound) {operation : Operation}
    (hfits : operation.Fits s) : s.Extends (operation.run s) := by
  cases operation with
  | newType type => exact (newType_sound h type).2.1
  | newUnbound constraints => exact extends_newUnbound s constraints
  | newConstructed head argument => exact extends_push s _
  | newReference mutability underlying lifetime => exact extends_push s _
  | newLifetime value => exact extends_push s _
  | newMutability => exact extends_push s _
  | unify left right =>
    obtain ⟨sort, hl, hr⟩ := hfits
    exact (h.unify hl hr).1.extends
  | check term constraint =>
    exact (checks_check h.wellSorted h.solvable term constraint).quietSteps.steps.extends
  | resolveLifetime term value => exact (resolveLifetime_quietSteps s term value).steps.extends
  | constrainMutability term mutable =>
    exact (constrainMutability_quietSteps hfits mutable).steps.extends

def Operation.AllFit : TermStore → List Operation → Prop
  | _, [] => True
  | s, operation :: rest => operation.Fits s ∧ AllFit (operation.run s) rest

theorem Sound.extends_after (h : s.Sound) {operations : List Operation}
    (hfits : Operation.AllFit s operations) :
    (s.after operations).Sound ∧ s.Extends (s.after operations) := by
  induction operations generalizing s with
  | nil => exact ⟨h, .refl s⟩
  | cons operation rest ih =>
    obtain ⟨hfirst, hrest⟩ := hfits
    obtain ⟨hsound, hext⟩ := ih (h.run hfirst) hrest
    exact ⟨hsound, (h.extends_run hfirst).trans hext⟩

/-- What is known only grows, in one operation or in many, and whether they succeed or not. Handles
of one class stay in one class. A lifetime that is resolved stays the same. A shared mutability gets
a value or is restricted. Except for mutabilities, a rendered type changes only in that types take
the place of what was not resolved. -/
theorem Reachable.knowledge_grows (h : Reachable store) {operations : List Operation}
    (hfits : Operation.AllFit store operations) :
    let store' := store.after operations
    (∀ left right, store.same left right = true → store'.same left right = true) ∧
      (∀ term known, store.probe term = .lifetime (some known) →
        store'.probe term = .lifetime (some known)) ∧
      (∀ term value, store.probe term = .mutability value →
        ∃ value', store'.probe term = .mutability value' ∧ Term.Restricts value value') ∧
      ∀ term, term < store.size →
        ∃ part, (store'.render term).erased = (store.render term).erased.fill part := by
  obtain ⟨hsound, hextends⟩ := h.sound.extends_after hfits
  exact ⟨hextends.same, fun _ _ => hextends.lifetime, fun _ _ => hextends.mutability,
    fun _ => hextends.fill_render h.sound hsound⟩

/-- Under handle four, a vector of references to an unbound type, with mutability and lifetime open.
Under handle eight, a vector of mutable references to numbers. -/
def openVector : TermStore :=
  ({} : TermStore).after [.newMutability, .newUnbound [], .newLifetime none,
    .newReference (.shared 0) 1 2, .newConstructed .vector 3,
    .newType (.constructed .vector (.reference true .int32))]

theorem reachable_openVector : Reachable openVector := by
  have hmutability := Reachable.empty.step .newMutability trivial
  have hunbound := hmutability.step (.newUnbound []) trivial
  have hlifetime := hunbound.step (.newLifetime none) trivial
  have hreference := hlifetime.step (.newReference (.shared 0) 1 2)
    ⟨show HasSort _ 0 .mutability by decide, by decide, by decide⟩
  have hvector := hreference.step (.newConstructed .vector 3) (show HasSort _ 3 .type by decide)
  exact hvector.step (.newType (.constructed .vector (.reference true .int32))) trivial

/-- The two vectors are unified, and then their references turn out to be immutable. -/
theorem knowledge_grows_openVector :
    let operations := [.resolveLifetime 2 .unbounded, .unify 4 8, .constrainMutability 0 false]
    let store := openVector.after operations
    openVector.render 4 = .constructed .vector (.reference false .unresolved) ∧
      openVector.render 8 = .constructed .vector (.reference true .int32) ∧
      store.render 8 = .constructed .vector (.reference false .int32) ∧
      store.probe 2 = .lifetime (some .unbounded) ∧
      Operation.AllFit openVector operations ∧
      (∃ part, (store.render 4).erased = (openVector.render 4).erased.fill part) ∧
      ∃ part, (store.render 8).erased = (openVector.render 8).erased.fill part := by
  intro operations store
  have hfits : Operation.AllFit openVector operations :=
    ⟨show HasSort _ 2 .lifetime by decide, ⟨.type, by decide, by decide⟩,
      show HasSort _ 0 .mutability by decide +kernel, trivial⟩
  obtain ⟨-, -, -, hrender⟩ := reachable_openVector.knowledge_grows hfits
  exact ⟨by decide, by decide, by decide +kernel, by decide +kernel, hfits, hrender 4 (by decide),
    hrender 8 (by decide)⟩

end TermStore

end BorrowFlow
