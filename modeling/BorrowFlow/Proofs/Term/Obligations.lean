import BorrowFlow.Proofs.Term.Literals

/-!
# What becomes of constraints

A constraint that an unbound type was created with, or that was checked and found to hold, is an
obligation of the type. As long as unification reports nothing, the type goes on owing it: an
unbound type keeps it, and a type that is bound was checked. What nothing keeps is the mutability of
a reference that shares it. A copyable type may refer to an unrestricted mutability when it is
checked, and turn out to be a mutable reference in the end.
-/

namespace BorrowFlow

variable {constraints : List Constraint} {result : Unified} {operation : Operation}
  {sort : TermSort} {id : Nat} {head : TypeConstructor} {key : TermId}

namespace DataType

def throughOptions : DataType → DataType
  | constructed .option argument => argument.throughOptions
  | type => type

theorem not_isMutableReference_of_isCopyable {type : DataType} (h : type.isCopyable = true) :
    type.throughOptions.isMutableReference = false := by
  induction type with
  | constructed head argument ih =>
    cases head with
    | option => exact ih h
    | _ => rfl
  | reference mutable referent => simpa [throughOptions, isMutableReference, isCopyable] using h
  | _ => rfl

end DataType

namespace Term

theorem mem_joinConstraints {left right : List Constraint} {constraint : Constraint} :
    constraint ∈ joinConstraints left right ↔ constraint ∈ left ∨ constraint ∈ right := by
  unfold joinConstraints
  induction right generalizing left with
  | nil => simp
  | cons head rest ih =>
    rw [List.foldl_cons, ih]
    split <;> grind

end Term

namespace TermStore

variable {fixed : Prop} {s s' s'' : TermStore} {term part left right inner : TermId}
  {constraint : Constraint}

/-! ## Obligations -/

/-- The type will satisfy the constraint once it is known: unbound types have taken it on. Nothing
is said about the mutability of a reference, unless references are to be fixed. -/
inductive Owes (fixed : Prop) (s : TermStore) (constraint : Constraint) : TermId → Prop
  | unbound {term : TermId} {id : Nat} {constraints : List Constraint}
      (hprobe : s.probe term = .unbound id constraints) (hmem : constraint ∈ constraints) :
      Owes fixed s constraint term
  | literal {term : TermId} {type : DataType} (hprobe : s.probe term = .literal type)
      (hsatisfies : type.satisfies constraint = true) : Owes fixed s constraint term
  | option {term argument : TermId} (hprobe : s.probe term = .constructed .option argument)
      (hcopy : constraint = .copy) (h : Owes fixed s constraint argument) :
      Owes fixed s constraint term
  | copied {term underlying lifetime : TermId} {mutability : Mutability}
      (hprobe : s.probe term = .reference mutability underlying lifetime)
      (hcopy : constraint = .copy) (hfixed : fixed → mutability = .fixed false) :
      Owes fixed s constraint term
  | displayed {term underlying lifetime : TermId} {mutability : Mutability}
      (hprobe : s.probe term = .reference mutability underlying lifetime)
      (hdisplay : constraint = .display) (h : Owes fixed s constraint underlying) :
      Owes fixed s constraint term

/-- A reference may stand in for another one: if references are to be fixed, it is immutable
whenever that one is. -/
def Passes (fixed : Prop) (first second : Mutability) : Prop :=
  fixed → second = .fixed false → first = .fixed false

theorem Owes.of_same (h : s.Owes fixed constraint left) (hsame : s.same left right = true) :
    s.Owes fixed constraint right := by
  have hp := probe_of_same hsame
  cases h with
  | unbound hl hm => exact .unbound (hp ▸ hl) hm
  | literal hl hsatisfies => exact .literal (hp ▸ hl) hsatisfies
  | option hl hcopy h => exact .option (hp ▸ hl) hcopy h
  | copied hl hcopy hfixed => exact .copied (hp ▸ hl) hcopy hfixed
  | displayed hl hdisplay h => exact .displayed (hp ▸ hl) hdisplay h

theorem Owes.of_alike (halike : s.Alike (Passes fixed) left right)
    (h : s.Owes fixed constraint right) : s.Owes fixed constraint left := by
  induction halike with
  | same hsame => exact h.of_same (same_symm hsame)
  | reference hl hr hpasses _ ih =>
    cases h with
    | copied hp hcopy hfixed =>
      cases hr.symm.trans hp
      exact .copied hl hcopy fun hyes => hpasses hyes (hfixed hyes)
    | displayed hp hdisplay h =>
      cases hr.symm.trans hp
      exact .displayed hl hdisplay (ih h)
    | unbound hp _ => cases hr.symm.trans hp
    | literal hp _ => cases hr.symm.trans hp
    | option hp _ _ => cases hr.symm.trans hp

theorem Owes.of_alikeIf (h : s.Owes fixed constraint right)
    (halike : s.AlikeIf fixed left right) : s.Owes fixed constraint left :=
  h.of_alike (halike.weaken fun _ _ heq hfixed hr => (heq hfixed).trans hr)

/-- A type that is known in full satisfies what it owes, or is a mutable reference inside options
that was to be copyable. -/
theorem Owes.satisfies {type : DataType} (h : s.Owes fixed constraint term)
    (hrenders : s.Renders term type) (hresolved : type.isResolved = true) :
    type.satisfies constraint = true ∨
      ¬fixed ∧ constraint = .copy ∧ type.throughOptions.isMutableReference = true := by
  induction h generalizing type with
  | unbound hp _ =>
    cases hrenders with
    | unresolved => cases hresolved
    | literal hf | constructed hf | reference hf => cases hp.symm.trans hf
  | literal hp hsatisfies =>
    cases hrenders with
    | unresolved _ hliteral => exact absurd hp (hliteral _)
    | literal hf =>
      cases hp.symm.trans hf
      exact .inl hsatisfies
    | constructed hf | reference hf => cases hp.symm.trans hf
  | option hp hcopy _ ih =>
    cases hrenders with
    | unresolved => cases hresolved
    | constructed hf hargument =>
      cases hp.symm.trans hf
      subst hcopy
      have hinside := ih hargument hresolved
      exact hinside
    | literal hf | reference hf => cases hp.symm.trans hf
  | @copied term underlying lifetime mutability hp hcopy hfixed =>
    cases hrenders with
    | unresolved => cases hresolved
    | reference hf _ =>
      cases hp.symm.trans hf
      subst hcopy
      cases hmutable : s.isMutable mutability with
      | false => exact .inl rfl
      | true =>
        refine .inr ⟨fun hyes => ?_, rfl, rfl⟩
        rw [hfixed hyes] at hmutable
        cases hmutable
    | literal hf | constructed hf => cases hp.symm.trans hf
  | displayed hp hdisplay _ ih =>
    cases hrenders with
    | unresolved => cases hresolved
    | reference hf hunderlying =>
      cases hp.symm.trans hf
      subst hdisplay
      rcases ih hunderlying hresolved with hsatisfies | ⟨-, hcopy, -⟩
      · exact .inl hsatisfies
      · cases hcopy
    | literal hf | constructed hf => cases hp.symm.trans hf

/-! ## Stores that keep obligations -/

/-- The second store knows what the first one does, the constraints of unbound types are owed in it,
and an argument that was replaced passes for the one that it replaces. -/
structure Honours (fixed : Prop) (s s' : TermStore) : Prop where
  keeps : s.Extends s'
  unbound : ∀ term id constraints, s.probe term = .unbound id constraints →
    ∀ constraint ∈ constraints, s'.Owes fixed constraint term
  constructed : ∀ term head argument, s.probe term = .constructed head argument →
    ∃ argument', s'.probe term = .constructed head argument' ∧
      s'.Alike (Passes fixed) argument' argument

theorem Honours.owes (h : s.Honours fixed s') (howes : s.Owes fixed constraint term) :
    s'.Owes fixed constraint term := by
  induction howes with
  | unbound hp hm => exact h.unbound _ _ _ hp _ hm
  | @literal term type hp hsatisfies =>
    have hlt : term < s.size := by
      apply lt_size_of_probe_ne
      rintro hunresolved
      cases hp.symm.trans hunresolved
      cases constraint <;> cases hsatisfies
    exact .literal (h.keeps.literal hlt hp) hsatisfies
  | option hp hcopy _ ih =>
    obtain ⟨argument', hp', halike⟩ := h.constructed _ _ _ hp
    exact .option hp' hcopy (ih.of_alike halike)
  | copied hp hcopy hfixed => exact .copied (h.keeps.reference hp) hcopy hfixed
  | displayed hp hdisplay _ ih => exact .displayed (h.keeps.reference hp) hdisplay ih

theorem Honours.refl (fixed : Prop) (s : TermStore) : s.Honours fixed s where
  keeps := .refl s
  unbound _ _ _ hp _ hm := .unbound hp hm
  constructed _ _ argument hp := ⟨argument, hp, Alike.refl argument⟩

theorem Honours.trans (h : s.Honours fixed s') (h' : s'.Honours fixed s'') :
    s.Honours fixed s'' where
  keeps := h.keeps.trans h'.keeps
  unbound term id constraints hp constraint hm :=
    h'.owes (h.unbound term id constraints hp constraint hm)
  constructed term head argument hp := by
    obtain ⟨middle, hmiddle, halike⟩ := h.constructed term head argument hp
    obtain ⟨last, hlast, halike'⟩ := h'.constructed term head middle hmiddle
    refine ⟨last, hlast, halike'.trans ?_ (h'.keeps.alike halike)⟩
    exact fun _ _ _ hfirst hsecond hyes hthird => hfirst hyes (hsecond hyes hthird)

theorem Enlarges.honours (h : s.Enlarges s') : s.Honours fixed s' where
  keeps := h.extends
  unbound term id constraints hp _ hm :=
    .unbound ((h.probe term (lt_size_of_probe hp)).trans hp) hm
  constructed term head argument hp :=
    ⟨argument, (h.probe term (lt_size_of_probe hp)).trans hp, Alike.refl argument⟩

theorem probe_union_of_ne (hl : left < s.size) (hr : right < s.size)
    (hneLeft : s.probe term ≠ s.probe left)
    (hneRight : s.probe term ≠ s.probe right) :
    (s.union left right).probe term = s.probe term := by
  cases hapart : s.same left right with
  | true => rw [union_of_same hapart]
  | false =>
    rw [probe_union hl hr hapart, if_neg]
    rintro (hsame | hsame)
    · exact hneLeft (probe_of_same hsame)
    · exact hneRight (probe_of_same hsame)

theorem probe_union_of_sort_ne (hl : s.HasSort left sort) (hr : s.HasSort right sort)
    (hne : (s.probe term).sort ≠ sort) :
    (s.union left right).probe term = s.probe term :=
  probe_union_of_ne hl.1 hr.1 (fun heq => hne (heq ▸ hl.2)) fun heq => hne (heq ▸ hr.2)

theorem probe_absorb_of_sort_ne {other : Term} (ht : s.HasSort term sort)
    (hne : (s.probe key).sort ≠ sort) :
    (s.absorb term other).probe key = s.probe key := by
  rw [probe_absorb ht.1, if_neg]
  intro hsame
  exact hne (probe_of_same hsame ▸ ht.2)

theorem Quiet.unbound (h : s.Quiet s') (hp : s.probe term = .unbound id constraints) :
    ∃ id' constraints', s'.probe term = .unbound id' constraints' ∧ constraints ⊆ constraints' := by
  have hsort : (s.probe term).sort = .type := by rw [hp]; rfl
  cases h with
  | constrain h =>
    rw [probe_absorb (lt_size_of_probe h)]
    split
    · rename_i hsame
      rw [probe_of_same hsame, hp]
      exact ⟨_, _, rfl, fun _ hm => Term.mem_joinConstraints.mpr (.inl hm)⟩
    · exact ⟨id, constraints, hp, List.Subset.refl _⟩
  | resolve h | restrict h =>
    refine ⟨id, constraints, (probe_absorb_of_sort_ne (hasSort_of_probe h) ?_).trans
      hp, List.Subset.refl _⟩
    rw [hsort]
    simp [Term.sort]
  | lifetimes hl hr | mutabilities hl hr =>
    refine ⟨id, constraints, (probe_union_of_sort_ne (hasSort_of_probe hl)
      (hasSort_of_probe hr) ?_).trans hp, List.Subset.refl _⟩
    rw [hsort]
    simp [Term.sort]

theorem QuietSteps.unbound (h : s.QuietSteps s') (hp : s.probe term = .unbound id constraints) :
    ∃ id' constraints', s'.probe term = .unbound id' constraints' ∧ constraints ⊆ constraints' := by
  induction h with
  | refl => exact ⟨id, constraints, hp, List.Subset.refl _⟩
  | tail _ hstep ih =>
    obtain ⟨id', constraints', hp', hsubset⟩ := ih
    obtain ⟨id'', constraints'', hp'', hsubset'⟩ := hstep.unbound hp'
    exact ⟨id'', constraints'', hp'', List.Subset.trans hsubset hsubset'⟩

theorem QuietSteps.constructed (h : s.QuietSteps s') {argument : TermId}
    (hp : s.probe term = .constructed head argument) :
    s'.probe term = .constructed head argument := by
  rcases h.typesKept.probe term (hasSort_of_probe hp) with
    heq | ⟨⟨_, _, hunbound⟩, -⟩
  · exact heq.trans hp
  · cases hp.symm.trans hunbound

theorem QuietSteps.honours (h : s.QuietSteps s') : s.Honours fixed s' where
  keeps := h.steps.extends
  unbound term id constraints hp constraint hm := by
    obtain ⟨id', constraints', hp', hsubset⟩ := h.unbound hp
    exact .unbound hp' (hsubset hm)
  constructed term head argument hp := ⟨argument, h.constructed hp, Alike.refl argument⟩

/-! ## Checks -/

theorem Checks.owes {answer : Bool × TermStore} (h : s.Checks constraint term answer)
    (hrigid : fixed → s.Rigid) (hholds : answer.1 = true) :
    answer.2.Owes fixed constraint term := by
  induction h with
  | assumed hp hm => exact .unbound hp hm
  | @taken term id constraints hp hm =>
    have hlt : term < s.size := lt_size_of_probe hp
    have hp' := probe_absorb hlt (.unbound id (constraints ++ [constraint])) term
    rw [if_pos (same_refl _ _), hp] at hp'
    exact .unbound hp' (Term.mem_joinConstraints.mpr (.inr (by simp)))
  | literal hp => exact .literal hp hholds
  | option hp hcopy h ih =>
    exact .option (h.quietSteps.constructed hp) hcopy (ih hholds)
  | constructed => cases hholds
  | copied hp hcopy =>
    refine .copied hp hcopy fun hyes => ?_
    obtain ⟨mutable, rfl⟩ := hrigid hyes _ _ _ _ hp
    cases mutable with
    | false => rfl
    | true => cases hholds
  | displayed hp hdisplay h ih =>
    exact .displayed (h.quietSteps.steps.extends.reference hp) hdisplay (ih hholds)
  | other => cases hholds

theorem ChecksAll.owes {outcome : Outcome} {result : Outcome × TermStore}
    (h : ChecksAll term s outcome constraints result) (hrigid : fixed → s.Rigid)
    (hresult : result.1.failedConstraints = []) :
    outcome.failedConstraints = [] ∧
      ∀ constraint ∈ constraints, result.2.Owes fixed constraint term := by
  induction h with
  | nil => exact ⟨hresult, nofun⟩
  | @cons s s' outcome constraint constraints holds result h hrest ih =>
    have hrigid' : fixed → s'.Rigid := fun hyes => h.quietSteps.steps.rigid (hrigid hyes)
    obtain ⟨hfailed, hall⟩ := ih hrigid' hresult
    cases holds with
    | false =>
      cases (@Outcome.failedConstraints_foldl [constraint] outcome hfailed).1
    | true =>
      refine ⟨hfailed, List.forall_mem_cons.mpr ⟨?_, hall⟩⟩
      exact hrest.quietSteps.honours.owes (h.owes hrigid rfl)

/-! ## Merges -/

theorem honours_union (hl : s.HasSort left .type) (hr : s.HasSort right .type)
    (hkeeps : s.Extends (s.union left right))
    (hunbound : ∀ id constraints, s.probe left = .unbound id constraints ∨
      s.probe right = .unbound id constraints →
        ∀ constraint ∈ constraints, (s.union left right).Owes fixed constraint left)
    (hconstructed : ∀ head argument, s.probe left = .constructed head argument ∨
      s.probe right = .constructed head argument →
        ∃ argument', (s.probe left).merge (s.probe right) = .constructed head argument' ∧
          (s.union left right).Alike (Passes fixed) argument' argument) :
    s.Honours fixed (s.union left right) := by
  cases hapart : s.same left right with
  | true =>
    rw [union_of_same hapart]
    exact .refl fixed s
  | false =>
    have hp := probe_union hl.1 hr.1 hapart
    have hjoined : ∀ {key}, s.same key left = true ∨ s.same key right = true →
        (s.union left right).same left key = true := fun hkey =>
      (same_union hl.1 hr.1 _ _).mpr (.inr ⟨.inl (same_refl _ _), hkey⟩)
    refine ⟨hkeeps, fun term id constraints ht constraint hm => ?_, fun term head argument ht => ?_⟩
    · by_cases hkey : s.same term left = true ∨ s.same term right = true
      · have hends := hkey.imp (fun hsame => (probe_of_same hsame).symm.trans ht)
          fun hsame => (probe_of_same hsame).symm.trans ht
        exact (hunbound id constraints hends constraint hm).of_same (hjoined hkey)
      · exact .unbound ((hp term).trans ((if_neg hkey).trans ht)) hm
    · by_cases hkey : s.same term left = true ∨ s.same term right = true
      · have hends := hkey.imp (fun hsame => (probe_of_same hsame).symm.trans ht)
          fun hsame => (probe_of_same hsame).symm.trans ht
        obtain ⟨argument', hmerge, halike⟩ := hconstructed head argument hends
        exact ⟨argument', (hp term).trans ((if_pos hkey).trans hmerge), halike⟩
      · exact ⟨argument, (hp term).trans ((if_neg hkey).trans ht), Alike.refl argument⟩

theorem probe_union_of_unbound (hinner : s.probe inner = .unbound id constraints)
    (ht : s.HasSort term .type)
    (hknown : ∀ id constraints, s.probe term ≠ .unbound id constraints)
    (hkey : s.same inner key = false) :
    (s.union inner term).probe key = s.probe key := by
  cases hapart : s.same inner term with
  | true => exact absurd ((probe_of_same hapart).symm.trans hinner) (hknown _ _)
  | false =>
    rw [probe_union (lt_size_of_probe hinner) ht.1 hapart]
    split
    · rename_i hjoined
      rcases hjoined with hsame | hsame
      · rw [same_symm hsame] at hkey
        cases hkey
      · rw [probe_of_same hsame, hinner]
        cases hp : s.probe term with
        | unbound id' constraints' => exact absurd hp (hknown _ _)
        | _ => rfl
    · rfl

/-- What a type owes that an unbound type does not occur in, it still owes when only the unbound
type has changed. -/
theorem Owes.of_free (h : s.Owes fixed constraint term) (hfree : ¬s.Occurs inner term)
    (hp : ∀ key, s.same inner key = false → s'.probe key = s.probe key) :
    s'.Owes fixed constraint term := by
  have hself : ∀ {term}, ¬s.Occurs inner term → s'.probe term = s.probe term :=
    fun hfree => hp _ (Bool.eq_false_iff.mpr fun hsame => hfree (.here hsame))
  induction h with
  | unbound ht hm => exact .unbound ((hself hfree).trans ht) hm
  | literal ht hsatisfies => exact .literal ((hself hfree).trans ht) hsatisfies
  | option ht hcopy _ ih =>
    exact .option ((hself hfree).trans ht) hcopy
      (ih fun hoccurs => hfree (.inside (part?_constructed ht) hoccurs))
  | copied ht hcopy hfixed => exact .copied ((hself hfree).trans ht) hcopy hfixed
  | displayed ht hdisplay _ ih =>
    exact .displayed ((hself hfree).trans ht) hdisplay
      (ih fun hoccurs => hfree (.inside (part?_reference ht) hoccurs))

section

variable (hs : s.WellSorted) (hinner : s.probe inner = .unbound id constraints)
  (ht : s.HasSort term .type)
  (hknown : ∀ id constraints, s.probe term ≠ .unbound id constraints)
  (h : s.Binds inner constraints term left right result) (hequal : result.equal = true)
include hs hinner ht hknown h hequal

/-- When an unbound type is bound, its constraints have been checked, and nothing but that type
changes. -/
theorem Binds.of_equal : ∃ s', ChecksAll term s {} constraints (result.outcome, s') ∧
      ¬s'.Occurs inner term ∧
        ∀ key, s'.same inner key = false → result.store.probe key = s'.probe key := by
  cases h with
  | infinite _ hrefuses => simp [hrefuses.store_eq.2] at hequal
  | @bound outcome s' hfree hchecks =>
    have hkept := hchecks.quietSteps.typesKept
    obtain ⟨id', constraints', hinner', -⟩ := hchecks.quietSteps.unbound hinner
    refine ⟨s', hchecks, ?_, fun key => probe_union_of_unbound hinner'
      ((hkept.hasSort _ _).mpr ht) fun id constraints hp => ?_⟩
    · rw [hkept.occurs_iff hs ht, ← hfree.occurs_iff]
      simp
    · rcases hkept.probe term ht with heq | ⟨⟨_, _, hunbound⟩, -⟩
      · exact hknown _ _ (heq.symm.trans hp)
      · exact hknown _ _ hunbound

theorem Binds.constructed {argument : TermId} (hkey : s.probe key = .constructed head argument) :
    result.store.probe key = .constructed head argument := by
  obtain ⟨s', hchecks, -, hp⟩ := h.of_equal hs hinner ht hknown hequal
  have hkey' := hchecks.quietSteps.constructed hkey
  obtain ⟨_, _, hinner', -⟩ := hchecks.quietSteps.unbound hinner
  refine (hp key ?_).trans hkey'
  rw [Bool.eq_false_iff]
  intro hsame
  cases hinner'.symm.trans ((probe_of_same hsame).trans hkey')

end

theorem Binds.honours (hs : s.WellSorted) (hrigid : fixed → s.Rigid)
    (hinner : s.probe inner = .unbound id constraints) (ht : s.HasSort term .type)
    (hknown : ∀ id constraints, s.probe term ≠ .unbound id constraints)
    (h : s.Binds inner constraints term left right result) (hequal : result.equal = true)
    (hharmless : result.outcome.isHarmless = true) : s.Honours fixed result.store := by
  obtain ⟨hsteps, hjoined⟩ := h.steps hs hinner ht
  obtain ⟨s', hchecks, hfree, hp⟩ := h.of_equal hs hinner ht hknown hequal
  refine ⟨hsteps.extends, fun key id constraints hkey constraint hm => ?_,
    fun key head argument hkey =>
      ⟨argument, h.constructed hs hinner ht hknown hequal hkey, Alike.refl argument⟩⟩
  cases hsame : s'.same inner key with
  | true =>
    have hsame' := (hchecks.quietSteps.typesKept.same _ _ (hasSort_of_probe hinner)).mp hsame
    cases hinner.symm.trans ((probe_of_same hsame').trans hkey)
    have howes := (hchecks.owes hrigid (Outcome.isHarmless_iff.mp hharmless).2).2 _ hm
    exact (howes.of_free hfree hp).of_same
      (same_trans (same_symm (hjoined hequal)) (hsteps.extends.same _ _ hsame'))
  | false =>
    obtain ⟨_, _, hkey', hsubset⟩ := hchecks.quietSteps.unbound hkey
    exact .unbound ((hp key hsame).trans hkey') (hsubset hm)

/-! ## Unification -/

/-- A constructed type that is larger than the types that are made equal has no part in it. -/
theorem Unifies.probe_of_size_lt (h : Unifies s left right result) :
    s.WellSorted → s.HasSort left .type → s.HasSort right .type →
      result.equal = true → ∀ {shapes : TermId → Shape}, result.store.Solves shapes →
        ∀ {head : TypeConstructor} {argument : TermId}, s.probe term = .constructed head argument →
            (shapes left).size < (shapes term).size →
              result.store.probe term = .constructed head argument := by
  induction h with
  | same => exact fun _ _ _ _ _ _ _ _ hp _ => hp
  | literals hapart hl hr | unbounds hapart hl hr =>
    intro hs hsort hsort' _ shapes _ head argument hp _
    exact (probe_union_of_ne hsort.1 hsort'.1 (by simp [hp, hl]) (by simp [hp, hr])).trans hp
  | @constructors s left right first second head unified hapart hl hr h hequal ih =>
    intro hs hsort hsort' _ shapes hshapes head' argument hp hlt
    have hpart := part?_constructed hl
    have hfirst := hs.hasSort_part hpart
    have hsecond := hs.hasSort_argument hr
    obtain ⟨hsteps, halike⟩ := h.steps_and_alike hs hfirst hsecond
    have hext := hsteps.extends
    have hstep := step_constructors hl hr hext (halike hequal rfl)
    have hshapes' : unified.store.Solves shapes :=
      Steps.solves (hsteps.wellSorted hs) (.single hstep) hshapes
    have hsmaller := (hsteps.solves hs hshapes').size_part_lt hpart
    have ht := ih hs hfirst hsecond hequal hshapes' hp (Nat.lt_trans hsmaller hlt)
    -- the merged types have the size of the left one
    have hends : shapes left = shapes right :=
      hshapes.same _ _ (hstep.extends.hasSort (hext.hasSort hsort))
        (same_union_self (hext.hasSort hsort).1 (hext.hasSort hsort').1)
    have hsize : ∀ {key}, s.HasSort key .type → shapes key = shapes left →
        unified.store.same term key ≠ true := by
      intro key hkey heq hsame
      have hkey' := hshapes'.same _ _ (hext.hasSort hkey) (same_symm hsame)
      rw [← hkey', heq] at hlt
      exact Nat.lt_irrefl _ hlt
    cases hjoined : unified.store.same left right with
    | true =>
      change (unified.store.union left right).probe term = _
      rw [union_of_same hjoined, ht]
    | false =>
      change (unified.store.union left right).probe term = _
      rw [probe_union (hext.hasSort hsort).1 (hext.hasSort hsort').1 hjoined, if_neg, ht]
      rintro (hsame | hsame)
      · exact hsize hsort rfl hsame
      · exact hsize hsort' hends.symm hsame
  | argumentsApart _ _ _ _ _ hrefused =>
    intro hs hsort hsort' hequal
    simp [hrefused.store_eq.2] at hequal
  | @references s left right first second lifetime lifetime' mutability mutability' unified
      hapart hl hr _ h ih =>
    intro hs hsort hsort' hequal shapes hshapes head argument hp hlt
    obtain ⟨hquiet, hs', ⟨hfirst, -⟩, hsecond, -⟩ := hs.descend hl hr
    have hsteps := h.steps hs' hfirst hsecond
    have hlast := unifyLifetimes_quietSteps unified.store lifetime lifetime'
    have hshapes' := hlast.steps.solves (hsteps.wellSorted hs') hshapes
    have hsmaller := (hquiet.steps.solves hs (hsteps.solves hs' hshapes')).size_part_lt
      (part?_reference hl)
    exact hlast.constructed (ih hs' hfirst hsecond hequal hshapes' (hquiet.constructed hp)
      (Nat.lt_trans hsmaller hlt))
  | lifetimes hapart hl hr | mutabilities hapart hl hr =>
    intro hs hsort
    simp [HasSort, hl, Term.sort] at hsort
  | bindLeft hapart hl hr h =>
    intro hs hsort hsort' hequal shapes _ head argument hp _
    exact h.constructed hs hl hsort' hr hequal hp
  | bindRight hapart hl hr h =>
    intro hs hsort hsort' hequal shapes _ head argument hp _
    exact h.constructed hs hr hsort hl hequal hp
  | clash _ _ hrefuses =>
    intro hs hsort hsort' hequal
    simp [hrefuses.store_eq.2] at hequal

/-- Making the arguments of two constructed types equal leaves the two types as they are. -/
theorem Unifies.constructed_of_arguments {first second : TermId} {head' : TypeConstructor}
    {unified : Unified} (h : Unifies s first second unified) (hs : s.Sound)
    (hl : s.probe left = .constructed head first)
    (hr : s.probe right = .constructed head' second) (hequal : unified.equal = true) :
    unified.store.probe left = .constructed head first ∧
      unified.store.probe right = .constructed head' second := by
  have hpart := part?_constructed hl
  have hpart' := part?_constructed hr
  have hfirst := hs.wellSorted.hasSort_part hpart
  have hsecond := hs.wellSorted.hasSort_part hpart'
  obtain ⟨hsteps, halike⟩ := h.steps_and_alike hs.wellSorted hfirst hsecond
  have hs' := hs.of_steps hsteps
  obtain ⟨shapes, hshapes⟩ := hs'.solvable
  have hbefore := hsteps.solves hs.wellSorted hshapes
  have heq := hshapes.alikeShape hs'.wellSorted (hsteps.extends.hasSort hfirst) (halike hequal rfl)
  constructor
  · exact h.probe_of_size_lt hs.wellSorted hfirst hsecond hequal hshapes hl
      (hbefore.size_part_lt hpart)
  · exact h.probe_of_size_lt hs.wellSorted hfirst hsecond hequal hshapes hr
      (heq ▸ hbefore.size_part_lt hpart')

theorem passes_of_isHarmless {first second : Mutability}
    (hfirst : fixed → ∃ mutable, first = .fixed mutable)
    (h : (s.unifyMutability left right first second).1.isHarmless = true) :
    Passes fixed first second := by
  intro hyes hsecond
  obtain ⟨mutable, rfl⟩ := hfirst hyes
  subst hsecond
  cases mutable with
  | false => rfl
  | true => cases h

/-- Unification that reports no more than mismatches keeps obligations, and what it expected passes
for what it found. -/
theorem Unifies.honours (h : Unifies s left right result) :
    s.Sound → (fixed → s.Rigid) → s.HasSort left .type → s.HasSort right .type →
      result.equal = true → result.outcome.isHarmless = true →
        s.Honours fixed result.store ∧ result.store.Alike (Passes fixed) left right := by
  induction h with
  | same h => exact fun _ _ _ _ _ _ => ⟨.refl fixed _, .same h⟩
  | @literals s left right type hapart hl hr =>
    intro hs _ hsort hsort' _ _
    refine ⟨honours_union hsort hsort' (Step.literals hsort.1 hsort'.1 hl hr).extends ?_ ?_,
      .same (same_union_self hsort.1 hsort'.1)⟩
    · simp [hl, hr]
    · simp [hl, hr]
  | @constructors s left right first second head unified hapart hl hr h hequal ih =>
    intro hs hrigid hsort hsort' _ hharmless
    have hpart := part?_constructed hl
    have hpart' := part?_constructed hr
    have hfirst := hs.wellSorted.hasSort_part hpart
    have hsecond := hs.wellSorted.hasSort_part hpart'
    obtain ⟨hhonours, halike⟩ := ih hs hrigid hfirst hsecond hequal hharmless
    obtain ⟨hl', hr'⟩ := h.constructed_of_arguments hs hl hr hequal
    have hext := hhonours.keeps
    have hstep := Step.constructors hl' hr' (halike.weaken fun _ _ _ => trivial)
    refine ⟨hhonours.trans (honours_union (hext.hasSort hsort) (hext.hasSort hsort')
      hstep.extends ?_ ?_),
      .same (same_union_self (hext.hasSort hsort).1 (hext.hasSort hsort').1)⟩
    · simp [hl', hr']
    · -- the argument of the left type is kept, and passes for that of the right one
      rintro other argument (hp | hp)
      · cases hl'.symm.trans hp
        exact ⟨first, by rw [hl', hr']; rfl, Alike.refl first⟩
      · cases hr'.symm.trans hp
        exact ⟨first, by rw [hl', hr']; rfl, hstep.extends.alike halike⟩
  | argumentsApart _ _ _ _ _ hrefused =>
    intro _ _ _ _ hequal
    simp [hrefused.store_eq.2] at hequal
  | @references s left right first second lifetime lifetime' mutability mutability' unified
      hapart hl hr _ h ih =>
    intro hs hrigid hsort hsort' hequal hharmless
    obtain ⟨hmutability, hinside⟩ := Outcome.isHarmless_append_iff.mp hharmless
    obtain ⟨hquiet, -, ⟨hfirst, -⟩, hsecond, -⟩ := hs.wellSorted.descend hl hr
    obtain ⟨hhonours, halike⟩ := ih (hs.of_steps hquiet.steps)
      (fun hyes => hquiet.steps.rigid (hrigid hyes)) hfirst hsecond hequal hinside
    have hlast : unified.store.Honours fixed _ :=
      (unifyLifetimes_quietSteps unified.store lifetime lifetime').honours
    have hall := (hquiet.honours.trans hhonours).trans hlast
    refine ⟨hall, .reference (hall.keeps.reference hl) (hall.keeps.reference hr) ?_
      (hlast.keeps.alike halike)⟩
    exact passes_of_isHarmless (fun hyes => hrigid hyes _ _ _ _ hl) hmutability
  | lifetimes hapart hl hr | mutabilities hapart hl hr =>
    intro _ _ hsort
    simp [HasSort, hl, Term.sort] at hsort
  | @unbounds s left right _ _ constraints constraints' hapart hl hr =>
    intro hs _ hsort hsort' _ _
    have hp := probe_union hsort.1 hsort'.1 hapart left
    rw [if_pos (.inl (same_refl _ _)), hl, hr] at hp
    have hfree : ¬s.Occurs left right := by
      intro hoccurs
      cases hoccurs with
      | here hsame => simp [hapart] at hsame
      | inside hpart _ => simp [part?, hr] at hpart
    refine ⟨honours_union hsort hsort' (Step.bind hl hsort' hfree).extends ?_ ?_,
      .same (same_union_self hsort.1 hsort'.1)⟩
    · rintro id added (hadded | hadded) constraint hm
      · cases hl.symm.trans hadded
        exact .unbound hp (Term.mem_joinConstraints.mpr (.inl hm))
      · cases hr.symm.trans hadded
        exact .unbound hp (Term.mem_joinConstraints.mpr (.inr hm))
    · simp [hl, hr]
  | bindLeft hapart hl hr h =>
    intro hs hrigid hsort hsort' hequal hharmless
    exact ⟨h.honours hs.wellSorted hrigid hl hsort' hr hequal hharmless,
      .same ((h.steps hs.wellSorted hl hsort').2 hequal)⟩
  | bindRight hapart hl hr h =>
    intro hs hrigid hsort hsort' hequal hharmless
    exact ⟨h.honours hs.wellSorted hrigid hr hsort hl hequal hharmless,
      .same (same_symm ((h.steps hs.wellSorted hr hsort).2 hequal))⟩
  | clash _ _ hrefuses =>
    intro _ _ _ _ hequal
    simp [hrefuses.store_eq.2] at hequal

theorem Unifies.quietSteps (h : Unifies s left right result) (hl : s.HasSort left sort)
    (hr : s.HasSort right sort) (hne : sort ≠ .type) : s.QuietSteps result.store := by
  have htype : ∀ {term}, s.HasSort term sort → (s.probe term).sort ≠ .type :=
    fun ht => ht.2 ▸ hne
  cases h with
  | same => exact .refl
  | lifetimes => exact unifyLifetimes_quietSteps s left right
  | mutabilities _ hl' hr' => exact .single (.mutabilities hl' hr')
  | clash _ _ hrefuses => exact hrefuses.store_eq.1 ▸ .refl
  | literals _ hp | constructors _ hp | argumentsApart _ hp | references _ hp
  | unbounds _ hp | bindLeft _ hp =>
    exact absurd (congrArg Term.sort hp) (htype hl)
  | bindRight _ _ hp => exact absurd (congrArg Term.sort hp) (htype hr)

theorem Sound.honours_unify (h : s.Sound) (hrigid : fixed → s.Rigid)
    (hl : s.HasSort left sort) (hr : s.HasSort right sort)
    (hequal : (s.unify left right).equal = true)
    (hclean : (s.unify left right).outcome.isClean = true) :
    s.Honours fixed (s.unify left right).store := by
  have hunifies := unifies_unify h.wellSorted h.solvable hl hr
  by_cases htype : sort = .type
  · subst htype
    exact (hunifies.honours h hrigid hl hr hequal
      (Outcome.isHarmless_iff.mpr (Outcome.isClean_iff.mp hclean).2)).1
  · exact (hunifies.quietSteps hl hr htype).honours

/-! ## Runs -/

namespace Operation

/-- An operation asks a type to satisfy a constraint: it creates an unbound type with the
constraint, or checks it and finds that it holds. -/
inductive Asks (s : TermStore) : Operation → TermId → Constraint → Prop
  | newUnbound {constraints : List Constraint} {constraint : Constraint}
      (hmem : constraint ∈ constraints) :
      Asks s (newUnbound constraints) (s.newUnbound constraints).1 constraint
  | check {term : TermId} {constraint : Constraint}
      (hholds : (s.check term constraint).1 = true) :
      Asks s (check term constraint) term constraint

def IsClean (s : TermStore) : Operation → Prop
  | unify left right =>
    (s.unify left right).equal = true ∧ (s.unify left right).outcome.isClean = true
  | _ => True

def IsRigid : Operation → Prop
  | newReference mutability _ _ => ∃ mutable, mutability = .fixed mutable
  | _ => True

end Operation

def after (s : TermStore) (operations : List Operation) : TermStore :=
  operations.foldl Operation.run s

/-- Every operation of a run is given handles of the sorts that it calls for, and every unification
succeeds and reports nothing. -/
def RunsCleanly : TermStore → List Operation → Prop
  | _, [] => True
  | s, operation :: rest =>
    operation.Fits s ∧ operation.IsClean s ∧ RunsCleanly (operation.run s) rest

theorem Sound.honours_run (h : s.Sound) (hrigid : fixed → s.Rigid)
    (hfits : operation.Fits s) (hclean : operation.IsClean s) :
    s.Honours fixed (operation.run s) := by
  cases operation with
  | newType type => exact (enlarges_newType s type).honours
  | newUnbound constraints => exact (enlarges_newUnbound s constraints).honours
  | newConstructed | newReference | newLifetime | newMutability =>
    exact (enlarges_push s _).honours
  | unify left right =>
    obtain ⟨sort, hl, hr⟩ := hfits
    exact h.honours_unify hrigid hl hr hclean.1 hclean.2
  | check term constraint =>
    exact (checks_check h.wellSorted h.solvable term constraint).quietSteps.honours
  | resolveLifetime term value => exact (resolveLifetime_quietSteps s term value).honours
  | constrainMutability term mutable =>
    exact (constrainMutability_quietSteps hfits mutable).honours

theorem Sound.rigid_run (h : s.Sound) (hrigid : s.Rigid) (hfits : operation.Fits s)
    (hfixed : operation.IsRigid) : (operation.run s).Rigid := by
  cases operation with
  | newType type => exact rigid_newType hrigid type
  | newUnbound constraints => exact rigid_push hrigid (by simp)
  | newConstructed | newLifetime | newMutability => exact rigid_push hrigid (by simp)
  | newReference mutability underlying lifetime =>
    refine rigid_push hrigid fun found _ _ heq => ?_
    cases heq
    exact hfixed
  | unify left right =>
    obtain ⟨sort, hl, hr⟩ := hfits
    exact (h.unify hl hr).1.rigid hrigid
  | check term constraint =>
    exact (checks_check h.wellSorted h.solvable term constraint).quietSteps.steps.rigid hrigid
  | resolveLifetime term value =>
    exact (resolveLifetime_quietSteps s term value).steps.rigid hrigid
  | constrainMutability term mutable =>
    exact (constrainMutability_quietSteps hfits mutable).steps.rigid hrigid

theorem Sound.owes_of_asks (h : s.Sound) (hrigid : fixed → s.Rigid)
    (hasks : operation.Asks s term constraint) :
    (operation.run s).Owes fixed constraint term := by
  cases hasks with
  | newUnbound hm => exact .unbound (probe_push_self _ _) hm
  | check hholds => exact (checks_check h.wellSorted h.solvable term constraint).owes hrigid hholds

theorem RunsCleanly.of_append {first second : List Operation}
    (h : s.RunsCleanly (first ++ second)) :
    s.RunsCleanly first ∧ (s.after first).RunsCleanly second := by
  induction first generalizing s with
  | nil => exact ⟨trivial, h⟩
  | cons operation rest ih =>
    obtain ⟨hfits, hclean, hrest⟩ := h
    exact ⟨⟨hfits, hclean, (ih hrest).1⟩, (ih hrest).2⟩

/-- A clean run keeps a store in order, and honours what was owed before it. -/
theorem Sound.honours_after (h : s.Sound) (hrigid : fixed → s.Rigid)
    {operations : List Operation} (hclean : s.RunsCleanly operations)
    (hfixed : fixed → ∀ operation ∈ operations, operation.IsRigid) :
    (s.after operations).Sound ∧ (fixed → (s.after operations).Rigid) ∧
      s.Honours fixed (s.after operations) := by
  induction operations generalizing s with
  | nil => exact ⟨h, hrigid, .refl fixed s⟩
  | cons operation rest ih =>
    obtain ⟨hfits, hoperation, hrest⟩ := hclean
    have hrigid' : fixed → (operation.run s).Rigid := fun hyes =>
      h.rigid_run (hrigid hyes) hfits (hfixed hyes operation List.mem_cons_self)
    obtain ⟨hsound, hrigid'', hhonours⟩ := ih (h.run hfits) hrigid' hrest
      fun hyes other ho => hfixed hyes other (List.mem_cons_of_mem _ ho)
    exact ⟨hsound, hrigid'', (h.honours_run hrigid hfits hoperation).trans hhonours⟩

theorem rigid_empty : ({} : TermStore).Rigid := by
  intro term mutability underlying lifetime hp
  cases (probe_of_le (Nat.zero_le term)).symm.trans hp

/-- A type of which a constraint was asked satisfies it at the end of a clean run, or is a mutable
reference inside options and was to be copyable. -/
theorem satisfies_of_asks (fixed : Prop) {first last : List Operation}
    (hclean : ({} : TermStore).RunsCleanly (first ++ operation :: last))
    (hfixed : fixed → ∀ other ∈ first ++ operation :: last, other.IsRigid)
    (hasks : operation.Asks (({} : TermStore).after first) term constraint)
    (hresolved : ((({} : TermStore).after (first ++ operation :: last)).render term).isResolved =
      true) :
    ((({} : TermStore).after (first ++ operation :: last)).render term).satisfies constraint =
        true ∨
      ¬fixed ∧ constraint = .copy ∧ ((({} : TermStore).after
        (first ++ operation :: last)).render term).throughOptions.isMutableReference = true := by
  obtain ⟨hfirst, hfits, hoperation, hlast⟩ := hclean.of_append
  obtain ⟨hsound, hrigid, -⟩ := sound_empty.honours_after (fun _ => rigid_empty) hfirst
    fun hyes other ho => hfixed hyes other (List.mem_append_left _ ho)
  have hrigid' : fixed → (operation.run (({} : TermStore).after first)).Rigid := fun hyes =>
    hsound.rigid_run (hrigid hyes) hfits (hfixed hyes operation (by simp))
  obtain ⟨hsound', -, hhonours⟩ := (hsound.run hfits).honours_after hrigid' hlast
    fun hyes other ho => hfixed hyes other (by simp [ho])
  have howes := hhonours.owes (hsound.owes_of_asks hrigid hasks)
  have hafter : ({} : TermStore).after (first ++ operation :: last) =
      (operation.run (({} : TermStore).after first)).after last := by
    simp [after]
  rw [hafter] at hresolved ⊢
  exact howes.satisfies (renders_render hsound'.wellSorted hsound'.solvable term) hresolved

/-- At the end of a run in which every unification succeeds and reports nothing, a type that is
known in full satisfies a constraint that was asked of it, except that a type which was to be
copyable may be a mutable reference inside options. If no reference shares its mutability, that does
not happen. -/
theorem satisfies_iff_of_asks {first last : List Operation} {operation : Operation}
    (hclean : ({} : TermStore).RunsCleanly (first ++ operation :: last))
    (hasks : operation.Asks (({} : TermStore).after first) term constraint)
    {type : DataType}
    (htype : (({} : TermStore).after (first ++ operation :: last)).render term = type)
    (hresolved : type.isResolved = true) :
    (type.satisfies constraint = true ↔
      ¬(constraint = .copy ∧ type.throughOptions.isMutableReference = true)) ∧
        ((∀ other ∈ first ++ operation :: last, other.IsRigid) →
          type.satisfies constraint = true) := by
  subst htype
  refine ⟨⟨?_, fun hnot => ?_⟩, fun hrigid => ?_⟩
  · rintro hsatisfies ⟨rfl, hmutable⟩
    rw [DataType.not_isMutableReference_of_isCopyable hsatisfies] at hmutable
    cases hmutable
  · rcases satisfies_of_asks False hclean nofun hasks hresolved with
      hsatisfies | ⟨-, hmutable⟩
    · exact hsatisfies
    · exact absurd hmutable hnot
  · rcases satisfies_of_asks True hclean (fun _ => hrigid) hasks hresolved with
      hsatisfies | ⟨hnot, -⟩
    · exact hsatisfies
    · exact absurd trivial hnot

def newOption : List Operation := [.newUnbound [], .newConstructed .option 0]

def fillOption : List Operation := [.newType (.constructed .option .int32), .unify 1 3]

theorem satisfies_iff_of_asks_option :
    ({} : TermStore).RunsCleanly (newOption ++ .check 1 .copy :: fillOption) ∧
      (Operation.check 1 .copy).Asks (({} : TermStore).after newOption) 1 .copy ∧
        ((DataType.constructed .option .int32).satisfies .copy = true ↔
          ¬(Constraint.copy = .copy ∧
            (DataType.constructed .option .int32).throughOptions.isMutableReference = true)) := by
  have hclean : ({} : TermStore).RunsCleanly (newOption ++ .check 1 .copy :: fillOption) := by
    refine ⟨trivial, trivial, ?_, trivial, ?_, trivial, trivial, trivial, ?_, ?_, trivial⟩
    · exact show HasSort _ 0 .type by decide
    · exact show HasSort _ 1 .type by decide
    · exact ⟨.type, by decide, by decide⟩
    · exact ⟨by decide, by decide⟩
  have hasks : (Operation.check 1 .copy).Asks (({} : TermStore).after newOption) 1 .copy :=
    .check (by decide)
  exact ⟨hclean, hasks, (satisfies_iff_of_asks hclean hasks (by decide +kernel) (by decide)).1⟩

def newOpenReference : List Operation :=
  [.newMutability, .newType .int32, .newLifetime none, .newReference (.shared 0) 1 2]

def fixReference : List Operation := [.newType (.reference true .int32), .unify 6 3]

/-- What a shared mutability becomes after a check is not checked. -/
theorem not_satisfies_openReference :
    ({} : TermStore).RunsCleanly (newOpenReference ++ .check 3 .copy :: fixReference) ∧
      (Operation.check 3 .copy).Asks (({} : TermStore).after newOpenReference) 3 .copy ∧
        (({} : TermStore).after (newOpenReference ++ .check 3 .copy :: fixReference)).render 3 =
            .reference true .int32 ∧
          (DataType.reference true .int32).isResolved = true ∧
            (DataType.reference true .int32).satisfies .copy = false := by
  refine ⟨⟨trivial, trivial, trivial, trivial, trivial, trivial, ?_, trivial, ?_, trivial, trivial,
    trivial, ?_, ?_, trivial⟩, .check (by decide), by decide +kernel, by decide, by decide⟩
  · exact ⟨show HasSort _ 0 .mutability by decide, by decide, by decide⟩
  · exact show HasSort _ 3 .type by decide
  · exact ⟨.type, by decide, by decide⟩
  · exact ⟨by decide, by decide⟩

end TermStore

end BorrowFlow
