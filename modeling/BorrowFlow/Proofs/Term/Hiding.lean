import BorrowFlow.Proofs.Term.Obligations

/-!
# What unification cannot reach

Unification starts from two terms and goes from a term to the terms it mentions. A set of handles is
sealed if no other handle shares a class with one of them and no other term mentions one. Unifying
two terms outside of a sealed set leaves the terms and the classes of the set as they were, and the
set stays sealed.
-/

namespace BorrowFlow

variable {result : Unified} {data : Term}

namespace Term

def parts : Term → List TermId
  | constructed _ argument => [argument]
  | reference (.fixed _) underlying span => [underlying, span]
  | reference (.shared term) underlying span => [term, underlying, span]
  | _ => []

theorem underlying_mem_parts (mutability : Mutability) (underlying span : TermId) :
    underlying ∈ (reference mutability underlying span).parts := by
  cases mutability <;> simp [parts]

theorem lifetime_mem_parts (mutability : Mutability) (underlying span : TermId) :
    span ∈ (reference mutability underlying span).parts := by
  cases mutability <;> simp [parts]

theorem merge_eq_or (left right : Term) :
    left.merge right = left ∨ left.merge right = right ∨ (left.merge right).parts = [] := by
  cases left <;> cases right <;> simp [merge, parts]

theorem mem_parts_merge {left right : Term} {part : TermId} (h : part ∈ (left.merge right).parts) :
    part ∈ left.parts ∨ part ∈ right.parts := by
  rcases merge_eq_or left right with heq | heq | hnil
  · exact .inl (heq ▸ h)
  · exact .inr (heq ▸ h)
  · simp [hnil] at h

end Term

namespace TermStore

variable {s s' s'' : TermStore} {hidden : TermId → Prop} {term left right : TermId}

/-- Nothing outside of a set of handles leads to a handle of the set. -/
structure Sealed (s : TermStore) (hidden : TermId → Prop) : Prop where
  classes : ∀ first second, hidden first → s.same first second = true → hidden second
  parts : ∀ term part, part ∈ (s.probe term).parts → hidden part → hidden term

/-- Two stores agree about the handles of a set. -/
structure AgreesOn (hidden : TermId → Prop) (s s' : TermStore) : Prop where
  probe : ∀ term, hidden term → s'.probe term = s.probe term
  same : ∀ first second, hidden first → s'.same first second = s.same first second

theorem AgreesOn.refl (hidden : TermId → Prop) (s : TermStore) : AgreesOn hidden s s :=
  ⟨fun _ _ => rfl, fun _ _ _ => rfl⟩

theorem AgreesOn.trans (h : AgreesOn hidden s s') (h' : AgreesOn hidden s' s'') :
    AgreesOn hidden s s'' where
  probe term ht := (h'.probe term ht).trans (h.probe term ht)
  same first second hfirst := (h'.same first second hfirst).trans (h.same first second hfirst)

/-- A change to handles outside of a set that names no new parts. -/
inductive Alters (hidden : TermId → Prop) (s : TermStore) : TermStore → Prop
  | absorb {term : TermId} {other : Term} (hlt : term < s.size) (hterm : ¬hidden term)
      (hparts : other.parts = []) : Alters hidden s (s.absorb term other)
  | union {left right : TermId} (hlt : left < s.size) (hlt' : right < s.size)
      (hleft : ¬hidden left) (hright : ¬hidden right) : Alters hidden s (s.union left right)

abbrev Altered (hidden : TermId → Prop) : TermStore → TermStore → Prop :=
  Relation.ReflTransGen (Alters hidden)

namespace Sealed

variable (h : s.Sealed hidden)
include h

theorem absorb {other : Term} (hlt : term < s.size) (ht : ¬hidden term)
    (hparts : other.parts = []) :
    (s.absorb term other).Sealed hidden ∧
      AgreesOn hidden s (s.absorb term other) := by
  have hp : ∀ key, hidden key → (s.absorb term other).probe key = s.probe key := by
    intro key hkey
    rw [probe_absorb hlt, if_neg]
    exact fun hsame => ht (h.classes key term hkey (same_symm hsame))
  refine ⟨⟨h.classes, fun key part hpart hhidden => ?_⟩, hp, fun _ _ _ => rfl⟩
  rw [probe_absorb hlt] at hpart
  split at hpart
  · rcases Term.mem_parts_merge hpart with hpart | hpart
    · exact absurd (h.parts _ _ hpart hhidden) ht
    · simp [hparts] at hpart
  · exact h.parts _ _ hpart hhidden

theorem union (hlt : left < s.size) (hlt' : right < s.size) (hl : ¬hidden left)
    (hr : ¬hidden right) :
    (s.union left right).Sealed hidden ∧
      AgreesOn hidden s (s.union left right) := by
  cases hapart : s.same left right with
  | true =>
    rw [union_of_same hapart]
    exact ⟨h, .refl hidden s⟩
  | false =>
    have hne : ∀ key, hidden key → ¬(s.same key left = true ∨ s.same key right = true) := by
      rintro key hkey (hsame | hsame)
      · exact hl (h.classes _ _ hkey hsame)
      · exact hr (h.classes _ _ hkey hsame)
    have hsame : ∀ first second, hidden first →
        (s.union left right).same first second = s.same first second := by
      intro first second hfirst
      rw [Bool.eq_iff_iff, same_union hlt hlt']
      exact ⟨fun h => h.elim id fun h => absurd h.1 (hne _ hfirst), .inl⟩
    refine ⟨⟨fun first second hfirst hsecond => ?_, fun key part hpart hhidden => ?_⟩,
      fun key hkey => ?_, hsame⟩
    · exact h.classes first second hfirst ((hsame first second hfirst).symm.trans hsecond)
    · rw [probe_union hlt hlt' hapart] at hpart
      split at hpart
      · rcases Term.mem_parts_merge hpart with hpart | hpart
        · exact absurd (h.parts _ _ hpart hhidden) hl
        · exact absurd (h.parts _ _ hpart hhidden) hr
      · exact h.parts _ _ hpart hhidden
    · rw [probe_union hlt hlt' hapart, if_neg (hne key hkey)]

theorem push (hbelow : ∀ key, hidden key → key < s.size)
    (hparts : ∀ part ∈ data.parts, ¬hidden part) :
    (s.push data).2.Sealed hidden ∧ AgreesOn hidden s (s.push data).2 := by
  refine ⟨⟨fun first second hfirst hsame => ?_, fun key part hpart hhidden => ?_⟩,
    fun key hkey => ?_, fun first second _ => same_push ..⟩
  · rw [same_push] at hsame
    exact h.classes first second hfirst hsame
  · rw [probe_push] at hpart
    split at hpart
    · exact absurd hhidden (hparts part hpart)
    · exact h.parts key part hpart hhidden
  · rw [probe_push, if_neg (Nat.ne_of_lt (hbelow key hkey))]

end Sealed

theorem Alters.sealed_agreesOn (h : Alters hidden s s') (hsealed : s.Sealed hidden) :
    s'.Sealed hidden ∧ AgreesOn hidden s s' := by
  cases h with
  | absorb hlt ht hparts => exact hsealed.absorb hlt ht hparts
  | union hlt hlt' hl hr => exact hsealed.union hlt hlt' hl hr

theorem Altered.sealed_agreesOn (h : Altered hidden s s') (hsealed : s.Sealed hidden) :
    s'.Sealed hidden ∧ AgreesOn hidden s s' := by
  induction h with
  | refl => exact ⟨hsealed, .refl hidden s⟩
  | tail _ halters ih =>
    obtain ⟨hsealed', hagrees⟩ := halters.sealed_agreesOn ih.1
    exact ⟨hsealed', ih.2.trans hagrees⟩

theorem Altered.sealed (h : Altered hidden s s') (hsealed : s.Sealed hidden) : s'.Sealed hidden :=
  (h.sealed_agreesOn hsealed).1

/-! ## Unification from outside -/

theorem Sealed.not_hidden {part : TermId} (h : s.Sealed hidden) (ht : ¬hidden term)
    (hp : s.probe term = data) (hpart : part ∈ data.parts) : ¬hidden part :=
  fun hhidden => ht (h.parts term part (hp ▸ hpart) hhidden)

theorem Checks.altered {constraint : Constraint} {answer : Bool × TermStore}
    (h : s.Checks constraint term answer) (hsealed : s.Sealed hidden)
    (ht : ¬hidden term) : Altered hidden s answer.2 := by
  induction h with
  | assumed => exact .refl
  | taken hp =>
    exact .single (.absorb (lt_size_of_probe hp) ht rfl)
  | literal => exact .refl
  | option hp _ _ ih => exact ih (hsealed.not_hidden ht hp (by simp [Term.parts]))
  | constructed => exact .refl
  | copied => exact .refl
  | displayed hp _ _ ih =>
    exact ih (hsealed.not_hidden ht hp (Term.underlying_mem_parts _ _ _))
  | other => exact .refl

theorem ChecksAll.altered {outcome : Outcome} {constraints : List Constraint}
    {result : Outcome × TermStore} (h : ChecksAll term s outcome constraints result)
    (hsealed : s.Sealed hidden) (ht : ¬hidden term) : Altered hidden s result.2 := by
  induction h with
  | nil => exact .refl
  | cons h _ ih =>
    have haltered := h.altered hsealed ht
    exact haltered.trans (ih (haltered.sealed hsealed))

theorem unifyMutability_altered (left right : TermId) {first second : Mutability}
    (hfirst : s.MutabilityFits first) (hsecond : s.MutabilityFits second)
    (hhidden : ∀ term, first = .shared term → ¬hidden term)
    (hhidden' : ∀ term, second = .shared term → ¬hidden term) :
    Altered hidden s (s.unifyMutability left right first second).2 := by
  cases first with
  | fixed mutable =>
    cases second with
    | fixed mutable' => cases mutable <;> cases mutable' <;> exact .refl
    | shared other =>
      cases mutable <;> exact .single (.absorb hsecond.1 (hhidden' other rfl) rfl)
  | shared term =>
    cases second with
    | fixed mutable => exact .single (.absorb hfirst.1 (hhidden term rfl) rfl)
    | shared other =>
      exact .single (.union hfirst.1 hsecond.1 (hhidden term rfl) (hhidden' other rfl))

theorem unifyLifetimes_altered (hl : left < s.size) (hr : right < s.size)
    (hhidden : ¬hidden left) (hhidden' : ¬hidden right) :
    Altered hidden s (s.unifyLifetimes left right) := by
  unfold unifyLifetimes
  split
  · split
    · exact .single (.union hl hr hhidden hhidden')
    · exact .refl
  · exact .single (.union hl hr hhidden hhidden')
  · exact .refl

theorem Binds.altered {inner found : TermId} {constraints : List Constraint}
    (h : s.Binds inner constraints term left found result) (hinner : inner < s.size)
    (hlt : term < s.size) (hsealed : s.Sealed hidden) (hhidden : ¬hidden inner)
    (ht : ¬hidden term) : Altered hidden s result.store := by
  cases h with
  | infinite _ hrefuses => rw [hrefuses.store_eq.1]
  | bound _ hchecks =>
    have hle := hchecks.quietSteps.steps.extends.size_le
    refine (hchecks.altered hsealed ht).tail ?_
    exact .union (Nat.lt_of_lt_of_le hinner hle) (Nat.lt_of_lt_of_le hlt hle) hhidden ht

/-- Unification of two terms outside of a sealed set changes the store outside of it only. -/
theorem Unifies.altered (h : Unifies s left right result) :
    ∀ {sort : TermSort}, s.WellSorted → s.HasSort left sort → s.HasSort right sort →
      s.Sealed hidden → ¬hidden left → ¬hidden right →
        Altered hidden s result.store := by
  induction h with
  | same => exact fun _ _ _ _ _ _ => .refl
  | literals => exact fun _ hsort hsort' _ hl hr => .single (.union hsort.1 hsort'.1 hl hr)
  | @constructors s left right first second head unified hapart hleft hright h hequal ih =>
    intro sort hs hsort hsort' hsealed hl hr
    have hfirst := hs.hasSort_argument hleft
    have hsecond := hs.hasSort_argument hright
    have hext := (h.steps hs hfirst hsecond).extends
    refine (ih hs hfirst hsecond hsealed (hsealed.not_hidden hl hleft (by simp [Term.parts]))
      (hsealed.not_hidden hr hright (by simp [Term.parts]))).tail ?_
    exact .union (hext.hasSort hsort).1 (hext.hasSort hsort').1 hl hr
  | @argumentsApart s left right first second head unified refused hapart hleft hright h _
      hrefused ih =>
    intro sort hs hsort hsort' hsealed hl hr
    have hfirst := hs.hasSort_argument hleft
    have hsecond := hs.hasSort_argument hright
    show Altered hidden s refused.store
    rw [hrefused.store_eq.1]
    exact ih hs hfirst hsecond hsealed (hsealed.not_hidden hl hleft (by simp [Term.parts]))
      (hsealed.not_hidden hr hright (by simp [Term.parts]))
  | @references s left right first second lifetime lifetime' mutability mutability' unified
      hapart hleft hright _ h ih =>
    intro sort hs hsort hsort' hsealed hl hr
    obtain ⟨-, hs', ⟨hfirst, hlifetime⟩, hsecond, hlifetime'⟩ := hs.descend hleft hright
    have hinner := (h.steps hs' hfirst hsecond).extends
    have hmutability :
        Altered hidden s (s.unifyMutability left right mutability mutability').2 := by
      refine unifyMutability_altered left right (hs.reference hleft).1 (hs.reference hright).1 ?_ ?_
      · exact fun term hshared => hsealed.not_hidden hl hleft (by simp [hshared, Term.parts])
      · exact fun term hshared => hsealed.not_hidden hr hright (by simp [hshared, Term.parts])
    refine (hmutability.trans (ih hs' hfirst hsecond (hmutability.sealed hsealed)
      (hsealed.not_hidden hl hleft (Term.underlying_mem_parts _ _ _))
      (hsealed.not_hidden hr hright (Term.underlying_mem_parts _ _ _)))).trans ?_
    exact unifyLifetimes_altered (hinner.hasSort hlifetime).1 (hinner.hasSort hlifetime').1
      (hsealed.not_hidden hl hleft (Term.lifetime_mem_parts _ _ _))
      (hsealed.not_hidden hr hright (Term.lifetime_mem_parts _ _ _))
  | lifetimes =>
    exact fun _ hsort hsort' _ hl hr => unifyLifetimes_altered hsort.1 hsort'.1 hl hr
  | mutabilities => exact fun _ hsort hsort' _ hl hr => .single (.union hsort.1 hsort'.1 hl hr)
  | unbounds => exact fun _ hsort hsort' _ hl hr => .single (.union hsort.1 hsort'.1 hl hr)
  | bindLeft _ _ _ h =>
    exact fun _ hsort hsort' hsealed hl hr => h.altered hsort.1 hsort'.1 hsealed hl hr
  | bindRight _ _ _ h =>
    exact fun _ hsort hsort' hsealed hl hr => h.altered hsort'.1 hsort.1 hsealed hr hl
  | clash _ _ hrefuses =>
    intro sort _ _ _ _ _ _
    rw [hrefuses.store_eq.1]

/-! ## What leads to a handle -/

/-- A handle leads to the target: it is in the class of one that does, or mentions one. -/
inductive Leads (s : TermStore) (target : TermId) : TermId → Prop
  | target : Leads s target target
  | same {first second : TermId} (h : Leads s target first)
      (hsame : s.same first second = true) : Leads s target second
  | part {term part : TermId} (h : Leads s target part)
      (hpart : part ∈ (s.probe term).parts) : Leads s target term

variable {target : TermId}

theorem sealed_leads (s : TermStore) (target : TermId) : s.Sealed (s.Leads target) :=
  ⟨fun _ _ => .same, fun _ _ hpart hleads => .part hleads hpart⟩

theorem Leads.of_sealed (h : s.Leads target term) (hsealed : s.Sealed hidden)
    (htarget : hidden target) : hidden term := by
  induction h with
  | target => exact htarget
  | same _ hsame ih => exact hsealed.classes _ _ ih hsame
  | part _ hpart ih => exact hsealed.parts _ _ hpart ih

theorem Leads.lt_size (h : s.Leads target term) (htarget : target < s.size) : term < s.size := by
  refine h.of_sealed ⟨fun first second hlt hsame => lt_size_of_same hsame hlt, ?_⟩ htarget
  intro term part hpart _
  apply lt_size_of_probe_ne
  intro hp
  simp [hp, Term.parts] at hpart

theorem not_leads_of_alone (hne : term ≠ target)
    (halone : ∀ other, s.same term other = true → other = term)
    (hparts : (s.probe term).parts = []) : ¬s.Leads target term := by
  intro hleads
  have hsealed : s.Sealed (· ≠ term) := by
    refine ⟨fun first second hfirst hsame heq => ?_, fun key part hpart _ heq => ?_⟩
    · exact hfirst (halone first (same_symm (heq ▸ hsame)))
    · rw [heq, hparts] at hpart
      cases hpart
  exact hleads.of_sealed hsealed hne.symm rfl

/-- The target is as it was, and nothing leads to it that did not before. -/
structure Screens (target : TermId) (s s' : TermStore) : Prop where
  probe : s'.probe target = s.probe target
  same : ∀ other, s'.same target other = s.same target other
  leads : ∀ term, s'.Leads target term → s.Leads target term

theorem Screens.trans (h : Screens target s s') (h' : Screens target s' s'') :
    Screens target s s'' :=
  ⟨h'.probe.trans h.probe, fun other => (h'.same other).trans (h.same other),
    fun term hleads => h.leads term (h'.leads term hleads)⟩

theorem Screens.of_sealed (h : s'.Sealed (s.Leads target) ∧
      AgreesOn (s.Leads target) s s') : Screens target s s' :=
  ⟨h.2.probe target .target, fun other => h.2.same target other .target,
    fun _ hleads => hleads.of_sealed h.1 .target⟩

theorem screens_push (htarget : target < s.size)
    (hparts : ∀ part ∈ data.parts, ¬s.Leads target part) :
    Screens target s (s.push data).2 :=
  .of_sealed ((sealed_leads s target).push (fun _ hkey => hkey.lt_size htarget) hparts)

theorem screens_absorb {other : Term} (hlt : term < s.size) (ht : ¬s.Leads target term)
    (hparts : other.parts = []) : Screens target s (s.absorb term other) :=
  .of_sealed ((sealed_leads s target).absorb hlt ht hparts)

theorem screens_newUnbound (htarget : target < s.size) (constraints : List Constraint) :
    Screens target s (s.newUnbound constraints).2 := by
  have hnext : Screens target s { s with nextUnbound := s.nextUnbound + 1 } :=
    .of_sealed ⟨⟨(sealed_leads s target).classes, (sealed_leads s target).parts⟩,
      fun _ _ => rfl, fun _ _ _ => rfl⟩
  exact hnext.trans (screens_push htarget (by simp [Term.parts]))

/-- Unification of two terms that do not lead to the target. -/
theorem Sound.screens_unify {sort : TermSort} (hs : s.Sound) (hleft : s.HasSort left sort)
    (hright : s.HasSort right sort) (hl : ¬s.Leads target left)
    (hr : ¬s.Leads target right) : Screens target s (s.unify left right).store := by
  have hunifies := unifies_unify hs.wellSorted hs.solvable hleft hright
  have hsealed := sealed_leads s target
  exact .of_sealed ((hunifies.altered hs.wellSorted hleft hright hsealed hl hr).sealed_agreesOn
    hsealed)

/-! ## A type of which nothing is known -/

/-- If nothing is known of a type, then unification makes it one with the other type, or refuses. -/
theorem Unifies.of_unbound {name : Nat} (h : Unifies s left right result)
    (hp : s.probe left = .unbound name []) :
    result.store = s ∨ result.store = s.union left right := by
  cases h with
  | same => exact .inl rfl
  | unbounds => exact .inr rfl
  | bindLeft _ hl _ h =>
    cases hp.symm.trans hl
    cases h with
    | infinite _ hrefuses => exact .inl hrefuses.store_eq.1
    | bound _ hchecks =>
      cases hchecks
      exact .inr rfl
  | bindRight _ hl => exact absurd hp (hl _ _)
  | clash _ _ hrefuses => exact .inl hrefuses.store_eq.1
  | literals _ hl => cases hp.symm.trans hl
  | constructors _ hl => cases hp.symm.trans hl
  | argumentsApart _ hl => cases hp.symm.trans hl
  | references _ hl => cases hp.symm.trans hl
  | lifetimes _ hl => cases hp.symm.trans hl
  | mutabilities _ hl => cases hp.symm.trans hl

/-- A type of which nothing is known and that nothing mentions is unified with another one. A
lifetime is as it was, and what leads to it now is at most the type itself, if the other one did. -/
theorem Sound.settles_unify {name : Nat} (hs : s.Sound) (hleft : s.HasSort left .type)
    (hright : s.HasSort right .type) (hp : s.probe left = .unbound name [])
    (halone : ∀ term, s.Leads left term → term = left)
    (htarget : s.HasSort target .lifetime) :
    (s.unify left right).store.probe target = s.probe target ∧
      (∀ other, (s.unify left right).store.same target other = s.same target other) ∧
        ∀ term, (s.unify left right).store.Leads target term →
          s.Leads target term ∨ term = left ∧ s.Leads target right := by
  rcases (unifies_unify hs.wellSorted hs.solvable hleft hright).of_unbound hp with heq | heq
  · rw [heq]
    exact ⟨rfl, fun _ => rfl, fun _ => .inl⟩
  rw [heq]
  cases hsame : s.same left right with
  | true =>
    rw [union_of_same hsame]
    exact ⟨rfl, fun _ => rfl, fun _ => .inl⟩
  | false =>
    have hsort : (s.probe target).sort ≠ .type := by simp [htarget.2]
    have hapart : ∀ key, s.HasSort key .type → s.same target key = false := by
      intro key hkey
      rw [Bool.eq_false_iff]
      intro hsame
      rw [probe_of_same hsame, hkey.2] at hsort
      exact hsort rfl
    have htargets : ∀ other, (s.union left right).same target other = s.same target other := by
      intro other
      rw [Bool.eq_iff_iff, same_union hleft.1 hright.1]
      simp [hapart left hleft, hapart right hright]
    refine ⟨probe_union_of_sort_ne hleft hright hsort, htargets, fun term hleads => ?_⟩
    by_cases hr : s.Leads target right
    · have hsealed : (s.union left right).Sealed fun key => s.Leads target key ∨ key = left := by
        refine ⟨fun first second hfirst hsecond => ?_, fun key part hpart hhidden => ?_⟩
        · rw [same_union hleft.1 hright.1] at hsecond
          rcases hsecond with hsecond | ⟨-, hsecond | hsecond⟩
          · rcases hfirst with hfirst | rfl
            · exact .inl (hfirst.same hsecond)
            · exact .inr (halone second (.same .target hsecond))
          · exact .inr (halone second (.same .target (same_symm hsecond)))
          · exact .inl (hr.same (same_symm hsecond))
        · rw [probe_union hleft.1 hright.1 hsame] at hpart
          split at hpart
          · rename_i hkey
            rcases hkey with hkey | hkey
            · exact .inr (halone key (.same .target (same_symm hkey)))
            · exact .inl (hr.same (same_symm hkey))
          · rcases hhidden with hhidden | rfl
            · exact .inl (hhidden.part hpart)
            · exact .inr (halone key (.part .target hpart))
      exact (hleads.of_sealed hsealed (.inl .target)).imp_right fun heq => ⟨heq, hr⟩
    · have hl : ¬s.Leads target left := by
        refine not_leads_of_alone ?_ (fun other ho => halone other (.same .target ho))
          (by simp [hp, Term.parts])
        rintro rfl
        exact hsort hleft.2
      have hunion := (sealed_leads s target).union hleft.1 hright.1 hl hr
      exact .inl ((Screens.of_sealed hunion).leads term hleads)

end TermStore

end BorrowFlow
