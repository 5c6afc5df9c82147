import BorrowFlow.Proofs.Term.Runs

/-!
# Clean unification

In a store whose references all have a fixed mutability, a unification that reports nothing makes
its two types agree: they are in one class, or they are references of one mutability to types that
agree. Types that agree render alike, and go on agreeing whatever the store comes to know.
-/

namespace BorrowFlow

variable {result : Unified} {fixed : Prop}

namespace Outcome

theorem isClean_iff {outcome : Outcome} : outcome.isClean = true ↔
    outcome.mismatches = [] ∧ outcome.expectedMutable = false ∧ outcome.failedConstraints = [] := by
  simp [isClean, and_assoc]

theorem failedConstraints_foldl {constraints : List Constraint} {outcome : Outcome}
    (h : (constraints.foldl addFailed outcome).failedConstraints = []) :
    constraints = [] ∧ outcome.failedConstraints = [] := by
  induction constraints generalizing outcome with
  | nil => exact ⟨rfl, h⟩
  | cons constraint constraints ih =>
    have hfailed := (ih h).2
    unfold addFailed at hfailed
    split at hfailed
    · rename_i hm
      simp [hfailed] at hm
    · simp at hfailed

theorem isClean_append {first second : Outcome} (h : (first ++ second).isClean = true) :
    first.isClean = true ∧ second.isClean = true := by
  obtain ⟨hmismatches, hmutable, hfailed⟩ := isClean_iff.mp h
  obtain ⟨hfirst, hsecond⟩ := List.append_eq_nil_iff.mp hmismatches
  obtain ⟨hfirst', hsecond'⟩ := Bool.or_eq_false_iff.mp hmutable
  obtain ⟨hsecond'', hfirst''⟩ := failedConstraints_foldl hfailed
  exact ⟨isClean_iff.mpr ⟨hfirst, hfirst', hfirst''⟩,
    isClean_iff.mpr ⟨hsecond, hsecond', hsecond''⟩⟩

end Outcome

namespace DataType

/-- The type with the references that it begins with read as immutable ones. -/
def frozen : DataType → DataType
  | reference _ referent => reference false referent.frozen
  | type => type

/-- Two types differ at most in the mutability of the references that they begin with, and not even
in that if references are fixed. -/
structure Resembles (fixed : Prop) (left right : DataType) : Prop where
  frozen : left.frozen = right.frozen
  eq : fixed → left = right

variable {first second third : DataType}

theorem Resembles.refl (fixed : Prop) (type : DataType) : type.Resembles fixed type :=
  ⟨rfl, fun _ => rfl⟩

theorem Resembles.mono {fixed' : Prop} (h : first.Resembles fixed second)
    (hfixed : fixed' → fixed) : first.Resembles fixed' second :=
  ⟨h.frozen, fun h' => h.eq (hfixed h')⟩

theorem Resembles.trans (h : first.Resembles fixed second) (h' : second.Resembles fixed third) :
    first.Resembles fixed third :=
  ⟨h.frozen.trans h'.frozen, fun hfixed => (h.eq hfixed).trans (h'.eq hfixed)⟩

end DataType

namespace TermStore

variable {s s' : TermStore} {term left right inner : TermId} {first second : Mutability}

/-- Two handles stand for one type, mutabilities included. -/
abbrev Agree (s : TermStore) : TermId → TermId → Prop :=
  s.Alike (· = ·)

theorem Agree.renderTo_eq (h : s.Agree left right) (depth : Nat) :
    s.renderTo depth left = s.renderTo depth right := by
  induction h generalizing depth with
  | same h =>
    cases depth with
    | zero => rfl
    | succ depth => rw [renderTo, renderTo, probe_of_same h]
  | reference hl hr hmutability _ ih =>
    cases depth with
    | zero => rfl
    | succ depth => simp only [renderTo, hl, hr, hmutability, ih depth]

theorem Agree.render_eq (h : s.Agree left right) : s.render left = s.render right :=
  h.renderTo_eq s.depth

/-- Two handles stand for one type. Mutabilities are included if references are to be fixed. -/
abbrev AlikeIf (fixed : Prop) (s : TermStore) : TermId → TermId → Prop :=
  s.Alike fun first second => fixed → first = second

section AlikeIf

theorem AlikeIf.symm (h : s.AlikeIf fixed left right) : s.AlikeIf fixed right left :=
  Alike.symm (fun _ _ heq hfixed => (heq hfixed).symm) h

theorem AlikeIf.trans {third : TermId} (h : s.AlikeIf fixed left right)
    (h' : s.AlikeIf fixed right third) : s.AlikeIf fixed left third :=
  Alike.trans (fun _ _ _ heq heq' hfixed => (heq hfixed).trans (heq' hfixed)) h h'

theorem AlikeIf.agree (h : s.AlikeIf fixed left right) (hfixed : fixed) : s.Agree left right :=
  h.weaken fun _ _ heq => heq hfixed

/-- Types that are alike render alike, to any depth, but for the mutability of the references that
they begin with. -/
theorem AlikeShape.frozen_renderTo (h : s.AlikeShape left right) (depth : Nat) :
    (s.renderTo depth left).frozen = (s.renderTo depth right).frozen := by
  induction h generalizing depth with
  | same h =>
    cases depth with
    | zero => rfl
    | succ depth => rw [renderTo, renderTo, probe_of_same h]
  | reference hl hr _ _ ih =>
    cases depth with
    | zero => rfl
    | succ depth => simp only [renderTo, hl, hr, DataType.frozen, ih depth]

theorem AlikeIf.resembles (h : s.AlikeIf fixed left right) :
    (s.render left).Resembles fixed (s.render right) where
  frozen := AlikeShape.frozen_renderTo (h.weaken fun _ _ _ => trivial) s.depth
  eq hfixed := (h.agree hfixed).render_eq

end AlikeIf

/-! ## References of a fixed mutability -/

def Rigid (s : TermStore) : Prop :=
  ∀ term mutability underlying lifetime, s.probe term = .reference mutability underlying lifetime →
      ∃ mutable, mutability = .fixed mutable

theorem merge_eq_reference {first second : Term} {mutability : Mutability}
    {underlying lifetime : TermId}
    (h : first.merge second = .reference mutability underlying lifetime) :
    first = .reference mutability underlying lifetime ∨
      second = .reference mutability underlying lifetime := by
  cases first <;> cases second <;> simp_all [Term.merge]

theorem rigid_union (h : s.Rigid) (hl : left < s.size) (hr : right < s.size) :
    (s.union left right).Rigid := by
  cases hapart : s.same left right with
  | true => rwa [union_of_same hapart]
  | false =>
    intro term mutability underlying lifetime hp
    rw [probe_union hl hr hapart] at hp
    split at hp
    · rcases merge_eq_reference hp with hp | hp
      · exact h _ _ _ _ hp
      · exact h _ _ _ _ hp
    · exact h _ _ _ _ hp

theorem rigid_absorb (h : s.Rigid) {other : Term} (hlt : term < s.size)
    (ho : ∀ mutability underlying lifetime,
      other ≠ .reference mutability underlying lifetime) : (s.absorb term other).Rigid := by
  intro key mutability underlying lifetime hp
  rw [probe_absorb hlt] at hp
  split at hp
  · rcases merge_eq_reference hp with hp | hp
    · exact h _ _ _ _ hp
    · exact absurd hp (ho _ _ _)
  · exact h _ _ _ _ hp

theorem rigid_push (h : s.Rigid) {data : Term}
    (hd : ∀ mutability underlying lifetime, data = .reference mutability underlying lifetime →
      ∃ mutable, mutability = .fixed mutable) : (s.push data).2.Rigid := by
  intro key mutability underlying lifetime hp
  rw [probe_push] at hp
  split at hp
  · exact hd _ _ _ hp
  · exact h _ _ _ _ hp

theorem Quiet.rigid (hrigid : s.Rigid) (h : s.Quiet s') : s'.Rigid := by
  cases h with
  | constrain h => exact rigid_absorb hrigid (lt_size_of_probe h) (by simp)
  | resolve h => exact rigid_absorb hrigid (lt_size_of_probe h) (by simp)
  | restrict h => exact rigid_absorb hrigid (lt_size_of_probe h) (by simp)
  | lifetimes hl hr _ =>
    exact rigid_union hrigid (lt_size_of_probe hl) (lt_size_of_probe hr)
  | mutabilities hl hr =>
    exact rigid_union hrigid (lt_size_of_probe hl) (lt_size_of_probe hr)

theorem Step.rigid (hrigid : s.Rigid) (h : s.Step s') : s'.Rigid := by
  cases h with
  | quiet h => exact h.rigid hrigid
  | bind hinner ht _ =>
    exact rigid_union hrigid (lt_size_of_probe hinner) ht.1
  | literals hlt hlt' _ _ => exact rigid_union hrigid hlt hlt'
  | constructors hl hr _ =>
    exact rigid_union hrigid (lt_size_of_probe hl) (lt_size_of_probe hr)

theorem Steps.rigid (hrigid : s.Rigid) (h : s.Steps s') : s'.Rigid := by
  induction h with
  | refl => exact hrigid
  | tail _ hstep ih => exact hstep.rigid ih

/-! ## Clean unification -/

theorem Refuses.not_isClean (h : s.Refuses left right result) : result.outcome.isClean ≠ true := by
  obtain ⟨first, second, -, -, rfl⟩ := h
  simp [Outcome.isClean]

theorem unifyMutability_fixed {first second : Bool}
    (h : (s.unifyMutability left right (.fixed first) (.fixed second)).1.isClean = true) :
    first = second ∧ (s.unifyMutability left right (.fixed first) (.fixed second)).2 = s := by
  cases first <;> cases second <;> simp_all [unifyMutability, mismatch, Outcome.isClean]

/-- Two mutabilities have been unified, whatever was reported: a shared one is no more mutable than
a fixed one that it met, and two shared ones are one. -/
def MutabilitiesMet (s : TermStore) : Mutability → Mutability → Prop
  | .fixed _, .fixed _ => True
  | .fixed mutable, .shared term | .shared term, .fixed mutable =>
    ∃ value, s.probe term = .mutability (some value) ∧ (value = true → mutable = true)
  | .shared left, .shared right => s.same left right = true

theorem MutabilitiesMet.mono (h : s.MutabilitiesMet first second)
    (hext : s.Extends s') : s'.MutabilitiesMet first second := by
  have hrestricted : ∀ {term mutable}, (∃ value, s.probe term = .mutability (some value) ∧
      (value = true → mutable = true)) → ∃ value, s'.probe term = .mutability (some value) ∧
        (value = true → mutable = true) := by
    rintro term mutable ⟨value, hp, hvalue⟩
    have hg := hext.grows term (lt_size_of_probe hp)
    rw [hp] at hg
    obtain ⟨_, hp', hknown⟩ := hg
    obtain ⟨value', rfl, hvalue'⟩ := hknown value rfl
    exact ⟨value', hp', hvalue ∘ hvalue'⟩
  cases first with
  | fixed mutable =>
    cases second with
    | fixed => trivial
    | shared => exact hrestricted h
  | shared term =>
    cases second with
    | fixed => exact hrestricted h
    | shared => exact hext.same _ _ h

theorem probe_constrainMutability (h : s.HasSort term .mutability) (mutable : Bool) :
    ∃ value, (s.constrainMutability term mutable).probe term = .mutability (some value) ∧
      (value = true → mutable = true) := by
  rw [constrainMutability, probe_absorb h.1, if_pos (same_refl _ _)]
  cases hp : s.probe term with
  | mutability value =>
    cases value with
    | none => exact ⟨mutable, rfl, id⟩
    | some known => exact ⟨known && mutable, rfl, fun hboth => (Bool.and_eq_true_iff.mp hboth).2⟩
  | _ => simp [HasSort, hp, Term.sort] at h

theorem mutabilitiesMet_unifyMutability (left right : TermId) (hfirst : s.MutabilityFits first)
    (hsecond : s.MutabilityFits second) :
    (s.unifyMutability left right first second).2.MutabilitiesMet first second := by
  cases first with
  | fixed mutable =>
    cases second with
    | fixed => trivial
    | shared => cases mutable <;> exact probe_constrainMutability hsecond _
  | shared term =>
    cases second with
    | fixed mutable => exact probe_constrainMutability hfirst mutable
    | shared => exact same_union_self hfirst.1 hsecond.1

/-- Two mutabilities have been unified and nothing was reported about them. -/
def MutabilitiesSettled (s : TermStore) (first second : Mutability) : Prop :=
  s.MutabilitiesMet first second ∧
    ∀ mutable mutable', first = .fixed mutable → second = .fixed mutable' → mutable = mutable'

theorem MutabilitiesSettled.mono (h : s.MutabilitiesSettled first second)
    (hext : s.Extends s') : s'.MutabilitiesSettled first second :=
  ⟨h.1.mono hext, h.2⟩

theorem mutabilitiesSettled_unifyMutability (hfirst : s.MutabilityFits first)
    (hsecond : s.MutabilityFits second)
    (hclean : (s.unifyMutability left right first second).1.isClean = true) :
    (s.unifyMutability left right first second).2.MutabilitiesSettled first second := by
  refine ⟨mutabilitiesMet_unifyMutability left right hfirst hsecond, ?_⟩
  rintro mutable mutable' rfl rfl
  exact (unifyMutability_fixed hclean).1

/-- Unification that reports nothing makes two types one, or references with settled mutabilities to
such types. -/
theorem Unifies.settled (h : Unifies s left right result) :
    s.WellSorted → s.HasSort left .type → s.HasSort right .type → result.outcome.isClean = true →
        result.store.Alike result.store.MutabilitiesSettled left right := by
  induction h with
  | same h => exact fun _ _ _ _ => .same h
  | literals | unbounds =>
    exact fun _ hsort hsort' _ => .same (same_union_self hsort.1 hsort'.1)
  | constructors hapart hl hr h hequal _ =>
    intro hs hsort hsort' _
    have hext := (h.steps hs (hs.hasSort_argument hl) (hs.hasSort_argument hr)).extends
    exact .same (same_union_self (hext.hasSort hsort).1 (hext.hasSort hsort').1)
  | argumentsApart _ _ _ _ _ hrefused _ =>
    intro _ _ _ hclean
    exact absurd (Outcome.isClean_append hclean).2 hrefused.not_isClean
  | @references s left right first second lifetime lifetime' mutability mutability' unified
      hapart hl hr _ h ih =>
    intro hs hsort hsort' hclean
    obtain ⟨hclean, hclean'⟩ := Outcome.isClean_append hclean
    obtain ⟨hquiet, hs', ⟨hfirst, -⟩, hsecond, -⟩ := hs.descend hl hr
    have hinner := (h.steps hs' hfirst hsecond).extends
    have hlast := (unifyLifetimes_quietSteps unified.store lifetime lifetime').steps.extends
    have hall := hquiet.steps.extends.trans (hinner.trans hlast)
    refine .reference (hall.reference hl) (hall.reference hr) ?_ ?_
    · exact (mutabilitiesSettled_unifyMutability (hs.reference hl).1 (hs.reference hr).1
        hclean).mono (hinner.trans hlast)
    · exact (hlast.alike (ih hs' hfirst hsecond hclean')).weaken fun _ _ h => h.mono hlast
  | lifetimes hapart hl hr | mutabilities hapart hl hr =>
    intro _ hsort
    simp [HasSort, hl, Term.sort] at hsort
  | bindLeft hapart hl hr h =>
    intro hs hsort hsort' hclean
    have hsame := (h.steps hs hl hsort').2
    cases h with
    | infinite _ hrefuses => exact absurd hclean hrefuses.not_isClean
    | bound => exact .same (hsame rfl)
  | bindRight hapart hl hr h =>
    intro hs hsort hsort' hclean
    have hsame := (h.steps hs hr hsort).2
    cases h with
    | infinite _ hrefuses => exact absurd hclean hrefuses.not_isClean
    | bound => exact .same (same_symm (hsame rfl))
  | clash _ _ hrefuses =>
    intro _ _ _ hclean
    exact absurd hclean hrefuses.not_isClean

theorem agree_of_settled (h : s.Alike s.MutabilitiesSettled left right)
    (hrigid : s.Rigid) : s.Agree left right := by
  induction h with
  | same h => exact .same h
  | reference hl hr hsettled _ ih =>
    obtain ⟨mutable, rfl⟩ := hrigid _ _ _ _ hl
    obtain ⟨mutable', rfl⟩ := hrigid _ _ _ _ hr
    exact .reference hl hr (congrArg Mutability.fixed (hsettled.2 _ _ rfl rfl)) ih

theorem Sound.agree_unify (h : s.Sound) (hrigid : s.Rigid)
    (hl : s.HasSort left .type) (hr : s.HasSort right .type)
    (hclean : (s.unify left right).outcome.isClean = true) :
    (s.unify left right).store.Agree left right :=
  have hunifies := unifies_unify h.wellSorted h.solvable hl hr
  agree_of_settled (hunifies.settled h.wellSorted hl hr hclean)
    ((hunifies.steps h.wellSorted hl hr).rigid hrigid)

theorem Unifies.equal_of_isClean (h : Unifies s left right result)
    (hclean : result.outcome.isClean = true) : result.equal = true := by
  induction h with
  | same | literals | constructors | lifetimes | mutabilities | unbounds => rfl
  | argumentsApart _ _ _ _ _ hrefused _ =>
    exact absurd (Outcome.isClean_append hclean).2 hrefused.not_isClean
  | references _ _ _ _ _ ih => exact ih (Outcome.isClean_append hclean).2
  | bindLeft _ _ _ h | bindRight _ _ _ h =>
    cases h with
    | infinite _ hrefuses => exact absurd hclean hrefuses.not_isClean
    | bound => rfl
  | clash _ _ hrefuses => exact absurd hclean hrefuses.not_isClean

theorem Sound.alikeIf_unify (h : s.Sound) (hrigid : fixed → s.Rigid)
    (hl : s.HasSort left .type) (hr : s.HasSort right .type)
    (hclean : (s.unify left right).outcome.isClean = true) :
    (s.unify left right).store.AlikeIf fixed left right := by
  by_cases hfixed : fixed
  · exact (h.agree_unify (hrigid hfixed) hl hr hclean).weaken fun _ _ heq _ => heq
  · have hunifies := unifies_unify h.wellSorted h.solvable hl hr
    have halike := (hunifies.steps_and_alike h.wellSorted hl hr).2
      (hunifies.equal_of_isClean hclean) rfl
    exact halike.weaken fun _ _ _ hyes => absurd hyes hfixed

/-! ## New terms -/

/-- The second store has more terms, and has the terms of the first one as they were. -/
structure Enlarges (s s' : TermStore) : Prop where
  size_le : s.size ≤ s'.size
  same : ∀ left right, s'.same left right = s.same left right
  probe : ∀ key, key < s.size → s'.probe key = s.probe key

theorem Enlarges.refl (s : TermStore) : s.Enlarges s :=
  ⟨Nat.le_refl _, fun _ _ => rfl, fun _ _ => rfl⟩

theorem Enlarges.trans {s'' : TermStore} (h : s.Enlarges s')
    (h' : s'.Enlarges s'') : s.Enlarges s'' where
  size_le := Nat.le_trans h.size_le h'.size_le
  same left right := (h'.same left right).trans (h.same left right)
  probe key hkey := (h'.probe key (Nat.lt_of_lt_of_le hkey h.size_le)).trans (h.probe key hkey)

theorem Enlarges.extends (h : s.Enlarges s') : s.Extends s' where
  size_le := h.size_le
  same left right hsame := (h.same left right).trans hsame
  grows term hlt := by
    rw [h.probe term hlt]
    exact Term.Grows.refl Alike.refl _

theorem enlarges_push (s : TermStore) (data : Term) : s.Enlarges (s.push data).2 where
  size_le := by simp
  same := same_push s data
  probe key hkey := by rw [probe_push, if_neg (Nat.ne_of_lt hkey)]

theorem enlarges_newUnbound (s : TermStore) (constraints : List Constraint) :
    s.Enlarges (s.newUnbound constraints).2 :=
  have h := enlarges_push { s with nextUnbound := s.nextUnbound + 1 }
    (.unbound s.nextUnbound constraints)
  ⟨h.size_le, h.same, h.probe⟩

theorem enlarges_newType (s : TermStore) (type : DataType) : s.Enlarges (s.newType type).2 := by
  induction type with
  | unresolved =>
    have h := enlarges_push { s with nextUnbound := s.nextUnbound + 1 } (.unbound s.nextUnbound [])
    exact ⟨h.size_le, h.same, h.probe⟩
  | constructed head argument ih => exact ih.trans (enlarges_push ..)
  | reference mutable referent ih =>
    exact (ih.trans (enlarges_push ..)).trans (enlarges_push ..)
  | _ => exact enlarges_push ..

/-- A new term of the given sort. If references are to be fixed, the new term is no exception. -/
structure Creates (fixed : Prop) (s : TermStore) (sort : TermSort)
    (created : TermId × TermStore) : Prop where
  sound : created.2.Sound
  enlarges : s.Enlarges created.2
  rigid : fixed → s.Rigid → created.2.Rigid
  sort : created.2.HasSort created.1 sort

theorem Creates.keeps {sort : TermSort} {created : TermId × TermStore}
    (h : s.Creates fixed sort created) : s.Extends created.2 :=
  h.enlarges.extends

theorem Sound.creates_push (h : s.Sound) (fixed : Prop) (data : Term) (hparts : s.PartsFit data)
    (hfixed : fixed → ∀ mutability underlying lifetime,
      data = .reference mutability underlying lifetime → ∃ mutable, mutability = .fixed mutable) :
    s.Creates fixed data.sort (s.push data) where
  sound := h.push hparts
  enlarges := enlarges_push s data
  rigid hyes hrigid := rigid_push hrigid (hfixed hyes)
  sort := hasSort_push_self s data

theorem Sound.creates_newUnbound (h : s.Sound) (fixed : Prop) (constraints : List Constraint) :
    s.Creates fixed .type (s.newUnbound constraints) where
  sound := h.newUnbound constraints
  enlarges := enlarges_newUnbound s constraints
  rigid _ hrigid := rigid_push hrigid (by simp)
  sort := hasSort_newUnbound s constraints

theorem rigid_newType (h : s.Rigid) (type : DataType) : (s.newType type).2.Rigid := by
  induction type with
  | unresolved => exact rigid_push h (by simp)
  | constructed head argument ih => exact rigid_push ih (by simp)
  | reference mutable referent ih => exact rigid_push (rigid_push ih (by simp)) (by simp)
  | void => exact rigid_push h (by simp)
  | bool => exact rigid_push h (by simp)
  | int32 => exact rigid_push h (by simp)
  | int64 => exact rigid_push h (by simp)
  | string => exact rigid_push h (by simp)

end TermStore

end BorrowFlow
