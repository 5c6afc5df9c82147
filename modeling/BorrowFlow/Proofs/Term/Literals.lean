import BorrowFlow.Proofs.Term.Agreement

/-!
# Types that are written out

Unifying the terms of two types without unresolved parts compares the types. What is compared is
not quite equality: when the arguments of two constructors could be unified, what was reported about
them is forwarded without its mismatches, and a mismatch is how a mutable reference in the place of
an immutable one is reported. So below a constructor a mutable reference passes for an immutable
one, and nothing else that is different passes for anything.
-/

namespace BorrowFlow

variable {expected found : DataType} {first second : Outcome}

namespace DataType

/-- Whether the type is neither built from another one nor unresolved. -/
def isBasic : DataType → Bool
  | unresolved | constructed .. | reference .. => false
  | _ => true

/-- Whether one type passes where another one is expected: with the same mutabilities, but below a
constructor a reference that is expected to be immutable may be mutable. -/
def admits (below : Bool) : DataType → DataType → Bool
  | constructed first expected, constructed second found =>
    first = second && expected.admits true found
  | reference first expected, reference second found =>
    (first = second || below && !first) && expected.admits below found
  | expected, found => expected = found

def sharesInside (below : Bool) : DataType → Bool
  | constructed _ argument => argument.sharesInside true
  | reference mutable referent => below && !mutable || referent.sharesInside below
  | _ => false

theorem admits_of_isBasic (h : expected.isBasic = true) (below : Bool) :
    expected.admits below found = true ↔ expected = found := by
  cases expected <;> simp_all [isBasic, admits]

theorem admits_of_isBasic_right (h : found.isBasic = true) (below : Bool) :
    expected.admits below found = true ↔ expected = found := by
  cases found <;> cases expected <;> simp_all [isBasic, admits]

theorem admits_iff_eq {below : Bool} (h : expected.sharesInside below = false) :
    expected.admits below found = true ↔ expected = found := by
  induction expected generalizing found below with
  | constructed head argument ih =>
    cases found with
    | constructed other found => simp [admits, ih h]
    | _ => simp [admits]
  | reference mutable referent ih =>
    obtain ⟨hself, hreferent⟩ := Bool.or_eq_false_iff.mp h
    cases found with
    | reference other found => simp [admits, ih hreferent, hself]
    | _ => simp [admits]
  | _ => simp [admits]

/-- The shape of a data type; an unresolved part is a shape of its own. -/
def shape : DataType → Shape
  | constructed head argument => .constructed head argument.shape
  | reference _ referent => .reference referent.shape
  | type => .literal type

theorem shape_of_isBasic {type : DataType} (h : type.isBasic = true) :
    type.shape = .literal type := by
  cases type <;> simp_all [isBasic, shape]

end DataType

namespace Outcome

theorem failedConstraints_append_eq_nil : (first ++ second).failedConstraints = [] ↔
      first.failedConstraints = [] ∧ second.failedConstraints = [] := by
  refine ⟨fun h => (failedConstraints_foldl h).symm, fun ⟨hfirst, hsecond⟩ => ?_⟩
  change (second.failedConstraints.foldl addFailed first).failedConstraints = []
  rw [hsecond]
  exact hfirst

theorem isClean_append_iff :
    (first ++ second).isClean = true ↔ first.isClean = true ∧ second.isClean = true := by
  have hmismatches : (first ++ second).mismatches = [] ↔
      first.mismatches = [] ∧ second.mismatches = [] := List.append_eq_nil_iff
  have hmutable : (first ++ second).expectedMutable = false ↔
      first.expectedMutable = false ∧ second.expectedMutable = false := Bool.or_eq_false_iff
  simp only [isClean_iff, hmismatches, hmutable, failedConstraints_append_eq_nil]
  tauto

def isHarmless (outcome : Outcome) : Bool := outcome.withoutMismatches.isClean

theorem isHarmless_iff {outcome : Outcome} : outcome.isHarmless = true ↔
    outcome.expectedMutable = false ∧ outcome.failedConstraints = [] := by
  simp [isHarmless, isClean_iff, withoutMismatches]

theorem isHarmless_append_iff :
    (first ++ second).isHarmless = true ↔ first.isHarmless = true ∧ second.isHarmless = true := by
  have hmutable : (first ++ second).expectedMutable = false ↔
      first.expectedMutable = false ∧ second.expectedMutable = false := Bool.or_eq_false_iff
  simp only [isHarmless_iff, hmutable, failedConstraints_append_eq_nil]
  tauto

end Outcome

namespace TermStore

variable {s s' : TermStore} {low high mid : TermId} {left right term : TermId} {type : DataType}

/-! ## Terms that spell types out -/

/-- The term spells the type out, with handles from a range. -/
inductive Spells (s : TermStore) (low high : TermId) : DataType → TermId → Prop
  | literal {type : DataType} {term : TermId} (hbasic : type.isBasic = true) (hlow : low ≤ term)
      (hhigh : term < high) (hprobe : s.probe term = .literal type) :
      Spells s low high type term
  | constructed {head : TypeConstructor} {type : DataType} {term argument : TermId}
      (hlow : low ≤ term) (hhigh : term < high)
      (hprobe : s.probe term = .constructed head argument) (hlt : argument < term)
      (h : Spells s low high type argument) :
      Spells s low high (.constructed head type) term
  | reference {mutable : Bool} {type : DataType} {term underlying lifetime : TermId}
      (hlow : low ≤ term) (hhigh : term < high)
      (hprobe : s.probe term = .reference (.fixed mutable) underlying lifetime)
      (hlt : underlying < term) (h : Spells s low high type underlying) :
      Spells s low high (.reference mutable type) term

theorem Spells.mono (h : s.Spells low mid type term) (hle : mid ≤ high)
    (hp : ∀ key, key < mid → s'.probe key = s.probe key) :
    s'.Spells low high type term := by
  induction h with
  | literal hbasic hlow hhigh hf =>
    exact .literal hbasic hlow (Nat.lt_of_lt_of_le hhigh hle) ((hp _ hhigh).trans hf)
  | constructed hlow hhigh hf hlt _ ih =>
    exact .constructed hlow (Nat.lt_of_lt_of_le hhigh hle) ((hp _ hhigh).trans hf) hlt ih
  | reference hlow hhigh hf hlt _ ih =>
    exact .reference hlow (Nat.lt_of_lt_of_le hhigh hle) ((hp _ hhigh).trans hf) hlt ih

theorem Spells.bounds (h : s.Spells low high type term) : low ≤ term ∧ term < high := by
  cases h with
  | literal _ hlow hhigh | constructed hlow hhigh | reference hlow hhigh => exact ⟨hlow, hhigh⟩

theorem probe_push_self (s : TermStore) (data : Term) : (s.push data).2.probe s.size = data := by
  rw [probe_push, if_pos rfl]

theorem lt_size_push (s : TermStore) (data : Term) : s.size < (s.push data).2.size := by
  rw [size_push]
  exact Nat.lt_succ_self _

theorem spells_newType (s : TermStore) (h : type.isResolved = true) :
    (s.newType type).2.Spells s.size (s.newType type).2.size type (s.newType type).1 := by
  have hliteral : ∀ type : DataType, type.isBasic = true →
      (s.push (.literal type)).2.Spells s.size (s.push (.literal type)).2.size type
        (s.push (.literal type)).1 := fun type hbasic =>
    .literal hbasic (Nat.le_refl _) (lt_size_push ..) (probe_push_self ..)
  induction type with
  | unresolved => cases h
  | constructed head argument ih =>
    have hinner := ih h
    have hpush := enlarges_push (s.newType argument).2 (.constructed head (s.newType argument).1)
    exact .constructed (enlarges_newType s argument).size_le (lt_size_push ..)
      (probe_push_self ..) hinner.bounds.2 (hinner.mono hpush.size_le hpush.probe)
  | reference mutable referent ih =>
    have hinner := ih h
    have hlifetime := enlarges_push (s.newType referent).2 (.lifetime none)
    have hpush := hlifetime.trans (enlarges_push ((s.newType referent).2.push (.lifetime none)).2
      (.reference (.fixed mutable) (s.newType referent).1 (s.newType referent).2.size))
    exact .reference (Nat.le_trans (enlarges_newType s referent).size_le hlifetime.size_le)
      (lt_size_push ..) (probe_push_self ..) (Nat.lt_of_lt_of_le hinner.bounds.2 hlifetime.size_le)
      (hinner.mono hpush.size_le hpush.probe)
  | void | bool | int32 | int64 | string => exact hliteral _ rfl

/-! ## Unification of spelled-out types -/

/-- The result of a unification says whether one type passes for another: on its own, if nothing is
reported, and below a constructor, if they could be made equal and there are only mismatches. -/
structure Compares (expected found : DataType) (result : Unified) : Prop where
  clean : result.outcome.isClean = true ↔ expected.admits false found = true
  below : result.equal = true ∧ result.outcome.isHarmless = true ↔ expected.admits true found = true

theorem compares_refuse (hbelow : ∀ below, expected.admits below found = false) :
    Compares expected found (s.refuse left right) where
  clean := by simp [refuse, mismatch, Outcome.isClean, hbelow]
  below := by simp [refuse, hbelow]

theorem Compares.constructed {head : TypeConstructor} {inner result : Unified}
    (h : Compares expected found inner)
    (hresult : result = if inner.equal then
        { inner.store.accept left right with outcome := inner.outcome.withoutMismatches }
      else { inner.store.refuse left right with
        outcome := inner.outcome.withoutMismatches ++ (inner.store.refuse left right).outcome }) :
    Compares (.constructed head expected) (.constructed head found) result := by
  have hadmits : ∀ below, (DataType.constructed head expected).admits below
      (.constructed head found) = expected.admits true found := fun below => by
    simp [DataType.admits]
  cases hequal : inner.equal with
  | true =>
    subst hresult
    refine ⟨?_, ?_⟩
    · rw [hadmits, ← h.below]
      simp [hequal, Outcome.isHarmless]
    · rw [hadmits, ← h.below]
      simp [hequal, accept, Outcome.isHarmless, Outcome.withoutMismatches]
  | false =>
    rw [hequal, if_neg Bool.false_ne_true] at hresult
    subst hresult
    refine ⟨?_, ?_⟩
    · rw [hadmits, ← h.below, Outcome.isClean_append_iff]
      simp [hequal, refuse, mismatch, Outcome.isClean]
    · rw [hadmits, ← h.below]
      simp [hequal, refuse]

theorem unifyMutability_fixed_store (first second : Bool) :
    (s.unifyMutability left right (.fixed first) (.fixed second)).2 = s := by
  cases first <;> cases second <;> rfl

theorem isClean_unifyMutability_fixed (first second : Bool) :
    (s.unifyMutability left right (.fixed first) (.fixed second)).1.isClean =
      decide (first = second) := by
  cases first <;> cases second <;> rfl

theorem isHarmless_unifyMutability_fixed (first second : Bool) :
    (s.unifyMutability left right (.fixed first) (.fixed second)).1.isHarmless =
      (decide (first = second) || !first) := by
  cases first <;> cases second <;> rfl

theorem Compares.reference {first second : Bool} {inner result : Unified}
    (h : Compares expected found inner) (hequal : result.equal = inner.equal)
    (houtcome : result.outcome =
      (s.unifyMutability left right (.fixed first) (.fixed second)).1 ++ inner.outcome) :
    Compares (.reference first expected) (.reference second found) result where
  clean := by
    rw [houtcome, Outcome.isClean_append_iff, h.clean, isClean_unifyMutability_fixed]
    simp [DataType.admits]
  below := by
    rw [hequal, houtcome, Outcome.isHarmless_append_iff, isHarmless_unifyMutability_fixed,
      DataType.admits, Bool.and_eq_true, ← h.below]
    simp
    tauto

theorem compares_accept (hbasic : type.isBasic = true) :
    Compares type type (s.accept left right) where
  clean := by simp [DataType.admits_of_isBasic hbasic, accept, Outcome.isClean]
  below := by
    simp [DataType.admits_of_isBasic hbasic, accept, Outcome.isHarmless, Outcome.isClean,
      Outcome.withoutMismatches]

theorem compares_of_clash (hapart : s.same left right = false)
    (hclash : Clash (s.probe left) (s.probe right))
    (hne : ∀ below, expected.admits below found ≠ true) (depth : Nat) :
    Compares expected found (unifyTo (depth + 1) s left right) := by
  have hrefuse : unifyTo (depth + 1) s left right = s.refuse left right := by
    rw [unifyTo, hapart, if_neg Bool.false_ne_true]
    cases hl : s.probe left <;> cases hr : s.probe right <;> simp_all [Clash]
  rw [hrefuse]
  exact compares_refuse fun below => Bool.eq_false_iff.mpr (hne below)

/-- Nothing changes in the store on the way down to the ends of the two types, so each pair of parts
is compared as it was written. -/
theorem Spells.compares (hl : s.Spells low mid expected left) (hr : s.Spells mid high found right)
    (hapart : ∀ left right, low ≤ left → left < mid → mid ≤ right →
      s.same left right = false) {depth : Nat} (hdepth : left < depth) :
    Compares expected found (unifyTo depth s left right) := by
  induction hl generalizing found right depth with
  | @literal type left hbasic hlow hhigh hp =>
    obtain ⟨depth, rfl⟩ := Nat.exists_eq_succ_of_ne_zero (Nat.ne_zero_of_lt hdepth)
    have hsame := hapart left right hlow hhigh hr.bounds.1
    cases hr with
    | literal hbasic' _ _ hp' =>
      by_cases heq : type = found
      · subst heq
        simp only [unifyTo, hsame, hp, hp', Bool.false_eq_true, ↓reduceIte]
        exact compares_accept hbasic
      · refine compares_of_clash hsame (by rw [hp, hp']; exact heq) ?_ depth
        exact fun below hadmits => heq ((DataType.admits_of_isBasic hbasic below).mp hadmits)
    | constructed _ _ hp' | reference _ _ hp' =>
      refine compares_of_clash hsame (by rw [hp, hp']; trivial) ?_ depth
      intro below hadmits
      cases (DataType.admits_of_isBasic hbasic below).mp hadmits
      cases hbasic
  | @constructed head type left argument hlow hhigh hp hlt _ ih =>
    obtain ⟨depth, rfl⟩ := Nat.exists_eq_succ_of_ne_zero (Nat.ne_zero_of_lt hdepth)
    have hsame := hapart left right hlow hhigh hr.bounds.1
    cases hr with
    | literal hbasic' _ _ hp' =>
      refine compares_of_clash hsame (by rw [hp, hp']; trivial) ?_ depth
      intro below hadmits
      cases (DataType.admits_of_isBasic_right hbasic' below).mp hadmits
      cases hbasic'
    | @constructed head' type' _ argument' _ _ hp' _ hr =>
      by_cases hhead : head = head'
      · subst hhead
        have hinner := ih hr (Nat.lt_of_lt_of_le hlt (Nat.le_of_lt_succ hdepth))
        simp only [unifyTo, hsame, hp, hp', Bool.false_eq_true, ↓reduceIte]
        exact hinner.constructed rfl
      · refine compares_of_clash hsame (by rw [hp, hp']; exact hhead) ?_ depth
        simp [DataType.admits, hhead]
    | reference _ _ hp' =>
      refine compares_of_clash hsame (by rw [hp, hp']; trivial) ?_ depth
      simp [DataType.admits]
  | @reference mutable type left underlying lifetime hlow hhigh hp hlt _ ih =>
    obtain ⟨depth, rfl⟩ := Nat.exists_eq_succ_of_ne_zero (Nat.ne_zero_of_lt hdepth)
    have hsame := hapart left right hlow hhigh hr.bounds.1
    cases hr with
    | literal hbasic' _ _ hp' =>
      refine compares_of_clash hsame (by rw [hp, hp']; trivial) ?_ depth
      intro below hadmits
      cases (DataType.admits_of_isBasic_right hbasic' below).mp hadmits
      cases hbasic'
    | constructed _ _ hp' =>
      refine compares_of_clash hsame (by rw [hp, hp']; trivial) ?_ depth
      simp [DataType.admits]
    | @reference mutable' type' _ underlying' lifetime' _ _ hp' _ hr =>
      have hinner := ih hr (Nat.lt_of_lt_of_le hlt (Nat.le_of_lt_succ hdepth))
      simp only [unifyTo, hsame, hp, hp', Bool.false_eq_true, ↓reduceIte,
        unifyMutability_fixed_store]
      exact hinner.reference rfl rfl

theorem same_eq_false_of_le (hle : s.size ≤ right) (hne : left ≠ right) :
    s.same left right = false := by
  rw [Bool.eq_false_iff]
  intro hsame
  by_cases hlt : left < s.size
  · exact absurd (lt_size_of_same hsame hlt) (Nat.not_lt.mpr hle)
  · have hlabels := (s.classes.same_iff).mp hsame
    rw [s.classes.label_of_le (Nat.le_of_not_lt hlt), s.classes.label_of_le hle] at hlabels
    exact hne hlabels

theorem same_size_add_iff {count : Nat} {first second : Fin count} :
    s.same (s.size + first.val) (s.size + second.val) = true ↔ first = second := by
  constructor
  · intro hsame
    by_contra hne
    rw [same_eq_false_of_le (Nat.le_add_right _ _)
      fun heq => hne (Fin.ext (Nat.add_left_cancel heq))] at hsame
    cases hsame
  · rintro rfl
    exact same_refl _ _

def unifyTypes (s : TermStore) (expected found : DataType) : Unified :=
  let (left, s) := s.newType expected
  let (right, s) := s.newType found
  s.unify left right

/-- Unifying the terms of two types reports nothing if and only if the types are equal, except that
below a constructor a mutable reference passes for an immutable one. -/
theorem isClean_unifyTypes_iff (store : TermStore) (hexpected : expected.isResolved = true)
    (hfound : found.isResolved = true) :
    ((store.unifyTypes expected found).outcome.isClean = true ↔
      expected.admits false found = true) ∧
      (expected.sharesInside false = false →
        ((store.unifyTypes expected found).outcome.isClean = true ↔ expected = found)) := by
  have hfirst := enlarges_newType store expected
  have hspells := spells_newType store hexpected
  unfold unifyTypes
  generalize store.newType expected = created at hfirst hspells
  obtain ⟨left, store'⟩ := created
  have hsecond := enlarges_newType store' found
  have hspells' := spells_newType store' hfound
  dsimp only at hfirst hspells ⊢
  generalize store'.newType found = created at hsecond hspells'
  obtain ⟨right, store''⟩ := created
  have hapart : ∀ first second, store.size ≤ first → first < store'.size →
      store'.size ≤ second → store''.same first second = false := by
    intro first second hlow hhigh hle
    rw [hsecond.same, hfirst.same]
    exact same_eq_false_of_le (Nat.le_trans hfirst.size_le hle)
      (Nat.ne_of_lt (Nat.lt_of_lt_of_le hhigh hle))
  have hdepth : left < store''.depth :=
    Nat.lt_succ_of_lt (Nat.lt_of_lt_of_le hspells.bounds.2 hsecond.size_le)
  have hcompares := (hspells.mono (Nat.le_refl _) hsecond.probe).compares hspells' hapart hdepth
  refine ⟨hcompares.clean, fun hplain => ?_⟩
  exact hcompares.clean.trans (DataType.admits_iff_eq hplain)

def referenceVector (mutable : Bool) : DataType := .constructed .vector (.reference mutable .int32)

theorem isClean_unifyTypes_iff_referenceVector :
    (referenceVector true).isResolved = true ∧ (referenceVector false).isResolved = true ∧
      (referenceVector true).sharesInside false = false ∧
        ((twoVectors.unifyTypes (referenceVector true) (referenceVector false)).outcome.isClean =
          true ↔ referenceVector true = referenceVector false) :=
  ⟨by decide, by decide, by decide,
    (isClean_unifyTypes_iff twoVectors (by decide) (by decide)).2 (by decide)⟩

/-- A vector of mutable references passes for one of immutable references. -/
theorem isClean_unifyTypes_referenceVector :
    Reachable {} ∧ (referenceVector false).isResolved = true ∧
      (referenceVector true).isResolved = true ∧
        (({} : TermStore).unifyTypes (referenceVector false) (referenceVector true)).outcome.isClean
            = true ∧
          referenceVector false ≠ referenceVector true := by
  refine ⟨.empty, ?_⟩
  decide

end TermStore

end BorrowFlow
