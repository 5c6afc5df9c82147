import BorrowFlow.Message.Diagnostic
import BorrowFlow.Proofs.Term.Checking
import BorrowFlow.Proofs.Term.Failure

/-!
# Mismatches name two types

A mismatch is reported with two types, and they are never the same one. What a store reads its terms
as is a solution of its equations, and unification succeeds wherever a solution makes the two types
equal; so types that it refuses are read as different ones, and stay different whatever their
mutabilities have become on the way. The texts of different types are different, too: no text of a
type is the beginning of another one.
-/

namespace BorrowFlow

variable {result : Unified} {first second : DataType}

/-! ## Texts -/

theorem TypeConstructor.name_append_inj {head head' : TypeConstructor} {rest rest' : List Char}
    (h : head.name.toList ++ '<' :: rest = head'.name.toList ++ '<' :: rest') :
    head = head' ∧ rest = rest' := by
  cases head <;> cases head' <;> simp_all [name]

namespace DataType

theorem toList_text_constructed (head : TypeConstructor) (argument : DataType) :
    (constructed head argument).text.toList =
      head.name.toList ++ '<' :: (argument.text.toList ++ ['>']) := by
  simp [text]

/-- No text begins with an `m`, so what follows the sign of a reference tells whether the reference
is a mutable one. -/
theorem text_append_ne_cons_m (type : DataType) (rest rest' : List Char) :
    type.text.toList ++ rest ≠ 'm' :: rest' := by
  cases type with
  | constructed head argument => cases head <;> simp [text, TypeConstructor.name]
  | reference mutable referent => cases mutable <;> simp [text]
  | _ => simp [text]

/-- Where the text of a type ends is seen from the text, whatever follows it. -/
theorem text_append_inj {rest rest' : List Char}
    (h : first.text.toList ++ rest = second.text.toList ++ rest') :
    first = second ∧ rest = rest' := by
  induction first generalizing second rest rest' with
  | constructed head argument ih =>
    cases second with
    | constructed head' argument' =>
      simp only [toList_text_constructed, List.append_assoc, List.cons_append] at h
      obtain ⟨rfl, hargument⟩ := TypeConstructor.name_append_inj h
      obtain ⟨rfl, hrest⟩ := ih hargument
      exact ⟨rfl, (List.cons.inj hrest).2⟩
    | reference mutable referent =>
      cases head <;> cases mutable <;> simp [text, TypeConstructor.name] at h
    | _ => cases head <;> simp [text, TypeConstructor.name] at h
  | reference mutable referent ih =>
    cases second with
    | constructed head argument =>
      cases head <;> cases mutable <;> simp [text, TypeConstructor.name] at h
    | reference mutable' referent' =>
      have hsame : mutable = mutable' := by
        cases mutable <;> cases mutable' <;> simp [text] at h ⊢
        · exact text_append_ne_cons_m _ _ _ h
        · exact text_append_ne_cons_m _ _ _ h.symm
      subst hsame
      have hreferent : referent.text.toList ++ rest = referent'.text.toList ++ rest' := by
        cases mutable <;> simpa [text] using h
      obtain ⟨rfl, hrest⟩ := ih hreferent
      exact ⟨rfl, hrest⟩
    | _ => cases mutable <;> simp [text] at h
  | _ =>
    cases second with
    | constructed head argument => cases head <;> simp [text, TypeConstructor.name] at h
    | reference mutable referent => cases mutable <;> simp [text] at h
    | _ => simp_all [text]

theorem text_inj (h : first.text = second.text) : first = second := by
  have htexts : first.text.toList ++ [] = second.text.toList ++ [] := by rw [h]
  exact (text_append_inj htexts).1

end DataType

/-! ## What a store reads is a solution -/

namespace TermStore

variable {s s' store : TermStore} {term left right : TermId} {constraints : List Constraint}

theorem Sound.solves_render (hs : s.Sound) (hplain : s.Plain) :
    s.Solves fun term => (s.render term).shape where
  same left right _ hsame := by
    rw [Agree.render_eq (.same hsame)]
  literal term type hlt hp := by
    have hbasic := hplain term hlt
    rw [hp] at hbasic
    rw [hs.render_literal hp, DataType.shape_of_isBasic hbasic]
  constructed term head argument hp := by
    rw [hs.render_constructed hp, DataType.shape]
  reference term mutability underlying lifetime hp := by
    rw [hs.render_reference hp, DataType.shape]

/-- Types that unification refuses are read as different ones afterwards: reading them alike would
be a solution that makes them equal. -/
theorem Unifies.render_ne (h : Unifies s left right result) (hs : s.Sound) (hplain : s.Plain)
    (hl : s.HasSort left .type) (hr : s.HasSort right .type) (hrefused : result.equal = false) :
    result.store.render left ≠ result.store.render right := by
  intro heq
  have hsteps := h.steps hs.wellSorted hl hr
  have hread := (hs.of_steps hsteps).solves_render (hplain.steps hsteps)
  have hequal := (h.complete hs.wellSorted hl hr (hsteps.solves hs.wellSorted hread)
    (congrArg DataType.shape heq)).1
  rw [hrefused] at hequal
  cases hequal

/-! ## Reports -/

theorem Refuses.mismatches_eq (h : s.Refuses left right result) (hs : s.Sound) :
    result.outcome.mismatches = [(result.store.render left, result.store.render right)] := by
  obtain ⟨_, _, hl, hr, rfl⟩ := h
  rw [hs.render_eq hl, hs.render_eq hr]

/-- Mutabilities are reported as a mismatch only if both are fixed, and then the two references are
read differently. -/
theorem ne_of_mem_mismatches_unifyMutability (hs : s.Sound) {mutability mutability' : Mutability}
    {underlying underlying' lifetime lifetime' : TermId}
    (hl : s.probe left = .reference mutability underlying lifetime)
    (hr : s.probe right = .reference mutability' underlying' lifetime') :
    ∀ pair ∈ (s.unifyMutability left right mutability mutability').1.mismatches,
      pair.1 ≠ pair.2 := by
  intro pair hpair
  rcases mutability with (_ | _) | _ <;> rcases mutability' with (_ | _) | _ <;>
    simp only [unifyMutability, mismatch, List.not_mem_nil, List.mem_singleton] at hpair
  rw [hpair, hs.render_reference hl, hs.render_reference hr]
  simp [isMutable]

theorem ChecksAll.mismatches_eq {outcome : Outcome} {answer : Outcome × TermStore}
    (h : ChecksAll term s outcome constraints answer) :
    answer.1.mismatches = outcome.mismatches := by
  induction h with
  | nil => rfl
  | cons _ _ ih =>
    rw [ih]
    split
    · rfl
    · unfold Outcome.addFailed
      split <;> rfl

/-- If what is reported about two types that are refused is how they are read afterwards, then it is
two different types. -/
theorem Unifies.ne_of_mismatches_eq (h : Unifies s left right result) (hs : s.Sound)
    (hplain : s.Plain) (hl : s.HasSort left .type) (hr : s.HasSort right .type)
    (hequal : result.equal = false) (hreported : result.outcome.mismatches =
      [(result.store.render left, result.store.render right)]) :
    ∀ pair ∈ result.outcome.mismatches, pair.1 ≠ pair.2 := by
  intro pair hpair
  rw [hreported, List.mem_singleton] at hpair
  rw [hpair]
  exact h.render_ne hs hplain hl hr hequal

theorem Unifies.ne_of_mem_mismatches (h : Unifies s left right result) :
    s.Sound → s.Plain → s.HasSort left .type → s.HasSort right .type →
      ∀ pair ∈ result.outcome.mismatches, pair.1 ≠ pair.2 := by
  induction h with
  | same | literals | constructors | lifetimes | mutabilities | unbounds =>
    exact fun _ _ _ _ _ => nofun
  | argumentsApart hapart hl hr h hequal hrefused =>
    intro hs hplain hsort hsort'
    -- the arguments were reported as well, but that report is dropped
    have hs' := hs.of_steps (h.steps hs.wellSorted (hs.wellSorted.hasSort_argument hl)
      (hs.wellSorted.hasSort_argument hr))
    exact (Unifies.argumentsApart hapart hl hr h hequal hrefused).ne_of_mismatches_eq hs hplain
      hsort hsort' hrefused.store_eq.2 (hrefused.mismatches_eq hs')
  | references _ hl hr _ _ ih =>
    intro hs hplain _ _ pair hpair
    obtain ⟨hquiet, -, hfirst, hsecond⟩ := hs.wellSorted.descend hl hr
    rcases List.mem_append.mp hpair with hpair | hpair
    · exact ne_of_mem_mismatches_unifyMutability hs hl hr pair hpair
    · exact ih (hs.of_steps hquiet.steps) (hplain.steps hquiet.steps) hfirst.1 hsecond.1 pair hpair
  | bindLeft hapart hl hr h =>
    intro hs hplain hsort hsort'
    cases h with
    | infinite hf hrefuses =>
      exact (Unifies.bindLeft hapart hl hr (.infinite hf hrefuses)).ne_of_mismatches_eq hs hplain
        hsort hsort' hrefuses.store_eq.2 (hrefuses.mismatches_eq hs)
    | bound _ hchecks =>
      rw [hchecks.mismatches_eq]
      nofun
  | bindRight hapart hl hr h =>
    intro hs hplain hsort hsort'
    cases h with
    | infinite hf hrefuses =>
      exact (Unifies.bindRight hapart hl hr (.infinite hf hrefuses)).ne_of_mismatches_eq hs hplain
        hsort hsort' hrefuses.store_eq.2 (hrefuses.mismatches_eq hs)
    | bound _ hchecks =>
      rw [hchecks.mismatches_eq]
      nofun
  | clash hapart hclash hrefuses =>
    intro hs hplain hsort hsort'
    exact (Unifies.clash hapart hclash hrefuses).ne_of_mismatches_eq hs hplain hsort hsort'
      hrefuses.store_eq.2 (hrefuses.mismatches_eq hs)

/-- After any run of operations, whichever two types are unified: every mismatch that is reported
names two different types, different types have different texts, and so the message of a mismatch
shows two texts that differ. -/
theorem Reachable.mismatches_differ (h : Reachable store) (hleft : store.HasSort left .type)
    (hright : store.HasSort right .type) :
    (∀ expected found, (expected, found) ∈ (store.unify left right).outcome.mismatches →
        expected ≠ found) ∧
      (∀ first second : DataType, first ≠ second → first.text ≠ second.text) ∧
      ∀ expected found,
        .typeMismatch expected found ∈ (store.unify left right).outcome.diagnostics →
          (Diagnostic.typeMismatch expected found).message =
              "Expected a value of type '" ++ expected.text ++ "' but found '" ++ found.text ++
                "'" ∧
            expected.text ≠ found.text := by
  have htexts : ∀ first second : DataType, first ≠ second → first.text ≠ second.text :=
    fun _ _ hne heq => hne (DataType.text_inj heq)
  have hpairs : ∀ expected found,
      (expected, found) ∈ (store.unify left right).outcome.mismatches → expected ≠ found := by
    intro expected found hpair
    exact (unifies_unify h.sound.wellSorted h.sound.solvable hleft hright).ne_of_mem_mismatches
      h.sound h.plain hleft hright (expected, found) hpair
  refine ⟨hpairs, htexts, fun expected found hreported => ⟨rfl, htexts _ _ ?_⟩⟩
  apply hpairs
  simpa [Outcome.diagnostics] using hreported

/-- The two references of `apartReferences`, each of them in a vector. -/
def apartVectors : TermStore :=
  apartReferences.after [.newConstructed .vector 3, .newConstructed .vector 6]

theorem reachable_apartVectors : Reachable apartVectors := by
  have hfirst := reachable_apartReferences.step (.newConstructed .vector 3)
    (show HasSort _ 3 .type by decide)
  exact hfirst.step (.newConstructed .vector 6) (show HasSort _ 6 .type by decide)

/-- The first reference is shown as a mutable one, which it has become on the way to the
mismatch. -/
theorem mismatches_differ_apartVectors :
    let expected := DataType.constructed .vector (.reference true .int32)
    let found := DataType.constructed .vector (.reference true .string)
    apartVectors.HasSort 7 .type ∧ apartVectors.HasSort 8 .type ∧
      apartVectors.render 7 = .constructed .vector (.reference false .int32) ∧
      (apartVectors.unify 7 8).outcome.mismatches = [(expected, found)] ∧
      expected ≠ found ∧ expected.text ≠ found.text := by
  intro expected found
  have hreported : (apartVectors.unify 7 8).outcome.mismatches = [(expected, found)] := by
    decide +kernel
  obtain ⟨hpairs, htexts, -⟩ := reachable_apartVectors.mismatches_differ
    (show apartVectors.HasSort 7 .type by decide +kernel)
    (show apartVectors.HasSort 8 .type by decide +kernel)
  have hne := hpairs expected found (hreported ▸ List.mem_singleton_self _)
  exact ⟨by decide +kernel, by decide +kernel, by decide +kernel, hreported, hne,
    htexts _ _ hne⟩

end TermStore

end BorrowFlow
