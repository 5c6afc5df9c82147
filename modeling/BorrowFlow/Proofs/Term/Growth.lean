import BorrowFlow.Proofs.Term.Sorts

/-!
# What a store can come to know

Terms are never forgotten: an unbound term may become known, an open lifetime may be resolved and a
mutability may be restricted, but everything else stays what it is. The one exception is the
argument of a constructor, which may be replaced by an argument that is like it.
-/

namespace BorrowFlow

variable {agree : Mutability → Mutability → Prop} {s s' : TermStore} {left right : TermId}

namespace TermStore

/-- Two handles stand for one type. Either they are in one class, or both are references, of
mutabilities that agree, to types that are alike. References are never put into one class, so this
is as much as unification can establish. -/
inductive Alike (agree : Mutability → Mutability → Prop) (s : TermStore) :
    TermId → TermId → Prop
  | same {left right : TermId} (h : s.same left right = true) : Alike agree s left right
  | reference {left right : TermId} {first second : Mutability}
      {underlying underlying' lifetime lifetime' : TermId}
      (hleft : s.probe left = .reference first underlying lifetime)
      (hright : s.probe right = .reference second underlying' lifetime')
      (hagree : agree first second) (h : Alike agree s underlying underlying') :
      Alike agree s left right

abbrev AlikeShape (s : TermStore) : TermId → TermId → Prop :=
  s.Alike fun _ _ => True

namespace Alike

variable {third : TermId}

theorem refl (term : TermId) : s.Alike agree term term :=
  .same (s.same_refl term)

theorem symm (hagree : ∀ first second, agree first second → agree second first)
    (h : s.Alike agree left right) : s.Alike agree right left := by
  induction h with
  | same h => exact .same (same_symm h)
  | reference hl hr hmutability _ ih =>
    exact .reference hr hl (hagree _ _ hmutability) ih

theorem of_same_left (hsame : s.same left right = true) (h : s.Alike agree right third) :
    s.Alike agree left third := by
  cases h with
  | same h => exact .same (same_trans hsame h)
  | reference hr hthird hmutability h =>
    exact .reference ((probe_of_same hsame).trans hr) hthird hmutability h

theorem trans (hagree : ∀ first second third, agree first second → agree second third →
    agree first third) (h : s.Alike agree left right) (h' : s.Alike agree right third) :
    s.Alike agree left third := by
  induction h generalizing third with
  | same h => exact of_same_left h h'
  | reference hl hr hmutability h ih =>
    cases h' with
    | same hsame =>
      exact .reference hl ((probe_of_same hsame).symm.trans hr) hmutability h
    | reference hr' hthird hmutability' h' =>
      rw [hr] at hr'
      cases hr'
      exact .reference hl hthird (hagree _ _ _ hmutability hmutability') (ih h')

theorem weaken {agree' : Mutability → Mutability → Prop} (h : s.Alike agree left right)
    (hagree : ∀ first second, agree first second → agree' first second) :
    s.Alike agree' left right := by
  induction h with
  | same h => exact .same h
  | reference hl hr hmutability _ ih =>
    exact .reference hl hr (hagree _ _ hmutability) ih

/-- Alike terms stay alike if classes are only ever merged and references stay what they are. -/
theorem mono (hsame : ∀ first second, s.same first second = true → s'.same first second = true)
    (hreference : ∀ term mutability underlying lifetime,
      s.probe term = .reference mutability underlying lifetime →
        s'.probe term = .reference mutability underlying lifetime)
    (h : s.Alike agree left right) : s'.Alike agree left right := by
  induction h with
  | same h => exact .same (hsame _ _ h)
  | reference hl hr hmutability _ ih =>
    exact .reference (hreference _ _ _ _ hl) (hreference _ _ _ _ hr) hmutability ih

end Alike

theorem AlikeShape.symm (h : s.AlikeShape left right) : s.AlikeShape right left :=
  Alike.symm (fun _ _ _ => trivial) h

theorem AlikeShape.trans {third : TermId} (h : s.AlikeShape left right)
    (h' : s.AlikeShape right third) : s.AlikeShape left third :=
  Alike.trans (fun _ _ _ _ _ => trivial) h h'

end TermStore

/-- What may become of a term. Arguments of constructors only have to stay alike. -/
def Term.Grows (alike : TermId → TermId → Prop) : Term → Term → Prop
  | .unbound .., after => after.sort = .type
  | before@(.literal _), after => after = before
  | .constructed head argument, after =>
    ∃ argument', after = .constructed head argument' ∧ alike argument argument'
  | before@(.reference ..), after => after = before
  | .lifetime value, after =>
    ∃ value', after = .lifetime value' ∧ ∀ known, value = some known → value' = some known
  | .mutability value, after =>
    ∃ value', after = .mutability value' ∧
      ∀ known, value = some known → ∃ known', value' = some known' ∧ (known' = true → known = true)

namespace Term

variable {alike alike' : TermId → TermId → Prop} {first second third : Term}

theorem Grows.refl (hrefl : ∀ term, alike term term) (data : Term) : data.Grows alike data := by
  cases data with
  | unbound id constraints => rfl
  | literal type => rfl
  | constructed head argument => exact ⟨argument, rfl, hrefl argument⟩
  | reference mutability underlying lifetime => rfl
  | lifetime value => exact ⟨value, rfl, fun _ h => h⟩
  | mutability value => exact ⟨value, rfl, fun known h => ⟨known, h, id⟩⟩

theorem Grows.sort_eq (h : first.Grows alike second) : second.sort = first.sort := by
  cases first with
  | unbound id constraints => exact h
  | literal type =>
    rw [show second = _ from h]
  | constructed head argument =>
    obtain ⟨argument', rfl, -⟩ := h
    rfl
  | reference mutability underlying lifetime =>
    rw [show second = _ from h]
  | lifetime value =>
    obtain ⟨value', rfl, -⟩ := h
    rfl
  | mutability value =>
    obtain ⟨value', rfl, -⟩ := h
    rfl

theorem Grows.trans (hmono : ∀ left right, alike left right → alike' left right)
    (htrans : ∀ left right other, alike' left right → alike' right other → alike' left other)
    (h : first.Grows alike second) (h' : second.Grows alike' third) :
    first.Grows alike' third := by
  cases first with
  | unbound id constraints => exact h'.sort_eq.trans h
  | literal type =>
    cases (show second = _ from h)
    exact h'
  | constructed head argument =>
    obtain ⟨middle, rfl, hmiddle⟩ := h
    obtain ⟨last, rfl, hlast⟩ := h'
    exact ⟨last, rfl, htrans _ _ _ (hmono _ _ hmiddle) hlast⟩
  | reference mutability underlying lifetime =>
    cases (show second = _ from h)
    exact h'
  | lifetime value =>
    obtain ⟨middle, rfl, hmiddle⟩ := h
    obtain ⟨last, rfl, hlast⟩ := h'
    exact ⟨last, rfl, fun known hknown => hlast known (hmiddle known hknown)⟩
  | mutability value =>
    obtain ⟨middle, rfl, hmiddle⟩ := h
    obtain ⟨last, rfl, hlast⟩ := h'
    refine ⟨last, rfl, fun known hknown => ?_⟩
    obtain ⟨known', hknown', himp⟩ := hmiddle known hknown
    obtain ⟨known'', hknown'', himp'⟩ := hlast known' hknown'
    exact ⟨known'', hknown'', himp ∘ himp'⟩

end Term

namespace TermStore

/-- The second store knows everything that the first one does: no class was split, and every term
only grew. -/
structure Extends (s s' : TermStore) : Prop where
  size_le : s.size ≤ s'.size
  same : ∀ left right, s.same left right = true → s'.same left right = true
  grows : ∀ term, term < s.size → (s.probe term).Grows s'.AlikeShape (s'.probe term)

namespace Extends

variable {s'' : TermStore} {term : TermId}

theorem refl (s : TermStore) : s.Extends s where
  size_le := Nat.le_refl _
  same _ _ h := h
  grows _ _ := Term.Grows.refl Alike.refl _

section

variable (h : s.Extends s')
include h

theorem reference {mutability : Mutability} {underlying lifetime : TermId}
    (hp : s.probe term = .reference mutability underlying lifetime) :
    s'.probe term = .reference mutability underlying lifetime := by
  have hg := h.grows term (lt_size_of_probe hp)
  rw [hp] at hg
  exact hg

theorem constructed {head : TypeConstructor} {argument : TermId}
    (hp : s.probe term = .constructed head argument) :
    ∃ argument', s'.probe term = .constructed head argument' ∧
      s'.AlikeShape argument argument' := by
  have hg := h.grows term (lt_size_of_probe hp)
  rw [hp] at hg
  exact hg

theorem literal {type : DataType} (hlt : term < s.size)
    (hp : s.probe term = .literal type) : s'.probe term = .literal type := by
  have hg := h.grows term hlt
  rw [hp] at hg
  exact hg

theorem hasSort {sort : TermSort} (hsort : s.HasSort term sort) : s'.HasSort term sort :=
  ⟨Nat.lt_of_lt_of_le hsort.1 h.size_le, (h.grows term hsort.1).sort_eq.trans hsort.2⟩

theorem alike (halike : s.Alike agree left right) : s'.Alike agree left right :=
  halike.mono h.same fun _ _ _ _ => h.reference

theorem trans (h' : s'.Extends s'') : s.Extends s'' where
  size_le := Nat.le_trans h.size_le h'.size_le
  same _ _ hsame := h'.same _ _ (h.same _ _ hsame)
  grows term hlt :=
    (h.grows term hlt).trans (fun _ _ => h'.alike) (fun _ _ _ => AlikeShape.trans)
      (h'.grows term (Nat.lt_of_lt_of_le hlt h.size_le))

end

end Extends

theorem extends_push (s : TermStore) (data : Term) : s.Extends (s.push data).2 where
  size_le := by simp
  same _ _ h := by rwa [same_push]
  grows term hlt := by
    rw [probe_push, if_neg (Nat.ne_of_lt hlt)]
    exact Term.Grows.refl Alike.refl _

end TermStore

end BorrowFlow
