import BorrowFlow.Proofs.Classes
import BorrowFlow.Term.Unification

/-!
# Sorts of terms

A term stands for a type, for a lifetime or for a shared mutability. A store is well sorted if the
parts of every term have the sorts that their places call for. What a handle stands for after each
operation of the store is told here too.
-/

namespace BorrowFlow

variable {data : Term}

inductive TermSort where
  | type
  | lifetime
  | mutability
  deriving DecidableEq

namespace Term

def sort : Term → TermSort
  | unbound .. | literal _ | constructed .. | reference .. => .type
  | lifetime _ => .lifetime
  | mutability _ => .mutability

theorem sort_merge {left right : Term} (h : left.sort = right.sort) :
    (left.merge right).sort = left.sort := by
  cases left <;> cases right <;> simp_all [merge, sort]

end Term

namespace TermStore

variable {sort : TermSort} {s : TermStore} {term left right : TermId}

/-! ## What handles stand for -/

theorem same_refl (s : TermStore) (term : TermId) : s.same term term = true :=
  s.classes.same_refl term

section

variable (h : s.same left right = true)
include h

theorem same_symm : s.same right left = true :=
  s.classes.same_symm h

theorem same_trans {third : TermId} (h' : s.same right third = true) : s.same left third = true :=
  s.classes.same_trans h h'

theorem probe_of_same : s.probe left = s.probe right := by
  rw [probe, probe, s.classes.value?_of_same h]

theorem lt_size_of_same (hlt : left < s.size) : right < s.size :=
  s.classes.lt_size_of_same h hlt

end

theorem probe_of_le (h : s.size ≤ term) : s.probe term = .literal .unresolved := by
  have hnone : s.classes.value? term = none := by
    rw [← Option.not_isSome_iff_eq_none, s.classes.value?_isSome]
    exact Nat.not_lt.mpr h
  simp [probe, hnone]

theorem lt_size_of_probe_ne (h : s.probe term ≠ .literal .unresolved) : term < s.size :=
  Nat.lt_of_not_le fun hle => h (probe_of_le hle)

theorem lt_size_of_probe (h : s.probe term = data)
    (hne : data ≠ .literal .unresolved := by simp) : term < s.size :=
  lt_size_of_probe_ne (h ▸ hne)

theorem value?_eq_probe (h : term < s.size) : s.classes.value? term = some (s.probe term) := by
  obtain ⟨value, hvalue⟩ := s.classes.exists_value? h
  simp [probe, hvalue]

@[simp] theorem size_push (s : TermStore) (data : Term) : (s.push data).2.size = s.size + 1 := by
  simp [push, size]

@[simp] theorem same_push (s : TermStore) (data : Term) (left right : TermId) :
    (s.push data).2.same left right = s.same left right := by
  simp [push, same]

theorem probe_push (s : TermStore) (data : Term) (term : TermId) :
    (s.push data).2.probe term = if term = s.size then data else s.probe term := by
  simp only [push, probe, Classes.value?_push, size]
  split <;> simp [*]

@[simp] theorem size_absorb (s : TermStore) (term : TermId) (other : Term) :
    (s.absorb term other).size = s.size := rfl

@[simp] theorem same_absorb (s : TermStore) (term : TermId) (other : Term)
    (left right : TermId) : (s.absorb term other).same left right = s.same left right := rfl

theorem probe_absorb (hlt : term < s.size) (other : Term) (key : TermId) :
    (s.absorb term other).probe key =
      if s.same term key = true then (s.probe term).merge other else s.probe key := by
  simp only [absorb, probe, Classes.value?_modify]
  by_cases h : s.classes.same term key = true
  · have hkey : key < s.size := lt_size_of_same h hlt
    rw [if_pos h, if_pos (show s.same term key = true from h), value?_eq_probe hkey,
      value?_eq_probe hlt, probe_of_same (show s.same term key = true from h)]
    rfl
  · rw [if_neg h, if_neg (show ¬s.same term key = true from h)]

@[simp] theorem size_union (s : TermStore) (left right : TermId) :
    (s.union left right).size = s.size := by
  simp [union, size]

theorem union_of_same (h : s.same left right = true) : s.union left right = s := by
  simp [union, s.classes.union_of_same (show s.classes.same left right = true from h)]

theorem same_union (hl : left < s.size) (hr : right < s.size) (first second : TermId) :
    (s.union left right).same first second = true ↔ s.same first second = true ∨
        ((s.same first left = true ∨ s.same first right = true) ∧
          (s.same second left = true ∨ s.same second right = true)) :=
  Classes.same_union hl hr first second

theorem probe_union (hl : left < s.size) (hr : right < s.size)
    (hapart : s.same left right = false) (key : TermId) :
    (s.union left right).probe key =
      if s.same key left = true ∨ s.same key right = true then
        (s.probe left).merge (s.probe right)
      else s.probe key := by
  simp only [union, probe, Classes.value?_union (value?_eq_probe hl) (value?_eq_probe hr) hapart,
    same]
  split <;> simp [*]

/-! ## Sorts -/

/-- The handle was created, and stands for a term of the given sort. -/
def HasSort (s : TermStore) (term : TermId) (sort : TermSort) : Prop :=
  term < s.size ∧ (s.probe term).sort = sort

def MutabilityFits (s : TermStore) : Mutability → Prop
  | .fixed _ => True
  | .shared term => s.HasSort term .mutability

def PartsFit (s : TermStore) : Term → Prop
  | .constructed _ argument => s.HasSort argument .type
  | .reference mutability underlying lifetime =>
    s.MutabilityFits mutability ∧ s.HasSort underlying .type ∧ s.HasSort lifetime .lifetime
  | _ => True

/-- Every constructor argument and every underlying handle is a type, every lifetime of a reference
a lifetime, and every shared mutability of a reference a mutability. -/
def WellSorted (s : TermStore) : Prop :=
  ∀ term, s.PartsFit (s.probe term)

theorem HasSort.of_same (h : s.HasSort left sort)
    (hsame : s.same left right = true) : s.HasSort right sort :=
  ⟨lt_size_of_same hsame h.1, by rw [← probe_of_same hsame, h.2]⟩

theorem hasSort_of_probe (h : s.probe term = data)
    (hne : data ≠ .literal .unresolved := by simp) (hsort : data.sort = sort := by rfl) :
    s.HasSort term sort :=
  ⟨lt_size_of_probe h hne, h ▸ hsort⟩

section Preservation

variable {s' : TermStore} (hsort : ∀ term sort, s.HasSort term sort → s'.HasSort term sort)

include hsort

theorem MutabilityFits.mono {mutability : Mutability} (h : s.MutabilityFits mutability) :
    s'.MutabilityFits mutability := by
  cases mutability with
  | fixed mutable => trivial
  | shared term => exact hsort term _ h

theorem PartsFit.mono (h : s.PartsFit data) : s'.PartsFit data := by
  cases data with
  | constructed head argument => exact hsort argument _ h
  | reference mutability underlying lifetime =>
    exact ⟨h.1.mono hsort, hsort _ _ h.2.1, hsort _ _ h.2.2⟩
  | _ => trivial

end Preservation

theorem hasSort_push (data : Term) (h : s.HasSort term sort) :
    (s.push data).2.HasSort term sort := by
  refine ⟨by rw [size_push]; exact Nat.lt_succ_of_lt h.1, ?_⟩
  rw [probe_push, if_neg (Nat.ne_of_lt h.1)]
  exact h.2

theorem hasSort_push_self (s : TermStore) (data : Term) :
    (s.push data).2.HasSort (s.push data).1 data.sort := by
  refine ⟨by simp [push, size], ?_⟩
  rw [probe_push, if_pos (show (s.push data).1 = s.size from rfl)]

theorem WellSorted.push (h : s.WellSorted) (hd : s.PartsFit data) : (s.push data).2.WellSorted := by
  intro term
  rw [probe_push]
  split
  · exact hd.mono fun _ _ => hasSort_push data
  · exact (h term).mono fun _ _ => hasSort_push data

theorem hasSort_absorb {other : Term} {key : TermId}
    (ho : s.HasSort term other.sort) (h : s.HasSort key sort) :
    (s.absorb term other).HasSort key sort := by
  refine ⟨h.1, ?_⟩
  rw [probe_absorb ho.1]
  split
  · rename_i hsame
    rw [Term.sort_merge ho.2, probe_of_same hsame]
    exact h.2
  · exact h.2

theorem hasSort_union {key : TermId} {sort' : TermSort} (hl : s.HasSort left sort)
    (hr : s.HasSort right sort) (h : s.HasSort key sort') :
    (s.union left right).HasSort key sort' := by
  cases hsame : s.same left right with
  | true => rwa [union_of_same hsame]
  | false =>
    refine ⟨by rw [size_union]; exact h.1, ?_⟩
    rw [probe_union hl.1 hr.1 hsame]
    split
    · rename_i hkey
      rw [Term.sort_merge (hl.2.trans hr.2.symm)]
      rcases hkey with hkey | hkey
      · rw [← probe_of_same hkey]
        exact h.2
      · rw [hl.2, ← hr.2, ← probe_of_same hkey]
        exact h.2
    · exact h.2

theorem PartsFit.merge {first second : Term} (hfirst : s.PartsFit first)
    (hsecond : s.PartsFit second) : s.PartsFit (first.merge second) := by
  cases first <;> cases second <;> assumption

theorem WellSorted.absorb (h : s.WellSorted) {other : Term}
    (ho : s.HasSort term other.sort) (hparts : s.PartsFit other) :
    (s.absorb term other).WellSorted := by
  intro key
  rw [probe_absorb ho.1]
  split
  · exact ((h term).merge hparts).mono fun _ _ => hasSort_absorb ho
  · exact (h key).mono fun _ _ => hasSort_absorb ho

theorem WellSorted.union (h : s.WellSorted) (hl : s.HasSort left sort) (hr : s.HasSort right sort) :
    (s.union left right).WellSorted := by
  intro key
  cases hsame : s.same left right with
  | true =>
    rw [union_of_same hsame]
    exact h key
  | false =>
    rw [probe_union hl.1 hr.1 hsame]
    split
    · exact ((h left).merge (h right)).mono fun _ _ => hasSort_union hl hr
    · exact (h key).mono fun _ _ => hasSort_union hl hr

end TermStore

end BorrowFlow
