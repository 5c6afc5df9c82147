import BorrowFlow.Data.Classes

/-!
# Classes seen from outside

What a key's class and its value are after each operation. Nothing that follows looks at labels
again: two keys are in one class or they are not, and a class has a value.
-/

namespace BorrowFlow

variable {left right : Nat}

namespace Classes

variable {α : Type} {combine : α → α → α} (classes : Classes α)

theorem same_iff : classes.same left right = true ↔ classes.label left = classes.label right := by
  simp [same]

theorem same_refl (key : Nat) : classes.same key key = true :=
  (classes.same_iff).mpr rfl

theorem same_symm (h : classes.same left right = true) : classes.same right left = true :=
  (classes.same_iff).mpr ((classes.same_iff).mp h).symm

theorem same_trans {first second third : Nat} (h : classes.same first second = true)
    (h' : classes.same second third = true) : classes.same first third = true :=
  (classes.same_iff).mpr (((classes.same_iff).mp h).trans ((classes.same_iff).mp h'))

theorem value?_of_same (h : classes.same left right = true) :
    classes.value? left = classes.value? right := by
  rw [value?, value?, (classes.same_iff).mp h]

theorem label_of_le {key : Nat} (h : classes.size ≤ key) : classes.label key = key := by
  simp [label, Array.getElem?_eq_none h]

theorem lt_size_of_same (h : classes.same left right = true) (hlt : left < classes.size) :
    right < classes.size := by
  rw [← classes.label_lt_iff, ← (classes.same_iff).mp h]
  exact (classes.label_lt_iff left).mpr hlt

theorem exists_value? {key : Nat} (h : key < classes.size) :
    ∃ value, classes.value? key = some value :=
  Option.isSome_iff_exists.mp ((classes.value?_isSome key).mpr h)

/-! ## A new key -/

@[simp] theorem size_push (value : α) : (classes.push value).size = classes.size + 1 := by
  simp [size, push]

@[simp] theorem label_push (value : α) (key : Nat) :
    (classes.push value).label key = classes.label key := by
  unfold label push
  rw [Array.getElem?_push]
  split
  · rename_i h
    simp [h, size]
  · rfl

@[simp] theorem same_push (value : α) (left right : Nat) :
    (classes.push value).same left right = classes.same left right := by
  simp [same]

theorem value?_push (value : α) (key : Nat) : (classes.push value).value? key =
      if key = classes.size then some value else classes.value? key := by
  rw [value?, label_push]
  have hsize : classes.values.size = classes.size := classes.size_eq.symm
  by_cases h : key = classes.size
  · subst h
    rw [classes.label_of_le (Nat.le_refl _)]
    simp [push, ← hsize]
  · have hlabel : classes.label key ≠ classes.values.size := by
      rcases Nat.lt_or_ge key classes.size with hlt | hge
      · exact Nat.ne_of_lt (hsize ▸ (classes.label_lt_iff key).mpr hlt)
      · rw [classes.label_of_le hge, hsize]
        exact h
    simp [push, Array.getElem?_push, hlabel, h, value?]

/-! ## A changed value -/

@[simp] theorem label_modify (key : Nat) (change : α → α) (other : Nat) :
    (classes.modify key change).label other = classes.label other := rfl

theorem value?_modify (key : Nat) (change : α → α) (other : Nat) :
    (classes.modify key change).value? other =
      if classes.same key other then (classes.value? other).map change
      else classes.value? other := by
  rw [value?, label_modify]
  simp only [modify, Array.getElem?_modify, same_iff, value?]

theorem value?_mapValues (change : α → α) (key : Nat) :
    (classes.mapValues change).value? key = (classes.value? key).map change := by
  simp [value?, mapValues, label]

/-! ## Two classes made one -/

theorem size_relabel (left right : Nat) (value : α) (h : left < classes.values.size) :
    (classes.relabel left right value h).size = classes.size := by
  simp [size, relabel]

theorem label_relabel {value : α} (h : left < classes.values.size) (hr : right < classes.size)
    (key : Nat) :
    (classes.relabel left right value h).label key =
      if classes.label key = right then left else classes.label key := by
  unfold label relabel
  rcases Nat.lt_or_ge key classes.labels.size with hlt | hge
  · simp [Array.getElem?_eq_getElem hlt]
  · have hne : key ≠ right := Nat.ne_of_gt (Nat.lt_of_lt_of_le hr hge)
    simp [Array.getElem?_eq_none hge, hne]

theorem union_eq_relabel (combine : α → α → α) {first second : α}
    (hfirst : classes.value? left = some first) (hsecond : classes.value? right = some second)
    (hapart : classes.same left right = false) :
    ∃ h, classes.union combine left right =
      classes.relabel (classes.label left) (classes.label right) (combine first second) h := by
  have hlt : classes.label left < classes.values.size := by
    apply Nat.lt_of_not_le
    intro hge
    simp [value?, Array.getElem?_eq_none hge] at hfirst
  have hget : classes.values[classes.label left] = first := by
    simpa [value?, Array.getElem?_eq_getElem hlt] using hfirst
  refine ⟨hlt, ?_⟩
  simp [union, hapart, hlt, hsecond, hget]

@[simp] theorem size_union (combine : α → α → α) (left right : Nat) :
    (classes.union combine left right).size = classes.size := by
  unfold union
  split
  · rfl
  · split
    · split
      · exact classes.size_relabel _ _ _ _
      · rfl
    · rfl

theorem union_of_same (h : classes.same left right = true) :
    classes.union combine left right = classes := by
  simp [union, h]

theorem union_of_value?_eq_none (h : classes.value? left = none ∨ classes.value? right = none) :
    classes.union combine left right = classes := by
  unfold union
  split
  · rfl
  · split
    · rename_i hlt
      rcases h with hl | hr
      · simp [value?, Array.getElem?_eq_getElem hlt] at hl
      · simp only [hr]
    · rfl

variable {classes}

theorem label_union (hl : left < classes.size) (hr : right < classes.size) (key : Nat) :
    (classes.union combine left right).label key =
      if classes.label key = classes.label right then classes.label left
      else classes.label key := by
  cases hsame : classes.same left right with
  | true =>
    rw [classes.union_of_same hsame, (classes.same_iff).mp hsame]
    split
    · assumption
    · rfl
  | false =>
    obtain ⟨first, hfirst⟩ := classes.exists_value? hl
    obtain ⟨second, hsecond⟩ := classes.exists_value? hr
    obtain ⟨h, heq⟩ := classes.union_eq_relabel combine hfirst hsecond hsame
    rw [heq, classes.label_relabel h ((classes.label_lt_iff right).mpr hr)]

theorem same_union (hl : left < classes.size) (hr : right < classes.size) (first second : Nat) :
    (classes.union combine left right).same first second = true ↔ classes.same first second = true ∨
        ((classes.same first left = true ∨ classes.same first right = true) ∧
          (classes.same second left = true ∨ classes.same second right = true)) := by
  simp only [same_iff, label_union hl hr]
  split <;> split <;> grind

theorem value?_union {first second : α}
    (hfirst : classes.value? left = some first) (hsecond : classes.value? right = some second)
    (hapart : classes.same left right = false) (key : Nat) :
    (classes.union combine left right).value? key =
      if classes.same key left = true ∨ classes.same key right = true then
        some (combine first second)
      else classes.value? key := by
  have hl : left < classes.size := (classes.value?_isSome left).mp (by simp [hfirst])
  have hr : right < classes.size := (classes.value?_isSome right).mp (by simp [hsecond])
  rw [value?, label_union hl hr]
  obtain ⟨hlt, heq⟩ := classes.union_eq_relabel combine hfirst hsecond hapart
  rw [heq]
  simp only [relabel, same_iff, value?]
  by_cases hkey : classes.label key = classes.label right
  · simp [hkey, hlt]
  · by_cases hkey' : classes.label key = classes.label left
    · simp [hkey', hlt]
    · simp [hkey, hkey', Ne.symm hkey']

end Classes

end BorrowFlow
