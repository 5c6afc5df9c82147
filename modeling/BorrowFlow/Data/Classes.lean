/-!
# Keys in classes

A growing collection of keys that is divided into classes, each with one value. Every key carries
the label of its class, so looking a key up takes no search, and merging two classes relabels one of
them.
-/

namespace BorrowFlow

/-- Keys in classes. Key `k` is in the class with label `labels[k]`, whose value is stored under its
label. -/
structure Classes (α : Type) where
  labels : Array Nat
  values : Array α
  size_eq : labels.size = values.size
  label_lt : ∀ label ∈ labels, label < values.size

namespace Classes

variable {α : Type}

def empty : Classes α := ⟨#[], #[], rfl, by simp⟩

instance : EmptyCollection (Classes α) := ⟨empty⟩

instance : Inhabited (Classes α) := ⟨empty⟩

/-- The number of keys; keys count from zero. -/
def size (classes : Classes α) : Nat := classes.labels.size

/-- The label of a key's class. A key that was never created is its own label. -/
def label (classes : Classes α) (key : Nat) : Nat := (classes.labels[key]?).getD key

def value? (classes : Classes α) (key : Nat) : Option α := classes.values[classes.label key]?

def same (classes : Classes α) (left right : Nat) : Bool :=
  classes.label left == classes.label right

/-- A new key, alone in its class. Its number is the former `size`. -/
def push (classes : Classes α) (value : α) : Classes α where
  labels := classes.labels.push classes.size
  values := classes.values.push value
  size_eq := by simp [classes.size_eq]
  label_lt := by
    intro label mem
    simp only [Array.mem_push, Array.size_push] at mem ⊢
    rcases mem with mem | rfl
    · exact Nat.lt_succ_of_lt (classes.label_lt label mem)
    · simp [size, classes.size_eq]

def modify (classes : Classes α) (key : Nat) (change : α → α) : Classes α where
  labels := classes.labels
  values := classes.values.modify (classes.label key) change
  size_eq := by simp [classes.size_eq]
  label_lt := by simpa using classes.label_lt

def mapValues (classes : Classes α) (change : α → α) : Classes α where
  labels := classes.labels
  values := classes.values.map change
  size_eq := by simp [classes.size_eq]
  label_lt := by simpa using classes.label_lt

/-- Gives the class labelled `right` the label `left`, and that class a value. -/
def relabel (classes : Classes α) (left right : Nat) (value : α) (h : left < classes.values.size) :
    Classes α where
  labels := classes.labels.map fun label => if label = right then left else label
  values := classes.values.setIfInBounds left value
  size_eq := by simp [classes.size_eq]
  label_lt := by
    intro label mem
    obtain ⟨old, member, rfl⟩ := Array.mem_map.mp mem
    simp only [Array.size_setIfInBounds]
    split
    · exact h
    · exact classes.label_lt old member

/-- Makes one class of the classes of two keys, with the combination of their values. Nothing
changes if they are in one class already. -/
def union (classes : Classes α) (combine : α → α → α) (left right : Nat) : Classes α :=
  if classes.same left right then classes
  else if h : classes.label left < classes.values.size then
    match classes.value? right with
    | some value =>
      classes.relabel (classes.label left) (classes.label right)
        (combine (classes.values[classes.label left]) value) h
    | none => classes
  else classes

theorem label_lt_iff (classes : Classes α) (key : Nat) :
    classes.label key < classes.size ↔ key < classes.size := by
  unfold label size
  by_cases h : key < classes.labels.size
  · have mem := classes.label_lt _ (Array.getElem_mem h)
    rw [← classes.size_eq] at mem
    simp only [Array.getElem?_eq_getElem h, Option.getD_some]
    exact ⟨fun _ => h, fun _ => mem⟩
  · simp [Array.getElem?_eq_none (Nat.le_of_not_lt h)]

theorem value?_isSome (classes : Classes α) (key : Nat) :
    (classes.value? key).isSome ↔ key < classes.size := by
  rw [← classes.label_lt_iff key, value?, size, classes.size_eq]
  simp

end Classes

end BorrowFlow
