/-!
# Maps from numbers

A finite map whose keys are numbers, kept as a list with ascending keys. Two maps with the same
entries are the same value, and listing a map in the order of its keys costs nothing.
-/

namespace BorrowFlow

/-- A finite map from numbers, by ascending keys. -/
structure IdMap (α : Type) where
  entries : List (Nat × α)
  ascending : entries.Pairwise fun a b => a.1 < b.1

namespace IdMap

variable {α : Type}

def empty : IdMap α := ⟨[], .nil⟩

instance : EmptyCollection (IdMap α) := ⟨empty⟩

instance : Inhabited (IdMap α) := ⟨empty⟩

def insertEntry (key : Nat) (value : α) : List (Nat × α) → List (Nat × α)
  | [] => [(key, value)]
  | entry :: rest =>
    if key < entry.1 then (key, value) :: entry :: rest
    else if key = entry.1 then (key, value) :: rest
    else entry :: insertEntry key value rest

theorem mem_insertEntry {key : Nat} {value : α} {entries : List (Nat × α)} {entry : Nat × α}
    (h : entry ∈ insertEntry key value entries) : entry = (key, value) ∨ entry ∈ entries := by
  induction entries with
  | nil => simpa [insertEntry] using h
  | cons head rest ih =>
    unfold insertEntry at h
    split at h
    · simpa using h
    · split at h
      · rcases List.mem_cons.mp h with h | h
        · exact .inl h
        · exact .inr (List.mem_cons_of_mem _ h)
      · rcases List.mem_cons.mp h with h | h
        · exact .inr (by simp [h])
        · exact (ih h).imp_right (List.mem_cons_of_mem _)

theorem pairwise_insertEntry (key : Nat) (value : α) {entries : List (Nat × α)}
    (h : entries.Pairwise fun a b => a.1 < b.1) :
    (insertEntry key value entries).Pairwise fun a b => a.1 < b.1 := by
  induction entries with
  | nil => simp [insertEntry]
  | cons head rest ih =>
    obtain ⟨below, sorted⟩ := List.pairwise_cons.mp h
    unfold insertEntry
    split
    · rename_i less
      refine List.pairwise_cons.mpr ⟨fun entry mem => ?_, h⟩
      rcases List.mem_cons.mp mem with rfl | mem
      · exact less
      · exact Nat.lt_trans less (below entry mem)
    · split
      · rename_i same
        exact List.pairwise_cons.mpr ⟨fun entry mem => same ▸ below entry mem, sorted⟩
      · refine List.pairwise_cons.mpr ⟨fun entry mem => ?_, ih sorted⟩
        rcases mem_insertEntry mem with rfl | mem
        · simp only
          omega
        · exact below entry mem

/-- Sets the value of `key`, in place of the value it may have had. -/
def insert (map : IdMap α) (key : Nat) (value : α) : IdMap α where
  entries := insertEntry key value map.entries
  ascending := pairwise_insertEntry key value map.ascending

def get? (map : IdMap α) (key : Nat) : Option α :=
  (map.entries.find? fun entry => entry.1 = key).map Prod.snd

def contains (map : IdMap α) (key : Nat) : Bool :=
  (map.get? key).isSome

def size (map : IdMap α) : Nat :=
  map.entries.length

def isEmpty (map : IdMap α) : Bool :=
  map.entries.isEmpty

@[simp] theorem get?_empty (key : Nat) : (empty : IdMap α).get? key = none := rfl

theorem find?_insertEntry (key : Nat) (value : α) (entries : List (Nat × α)) (other : Nat) :
    (insertEntry key value entries).find? (fun entry => entry.1 = other) =
      if other = key then some (key, value) else entries.find? fun entry => entry.1 = other := by
  induction entries with
  | nil => grind [insertEntry]
  | cons head rest ih =>
    unfold insertEntry
    split
    · grind
    · split <;> grind

@[simp] theorem get?_insert (map : IdMap α) (key : Nat) (value : α) (other : Nat) :
    (map.insert key value).get? other = if other = key then some value else map.get? other := by
  simp only [get?, insert, find?_insertEntry]
  split <;> rfl

end IdMap

end BorrowFlow
