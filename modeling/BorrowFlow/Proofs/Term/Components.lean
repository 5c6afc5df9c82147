import BorrowFlow.Proofs.Term.Obligations

/-!
# Components of unbound types

Unbound types that are unified with each other become one, and have the constraints of all of them.
So a number of unbound types falls into components, and a component is bound as a whole: once one of
its types is unified with a type that is written out, all of them are that type, and every
constraint of the component that the type does not satisfy is reported, once.
-/

namespace BorrowFlow

variable {constraints : List Constraint} {id : Nat}

/-- Two of a number of things are connected through a list of pairs. -/
abbrev Connected {count : Nat} (pairs : List (Fin count × Fin count)) :
    Fin count → Fin count → Prop :=
  Relation.EqvGen fun first second => (first, second) ∈ pairs

section Connected

variable {count : Nat} {pairs : List (Fin count × Fin count)} {first second third : Fin count}
  {pair : Fin count × Fin count}

theorem Connected.symm (h : Connected pairs first second) : Connected pairs second first :=
  Relation.EqvGen.symm _ _ h

theorem Connected.trans (h : Connected pairs first second) (h' : Connected pairs second third) :
    Connected pairs first third :=
  Relation.EqvGen.trans _ _ _ h h'

theorem connected_nil_iff : Connected [] first second ↔ first = second := by
  constructor
  · intro h
    induction h with
    | rel _ _ hm => cases hm
    | refl => rfl
    | symm _ _ _ ih => exact ih.symm
    | trans _ _ _ _ _ ih ih' => exact ih.trans ih'
  · rintro rfl
    exact .refl _

theorem Connected.concat (h : Connected pairs first second) (pair : Fin count × Fin count) :
    Connected (pairs ++ [pair]) first second :=
  Relation.EqvGen.mono (fun _ _ hm => List.mem_append_left _ hm) _ _ h

theorem connected_concat_iff : Connected (pairs ++ [pair]) first second ↔
    Connected pairs first second ∨ ((Connected pairs first pair.1 ∨ Connected pairs first pair.2) ∧
        (Connected pairs second pair.1 ∨ Connected pairs second pair.2)) := by
  constructor
  · intro h
    induction h with
    | rel first second hm =>
      rcases List.mem_append.mp hm with hm | hm
      · exact .inl (.rel _ _ hm)
      · cases List.mem_singleton.mp hm
        exact .inr ⟨.inl (.refl _), .inr (.refl _)⟩
    | refl first => exact .inl (.refl first)
    | symm _ _ _ ih => exact ih.imp Connected.symm And.symm
    | trans _ _ _ _ _ ih ih' =>
      rcases ih with h | ⟨hfirst, hsecond⟩
      · rcases ih' with h' | ⟨hsecond, hthird⟩
        · exact .inl (h.trans h')
        · exact .inr ⟨hsecond.imp h.trans h.trans, hthird⟩
      · rcases ih' with h' | ⟨-, hthird⟩
        · exact .inr ⟨hfirst, hsecond.imp h'.symm.trans h'.symm.trans⟩
        · exact .inr ⟨hfirst, hthird⟩
  · have hpair : Connected (pairs ++ [pair]) pair.1 pair.2 := .rel _ _ (by simp)
    have hend : ∀ {index}, Connected pairs index pair.1 ∨ Connected pairs index pair.2 →
        Connected (pairs ++ [pair]) index pair.1 := by
      rintro index (h | h)
      · exact h.concat pair
      · exact (h.concat pair).trans hpair.symm
    rintro (h | ⟨hfirst, hsecond⟩)
    · exact h.concat pair
    · exact (hend hfirst).trans (hend hsecond).symm

end Connected

namespace Outcome

def addUnsatisfied (type : DataType) (outcome : Outcome) (constraint : Constraint) : Outcome :=
  if type.satisfies constraint then outcome else outcome.addFailed constraint

/-- Checking constraints on a type adds those to a report that the type does not satisfy, each of
them once, and reports nothing else. -/
theorem foldl_addUnsatisfied (type : DataType) (constraints : List Constraint) (outcome : Outcome) :
    let result := constraints.foldl (addUnsatisfied type) outcome
    result.mismatches = outcome.mismatches ∧ result.expectedMutable = outcome.expectedMutable ∧
      (outcome.failedConstraints.Nodup → result.failedConstraints.Nodup) ∧
      ∀ constraint, constraint ∈ result.failedConstraints ↔ constraint ∈ outcome.failedConstraints ∨
          constraint ∈ constraints ∧ type.satisfies constraint = false := by
  induction constraints generalizing outcome with
  | nil => simp
  | cons head rest ih =>
    obtain ⟨hmismatches, hmutable, hnodup, hm⟩ := ih (addUnsatisfied type outcome head)
    rw [List.foldl_cons]
    refine ⟨hmismatches.trans ?_, hmutable.trans ?_, hnodup ∘ ?_, fun constraint => ?_⟩
    · unfold addUnsatisfied addFailed
      split <;> [rfl; split <;> rfl]
    · unfold addUnsatisfied addFailed
      split <;> [rfl; split <;> rfl]
    · intro h
      unfold addUnsatisfied addFailed
      split
      · exact h
      · split
        · exact h
        · rename_i hnot
          exact List.nodup_append.mpr ⟨h, List.nodup_singleton head, by grind⟩
    · rw [hm]
      unfold addUnsatisfied addFailed
      split <;> grind

end Outcome

namespace TermStore

variable {s s' : TermStore} {term left right inner base low high : TermId}
  {constraint : Constraint} {type : DataType} {carried : List (List Constraint)}
  {pairs : List (Fin carried.length × Fin carried.length)}

/-! ## Unbound types that are merged -/

/-- The unbound types from a handle on are in one class if the pairs connect them, and only then.
Each has the constraints that any type of its class was created with. -/
structure Merged (s : TermStore) (base : TermId) (carried : List (List Constraint))
    (pairs : List (Fin carried.length × Fin carried.length)) : Prop where
  same_iff : ∀ first second : Fin carried.length,
    s.same (base + first.val) (base + second.val) = true ↔ Connected pairs first second
  unbound : ∀ index : Fin carried.length, ∃ id constraints,
    s.probe (base + index.val) = .unbound id constraints ∧
      ∀ constraint, constraint ∈ constraints ↔ ∃ other : Fin carried.length,
        s.same (base + index.val) (base + other.val) = true ∧ constraint ∈ carried.get other

theorem enlarges_newUnbounds (s : TermStore) (carried : List (List Constraint)) :
    s.Enlarges (s.after (carried.map .newUnbound)) := by
  induction carried generalizing s with
  | nil => exact .refl s
  | cons constraints rest ih => exact (enlarges_newUnbound s constraints).trans (ih _)

theorem probe_newUnbounds (s : TermStore) (carried : List (List Constraint))
    (index : Fin carried.length) :
    ∃ id, (s.after (carried.map .newUnbound)).probe (s.size + index.val) =
      .unbound id (carried.get index) := by
  induction carried generalizing s with
  | nil => exact index.elim0
  | cons constraints rest ih =>
    have hsize : (s.newUnbound constraints).2.size = s.size + 1 := size_push ..
    cases index using Fin.cases with
    | zero =>
      have hkept := (enlarges_newUnbounds (s.newUnbound constraints).2 rest).probe s.size
        (hsize ▸ Nat.lt_succ_self _)
      exact ⟨s.nextUnbound, hkept.trans (probe_push_self ..)⟩
    | succ index =>
      obtain ⟨id, hp⟩ := ih (s.newUnbound constraints).2 index
      rw [hsize, Nat.add_assoc, Nat.add_comm 1] at hp
      exact ⟨id, hp⟩

theorem merged_newUnbounds (s : TermStore) (carried : List (List Constraint)) :
    (s.after (carried.map .newUnbound)).Merged s.size carried [] := by
  have hsame : ∀ first second : Fin carried.length,
      (s.after (carried.map .newUnbound)).same (s.size + first.val)
        (s.size + second.val) = true ↔ first = second := by
    intro first second
    rw [(enlarges_newUnbounds s carried).same]
    exact same_size_add_iff
  refine ⟨fun first second => (hsame first second).trans connected_nil_iff.symm, fun index => ?_⟩
  obtain ⟨id, hp⟩ := probe_newUnbounds s carried index
  refine ⟨id, _, hp, fun constraint => ?_⟩
  simp only [hsame, exists_eq_left']

theorem unify_unbounds {id' : Nat} {constraints' : List Constraint}
    (hl : s.probe left = .unbound id constraints)
    (hr : s.probe right = .unbound id' constraints') :
    (s.unify left right).store = s.union left right := by
  cases hsame : s.same left right with
  | true => simp [unify, depth, unifyTo, hsame, union_of_same]
  | false => simp [unify, depth, unifyTo, hsame, hl, hr, accept]

theorem Merged.unify (h : s.Merged base carried pairs)
    (pair : Fin carried.length × Fin carried.length) :
    (s.unify (base + pair.1.val) (base + pair.2.val)).store.Merged base carried
      (pairs ++ [pair]) := by
  obtain ⟨id, constraints, hl, hm⟩ := h.unbound pair.1
  obtain ⟨id', constraints', hr, hm'⟩ := h.unbound pair.2
  have hlt : base + pair.1.val < s.size := lt_size_of_probe hl
  have hlt' : base + pair.2.val < s.size := lt_size_of_probe hr
  rw [unify_unbounds hl hr]
  refine ⟨fun first second => ?_, fun index => ?_⟩
  · rw [same_union hlt hlt', connected_concat_iff]
    simp only [h.same_iff]
  · cases hapart : s.same (base + pair.1.val) (base + pair.2.val) with
    | true =>
      rw [union_of_same hapart]
      exact h.unbound index
    | false =>
      have hp := probe_union hlt hlt' hapart (base + index.val)
      simp only [same_union hlt hlt']
      split at hp
      · rename_i hindex
        rw [hl, hr] at hp
        refine ⟨id, _, hp, fun constraint => ?_⟩
        rw [Term.mem_joinConstraints, hm, hm', ← exists_or]
        refine exists_congr fun other => ?_
        rw [← or_and_right]
        refine and_congr_left fun _ => ⟨fun ho => ?_, ?_⟩
        · exact .inr ⟨hindex, ho.imp same_symm same_symm⟩
        · rintro (hsame | ⟨-, ho⟩)
          · exact hindex.imp (fun h => same_trans (same_symm h) hsame)
              fun h => same_trans (same_symm h) hsame
          · exact ho.imp same_symm same_symm
      · rename_i hindex
        obtain ⟨id'', constraints'', hindex', hm''⟩ := h.unbound index
        refine ⟨id'', constraints'', hp.trans hindex', fun constraint => ?_⟩
        rw [hm'']
        refine exists_congr fun other => and_congr_left fun _ => ?_
        rw [or_iff_left fun hjoined => hindex hjoined.1]

/-- Creates unbound types with the given constraints, and unifies pairs of them one after the
other. -/
def newMerged (s : TermStore) (carried : List (List Constraint))
    (pairs : List (Fin carried.length × Fin carried.length)) : TermStore :=
  (s.after (carried.map .newUnbound)).after
    (pairs.map fun pair => .unify (s.size + pair.1.val) (s.size + pair.2.val))

theorem Merged.after (h : s.Merged base carried pairs)
    (more : List (Fin carried.length × Fin carried.length)) :
    (s.after (more.map fun pair => .unify (base + pair.1.val) (base + pair.2.val))).Merged base
      carried (pairs ++ more) := by
  induction more generalizing s pairs with
  | nil =>
    rw [List.append_nil]
    exact h
  | cons pair rest ih =>
    rw [← List.singleton_append, ← List.append_assoc]
    exact ih (h.unify pair)

theorem merged_newMerged (s : TermStore) (carried : List (List Constraint))
    (pairs : List (Fin carried.length × Fin carried.length)) :
    (s.newMerged carried pairs).Merged s.size carried pairs :=
  (merged_newUnbounds s carried).after pairs

/-! ## Types that are written out -/

theorem Spells.hasSort (h : s.Spells low s.size type term) : s.HasSort term .type := by
  refine ⟨h.bounds.2, ?_⟩
  cases h with
  | literal _ _ _ hp | constructed _ _ hp | reference _ _ hp =>
    rw [hp]
    rfl

section

variable (h : s.Spells low high type term)
include h

theorem Spells.not_unbound (id : Nat) (constraints : List Constraint) :
    s.probe term ≠ .unbound id constraints := by
  cases h with
  | literal _ _ _ hp | constructed _ _ hp | reference _ _ hp => simp [hp]

/-- A type that is written out is read as it is written, also where handles outside of it have come
to stand for something else. -/
theorem Spells.renderTo_eq (hp : ∀ key, low ≤ key → s'.probe key = s.probe key)
    {depth : Nat} (hdepth : term < depth) : s'.renderTo depth term = type := by
  induction h generalizing depth with
  | literal _ hlow _ ht =>
    obtain ⟨depth, rfl⟩ := Nat.exists_eq_succ_of_ne_zero (Nat.ne_zero_of_lt hdepth)
    simp [renderTo, hp _ hlow, ht]
  | constructed hlow _ ht hlt _ ih =>
    obtain ⟨depth, rfl⟩ := Nat.exists_eq_succ_of_ne_zero (Nat.ne_zero_of_lt hdepth)
    simp [renderTo, hp _ hlow, ht, ih (Nat.lt_of_lt_of_le hlt (Nat.le_of_lt_succ hdepth))]
  | reference hlow _ ht hlt _ ih =>
    obtain ⟨depth, rfl⟩ := Nat.exists_eq_succ_of_ne_zero (Nat.ne_zero_of_lt hdepth)
    simp [renderTo, hp _ hlow, ht, isMutable,
      ih (Nat.lt_of_lt_of_le hlt (Nat.le_of_lt_succ hdepth))]

theorem Spells.checkTo_eq (constraint : Constraint) {depth : Nat} (hdepth : term < depth) :
    s.checkTo depth term constraint = (type.satisfies constraint, s) := by
  induction h generalizing depth with
  | literal _ _ _ ht =>
    obtain ⟨depth, rfl⟩ := Nat.exists_eq_succ_of_ne_zero (Nat.ne_zero_of_lt hdepth)
    simp [checkTo, ht]
  | @constructed head type term argument _ _ ht hlt _ ih =>
    obtain ⟨depth, rfl⟩ := Nat.exists_eq_succ_of_ne_zero (Nat.ne_zero_of_lt hdepth)
    have hargument := ih (Nat.lt_of_lt_of_le hlt (Nat.le_of_lt_succ hdepth))
    cases head with
    | option =>
      cases constraint with
      | copy =>
        simp only [checkTo, ht]
        exact hargument
      | display => simp [checkTo, ht, DataType.satisfies, DataType.isDisplayable]
    | _ =>
      cases constraint <;>
        simp [checkTo, ht, DataType.satisfies, DataType.isCopyable, DataType.isDisplayable]
  | reference _ _ ht hlt _ ih =>
    obtain ⟨depth, rfl⟩ := Nat.exists_eq_succ_of_ne_zero (Nat.ne_zero_of_lt hdepth)
    cases constraint with
    | copy => simp [checkTo, ht, isMutable, DataType.satisfies, DataType.isCopyable]
    | display =>
      simp only [checkTo, ht]
      exact ih (Nat.lt_of_lt_of_le hlt (Nat.le_of_lt_succ hdepth))

theorem Spells.occursTo_eq_false (hapart : ∀ key, low ≤ key → s.same inner key = false)
    (depth : Nat) : s.occursTo inner depth term = false := by
  induction h generalizing depth with
  | literal _ hlow _ ht => cases depth <;> simp [occursTo, hapart _ hlow, ht]
  | constructed hlow _ ht _ _ ih | reference hlow _ ht _ _ ih =>
    cases depth with
    | zero => rfl
    | succ depth => simp [occursTo, hapart _ hlow, ht, ih]

end

theorem Spells.checkAll_eq (h : s.Spells low s.size type term) (constraints : List Constraint) :
    s.checkAll term constraints = (constraints.foldl (Outcome.addUnsatisfied type) {}, s) := by
  unfold checkAll
  generalize ({} : Outcome) = outcome
  induction constraints generalizing outcome with
  | nil => rfl
  | cons constraint rest ih =>
    have hcheck : s.check term constraint = (type.satisfies constraint, s) :=
      h.checkTo_eq constraint (Nat.lt_succ_of_lt h.bounds.2)
    simp only [List.foldl_cons, hcheck]
    exact ih _

/-- An unbound type is bound to a type that is written out and that it has no part in. It does not
matter which of the two is expected. -/
theorem Spells.unify_eq (h : s.Spells low s.size type term)
    (hinner : s.probe inner = .unbound id constraints)
    (hapart : ∀ key, low ≤ key → s.same inner key = false) {result : Unified}
    (hresult : result = s.unify inner term ∨ result = s.unify term inner) :
    result =
      { store := s.union inner term
        equal := true
        outcome := constraints.foldl (Outcome.addUnsatisfied type) {} } := by
  have hsame := hapart term h.bounds.1
  have hsame' : s.same term inner = false := Bool.eq_false_iff.mpr fun hjoined => by
    simp [same_symm hjoined] at hsame
  have hoccurs : s.occurs inner term = false := h.occursTo_eq_false hapart _
  rcases hresult with rfl | rfl
  · cases hp : s.probe term with
    | unbound id constraints => exact absurd hp (h.not_unbound id constraints)
    | _ => simp [unify, depth, unifyTo, hsame, hinner, hp, bindTo, hoccurs, h.checkAll_eq]
  · cases hp : s.probe term with
    | unbound id constraints => exact absurd hp (h.not_unbound id constraints)
    | _ => simp [unify, depth, unifyTo, hsame', hinner, hp, bindTo, hoccurs, h.checkAll_eq]

/-! ## Components that are bound -/

theorem render_of_unbound (h : s.probe term = .unbound id constraints) :
    s.render term = .unresolved := by
  simp [render, depth, renderTo, h]

/-- Some unbound types are created and pairs of them unified, and then one of them is unified with a
type that has no unresolved part. That succeeds. Exactly the unbound types that are connected to the
one are now the type, and exactly those constraints of theirs are reported, each of them once, that
the type does not satisfy. -/
theorem unify_newMerged (store : TermStore) (carried : List (List Constraint))
    (pairs : List (Fin carried.length × Fin carried.length)) (bound : Fin carried.length)
    (hresolved : type.isResolved = true) {result : Unified}
    (hresult :
      let created := (store.newMerged carried pairs).newType type
      result = created.2.unify (store.size + bound.val) created.1 ∨
        result = created.2.unify created.1 (store.size + bound.val)) :
    result.equal = true ∧ result.outcome.mismatches = [] ∧
      result.outcome.expectedMutable = false ∧
      (∀ index, Connected pairs bound index →
        result.store.render (store.size + index.val) = type) ∧
      (∀ index, ¬Connected pairs bound index →
        result.store.render (store.size + index.val) = .unresolved) ∧
      result.outcome.failedConstraints.Nodup ∧
      ∀ constraint, constraint ∈ result.outcome.failedConstraints ↔
        (∃ index, Connected pairs bound index ∧ constraint ∈ carried.get index) ∧
          type.satisfies constraint = false := by
  have hmerged := merged_newMerged store carried pairs
  generalize store.newMerged carried pairs = merged at hmerged hresult
  have hcreated := enlarges_newType merged type
  have hspells := spells_newType merged hresolved
  generalize merged.newType type = created at hcreated hspells hresult
  obtain ⟨literal, ready⟩ := created
  dsimp only at hcreated hspells hresult
  have hlt : ∀ index : Fin carried.length, store.size + index.val < merged.size := fun index => by
    obtain ⟨_, _, hprobe, -⟩ := hmerged.unbound index
    exact lt_size_of_probe hprobe
  -- the new type has no handle in common with the unbound ones
  have hapart : ∀ (index : Fin carried.length) key, merged.size ≤ key →
      ready.same (store.size + index.val) key = false := fun index key hle => by
    rw [hcreated.same]
    exact same_eq_false_of_le hle (Nat.ne_of_lt (Nat.lt_of_lt_of_le (hlt index) hle))
  have hprobe : ∀ index : Fin carried.length,
      ready.probe (store.size + index.val) = merged.probe (store.size + index.val) :=
    fun index => hcreated.probe _ (hlt index)
  obtain ⟨id, constraints, hbound, hmem⟩ := hmerged.unbound bound
  have hbound' := (hprobe bound).trans hbound
  have heq := hspells.unify_eq hbound' (hapart bound) hresult
  subst heq
  obtain ⟨hmismatches, hmutable, hnodup, hfailed⟩ :=
    Outcome.foldl_addUnsatisfied type constraints {}
  have hkept : ∀ {key}, ready.same (store.size + bound.val) key = false →
      (ready.union (store.size + bound.val) literal).probe key = ready.probe key :=
    probe_union_of_unbound hbound' hspells.hasSort hspells.not_unbound
  refine ⟨rfl, hmismatches, hmutable, fun index hconnected => ?_, fun index hnot => ?_,
    hnodup List.nodup_nil, fun constraint => ?_⟩
  · have hsame : ready.same (store.size + index.val) (store.size + bound.val) = true := by
      rw [hcreated.same]
      exact (hmerged.same_iff _ _).mpr hconnected.symm
    have hjoined := (same_union (lt_size_of_probe hbound') hspells.hasSort.1
      (store.size + index.val) literal).mpr (.inr ⟨.inl hsame, .inr (same_refl _ _)⟩)
    rw [Agree.render_eq (.same hjoined)]
    exact hspells.renderTo_eq (fun key hle => hkept (hapart bound key hle))
      (Nat.lt_succ_of_lt (by rw [size_union]; exact hspells.bounds.2))
  · have hsame : ready.same (store.size + bound.val) (store.size + index.val) = false := by
      rw [hcreated.same, Bool.eq_false_iff]
      exact fun hsame => hnot ((hmerged.same_iff _ _).mp hsame)
    obtain ⟨_, _, hindex, -⟩ := hmerged.unbound index
    exact render_of_unbound ((hkept hsame).trans ((hprobe index).trans hindex))
  · rw [hfailed, hmem]
    simp only [hmerged.same_iff, List.not_mem_nil, false_or]

def fourCarried : List (List Constraint) := [[.copy, .copy], [.display], [.copy], [.copy]]

def threeJoined : List (Fin 4 × Fin 4) := [(0, 1), (2, 1), (1, 0)]

/-- The third of the unbound types is bound to a string, which can be displayed but not copied. -/
theorem unify_newMerged_string :
    let created := (({} : TermStore).newMerged fourCarried threeJoined).newType .string
    let result := created.2.unify created.1 2
    DataType.string.isResolved = true ∧ result.equal = true ∧
      result.outcome.failedConstraints.Nodup ∧ .copy ∈ result.outcome.failedConstraints ∧
      .display ∉ result.outcome.failedConstraints ∧
      result.store.render 0 = .string ∧ result.store.render 3 = .unresolved := by
  intro created result
  have hconnected : Connected threeJoined 2 0 :=
    Connected.trans (.rel _ _ (by decide)) (.rel _ _ (show (1, 0) ∈ threeJoined by decide))
  have hapart : ¬Connected threeJoined 2 3 := fun h => absurd
    (((merged_newMerged {} fourCarried threeJoined).same_iff (2 : Fin 4) (3 : Fin 4)).mpr h)
    (by decide +kernel)
  obtain ⟨hequal, -, -, hrender, hrender', hnodup, hfailed⟩ :=
    unify_newMerged {} fourCarried threeJoined (2 : Fin 4)
      (show DataType.string.isResolved = true by decide) (.inr (show result = _ from rfl))
  refine ⟨by decide, hequal, hnodup, (hfailed .copy).mpr ?_,
    fun hmem => ?_, hrender (0 : Fin 4) hconnected, hrender' (3 : Fin 4) hapart⟩
  · exact ⟨⟨(2 : Fin 4), .refl _, by decide⟩, by decide⟩
  · exact absurd ((hfailed .display).mp hmem).2 (by decide)

end TermStore

end BorrowFlow
