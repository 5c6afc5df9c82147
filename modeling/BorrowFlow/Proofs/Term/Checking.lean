import BorrowFlow.Proofs.Term.Components
import BorrowFlow.Proofs.Term.Knowledge

/-!
# Constraints of terms and of types

A constraint is checked on a term by walking through the store, and on a data type by recursion over
the type. After any run of operations the two agree on what a term is read as: an unbound part,
which the term passes for now, counts as a number. The walk leaves a trace at its end only, and only
if an unbound type stands there, which then has the constraint.
-/

namespace BorrowFlow

namespace Term

def IsPlain : Term → Prop
  | literal type => type.isBasic = true
  | _ => True

theorem IsPlain.merge {left right : Term} (hl : left.IsPlain) (hr : right.IsPlain) :
    (left.merge right).IsPlain := by
  cases left <;> cases right <;> simp_all [Term.merge, IsPlain]

theorem joinConstraints_append (constraints added : List Constraint) :
    joinConstraints constraints (constraints ++ added) = joinConstraints constraints added := by
  have hold : ∀ known more : List Constraint, known ⊆ more → joinConstraints more known = more := by
    intro known
    induction known with
    | nil => exact fun _ _ => rfl
    | cons head rest ih =>
      intro more hsubset
      have hhead : head ∈ more := hsubset List.mem_cons_self
      simpa [joinConstraints, hhead] using ih more fun _ h => hsubset (List.mem_cons_of_mem _ h)
  rw [joinConstraints, List.foldl_append]
  exact congrArg (added.foldl _) (hold constraints constraints fun _ h => h)

end Term

namespace DataType

theorem fill_of_isBasic {type : DataType} (h : type.isBasic = true) (part : DataType) :
    type.fill part = type := by
  cases type <;> simp_all [isBasic, fill]

end DataType

namespace TermStore

variable {s s' store : TermStore} {term left right last : TermId} {constraint : Constraint}

/-! ## Literals -/

def Plain (s : TermStore) : Prop :=
  ∀ term, term < s.size → (s.probe term).IsPlain

theorem plain_empty : ({} : TermStore).Plain :=
  fun term hlt => absurd hlt (Nat.not_lt_zero term)

section

variable (h : s.Plain)
include h

theorem Plain.push {data : Term} (hd : data.IsPlain) : (s.push data).2.Plain := by
  intro term hlt
  rw [size_push] at hlt
  rw [probe_push]
  split
  · exact hd
  · rename_i hne
    exact h term (Nat.lt_of_le_of_ne (Nat.le_of_lt_succ hlt) hne)

theorem Plain.union (hl : left < s.size) (hr : right < s.size) : (s.union left right).Plain := by
  cases hapart : s.same left right with
  | true => rwa [union_of_same hapart]
  | false =>
    intro term hlt
    rw [size_union] at hlt
    rw [probe_union hl hr hapart]
    split
    · exact (h left hl).merge (h right hr)
    · exact h term hlt

theorem Plain.absorb {other : Term} (ht : term < s.size) (ho : other.IsPlain) :
    (s.absorb term other).Plain := by
  intro key hlt
  rw [probe_absorb ht]
  split
  · exact (h term ht).merge ho
  · exact h key hlt

theorem Plain.newType (type : DataType) : (s.newType type).2.Plain := by
  have hliteral : ∀ type : DataType, type.isBasic = true → (s.push (.literal type)).2.Plain :=
    fun _ hbasic => h.push hbasic
  induction type with
  | unresolved => exact h.push trivial
  | constructed head argument ih => exact ih.push trivial
  | reference mutable referent ih =>
    have hlifetime : ((s.newType referent).2.newLifetime none).2.Plain := ih.push trivial
    exact hlifetime.push trivial
  | void | bool | int32 | int64 | string => exact hliteral _ rfl

theorem Plain.quiet (hquiet : s.Quiet s') : s'.Plain := by
  cases hquiet with
  | constrain hp | resolve hp | restrict hp =>
    exact h.absorb (lt_size_of_probe hp) trivial
  | lifetimes hl hr | mutabilities hl hr =>
    exact h.union (lt_size_of_probe hl) (lt_size_of_probe hr)

theorem Plain.step (hstep : s.Step s') : s'.Plain := by
  cases hstep with
  | quiet hquiet => exact h.quiet hquiet
  | bind hinner ht => exact h.union (lt_size_of_probe hinner) ht.1
  | literals hl hr => exact h.union hl hr
  | constructors hl hr =>
    exact h.union (lt_size_of_probe hl) (lt_size_of_probe hr)

theorem Plain.steps (hsteps : s.Steps s') : s'.Plain := by
  induction hsteps with
  | refl => exact h
  | tail _ hstep ih => exact ih.step hstep

theorem Plain.run (hs : s.Sound) {operation : Operation} (hfits : operation.Fits s) :
    (operation.run s).Plain := by
  cases operation with
  | newType type => exact h.newType type
  | newUnbound | newConstructed | newReference | newLifetime | newMutability =>
    exact h.push trivial
  | unify left right =>
    obtain ⟨sort, hl, hr⟩ := hfits
    exact h.steps (hs.unify hl hr).1
  | check term constraint =>
    exact h.steps (checks_check hs.wellSorted hs.solvable term constraint).quietSteps.steps
  | resolveLifetime term value => exact h.steps (resolveLifetime_quietSteps s term value).steps
  | constrainMutability term mutable =>
    exact h.steps (constrainMutability_quietSteps hfits mutable).steps

end

theorem Reachable.plain (h : Reachable s) : s.Plain := by
  induction h with
  | empty => exact plain_empty
  | step hreachable _ hfits ih => exact ih.run hreachable.sound hfits

/-! ## The answer -/

theorem Sound.render_literal (hs : s.Sound) {type : DataType}
    (hp : s.probe term = .literal type) : s.render term = type :=
  hs.render_eq (.literal hp)

/-- The answer is that of the data type, with a number in the place of what is unresolved. -/
theorem Checks.answer_eq {answer : Bool × TermStore} (h : s.Checks constraint term answer)
    (hs : s.Sound) (hplain : s.Plain) (ht : s.HasSort term .type) :
    answer.1 = ((s.render term).fill .int32).satisfies constraint := by
  induction h with
  | assumed hp | taken hp =>
    rw [render_of_unbound hp]
    cases constraint <;> rfl
  | literal hp =>
    have hbasic := hplain _ ht.1
    rw [hp] at hbasic
    rw [hs.render_literal hp, DataType.fill_of_isBasic hbasic]
  | option hp hcopy _ ih =>
    rw [ih (hs.wellSorted.hasSort_part (part?_constructed hp)), hs.render_constructed hp, hcopy]
    rfl
  | @constructed _ _ head hp ho =>
    rw [hs.render_constructed hp, DataType.fill]
    cases constraint with
    | copy =>
      have hne : head ≠ .option := fun heq => ho ⟨heq, rfl⟩
      cases head with
      | option => exact absurd rfl hne
      | _ => rfl
    | display => rfl
  | copied hp hcopy =>
    rw [hs.render_reference hp, hcopy]
    rfl
  | displayed hp hdisplay _ ih =>
    rw [ih (hs.wellSorted.hasSort_part (part?_reference hp)), hs.render_reference hp, hdisplay]
    rfl
  | other hsort => exact absurd ht.2 hsort

/-! ## The trace -/

/-- The part of a type that decides instead of the type whether a constraint holds. -/
def decider? (s : TermStore) (constraint : Constraint) (term : TermId) : Option TermId :=
  match constraint, s.probe term with
  | .copy, .constructed .option argument => some argument
  | .display, .reference _ underlying _ => some underlying
  | _, _ => none

/-- A check goes from part to part until it comes to one that decides for itself. -/
inductive CheckEnds (s : TermStore) (constraint : Constraint) : TermId → TermId → Prop
  | here {term : TermId} (h : s.decider? constraint term = none) :
      CheckEnds s constraint term term
  | further {term part last : TermId} (h : s.decider? constraint term = some part)
      (hrest : CheckEnds s constraint part last) : CheckEnds s constraint term last

/-- One store has a constraint more than the other, on the unbound type of a class. Nothing else is
different. -/
structure Constrains (s : TermStore) (constraint : Constraint) (last : TermId)
    (s' : TermStore) : Prop where
  size : s'.size = s.size
  nextUnbound : s'.nextUnbound = s.nextUnbound
  same : ∀ left right, s'.same left right = s.same left right
  probe_eq : ∀ id constraints, s.probe last = .unbound id constraints → ∀ key, s'.probe key =
      if s.same last key then .unbound id (Term.joinConstraints constraints [constraint])
      else s.probe key

/-- What a check leaves behind where it ends. -/
def Leaves (s : TermStore) (constraint : Constraint) (last : TermId) (s' : TermStore) :
    Prop :=
  match s.probe last with
  | .unbound _ _ => s.Constrains constraint last s'
  | _ => s' = s

theorem leaves_self (h : ∀ id constraints, s.probe term ≠ .unbound id constraints) :
    s.Leaves constraint term s := by
  unfold Leaves
  split
  · rename_i hp
    exact absurd hp (h _ _)
  · rfl

theorem Checks.leaves {answer : Bool × TermStore} (h : s.Checks constraint term answer) :
    ∃ last, s.CheckEnds constraint term last ∧ s.Leaves constraint last answer.2 := by
  induction h with
  | @assumed term id constraints hp hm =>
    refine ⟨term, .here (by simp [decider?, hp]), ?_⟩
    rw [Leaves, hp]
    refine ⟨rfl, rfl, fun _ _ => rfl, fun id' constraints' hp' key => ?_⟩
    cases hp.symm.trans hp'
    have hjoin : Term.joinConstraints constraints [constraint] = constraints := by
      simp [Term.joinConstraints, hm]
    rw [hjoin]
    split
    · rename_i hsame
      exact (probe_of_same hsame).symm.trans hp
    · rfl
  | @taken term id constraints hp hm =>
    refine ⟨term, .here (by simp [decider?, hp]), ?_⟩
    rw [Leaves, hp]
    refine ⟨rfl, rfl, fun _ _ => rfl, fun id' constraints' hp' key => ?_⟩
    cases hp.symm.trans hp'
    rw [probe_absorb (lt_size_of_probe hp), hp, Term.merge, Term.joinConstraints_append]
  | @literal term _ hp =>
    exact ⟨term, .here (by simp [decider?, hp]), leaves_self (by simp [hp])⟩
  | option hp hcopy _ ih =>
    obtain ⟨last, hends, hleaves⟩ := ih
    exact ⟨last, .further (by simp [decider?, hp, hcopy]) hends, hleaves⟩
  | @constructed term argument head hp ho =>
    refine ⟨term, .here ?_, leaves_self (by simp [hp])⟩
    cases constraint with
    | copy =>
      have hne : head ≠ .option := fun heq => ho ⟨heq, rfl⟩
      simp [decider?, hp, hne]
    | display => simp [decider?, hp]
  | @copied term _ _ _ hp hcopy =>
    exact ⟨term, .here (by simp [decider?, hp, hcopy]), leaves_self (by simp [hp])⟩
  | displayed hp hdisplay _ ih =>
    obtain ⟨last, hends, hleaves⟩ := ih
    exact ⟨last, .further (by simp [decider?, hp, hdisplay]) hends, hleaves⟩
  | @other term hsort =>
    cases hp : s.probe term with
    | lifetime value | mutability value =>
      exact ⟨term, .here (by simp [decider?, hp]), leaves_self (by simp [hp])⟩
    | unbound | literal | constructed | reference => simp [hp, Term.sort] at hsort

theorem CheckEnds.isResolved (h : s.CheckEnds constraint term last) (hs : s.Sound)
    (hresolved : (s.render term).isResolved = true) :
    (s.render last).isResolved = true := by
  induction h with
  | here => exact hresolved
  | @further term part _ hdecider hrest ih =>
    refine ih ?_
    clear hrest ih
    unfold decider? at hdecider
    split at hdecider
    · rename_i hp
      cases hdecider
      rwa [hs.render_constructed hp] at hresolved
    · rename_i hp
      cases hdecider
      rwa [hs.render_reference hp] at hresolved
    · cases hdecider

/-- After any run of operations, a check on the term of a type answers what the data type answers
that the term is read as, with a number in the place of an unresolved part. It goes from part to
part until one decides for itself. If that one is an unbound type, its class has the constraint
then, and nothing else is different in the store. Otherwise the store is the same, and so it is
whenever the type is resolved. -/
theorem Reachable.check_eq_satisfies (h : Reachable store) (hterm : store.HasSort term .type)
    (constraint : Constraint) :
    (store.check term constraint).1 = ((store.render term).fill .int32).satisfies constraint ∧
      (∃ last, store.CheckEnds constraint term last ∧
        store.Leaves constraint last (store.check term constraint).2) ∧
      ((store.render term).isResolved = true → (store.check term constraint).2 = store) := by
  have hs := h.sound
  have hchecks := checks_check hs.wellSorted hs.solvable term constraint
  obtain ⟨last, hends, hleaves⟩ := hchecks.leaves
  refine ⟨hchecks.answer_eq hs h.plain hterm, ⟨last, hends, hleaves⟩, fun hresolved => ?_⟩
  have hlast := hends.isResolved hs hresolved
  unfold Leaves at hleaves
  split at hleaves
  · rename_i hprobe
    rw [render_of_unbound hprobe] at hlast
    cases hlast
  · exact hleaves

/-- An option of an immutable reference to an unbound type, under handle three. -/
def optionOfReference : TermStore :=
  ({} : TermStore).after [.newUnbound [.display], .newLifetime none,
    .newReference (.fixed false) 0 1, .newConstructed .option 2]

theorem reachable_optionOfReference : Reachable optionOfReference := by
  have hunbound := Reachable.empty.step (.newUnbound [.display]) trivial
  have hlifetime := hunbound.step (.newLifetime none) trivial
  have hreference := hlifetime.step (.newReference (.fixed false) 0 1)
    ⟨trivial, show HasSort _ 0 .type by decide, show HasSort _ 1 .lifetime by decide⟩
  exact hreference.step (.newConstructed .option 2) (show HasSort _ 2 .type by decide)

/-- The reference can be displayed if what it refers to can, so the check goes on to the unbound
type. Whether the option can be copied is decided by the reference. -/
theorem check_eq_satisfies_optionOfReference :
    optionOfReference.HasSort 3 .type ∧ optionOfReference.HasSort 2 .type ∧
      (optionOfReference.check 3 .copy).1 =
        (DataType.constructed .option (.reference false .int32)).satisfies .copy ∧
      (optionOfReference.check 2 .display).1 =
        (DataType.reference false .int32).satisfies .display ∧
      ∃ last, optionOfReference.CheckEnds .display 2 last ∧
        optionOfReference.Leaves .display last (optionOfReference.check 2 .display).2 := by
  have hoption : optionOfReference.HasSort 3 .type := by decide
  have hreference : optionOfReference.HasSort 2 .type := by decide
  have hcopy := reachable_optionOfReference.check_eq_satisfies hoption .copy
  have hdisplay := reachable_optionOfReference.check_eq_satisfies hreference .display
  have hrender : (optionOfReference.render 3).fill .int32 =
      .constructed .option (.reference false .int32) := by decide +kernel
  have hrender' : (optionOfReference.render 2).fill .int32 = .reference false .int32 := by
    decide +kernel
  exact ⟨hoption, hreference, hrender ▸ hcopy.1, hrender' ▸ hdisplay.1, hdisplay.2.1⟩

end TermStore

end BorrowFlow
