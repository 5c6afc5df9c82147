import BorrowFlow.Proofs.Term.Steps

/-!
# Evaluation without a bound

The recursive operations of a store are given a depth that they do not exceed. Here they are
described by rules that know of no depth: a derivation is a computation that comes to an end. On
types that end, the operations compute what the rules derive.
-/

namespace BorrowFlow

variable {count depth : Nat}

namespace TermStore

variable {s s' : TermStore} {term part left right inner : TermId}

/-! ## Reading and searching types -/

/-- A type is read down to its end. -/
inductive Renders (s : TermStore) : TermId → DataType → Prop
  | unresolved {term : TermId} (hpart : s.part? term = none)
      (hliteral : ∀ type, s.probe term ≠ .literal type) : Renders s term .unresolved
  | literal {term : TermId} {type : DataType} (hprobe : s.probe term = .literal type) :
      Renders s term type
  | constructed {term argument : TermId} {head : TypeConstructor} {type : DataType}
      (hprobe : s.probe term = .constructed head argument)
      (h : Renders s argument type) : Renders s term (.constructed head type)
  | reference {term underlying lifetime : TermId} {mutability : Mutability} {type : DataType}
      (hprobe : s.probe term = .reference mutability underlying lifetime)
      (h : Renders s underlying type) :
      Renders s term (.reference (s.isMutable mutability) type)

/-- A type is searched for an unbound one until that is found or the type ends. -/
inductive Searches (s : TermStore) (inner : TermId) : TermId → Bool → Prop
  | found {term : TermId} (h : s.same inner term = true) : Searches s inner term true
  | inside {term part : TermId} {answer : Bool} (hapart : s.same inner term = false)
      (hpart : s.part? term = some part) (h : Searches s inner part answer) :
      Searches s inner term answer
  | ended {term : TermId} (hapart : s.same inner term = false)
      (hpart : s.part? term = none) : Searches s inner term false

theorem renders_renderTo (hends : s.EndsWithin count term) (hle : count ≤ depth) :
    s.Renders term (s.renderTo depth term) := by
  induction count generalizing term depth with
  | zero => exact hends.elim
  | succ count ih =>
    obtain ⟨depth, rfl⟩ : ∃ other, depth = other + 1 := ⟨depth - 1, by omega⟩
    have hpart : ∀ part, s.part? term = some part → s.Renders part (s.renderTo depth part) :=
      fun part hpart => ih (hends part hpart) (by omega)
    unfold renderTo
    cases hp : s.probe term with
    | literal type => exact .literal hp
    | constructed head argument =>
      exact .constructed hp (hpart _ (part?_constructed hp))
    | reference mutability underlying lifetime =>
      exact .reference hp (hpart _ (part?_reference hp))
    | unbound id constraints => exact .unresolved (by simp [part?, hp]) (by simp [hp])
    | lifetime value => exact .unresolved (by simp [part?, hp]) (by simp [hp])
    | mutability value => exact .unresolved (by simp [part?, hp]) (by simp [hp])

theorem searches_occursTo (hends : s.EndsWithin count term) (hle : count ≤ depth) :
    s.Searches inner term (s.occursTo inner depth term) := by
  induction count generalizing term depth with
  | zero => exact hends.elim
  | succ count ih =>
    obtain ⟨depth, rfl⟩ : ∃ other, depth = other + 1 := ⟨depth - 1, by omega⟩
    have hinside : ∀ part, s.part? term = some part →
        s.Searches inner part (s.occursTo inner depth part) :=
      fun part hpart => ih (hends part hpart) (by omega)
    unfold occursTo
    cases hsame : s.same inner term with
    | true => exact .found hsame
    | false =>
      cases hp : s.probe term with
      | constructed head argument =>
        have hpart := part?_constructed hp
        exact .inside hsame hpart (hinside _ hpart)
      | reference mutability underlying lifetime =>
        have hpart := part?_reference hp
        exact .inside hsame hpart (hinside _ hpart)
      | unbound id constraints => exact .ended hsame (by simp [part?, hp])
      | literal type => exact .ended hsame (by simp [part?, hp])
      | lifetime value => exact .ended hsame (by simp [part?, hp])
      | mutability value => exact .ended hsame (by simp [part?, hp])

theorem Searches.occurs_iff {answer : Bool} (h : s.Searches inner term answer) :
    answer = true ↔ s.Occurs inner term := by
  induction h with
  | found h => exact iff_of_true rfl (.here h)
  | inside hapart hpart _ ih =>
    rw [ih]
    constructor
    · exact .inside hpart
    · intro hoccurs
      cases hoccurs with
      | here hsame => simp [hapart] at hsame
      | inside hpart' hoccurs =>
        cases hpart.symm.trans hpart'
        exact hoccurs
  | ended hapart hpart =>
    refine iff_of_false (by simp) fun hoccurs => ?_
    cases hoccurs with
    | here hsame => simp [hapart] at hsame
    | inside hpart' _ => cases hpart.symm.trans hpart'

/-! ## Constraints -/

/-- A constraint is checked down to where it is decided. An unbound type takes it on. -/
inductive Checks (s : TermStore) (constraint : Constraint) :
    TermId → Bool × TermStore → Prop
  | assumed {term : TermId} {id : Nat} {constraints : List Constraint}
      (hprobe : s.probe term = .unbound id constraints) (hmem : constraint ∈ constraints) :
      Checks s constraint term (true, s)
  | taken {term : TermId} {id : Nat} {constraints : List Constraint}
      (hprobe : s.probe term = .unbound id constraints) (hmem : constraint ∉ constraints) :
      Checks s constraint term (true, s.absorb term (.unbound id (constraints ++ [constraint])))
  | literal {term : TermId} {type : DataType} (hprobe : s.probe term = .literal type) :
      Checks s constraint term (type.satisfies constraint, s)
  | option {term argument : TermId} {answer : Bool × TermStore}
      (hprobe : s.probe term = .constructed .option argument) (hcopy : constraint = .copy)
      (h : Checks s constraint argument answer) : Checks s constraint term answer
  | constructed {term argument : TermId} {head : TypeConstructor}
      (hprobe : s.probe term = .constructed head argument)
      (hother : ¬(head = .option ∧ constraint = .copy)) :
      Checks s constraint term (false, s)
  | copied {term underlying lifetime : TermId} {mutability : Mutability}
      (hprobe : s.probe term = .reference mutability underlying lifetime)
      (hcopy : constraint = .copy) :
      Checks s constraint term (!s.isMutable mutability, s)
  | displayed {term underlying lifetime : TermId} {mutability : Mutability}
      {answer : Bool × TermStore}
      (hprobe : s.probe term = .reference mutability underlying lifetime)
      (hdisplay : constraint = .display) (h : Checks s constraint underlying answer) :
      Checks s constraint term answer
  | other {term : TermId} (hsort : (s.probe term).sort ≠ .type) :
      Checks s constraint term (false, s)

/-- Constraints are checked one after the other, and those that fail are added to a report. -/
inductive ChecksAll (term : TermId) :
    TermStore → Outcome → List Constraint → Outcome × TermStore → Prop
  | nil {s : TermStore} {outcome : Outcome} :
      ChecksAll term s outcome [] (outcome, s)
  | cons {s s' : TermStore} {outcome : Outcome} {constraint : Constraint}
      {constraints : List Constraint} {holds : Bool} {result : Outcome × TermStore}
      (h : s.Checks constraint term (holds, s'))
      (hrest : ChecksAll term s' (if holds then outcome else outcome.addFailed constraint)
        constraints result) :
      ChecksAll term s outcome (constraint :: constraints) result

theorem checks_checkTo {constraint : Constraint} (hends : s.EndsWithin count term)
    (hle : count ≤ depth) : s.Checks constraint term (s.checkTo depth term constraint) := by
  induction count generalizing term depth with
  | zero => exact hends.elim
  | succ count ih =>
    obtain ⟨depth, rfl⟩ : ∃ other, depth = other + 1 := ⟨depth - 1, by omega⟩
    have hpart : ∀ part, s.part? term = some part →
        s.Checks constraint part (s.checkTo depth part constraint) :=
      fun part hpart => ih (hends part hpart) (by omega)
    unfold checkTo
    cases hp : s.probe term with
    | unbound id constraints =>
      by_cases hm : constraint ∈ constraints
      · simpa [hm] using Checks.assumed hp hm
      · simpa [hm] using Checks.taken hp hm
    | literal type => exact .literal hp
    | constructed head argument =>
      have hargument := hpart _ (part?_constructed hp)
      cases head with
      | option =>
        cases constraint with
        | copy => exact .option hp rfl hargument
        | display => exact .constructed hp (by simp)
      | _ => exact .constructed hp (by simp)
    | reference mutability underlying lifetime =>
      cases constraint with
      | copy => exact .copied hp rfl
      | display =>
        exact .displayed hp rfl (hpart _ (part?_reference hp))
    | lifetime value => exact .other (by simp [hp, Term.sort])
    | mutability value => exact .other (by simp [hp, Term.sort])

/-! ## Unification -/

/-- Two terms of different kinds, or with different heads. -/
def Clash : Term → Term → Prop
  | .literal first, .literal second => first ≠ second
  | .constructed first _, .constructed second _ => first ≠ second
  | .reference .., .reference .. | .lifetime _, .lifetime _ | .mutability _, .mutability _ => False
  | .unbound .., _ | _, .unbound .. => False
  | _, _ => True

/-- Two terms stay apart. Both are rendered for the report. -/
def Refuses (s : TermStore) (expected found : TermId) (result : Unified) : Prop :=
  ∃ first second, s.Renders expected first ∧ s.Renders found second ∧
    result = { store := s, equal := false, outcome := { mismatches := [(first, second)] } }

/-- An unbound type is bound, unless it occurs in the type that it is to be bound to. -/
inductive Binds (s : TermStore) (inner : TermId) (constraints : List Constraint)
    (term expected found : TermId) : Unified → Prop
  | infinite {result : Unified} (hfound : s.Searches inner term true)
      (h : s.Refuses expected found result) :
      Binds s inner constraints term expected found result
  | bound {outcome : Outcome} {s' : TermStore} (hfree : s.Searches inner term false)
      (hchecks : ChecksAll term s {} constraints (outcome, s')) :
      Binds s inner constraints term expected found
        { store := s'.union inner term, equal := true, outcome }

inductive Unifies : TermStore → TermId → TermId → Unified → Prop
  | same {s : TermStore} {left right : TermId} (h : s.same left right = true) :
      Unifies s left right { store := s, equal := true }
  | literals {s : TermStore} {left right : TermId} {type : DataType}
      (hapart : s.same left right = false) (hleft : s.probe left = .literal type)
      (hright : s.probe right = .literal type) :
      Unifies s left right (s.accept left right)
  | constructors {s : TermStore} {left right first second : TermId} {head : TypeConstructor}
      {unified : Unified} (hapart : s.same left right = false)
      (hleft : s.probe left = .constructed head first)
      (hright : s.probe right = .constructed head second)
      (h : Unifies s first second unified) (hequal : unified.equal = true) :
      Unifies s left right
        { unified.store.accept left right with outcome := unified.outcome.withoutMismatches }
  | argumentsApart {s : TermStore} {left right first second : TermId}
      {head : TypeConstructor} {unified refused : Unified}
      (hapart : s.same left right = false)
      (hleft : s.probe left = .constructed head first)
      (hright : s.probe right = .constructed head second)
      (h : Unifies s first second unified) (hequal : unified.equal = false)
      (hrefused : unified.store.Refuses left right refused) :
      Unifies s left right
        { refused with outcome := unified.outcome.withoutMismatches ++ refused.outcome }
  | references {s : TermStore} {left right first second lifetime lifetime' : TermId}
      {mutability mutability' : Mutability} {unified : Unified}
      (hapart : s.same left right = false)
      (hleft : s.probe left = .reference mutability first lifetime)
      (hright : s.probe right = .reference mutability' second lifetime')
      (hreport : mutability = .fixed false → mutability' = .fixed true →
        (∃ type, s.Renders left type) ∧ ∃ type, s.Renders right type)
      (h : Unifies (s.unifyMutability left right mutability mutability').2 first second unified) :
      Unifies s left right
        { store := unified.store.unifyLifetimes lifetime lifetime'
          equal := unified.equal
          outcome := (s.unifyMutability left right mutability mutability').1 ++ unified.outcome }
  | lifetimes {s : TermStore} {left right : TermId} {first second : Option Lifetime}
      (hapart : s.same left right = false) (hleft : s.probe left = .lifetime first)
      (hright : s.probe right = .lifetime second) :
      Unifies s left right { store := s.unifyLifetimes left right, equal := true }
  | mutabilities {s : TermStore} {left right : TermId} {first second : Option Bool}
      (hapart : s.same left right = false) (hleft : s.probe left = .mutability first)
      (hright : s.probe right = .mutability second) :
      Unifies s left right (s.accept left right)
  | unbounds {s : TermStore} {left right : TermId} {first second : Nat}
      {constraints constraints' : List Constraint} (hapart : s.same left right = false)
      (hleft : s.probe left = .unbound first constraints)
      (hright : s.probe right = .unbound second constraints') :
      Unifies s left right (s.accept left right)
  | bindLeft {s : TermStore} {left right : TermId} {id : Nat}
      {constraints : List Constraint} {result : Unified} (hapart : s.same left right = false)
      (hleft : s.probe left = .unbound id constraints)
      (hright : ∀ id constraints, s.probe right ≠ .unbound id constraints)
      (h : s.Binds left constraints right left right result) :
      Unifies s left right result
  | bindRight {s : TermStore} {left right : TermId} {id : Nat}
      {constraints : List Constraint} {result : Unified} (hapart : s.same left right = false)
      (hleft : ∀ id constraints, s.probe left ≠ .unbound id constraints)
      (hright : s.probe right = .unbound id constraints)
      (h : s.Binds right constraints left left right result) :
      Unifies s left right result
  | clash {s : TermStore} {left right : TermId} {result : Unified}
      (hapart : s.same left right = false)
      (hclash : Clash (s.probe left) (s.probe right))
      (h : s.Refuses left right result) : Unifies s left right result

end TermStore

end BorrowFlow
