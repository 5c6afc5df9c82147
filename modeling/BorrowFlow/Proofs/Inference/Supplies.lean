import BorrowFlow.Signature.Catalogue
import BorrowFlow.Proofs.Inference.Atomicity
import BorrowFlow.Proofs.Inference.Soundness

/-!
# What the members of a group take

If nothing is reported, a member of a borrow group takes a type that differs from what feeds it at
most in the mutability of the references that it begins with. If the group borrows, there is no
difference. If it reuses a lifetime, there may be one: the node reads the mutability of what it is
supplied with when the group is decided, and references that share a mutability may be restricted
later on, on either side of the wire.
-/

namespace BorrowFlow

namespace DataType

def mutabilities : DataType → List Bool
  | reference mutable referent => mutable :: referent.mutabilities
  | _ => []

theorem eq_of_frozen_eq {left right : DataType} (h : left.frozen = right.frozen)
    (hmutable : left.mutabilities = right.mutabilities) : left = right := by
  induction left generalizing right with
  | reference mutable referent ih =>
    cases right with
    | reference mutable' referent' =>
      simp only [frozen, reference.injEq, true_and] at h
      obtain ⟨rfl, hrest⟩ := List.cons.inj hmutable
      rw [ih h hrest]
    | _ => cases hmutable
  | _ =>
    cases right with
    | reference mutable' referent' => cases hmutable
    | _ => exact h

end DataType

/-- What a port takes is what its source supplies, but for the mutability of the references that it
begins with, and exactly so if the port was lent its value. -/
def Report.Matches (report : Report) (source port : PortId) (lent : Prop) : Prop :=
  ∃ supplied taken, report.carried? source = some supplied ∧ report.carried? port = some taken ∧
    supplied.type.frozen = taken.type.frozen ∧
      (supplied.type = taken.type ↔ supplied.type.mutabilities = taken.type.mutabilities) ∧
        (lent → supplied.type = taken.type)

namespace Run

variable {g : Graph} {config : Config}

theorem ends_decideGroups_ready (hw : g.WellFormed) (hc : g.Consistent) (hl : g.Layered) :
    Yields decideGroups { config, graph := g }
      fun _ state => state.graph = g ∧ state.context.Ready False g ∧
        ∃ order, g.visitOrder = .ok order := by
  apply (ends_facePorts hw hc hl False.elim).seq
  rintro _ faced ⟨rfl, hstands, hord, -⟩
  apply (ends_unifyWires hw hc hstands hord).imp ?_
  rintro _ unified ⟨hgraph, hunified, hrendered⟩
  exact ⟨hgraph, hunified.ready hc hstands.kept hrendered, _, hord⟩

end Run

theorem Context.mem_borrowedIn {g : Graph} {ctx : Context} {id : GroupId}
    {group : BorrowGroup} {member : GroupMember} (hgroup : ctx.groups.groups[id]? = some group)
    (hborrow : group.decision.any Decision.isBorrow = true)
    (hmember : member ∈ group.wiredIn g) : member.port ∈ ctx.borrowedIn g := by
  refine List.mem_flatMap.mpr ⟨group, Array.mem_toList_iff.mpr (Array.mem_of_getElem? hgroup), ?_⟩
  obtain ⟨_, _, hdecision⟩ := Decision.exists_of_any_isBorrow hborrow
  rw [BorrowGroup.borrowedIn_of_borrow hdecision]
  exact List.mem_map_of_mem hmember

/-- If nothing is reported, every wired member of a group, whatever the policy of the group, takes
what its wire supplies. Only the mutability of leading references may differ, and that only if the
group reuses a lifetime. -/
theorem Graph.Built.matches_of_isClean {graph graph' : Graph} {config : Config} {report : Report}
    (hbuilt : graph.Built) (hinfer : infer config graph = (.ok report, graph'))
    (hclean : report.isClean = true) :
    ∃ context, Inference.decided? config graph = some context ∧
      ∀ (id : GroupId) (group : BorrowGroup), context.groups.groups[id]? = some group →
        ∀ member ∈ group.members, ∀ (w : WireId) (wire : Wire), graph'.wires[w]? = some wire →
          member.port ∈ wire.sinks →
            report.Matches wire.source member.port
              (group.decision.any Decision.isBorrow = true) := by
  have hw := hbuilt.wellFormed
  have hc := hbuilt.consistent
  have hdecide : Ends Run.decideGroups { config, graph } _ _ := Run.ends_decideGroups_ready hw hc
    hbuilt.layered
  unfold infer at hinfer
  split at hinfer
  swap
  · cases hinfer
  rename_i found state hrun
  cases hinfer
  rw [Run.all_eq] at hrun
  obtain ⟨_, unified, hdecided, hrest⟩ := exists_of_bind_eq_ok hrun
  obtain ⟨hgraph, hready, order, horder⟩ := hdecide.of_eq_ok hdecided
  refine ⟨unified.context, by rw [Inference.decided?, hdecided], ?_⟩
  rw [← hgraph] at hw hc horder hready
  obtain ⟨hrefined, htypes⟩ :=
    (Run.ends_insertBorrows_report hw hc horder hready).of_eq_ok hrest
  intro id group hgroup member hmember w wire hwire hsink
  have hplaced := hready.placed id group hgroup
  rw [← hrefined.woven.consistent.sinksAt_source hwire (List.ne_nil_of_mem hsink)] at hsink
  obtain ⟨supplied, taken, hsupplied, htaken, hresembles⟩ :=
    htypes hclean wire.source member.port hsink
  refine ⟨supplied, taken, hsupplied, htaken, hresembles.frozen, ?_, ?_⟩
  · exact ⟨congrArg DataType.mutabilities, DataType.eq_of_frozen_eq hresembles.frozen⟩
  · intro hborrow
    -- a member that is wired now was wired before borrows were inserted
    obtain ⟨port, hport, -⟩ := (hplaced.inputs member hmember).port
    have hwired := (hplaced.mem_wiredIn_iff hc hmember).mpr (hrefined.woven.fed hport hsink)
    exact hresembles.eq (.inr (Context.mem_borrowedIn hgroup hborrow hwired))

/-! ## A selection that is narrowed -/

def keepReference : Signature where
  name := "keep_reference"
  parameters :=
    [{ name := "kept", direction := .input,
       type := .constructed .option (.reference .immutable 0 (.concrete .int32)) }]

namespace Graph

/-- One of two mutable references is selected, wrapped into an option and kept as an immutable
one. -/
def narrowedSelection : Graph :=
  leaves (connect 12 13) (leaves (connect 10 11) (leaves (connect 6 9) (leaves (connect 5 8)
    (leaves (connect 0 7) (leaves (connect 2 4) (leaves (connect 1 3)
      (leaves (addNode rootScope (.functional keepReference) false)
        (leaves (addNode rootScope (.functional .someConstructor) false)
          (leaves (addNode rootScope (.functional .selectReference) false)
            (leaves (addNode rootScope (.explicitBorrow true 2) false)
              (leaves (addNode rootScope (.constant .int32 true) false)
                (leaves (addNode rootScope (.constant .int32 true) false)
                  (leaves (addNode rootScope (.constant .bool false) false) empty)))))))))))))

theorem built_narrowedSelection : narrowedSelection.Built := by
  unfold narrowedSelection
  repeat apply Built.connect
  repeat apply Built.addNode
  exact .empty

/-- The selector is lent its value, and a choice takes what it is supplied with, but for its
mutability. -/
theorem matches_of_isClean_narrowedSelection : ∃ report after,
    infer {} narrowedSelection = (.ok report, after) ∧ report.isClean = true ∧
      after.wires[7]? = some { scope := rootScope, source := 15, sinks := [7] } ∧
        report.Matches 15 7 True ∧
          after.wires[3]? = some { scope := rootScope, source := 5, sinks := [8] } ∧
            report.Matches 5 8 False := by
  have hanswer : (infer {} narrowedSelection).1.toOption.any Report.isClean = true := by
    decide +kernel
  obtain ⟨report, hinfer, hclean⟩ := exists_report_of_isClean hanswer
  obtain ⟨context, hdecided, hmatches⟩ :=
    built_narrowedSelection.matches_of_isClean hinfer hclean
  have hgroups : (Inference.decided? {} narrowedSelection).map
      (fun context => context.groups.groups.toList.map fun group =>
        (group.members, group.decision.any Decision.isBorrow)) =
      some [([{ port := 7 }], true), ([{ port := 8 }, { port := 9 }], false)] := by
    decide +kernel
  rw [hdecided, Option.map_some, Option.some.injEq] at hgroups
  obtain ⟨selector, rest, hlist, hselector, hrest⟩ := List.map_eq_cons_iff.mp hgroups
  obtain ⟨choices, _, rfl, hchoices, -⟩ := List.map_eq_cons_iff.mp hrest
  obtain ⟨hselected, hlent⟩ := Prod.mk.inj hselector
  obtain ⟨hchosen, hreused⟩ := Prod.mk.inj hchoices
  have hget : context.groups.groups[0]? = some selector ∧
      context.groups.groups[1]? = some choices := by
    rw [← Array.getElem?_toList, ← Array.getElem?_toList, hlist]
    exact ⟨rfl, rfl⟩
  have hwires : (infer {} narrowedSelection).2.wires[7]? =
        some { scope := rootScope, source := 15, sinks := [7] } ∧
      (infer {} narrowedSelection).2.wires[3]? =
        some { scope := rootScope, source := 5, sinks := [8] } := by
    decide +kernel
  refine ⟨report, _, hinfer, hclean, hwires.1, ?_, hwires.2, ?_⟩
  · simpa [hlent] using hmatches 0 selector hget.1 { port := 7 } (by simp [hselected]) 7 _
      hwires.1 (by simp)
  · simpa [hreused] using hmatches 1 choices hget.2 { port := 8 } (by simp [hchosen]) 3 _
      hwires.2 (by simp)

/-- The choices are supplied as mutable references and taken as immutable ones by a polymorphic
group, and nothing is reported. -/
theorem not_type_eq_narrowedSelection :
    (infer {} narrowedSelection).1.toOption.any (fun report => report.isClean &&
      ((report.carried? 5).map Carried.type = some (.reference true .int32) &&
        (report.carried? 8).map Carried.type = some (.reference false .int32))) = true ∧
      (infer {} narrowedSelection).2.wires[3]? =
        some { scope := rootScope, source := 5, sinks := [8] } ∧
        (Inference.decided? {} narrowedSelection).any (fun context =>
          (context.groups.groups[1]?).any fun group =>
            group.policy = .polymorphic && group.members.any fun member => member.port = 8) =
              true := by
  decide +kernel

end Graph

end BorrowFlow
