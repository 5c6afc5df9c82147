import BorrowFlow.Proofs.Inference.Annotation
import BorrowFlow.Proofs.Inference.Unread
import BorrowFlow.Proofs.Term.Mismatches
import Mathlib.Algebra.GroupWithZero.Nat
import Mathlib.Data.Finset.Card

/-!
# Diagnostics are kept once and shown once

Diagnostics are reported one by one, or all those of a unification at a time. What a port keeps is
what was reported for it, without repetitions and in the order of first reports, so it depends on
the reports for that port only. Lists, counts and the printed text are read off the ports that have
something to show, in ascending order; the headings of the printed text are where the port changes.
No text that is printed on a line has a line break, so the printed text can be read line by line.
-/

namespace BorrowFlow

/-! ## Entries of maps -/

namespace IdMap

variable {α : Type} {map : IdMap α} {key : Nat} {value : α}

theorem get?_of_mem_entries (h : (key, value) ∈ map.entries) : map.get? key = some value := by
  obtain ⟨found, hfound⟩ : ∃ found, map.entries.find? (fun entry => entry.1 = key) = some found :=
    Option.isSome_iff_exists.mp (List.find?_isSome.mpr ⟨_, h, by simp⟩)
  have hkey : found.1 = key := by simpa using List.find?_some hfound
  have heq : found = (key, value) :=
    List.inj_on_of_nodup_map map.nodup_keys (List.mem_of_find?_eq_some hfound) h hkey
  rw [get?, hfound, heq]
  rfl

end IdMap

/-! ## What is kept -/

/-- A diagnostic that is reported is kept behind those that are there, unless it is one of them. -/
def Diagnostic.keep (kept : List Diagnostic) (diagnostic : Diagnostic) : List Diagnostic :=
  if diagnostic ∈ kept then kept else kept ++ [diagnostic]

/-- The list holds what was reported, each diagnostic once, in the order of the first reports. -/
structure FirstReports (reported kept : List Diagnostic) : Prop where
  nodup : kept.Nodup
  mem_iff : ∀ diagnostic, diagnostic ∈ kept ↔ diagnostic ∈ reported
  ordered : kept.Pairwise fun first second => reported.idxOf first < reported.idxOf second

theorem FirstReports.keep {reported kept : List Diagnostic} (h : FirstReports reported kept)
    (diagnostic : Diagnostic) :
    FirstReports (reported ++ [diagnostic]) (diagnostic.keep kept) := by
  have hold : kept.Pairwise fun first second =>
      (reported ++ [diagnostic]).idxOf first < (reported ++ [diagnostic]).idxOf second := by
    refine h.ordered.imp_of_mem fun hfirst hsecond hlt => ?_
    rwa [List.idxOf_append_of_mem ((h.mem_iff _).mp hfirst),
      List.idxOf_append_of_mem ((h.mem_iff _).mp hsecond)]
  unfold Diagnostic.keep
  split
  · rename_i hknown
    refine ⟨h.nodup, fun other => ?_, hold⟩
    rw [h.mem_iff, List.mem_append, List.mem_singleton]
    exact ⟨.inl, fun hmem => hmem.elim id fun heq => heq ▸ (h.mem_iff _).mp hknown⟩
  · rename_i hnew
    refine ⟨?_, fun other => ?_, ?_⟩
    · exact List.nodup_append.mpr ⟨h.nodup, List.nodup_singleton _, by grind⟩
    · rw [List.mem_append, List.mem_append, h.mem_iff]
    · refine List.pairwise_append.mpr ⟨hold, List.pairwise_singleton _ _, ?_⟩
      -- what is new was not reported before, so its first report is the last one
      intro other hother last hlast
      rw [List.mem_singleton.mp hlast, List.idxOf_append_of_mem ((h.mem_iff _).mp hother),
        List.idxOf_append_of_notMem (mt (h.mem_iff _).mpr hnew)]
      exact Nat.lt_add_right _ (List.idxOf_lt_length_iff.mpr ((h.mem_iff _).mp hother))

theorem firstReports_foldl_keep (reported : List Diagnostic) :
    FirstReports reported (reported.foldl Diagnostic.keep []) := by
  induction reported using List.reverseRecOn with
  | nil => exact ⟨List.nodup_nil, fun _ => Iff.rfl, .nil⟩
  | append_singleton reported diagnostic ih =>
    rw [List.foldl_append]
    exact ih.keep diagnostic

/-! ## Calls -/

/-- One call that reports something for a port. -/
inductive Call where
  | push (port : PortId) (diagnostic : Diagnostic)
  | record (port : PortId) (outcome : Outcome)

namespace Call

def port : Call → PortId
  | push port _ | record port _ => port

def diagnostics : Call → List Diagnostic
  | push _ diagnostic => [diagnostic]
  | record _ outcome => outcome.diagnostics

def run (diagnostics : Diagnostics) : Call → Diagnostics
  | push port diagnostic => diagnostics.push port diagnostic
  | record port outcome => diagnostics.record port outcome

end Call

/-- What some calls report for a port, one call after the other. -/
def reportedFor (port : PortId) (calls : List Call) : List Diagnostic :=
  (calls.filter fun call => call.port = port).flatMap Call.diagnostics

namespace Diagnostics

variable {diagnostics diagnostics' : Diagnostics}

def after (calls : List Call) : Diagnostics :=
  calls.foldl Call.run {}

section

variable (diagnostics : Diagnostics)

theorem forPort_push_eq_keep (port : PortId) (diagnostic : Diagnostic) (other : PortId) :
    (diagnostics.push port diagnostic).forPort other =
      if other = port then diagnostic.keep (diagnostics.forPort other)
      else diagnostics.forPort other := by
  rw [forPort_push]
  unfold Diagnostic.keep
  by_cases hother : other = port
  · subst hother
    by_cases hmem : diagnostic ∈ diagnostics.forPort other <;> simp [hmem]
  · simp [hother]

theorem forPort_foldl_push (port : PortId) (found : List Diagnostic) (other : PortId) :
    (found.foldl (fun diagnostics diagnostic => diagnostics.push port diagnostic)
        diagnostics).forPort other =
      if other = port then
        found.foldl Diagnostic.keep (diagnostics.forPort other)
      else diagnostics.forPort other := by
  induction found generalizing diagnostics with
  | nil => simp
  | cons first rest ih =>
    rw [List.foldl_cons, ih, forPort_push_eq_keep]
    split <;> rfl

theorem forPort_run (call : Call) (other : PortId) : (call.run diagnostics).forPort other =
      if other = call.port then
        call.diagnostics.foldl Diagnostic.keep (diagnostics.forPort other)
      else diagnostics.forPort other := by
  cases call with
  | push port diagnostic => exact forPort_push_eq_keep diagnostics port diagnostic other
  | record port outcome => exact forPort_foldl_push diagnostics port outcome.diagnostics other

theorem forPort_foldl_run (calls : List Call) (port : PortId) :
    (calls.foldl Call.run diagnostics).forPort port =
      (reportedFor port calls).foldl Diagnostic.keep (diagnostics.forPort port) := by
  induction calls generalizing diagnostics with
  | nil => rfl
  | cons call calls ih =>
    rw [List.foldl_cons, ih, forPort_run, reportedFor, reportedFor]
    by_cases hport : port = call.port
    · simp [hport]
    · simp [hport, Ne.symm hport]

end

theorem firstReports_after (calls : List Call) (port : PortId) :
    FirstReports (reportedFor port calls) ((after calls).forPort port) := by
  rw [after, forPort_foldl_run]
  exact firstReports_foldl_keep (reportedFor port calls)

/-! ## The ports that have something to show -/

/-- A port is listed only if it has diagnostics. -/
def Filled (diagnostics : Diagnostics) : Prop :=
  ∀ port, diagnostics.byPort.contains port = true → diagnostics.forPort port ≠ []

theorem Filled.push (h : diagnostics.Filled) (port : PortId) (diagnostic : Diagnostic) :
    (diagnostics.push port diagnostic).Filled := by
  intro other hlisted
  rw [forPort_push_eq_keep]
  by_cases hother : other = port
  · rw [if_pos hother, Diagnostic.keep]
    split
    · rename_i hmem
      exact List.ne_nil_of_mem hmem
    · simp
  · rw [if_neg hother]
    refine h other ?_
    unfold Diagnostics.push at hlisted
    dsimp only at hlisted
    split at hlisted
    · exact hlisted
    · exact ((IdMap.contains_insert _ _ _ _).mp hlisted).resolve_left hother

theorem Filled.run (h : diagnostics.Filled) (call : Call) : (call.run diagnostics).Filled := by
  cases call with
  | push port diagnostic => exact h.push port diagnostic
  | record port outcome =>
    change (outcome.diagnostics.foldl _ diagnostics).Filled
    generalize outcome.diagnostics = found
    induction found generalizing diagnostics with
    | nil => exact h
    | cons first rest ih => exact ih (h.push port first)

theorem filled_after (calls : List Call) : (after calls).Filled := by
  have hrun : ∀ (calls : List Call) (diagnostics : Diagnostics), diagnostics.Filled →
      (calls.foldl Call.run diagnostics).Filled := by
    intro calls
    induction calls with
    | nil => exact fun _ h => h
    | cons call calls ih => exact fun diagnostics h => ih _ (h.run call)
  exact hrun calls {} fun port hlisted => by cases hlisted

def ports (diagnostics : Diagnostics) : List PortId := diagnostics.byPort.keys

section

variable (diagnostics : Diagnostics)

theorem pairwise_ports : diagnostics.ports.Pairwise (· < ·) :=
  List.pairwise_map.mpr diagnostics.byPort.ascending

theorem nodup_ports : diagnostics.ports.Nodup :=
  diagnostics.byPort.nodup_keys

theorem entries_eq : diagnostics.byPort.entries =
      diagnostics.ports.map fun port => (port, diagnostics.forPort port) := by
  have hself : diagnostics.byPort.entries.map
      (fun entry => (entry.1, diagnostics.forPort entry.1)) =
        diagnostics.byPort.entries.map id := by
    apply List.map_congr_left
    rintro ⟨port, found⟩ hmem
    rw [forPort, IdMap.get?_of_mem_entries hmem]
    rfl
  rw [ports, IdMap.keys, List.map_map]
  exact (hself.trans (List.map_id _)).symm

theorem sorted_eq : diagnostics.sorted = diagnostics.ports.flatMap fun port =>
      (diagnostics.forPort port).map fun diagnostic => (port, diagnostic) := by
  rw [sorted, entries_eq, List.flatMap_map]

theorem portCount_eq : diagnostics.portCount = diagnostics.ports.length := by
  rw [portCount, IdMap.size, ports, IdMap.keys, List.length_map]

theorem size_eq_sum : diagnostics.size =
      (diagnostics.ports.map fun port => (diagnostics.forPort port).length).sum := by
  rw [size, sorted_eq, List.length_flatMap]
  simp

theorem isEmpty_iff_ports : diagnostics.isEmpty = true ↔ diagnostics.ports = [] := by
  rw [isEmpty, IdMap.isEmpty, List.isEmpty_iff, ports, IdMap.keys, List.map_eq_nil_iff]

theorem pairwise_sorted : diagnostics.sorted.Pairwise fun first second => first.1 ≤ second.1 := by
  rw [sorted_eq, List.pairwise_flatMap]
  constructor
  · intro port _
    refine List.pairwise_map.mpr (List.pairwise_of_forall ?_)
    exact fun _ _ => Nat.le_refl port
  · refine diagnostics.pairwise_ports.imp fun hlt => ?_
    intro first hfirst second hsecond
    obtain ⟨_, -, rfl⟩ := List.mem_map.mp hfirst
    obtain ⟨_, -, rfl⟩ := List.mem_map.mp hsecond
    exact Nat.le_of_lt hlt

end

theorem Filled.mem_ports_iff (h : diagnostics.Filled) (port : PortId) :
    port ∈ diagnostics.ports ↔ diagnostics.forPort port ≠ [] := by
  rw [ports, ← IdMap.contains_iff_mem_keys]
  refine ⟨h port, fun hne => ?_⟩
  rw [IdMap.contains, Option.isSome_iff_ne_none]
  intro hnone
  exact hne (by rw [forPort, hnone]; rfl)

theorem mem_sorted_iff (h : diagnostics.Filled) (port : PortId) (diagnostic : Diagnostic) :
    (port, diagnostic) ∈ diagnostics.sorted ↔ diagnostic ∈ diagnostics.forPort port := by
  rw [sorted_eq]
  simp only [List.mem_flatMap, List.mem_map, Prod.mk.injEq, h.mem_ports_iff]
  constructor
  · rintro ⟨_, _, _, hmem, rfl, rfl⟩
    exact hmem
  · exact fun hmem => ⟨port, List.ne_nil_of_mem hmem, diagnostic, hmem, rfl, rfl⟩

theorem nodup_sorted (h : ∀ port, (diagnostics.forPort port).Nodup) : diagnostics.sorted.Nodup := by
  rw [sorted_eq, List.nodup_flatMap]
  constructor
  · exact fun port _ => (h port).map fun _ _ heq => (Prod.mk.inj heq).2
  · refine diagnostics.pairwise_ports.imp fun hlt => ?_
    intro pair hfirst hsecond
    obtain ⟨_, -, rfl⟩ := List.mem_map.mp hfirst
    obtain ⟨_, -, heq⟩ := List.mem_map.mp hsecond
    exact Nat.ne_of_gt hlt (Prod.mk.inj heq).1

theorem map_fst_sorted_toFinset (h : diagnostics.Filled) :
    (diagnostics.sorted.map Prod.fst).toFinset = diagnostics.ports.toFinset := by
  ext port
  rw [List.mem_toFinset, List.mem_toFinset, h.mem_ports_iff, List.mem_map]
  constructor
  · rintro ⟨⟨_, diagnostic⟩, hmem, rfl⟩
    exact List.ne_nil_of_mem ((mem_sorted_iff h _ _).mp hmem)
  · intro hne
    obtain ⟨diagnostic, hmem⟩ := List.exists_mem_of_ne_nil _ hne
    exact ⟨(port, diagnostic), (mem_sorted_iff h _ _).mpr hmem, rfl⟩

theorem Filled.entries_ext (h : diagnostics.Filled) (h' : diagnostics'.Filled)
    (heq : ∀ port, diagnostics'.forPort port = diagnostics.forPort port) :
    diagnostics'.byPort.entries = diagnostics.byPort.entries := by
  have hports : diagnostics'.ports = diagnostics.ports := by
    refine (pairwise_ports _).eq_of_mem_iff (pairwise_ports _) fun port => ?_
    exact (h'.mem_ports_iff port).trans (heq port ▸ (h.mem_ports_iff port).symm)
  rw [entries_eq, entries_eq, hports]
  exact List.map_congr_left fun port _ => by rw [heq]

end Diagnostics

/-! ## Lines of a text -/

/-- A text without a line break. -/
def OneLine (text : String) : Prop := '\n' ∉ text.toList

instance (text : String) : Decidable (OneLine text) :=
  inferInstanceAs (Decidable ('\n' ∉ text.toList))

/-- The lines of a text that are not empty. -/
def linesOf (text : String) : List String :=
  ((text.toList.splitOn '\n').filter (· ≠ [])).map String.ofList

theorem linesOf_newline (text : String) : linesOf ("\n" ++ text) = linesOf text := by
  have hempty : ('\n' :: text.toList).splitOn '\n' = [] :: text.toList.splitOn '\n' :=
    List.splitOn_append_cons_self_of_not_mem List.not_mem_nil _
  simp [linesOf, hempty]

namespace OneLine

theorem linesOf_append {line : String} (hline : OneLine line) (hne : line ≠ "") (text : String) :
    linesOf (line ++ "\n" ++ text) = line :: linesOf text := by
  simp [linesOf, String.append_assoc, List.splitOn_append_cons_self_of_not_mem hline, hne]

theorem append {first second : String} (hfirst : OneLine first) (hsecond : OneLine second) :
    OneLine (first ++ second) := by
  rw [OneLine, String.toList_append, List.mem_append]
  exact not_or.mpr ⟨hfirst, hsecond⟩

theorem number (n : Nat) : OneLine (toString n) := by
  rw [OneLine, Nat.toString_eq_repr, Nat.toList_repr]
  intro hmem
  exact absurd (Nat.isDigit_of_mem_toDigits (by decide) (by decide) hmem) (by decide)

theorem type (type : DataType) : OneLine type.text := by
  induction type with
  | constructed head argument ih =>
    have hname : OneLine head.name := by cases head <;> decide
    exact ((hname.append (by decide)).append ih).append (by decide)
  | reference mutable referent ih => cases mutable <;> exact .append (by decide) ih
  | _ => decide

end OneLine

/-! ## The lines that are printed -/

/-- The line above the diagnostics of a port: its name, after a sign of disapproval. -/
def headingLine (port : PortId) : String :=
  "(ಠ_ಠ) \x1b[2m\x1b[35mport" ++ toString port ++ "\x1b[0m"

theorem say_heading (port : PortId) :
    say [plain "\n(ಠ_ಠ) ", styled [.dark, .magenta] (portName port)] =
      "\n" ++ headingLine port ++ "\n" := by
  have hstart : "\n(ಠ_ಠ) " ++ "\x1b[2m" ++ "\x1b[35m" ++ "port" =
      "\n" ++ "(ಠ_ಠ) \x1b[2m\x1b[35mport" := by decide
  have hend : "\x1b[0m\n" = "\x1b[0m" ++ "\n" := by decide
  have hname : portName port = "port" ++ toString port := rfl
  -- not by the equation of `headingLine`: deriving that one evaluates the texts
  unfold headingLine say
  rw [hname, hend]
  generalize toString port = number
  simp only [plain, styled, Fragment.printed, Style.code, List.map_cons, List.map_nil,
    String.join_cons, String.join_nil, String.append_empty, String.empty_append,
    ← String.append_assoc, hstart]

theorem oneLine_headingLine (port : PortId) : OneLine (headingLine port) :=
  (OneLine.append (by decide) (.number port)).append (by decide)

theorem headingLine_ne_empty (port : PortId) : headingLine port ≠ "" := by
  unfold headingLine
  simp

theorem headingLine_injective : Function.Injective headingLine := by
  intro first second h
  have hnumber : toString first = toString second :=
    (String.append_right_inj _).mp ((String.append_left_inj _).mp h)
  have hdigits := congrArg String.toList hnumber
  rw [Nat.toString_eq_repr, Nat.toString_eq_repr, Nat.toList_repr, Nat.toList_repr] at hdigits
  have hread := congrArg (Nat.ofDigitChars 10 · 0) hdigits
  rwa [Nat.ofDigitChars_toDigits (by decide) (by decide),
    Nat.ofDigitChars_toDigits (by decide) (by decide)] at hread

namespace Diagnostic

variable {first second : Diagnostic}

/-- What a line of a diagnostic begins with, with the colour that is switched on for it. -/
def label : Diagnostic → String
  | typeMismatch .. => "\x1b[31m  Type Error: "
  | notMutable => "\x1b[31m  Mutability: "
  | failedConstraint _ => "\x1b[31m  Constraint: "
  | featureDisabled _ => "\x1b[33m  Disabled: "

def line (diagnostic : Diagnostic) : String :=
  diagnostic.label ++ diagnostic.message ++ "\x1b[0m"

theorem printed_eq_line (diagnostic : Diagnostic) :
    diagnostic.printed = diagnostic.line ++ "\n" := by
  apply String.toList_inj.mp
  cases diagnostic <;>
    simp [printed, line, label, say, Fragment.printed, styled, plain, Style.code]

theorem oneLine_line (diagnostic : Diagnostic) : OneLine diagnostic.line := by
  have hlabel : OneLine diagnostic.label := by cases diagnostic <;> simp [OneLine, label]
  have hmessage : OneLine diagnostic.message := by
    cases diagnostic with
    | typeMismatch expected found =>
      have hexpected : OneLine ("Expected a value of type '" ++ expected.text ++ "' but found '") :=
        .append (.append (by decide) (.type expected)) (by decide)
      exact (hexpected.append (.type found)).append (by decide)
    | notMutable => decide
    | failedConstraint constraint => cases constraint <;> decide
    | featureDisabled head => cases head <;> decide
  exact (hlabel.append hmessage).append (by decide)

theorem line_ne_empty (diagnostic : Diagnostic) : diagnostic.line ≠ "" := by
  unfold line
  simp

theorem headingLine_ne_line (port : PortId) (diagnostic : Diagnostic) :
    headingLine port ≠ diagnostic.line := by
  intro h
  have hstart := congrArg (fun text => text.toList.head?) h
  unfold headingLine line at hstart
  cases diagnostic <;> simp [label] at hstart

/-- Eight characters are enough to tell the labels apart. -/
theorem label_eq_of_line_eq (h : first.line = second.line) : first.label = second.label := by
  have hstart := congrArg (fun text => text.toList.take 8) h
  unfold line at hstart
  cases first <;> cases second <;> simp [label] at hstart ⊢

theorem toList_message_typeMismatch (expected found : DataType) :
    (typeMismatch expected found).message.toList = "Expected a value of type '".toList ++
      (expected.text.toList ++ ("' but found '".toList ++ (found.text.toList ++ "'".toList))) := by
  change String.toList ("Expected a value of type '" ++ expected.text ++ "' but found '" ++
    found.text ++ "'") = _
  simp only [String.toList_append, List.append_assoc]

theorem line_injective : Function.Injective line := by
  intro first second h
  have hlabel := label_eq_of_line_eq h
  unfold line at h
  rw [hlabel] at h
  have hmessage : first.message = second.message :=
    (String.append_right_inj _).mp ((String.append_left_inj _).mp h)
  cases first with
  | typeMismatch expected found =>
    cases second with
    | typeMismatch expected' found' =>
      have hchars := congrArg String.toList hmessage
      rw [toList_message_typeMismatch, toList_message_typeMismatch] at hchars
      obtain ⟨rfl, hrest⟩ := DataType.text_append_inj (List.append_cancel_left hchars)
      obtain ⟨rfl, -⟩ := DataType.text_append_inj (List.append_cancel_left hrest)
      rfl
    | _ => simp [label] at hlabel
  | notMutable => cases second <;> simp [label] at hlabel ⊢
  | failedConstraint constraint =>
    cases second with
    | failedConstraint constraint' =>
      revert hmessage
      cases constraint <;> cases constraint' <;> decide
    | _ => simp [label] at hlabel
  | featureDisabled head =>
    cases second with
    | featureDisabled head' =>
      revert hmessage
      cases head <;> cases head' <;> decide
    | _ => simp [label] at hlabel

end Diagnostic

/-! ## The printed text -/

/-- The lines of some diagnostics, each with its line break. -/
def listing (found : List Diagnostic) : String :=
  String.join (found.map fun diagnostic => diagnostic.line ++ "\n")

theorem linesOf_listing_append (found : List Diagnostic) (rest : String) :
    linesOf (listing found ++ rest) = found.map Diagnostic.line ++ linesOf rest := by
  induction found with
  | nil => simp [listing]
  | cons diagnostic found ih =>
    have hline := diagnostic.oneLine_line.linesOf_append diagnostic.line_ne_empty
    rw [listing, List.map_cons, String.join_cons, String.append_assoc, hline]
    exact congrArg _ ih

/-- A heading after an empty line, and the diagnostics of the port below it. -/
def block (port : PortId) (found : List Diagnostic) : String :=
  "\n" ++ headingLine port ++ "\n" ++ listing found

theorem linesOf_blocks (ports : List PortId) (shown : PortId → List Diagnostic) :
    linesOf (String.join (ports.map fun port => block port (shown port))) =
      ports.flatMap fun port => headingLine port :: (shown port).map Diagnostic.line := by
  induction ports with
  | nil => simp [linesOf]
  | cons port ports ih =>
    have hheading := (oneLine_headingLine port).linesOf_append (headingLine_ne_empty port)
    rw [List.map_cons, String.join_cons, block, String.append_assoc, String.append_assoc,
      String.append_assoc, linesOf_newline, ← String.append_assoc, hheading,
      linesOf_listing_append, ih]
    rfl

/-- Headings differ from all other lines, so every port's heading is there as often as the port. -/
theorem count_headingLine (ports : List PortId) (shown : PortId → List Diagnostic) (port : PortId) :
    (ports.flatMap fun port => headingLine port :: (shown port).map Diagnostic.line).count
      (headingLine port) = ports.count port := by
  induction ports with
  | nil => rfl
  | cons first ports ih =>
    have hnone : ((shown first).map Diagnostic.line).count (headingLine port) = 0 := by
      refine List.count_eq_zero.mpr fun hmem => ?_
      obtain ⟨diagnostic, -, hline⟩ := List.mem_map.mp hmem
      exact diagnostic.headingLine_ne_line port hline.symm
    simp only [List.flatMap_cons, List.count_append, List.count_cons, hnone, ih, beq_iff_eq,
      headingLine_injective.eq_iff]
    omega

/-- Prints diagnostics one by one, with a heading wherever the port is not the one before. -/
def printedFrom (current : Option PortId) : List (PortId × Diagnostic) → String
  | [] => ""
  | (port, diagnostic) :: rest =>
    (if current = some port then "" else "\n" ++ headingLine port ++ "\n") ++
      (diagnostic.line ++ "\n") ++ printedFrom (some port) rest

theorem printedFrom_of_port (port : PortId) (found : List Diagnostic)
    (rest : List (PortId × Diagnostic)) :
    printedFrom (some port) (found.map (fun diagnostic => (port, diagnostic)) ++ rest) =
      listing found ++ printedFrom (some port) rest := by
  induction found with
  | nil => simp [listing]
  | cons diagnostic found ih => simp [printedFrom, ih, listing, String.append_assoc]

/-- A block begins where the port changes: what was printed before was for another port. -/
theorem printedFrom_flatMap {ports : List PortId} (hnodup : ports.Nodup)
    {shown : PortId → List Diagnostic} (hshown : ∀ port ∈ ports, shown port ≠ [])
    {current : Option PortId} (hcurrent : ∀ port ∈ ports, current ≠ some port) :
    printedFrom current (ports.flatMap fun port =>
        (shown port).map fun diagnostic => (port, diagnostic)) =
      String.join (ports.map fun port => block port (shown port)) := by
  induction ports generalizing current with
  | nil => rfl
  | cons port ports ih =>
    obtain ⟨hnew, hnodup⟩ := List.nodup_cons.mp hnodup
    obtain ⟨hnonempty, hshown⟩ := List.forall_mem_cons.mp hshown
    obtain ⟨first, found, hfound⟩ := List.exists_cons_of_ne_nil hnonempty
    have hrest : ∀ other ∈ ports, some port ≠ some other := by
      rintro other hother ⟨⟩
      exact hnew hother
    rw [List.flatMap_cons, hfound, List.map_cons, List.cons_append, printedFrom,
      if_neg (hcurrent port List.mem_cons_self), printedFrom_of_port, ih hnodup hshown hrest]
    simp [hfound, block, listing, String.append_assoc]

namespace Diagnostics

variable {diagnostics : Diagnostics}

theorem printed_eq (diagnostics : Diagnostics) :
    diagnostics.printed =
      String.join (diagnostics.ports.map fun port => block port (diagnostics.forPort port)) := by
  have hline : Diagnostic.printed = fun diagnostic => diagnostic.line ++ "\n" :=
    funext Diagnostic.printed_eq_line
  rw [printed, entries_eq, List.map_map, hline]
  apply congrArg String.join
  exact List.map_congr_left fun port _ => congrArg (· ++ _) (say_heading port)

theorem Filled.printedFrom_sorted (h : diagnostics.Filled) :
    printedFrom none diagnostics.sorted = diagnostics.printed := by
  rw [printed_eq, sorted_eq]
  refine printedFrom_flatMap diagnostics.nodup_ports (fun port hport => ?_) nofun
  exact (h.mem_ports_iff port).mp hport

/-- After any calls: a port keeps what was reported for it, each diagnostic once and in the order of
first reports. The sorted list has everything that is kept once, by ascending ports, and depends
only on what the calls for each port are, not on how calls for different ports alternate; the counts
are those of the list. What is printed is one block for each port that something was reported for,
by ascending ports. Read line by line it is the heading of the port, with its number, and below it
what the port keeps, each diagnostic with its message; no two ports have the same heading, no two
diagnostics the same line, and no line of a diagnostic is a heading, so there is one heading for
each of these ports and none for others. They are the headings that come out if one is printed
wherever the port changes in the sorted list. -/
theorem after_shows (calls : List Call) :
    let diagnostics := after calls
    (∀ port, FirstReports (reportedFor port calls) (diagnostics.forPort port)) ∧
      (diagnostics.sorted.Nodup ∧
        (∀ port diagnostic, (port, diagnostic) ∈ diagnostics.sorted ↔
          diagnostic ∈ diagnostics.forPort port) ∧
        diagnostics.sorted.Pairwise fun first second => first.1 ≤ second.1) ∧
      (∀ calls', (∀ port, calls'.filter (fun call => call.port = port) =
          calls.filter fun call => call.port = port) →
        (after calls').sorted = diagnostics.sorted) ∧
      (diagnostics.size = diagnostics.sorted.length ∧
        diagnostics.portCount = (diagnostics.sorted.map Prod.fst).toFinset.card ∧
        (diagnostics.isEmpty = true ↔ diagnostics.sorted = [])) ∧
      ∃ ports : List PortId, ports.Pairwise (· < ·) ∧
        (∀ port, port ∈ ports ↔ reportedFor port calls ≠ []) ∧
        diagnostics.sorted = (ports.flatMap fun port =>
          (diagnostics.forPort port).map fun diagnostic => (port, diagnostic)) ∧
        diagnostics.size = (ports.map fun port => (diagnostics.forPort port).length).sum ∧
        diagnostics.printed =
          String.join (ports.map fun port => block port (diagnostics.forPort port)) ∧
        linesOf diagnostics.printed = (ports.flatMap fun port =>
          headingLine port :: (diagnostics.forPort port).map Diagnostic.line) ∧
        (∀ port, (linesOf diagnostics.printed).count (headingLine port) =
          if reportedFor port calls = [] then 0 else 1) ∧
        diagnostics.printed = printedFrom none diagnostics.sorted ∧
        (Function.Injective headingLine ∧ Function.Injective Diagnostic.line ∧
          ∀ port diagnostic, headingLine port ≠ Diagnostic.line diagnostic) := by
  intro diagnostics
  have hfirst : ∀ port, FirstReports (reportedFor port calls) (diagnostics.forPort port) :=
    firstReports_after calls
  have hfilled : diagnostics.Filled := filled_after calls
  have hports : ∀ port, port ∈ diagnostics.ports ↔ reportedFor port calls ≠ [] := by
    intro port
    rw [hfilled.mem_ports_iff, not_iff_not, List.eq_nil_iff_forall_not_mem,
      List.eq_nil_iff_forall_not_mem]
    simp only [(hfirst port).mem_iff]
  have hlines : linesOf diagnostics.printed = diagnostics.ports.flatMap fun port =>
      headingLine port :: (diagnostics.forPort port).map Diagnostic.line := by
    rw [diagnostics.printed_eq, linesOf_blocks]
  refine ⟨hfirst, ⟨nodup_sorted fun port => (hfirst port).nodup, mem_sorted_iff hfilled,
    diagnostics.pairwise_sorted⟩, fun calls' hsame => ?_, ⟨rfl, ?_, ?_⟩, diagnostics.ports,
    diagnostics.pairwise_ports, hports, diagnostics.sorted_eq, diagnostics.size_eq_sum,
    diagnostics.printed_eq, hlines, fun port => ?_, hfilled.printedFrom_sorted.symm,
    headingLine_injective, Diagnostic.line_injective, Diagnostic.headingLine_ne_line⟩
  · have hkept : ∀ port, (after calls').forPort port = diagnostics.forPort port := by
      intro port
      rw [after, forPort_foldl_run, reportedFor, hsame port]
      exact (forPort_foldl_run {} calls port).symm
    rw [sorted, sorted, hfilled.entries_ext (filled_after calls') hkept]
  · rw [map_fst_sorted_toFinset hfilled, List.toFinset_card_of_nodup diagnostics.nodup_ports,
      portCount_eq]
  · rw [isEmpty_iff_ports, sorted_eq, List.flatMap_eq_nil_iff]
    constructor
    · intro hnone port hport
      rw [hnone] at hport
      cases hport
    · intro hall
      apply List.eq_nil_iff_forall_not_mem.mpr
      intro port hport
      exact (hfilled.mem_ports_iff port).mp hport (List.map_eq_nil_iff.mp (hall port hport))
  · rw [hlines, count_headingLine, diagnostics.nodup_ports.count]
    simp only [hports, ite_not]

def twoProblems : Outcome :=
  { mismatches := [(.int32, .bool)], expectedMutable := true }

/-- Calls for two ports in turn. The last one repeats what was reported for its port before. -/
def alternatingCalls : List Call :=
  [.push 4 (.featureDisabled .vector), .record 1 twoProblems, .push 4 .notMutable,
    .push 1 .notMutable]

/-- The same calls, those for port one before those for port four. -/
def groupedCalls : List Call :=
  [.record 1 twoProblems, .push 1 .notMutable, .push 4 (.featureDisabled .vector),
    .push 4 .notMutable]

theorem after_shows_alternatingCalls :
    (∀ port, groupedCalls.filter (fun call => call.port = port) =
        alternatingCalls.filter fun call => call.port = port) ∧
      (after groupedCalls).sorted = (after alternatingCalls).sorted ∧
      (after alternatingCalls).sorted = [(1, .typeMismatch .int32 .bool), (1, .notMutable),
        (4, .featureDisabled .vector), (4, .notMutable)] ∧
      (after alternatingCalls).portCount = 2 ∧
      (after alternatingCalls).printed =
        "\n(ಠ_ಠ) \x1b[2m\x1b[35mport1\x1b[0m\n" ++
        "\x1b[31m  Type Error: Expected a value of type 'Int32' but found 'Bool'\x1b[0m\n" ++
        "\x1b[31m  Mutability: This input needs a mutable value but the value supplied is not " ++
          "mutable\x1b[0m\n" ++
        "\n(ಠ_ಠ) \x1b[2m\x1b[35mport4\x1b[0m\n" ++
        "\x1b[33m  Disabled: 'Vector' values are disabled in this configuration\x1b[0m\n" ++
        "\x1b[31m  Mutability: This input needs a mutable value but the value supplied is not " ++
          "mutable\x1b[0m\n" := by
  have hsame : ∀ port, groupedCalls.filter (fun call => call.port = port) =
      alternatingCalls.filter fun call => call.port = port := by
    intro port
    by_cases hfirst : 1 = port
    · subst hfirst
      rfl
    · by_cases hsecond : 4 = port
      · subst hsecond
        rfl
      · simp [groupedCalls, alternatingCalls, Call.port, hfirst, hsecond]
  exact ⟨hsame, (after_shows alternatingCalls).2.2.1 groupedCalls hsame, by decide, by decide,
    by decide +kernel⟩

end Diagnostics

end BorrowFlow
