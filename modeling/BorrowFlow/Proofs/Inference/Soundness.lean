import BorrowFlow.Proofs.Inference.Preservation

/-!
# Soundness of a clean report

If nothing is reported, then the ports at the two ends of every wire carry values of one type. The
wires that the second pass leaves match, and inserting borrows keeps them so: a port of an added
node shows what the port that it was put next to showed on that side.
-/

namespace BorrowFlow

variable {g before : Graph} {fixed : Prop} {ctx : Context} {lent : List PortId}

/-! ## Insertion keeps types matched -/

namespace Graph

variable {g' : Graph} {scope : ScopeId} {host n : NodeId} {index : Nat}
  {id source sink input output : PortId} {flows : FlowStore} {todo : List PortId}
  {facades : Facades} {facade : Facade}

/-- In front of a borrowed input there is the value on one side of the added node, and the reference
on the other. -/
theorem Matched.of_spliced (h : g.Matched fixed flows lent (sink :: todo) facades)
    (hc : g.Consistent) (hv : before.Vacancy g n scope index input output)
    (hspliced : g.Spliced sink input output g')
    (hfacade : facades.get? sink = some facade) (hsink : sink ∉ todo) (hinput : input ∉ lent) :
    g'.Matched fixed flows lent todo ((facades.set input (.simple facade.wireSide)).set output
      (.simple facade.nodeSide)) := by
  have hne := hv.input_faces.ne hv.output_faces
  -- no sink of the graph is one of the two ports
  have hsinks : ∀ {x id : PortId}, id ∈ g.sinksAt x → id ≠ input ∧ id ≠ output := by
    intro x id hid
    refine ⟨?_, hv.output_faces.ne_sink hc hid⟩
    rintro rfl
    exact hv.input_free x hid
  intro x id hid
  obtain ⟨heq, rfl⟩ | ⟨hx, ⟨rfl, hold⟩ | ⟨ho, hold⟩⟩ := hspliced.of_mem hid
  · obtain ⟨source, hsource⟩ := hspliced.wired
    obtain ⟨hin, hout⟩ := hsinks hsource
    refine ⟨.simple facade.nodeSide, facade, ?_, ?_, ?_⟩
    · simp [heq]
    · simp [hin, hout, hfacade]
    · rw [if_neg hsink]
      exact .refl _ _
  · obtain ⟨first, second, hfirst, hsecond, htype⟩ := h x sink hold
    cases hfacade.symm.trans hsecond
    have hx' := hv.input_faces.ne_source hc hold
    refine ⟨first, .simple facade.wireSide, ?_, ?_, ?_⟩
    · simp [hx, hx', hfirst]
    · simp [hne]
    · simpa [hinput] using htype
  · obtain ⟨first, second, hfirst, hsecond, htype⟩ := h x id hold
    have hx' := hv.input_faces.ne_source hc hold
    obtain ⟨hin, hout⟩ := hsinks hold
    refine ⟨first, second, ?_, ?_, ?_⟩
    · simp [hx, hx', hfirst]
    · simp [hin, hout, hsecond]
    · simpa [ho] using htype

/-- Behind an output that hands something back there is the reference on one side of the added node,
and what was borrowed on the other. -/
theorem Matched.of_splicedAfter (h : g.Matched fixed flows lent todo facades)
    (hc : g.Consistent) (hv : before.Vacancy g n scope index input output)
    (hfaces : g.Faces .output scope host source)
    (hspliced : g.SplicedAfter source input output g')
    (hfacade : facades.get? source = some facade) (ho : source ≠ output) :
    g'.Matched fixed flows lent todo (((facades.set source (.simple facade.nodeSide)).set input
      (.simple facade.nodeSide)).set output (.simple facade.wireSide)) := by
  have hne := hv.input_faces.ne hv.output_faces
  have hne' := hv.input_faces.ne hfaces
  have hsinks : ∀ {x id : PortId}, id ∈ g.sinksAt x → id ≠ source ∧ id ≠ input ∧ id ≠ output := by
    intro x id hid
    refine ⟨hfaces.ne_sink hc hid, ?_, hv.output_faces.ne_sink hc hid⟩
    rintro rfl
    exact hv.input_free x hid
  intro x id hid
  obtain ⟨heq, rfl⟩ | ⟨hx, ⟨heq, hid⟩ | ⟨hx', hid⟩⟩ := hspliced.of_mem hid
  · refine ⟨.simple facade.nodeSide, .simple facade.nodeSide, ?_, ?_, ?_⟩
    · simp [heq, ho, hne'.symm]
    · simp [hne]
    · simpa using DataType.Resembles.refl _ _
  · obtain ⟨first, second, hfirst, hsecond, htype⟩ := h source id hid
    cases hfacade.symm.trans hfirst
    obtain ⟨hback, hin, hout⟩ := hsinks hid
    refine ⟨.simple facade.wireSide, second, ?_, ?_, htype⟩
    · simp [heq]
    · simp [hback, hin, hout, hsecond]
  · obtain ⟨first, second, hfirst, hsecond, htype⟩ := h x id hid
    obtain ⟨hback, hin, hout⟩ := hsinks hid
    have hx'' := hv.input_faces.ne_source hc hid
    refine ⟨first, second, ?_, ?_, htype⟩
    · simp [hx, hx', hx'', hfirst]
    · simp [hback, hin, hout, hsecond]

theorem Matched.of_joined {flow : FlowId} (h : g.Matched fixed flows lent todo facades)
    (hjoined : g.Joined output input g')
    (hflow : facades.get? output = some (.simple flow)) :
    g'.Matched fixed flows lent todo (facades.set input (.simple flow)) := by
  have hinput : input ∈ g'.sinksAt output := by simp [hjoined.sinksAt]
  obtain ⟨_, port, -, hport, -, hdirection, -⟩ := hjoined.consistent.ends hinput
  intro x id hid
  -- the sources of wires are outputs
  have hx : x ≠ input := by
    rintro rfl
    obtain ⟨found, _, hf, -, houtput, -⟩ := hjoined.consistent.ends hid
    cases hport.symm.trans hf
    cases hdirection.symm.trans houtput
  obtain ⟨rfl, rfl⟩ | hid := hjoined.of_mem hid
  · exact ⟨.simple flow, .simple flow, by simp [hx, hflow], by simp, by
      simpa using DataType.Resembles.refl _ _⟩
  · obtain ⟨first, second, hfirst, hsecond, htype⟩ := h x id hid
    have hne : id ≠ input := by
      rintro rfl
      exact hjoined.free x hid
    exact ⟨first, second, by simp [hx, hfirst], by simp [hne, hsecond], htype⟩

end Graph

theorem Insertion.kept_matched (hlent : ∀ port ∈ lent, ∃ data, before.ports[port]? = some data)
    (fixed : Prop) (flows : FlowStore) :
    Kept before fun todo g facades => todo.Nodup ∧
      g.Matched fixed flows lent todo facades where
  settle := by
    rintro todo g facades scope kind hwoven ⟨hnodup, hmatched⟩
    refine ⟨hnodup, fun source sink hsink => ?_⟩
    rw [(hwoven.consistent.settle _ 0 {}).2] at hsink
    exact hmatched source sink hsink
  borrow := by
    rintro todo g g' facades facade n host scope index sink input output hwoven hv -
      hspliced hfacade ⟨hnodup, hmatched⟩
    obtain ⟨hsink, hnodup'⟩ := List.nodup_cons.mp hnodup
    have hinput : input ∉ lent := by
      intro hm
      obtain ⟨data, hd⟩ := hlent input hm
      exact (hwoven.ne_of_passes hd hv.base hv.passes).1 rfl
    exact ⟨hnodup', hmatched.of_spliced hwoven.consistent hv hspliced hfacade hsink hinput⟩
  terminate := by
    rintro todo g g' facades facade n host scope index source input output hwoven hv hfaces
      hspliced hfacade ⟨hnodup, hmatched⟩
    obtain ⟨port, hport, -⟩ := hfaces.port
    have hne := (hwoven.ne_of_passes hport hv.base hv.passes).2
    exact ⟨hnodup, hmatched.of_splicedAfter hwoven.consistent hv
      (hfaces.of_keeps hwoven.original hwoven.keeps) hspliced hfacade hne⟩
  drop := by
    rintro todo g g' facades flow input output - hjoined hflow ⟨hnodup, hmatched⟩
    exact ⟨hnodup, hmatched.of_joined hjoined hflow⟩

theorem Insertion.Kept.imp {assertion : Assertion} (h : Kept before assertion) (condition : Prop) :
    Kept before fun todo g facades => condition → assertion todo g facades where
  settle scope kind hwoven hholds hcondition := h.settle scope kind hwoven (hholds hcondition)
  borrow hwoven hv hfaces hspliced hfacade hholds hcondition :=
    h.borrow hwoven hv hfaces hspliced hfacade (hholds hcondition)
  terminate hwoven hv hfaces hspliced hfacade hholds hcondition :=
    h.terminate hwoven hv hfaces hspliced hfacade (hholds hcondition)
  drop hwoven hjoined hflow hholds hcondition := h.drop hwoven hjoined hflow (hholds hcondition)

/-! ## Inputs to be borrowed -/

theorem BorrowGroup.borrowedIn_sublist (group : BorrowGroup) (g : Graph) :
    (group.borrowedIn g).Sublist (group.members.map GroupMember.port) := by
  unfold borrowedIn
  split
  · exact List.Sublist.map _ List.filter_sublist
  · exact List.nil_sublist _

theorem Context.Ready.exists_of_mem_borrowedIn (h : ctx.Ready fixed g) :
    ∀ port ∈ ctx.borrowedIn g, ∃ data, g.ports[port]? = some data := by
  intro port hport
  obtain ⟨group, hgroup, hborrowed⟩ := List.mem_flatMap.mp hport
  obtain ⟨id, hid⟩ := Array.mem_iff_getElem?.mp (Array.mem_toList_iff.mp hgroup)
  obtain ⟨member, hmember, rfl⟩ :=
    List.mem_map.mp ((BorrowGroup.borrowedIn_sublist group g).subset hborrowed)
  obtain ⟨data, hd, -⟩ := ((h.placed id group hid).inputs member hmember).port
  exact ⟨data, hd⟩

theorem Context.Ready.nodup_borrowedIn (h : ctx.Ready fixed g) : (ctx.borrowedIn g).Nodup := by
  have hplaced : ∀ (id : Nat) (hid : id < ctx.groups.groups.toList.length),
      ctx.groups.groups.toList[id].Placed g ctx.facades id := by
    intro id hid
    apply h.placed
    rw [← Array.getElem?_toList, List.getElem?_eq_getElem hid]
  have hnames : ∀ (id : Nat) (hid : id < ctx.groups.groups.toList.length),
      ∀ port ∈ ctx.groups.groups.toList[id].borrowedIn g,
        (ctx.facades.get? port).bind Facade.group? = some id := by
    intro id hid port hport
    obtain ⟨member, hmember, rfl⟩ :=
      List.mem_map.mp ((BorrowGroup.borrowedIn_sublist _ g).subset hport)
    obtain ⟨nodeSide, wireSide, hfacade⟩ := (hplaced id hid).takes member hmember
    rw [hfacade]
    rfl
  unfold borrowedIn
  rw [List.nodup_flatMap]
  constructor
  · intro group hgroup
    obtain ⟨id, hid, rfl⟩ := List.mem_iff_getElem.mp hgroup
    exact (hplaced id hid).nodup.sublist (BorrowGroup.borrowedIn_sublist _ g)
  · rw [List.pairwise_iff_getElem]
    -- a port of two groups would have a facade that names both
    intro first second hfirst hsecond hlt port hport hport'
    have hsame := (hnames first hfirst port hport).symm.trans (hnames second hsecond port hport')
    exact absurd (Option.some.inj hsame) (Nat.ne_of_lt hlt)

/-! ## Reports -/

theorem Context.carried?_report (ctx : Context) (g : Graph) (port : PortId) :
    (ctx.report g).carried? port = ctx.carried? g port := by
  have hm : ∀ entry, entry ∈ (ctx.report g).ports ↔ ctx.carried? g entry.1 = some entry.2 := by
    rintro ⟨id, carried⟩
    simp only [report, List.mem_filterMap, List.mem_range, Option.map_eq_some_iff]
    constructor
    · rintro ⟨other, -, found, hf, heq⟩
      cases heq
      exact hf
    · intro hcarried
      refine ⟨id, ?_, carried, hcarried, rfl⟩
      cases hport : g.ports[id]? with
      | none => simp [carried?, reportedFlow?, hport] at hcarried
      | some data => exact (Array.getElem?_eq_some_iff.mp hport).1
  unfold Report.carried?
  cases hfind : (ctx.report g).ports.find? fun entry => entry.1 = port with
  | none =>
    rw [List.find?_eq_none] at hfind
    cases hcarried : ctx.carried? g port with
    | none => rfl
    | some carried => exact absurd (hfind (port, carried) ((hm _).mpr hcarried)) (by simp)
  | some entry =>
    obtain rfl : entry.1 = port := by simpa using List.find?_some hfind
    exact ((hm entry).mp (List.mem_of_find?_eq_some hfind)).symm

/-- When nothing is left to be borrowed, what is reported at the two ends of a wire has types that
resemble each other. -/
theorem Graph.Matched.resembles {source sink : PortId}
    (h : g.Matched fixed ctx.flows lent [] ctx.facades) (hc : g.Consistent)
    (hsink : sink ∈ g.sinksAt source) :
    ∃ supplied taken, (ctx.report g).carried? source = some supplied ∧
        (ctx.report g).carried? sink = some taken ∧
          supplied.type.Resembles (fixed ∨ sink ∈ lent) taken.type := by
  obtain ⟨sourcePort, sinkPort, hsource, hsink', houtput, hinput, -⟩ := hc.ends hsink
  obtain ⟨first, second, hfirst, hsecond, htype⟩ := h source sink hsink
  refine ⟨(ctx.flows.get first.wireSide).carried, (ctx.flows.get second.nodeSide).carried,
    ?_, ?_, by simpa [Flow.carried] using htype⟩
  · rw [Context.carried?_report]
    simp [Context.carried?, Context.reportedFlow?, hsource, hfirst, houtput, Facade.reported]
  · rw [Context.carried?_report]
    simp [Context.carried?, Context.reportedFlow?, hsink', hsecond, hinput, Facade.reported]

/-! ## Soundness -/

namespace Run

/-- Inserting borrows gives the inputs in front of which they are put the very type that is supplied
then, and leaves the others as they are. -/
theorem ends_insertBorrows_report {unified : Inference} {order : List NodeId}
    (hw : unified.graph.WellFormed) (hc : unified.graph.Consistent)
    (hord : unified.graph.visitOrder = .ok order)
    (hready : unified.context.Ready fixed unified.graph) :
    Yields (do insertBorrows; report) unified
      fun report state => unified.graph.Refined state.graph ∧ (report.isClean = true →
        ∀ source, ∀ sink ∈ state.graph.sinksAt source, ∃ supplied taken,
          report.carried? source = some supplied ∧ report.carried? sink = some taken ∧
            supplied.type.Resembles (fixed ∨ sink ∈ unified.context.borrowedIn unified.graph)
              taken.type) := by
  -- only a clean report promises anything
  have hkept := (Insertion.kept_matched hready.exists_of_mem_borrowedIn fixed
    unified.context.flows).imp (unified.context.isClean = true)
  apply Ends.bind
  refine (ends_insertBorrows hkept hw hc hord hready ⟨rfl, rfl, ?_⟩).yields ?_
  · exact fun hclean => ⟨hready.nodup_borrowedIn, hready.matched hclean⟩
  rintro _ state ⟨hrefined, hflows, hdiagnostics, hholds⟩
  apply ends_report ?_ trivial
  refine ⟨hrefined, fun hclean source sink hsink => ?_⟩
  have hunified : unified.context.isClean = true := by
    rw [Context.isClean, ← hdiagnostics]
    exact hclean
  have hmatched := (hholds hunified).2
  rw [← hflows] at hmatched
  exact hmatched.resembles hrefined.woven.consistent hsink

theorem ends_all {config : Config} (hw : g.WellFormed) (hc : g.Consistent) (hl : g.Layered)
    (hmono : g.Monomorphic) :
    Yields all { config, graph := g }
      fun report state => report.isClean = true → state.graph.Consistent ∧
        ∀ source, ∀ sink ∈ state.graph.sinksAt source, ∃ supplied taken,
          report.carried? source = some supplied ∧ report.carried? sink = some taken ∧
            supplied.type = taken.type := by
  apply (ends_facePorts hw hc hl fun hfixed => hfixed).seq
  rintro _ faced ⟨rfl, hstands, hord, -⟩
  apply (ends_unifyWires hw hc hstands hord).seq
  rintro _ unified ⟨hgraph, hunified, hrendered⟩
  have hready := hunified.ready hc hstands.kept hrendered
  rw [← hgraph] at hw hc hord hready hmono
  apply (ends_insertBorrows_report hw hc hord hready).imp ?_
  rintro report state ⟨hrefined, htypes⟩ hclean
  refine ⟨hrefined.woven.consistent, fun source sink hsink => ?_⟩
  obtain ⟨supplied, taken, hsupplied, htaken, hresembles⟩ := htypes hclean source sink hsink
  exact ⟨supplied, taken, hsupplied, htaken, hresembles.eq (.inl hmono)⟩

end Run

/-- If nothing is reported, the two ends of every wire carry values of one type. -/
theorem Graph.Built.type_eq_of_isClean {graph graph' : Graph} {config : Config} {report : Report}
    (hbuilt : graph.Built) (hmono : graph.Monomorphic)
    (hinfer : infer config graph = (.ok report, graph')) (hclean : report.isClean = true) :
    ∀ (w : WireId) (wire : Wire), graph'.wires[w]? = some wire → ∀ sink ∈ wire.sinks,
      ∃ supplied taken, report.carried? wire.source = some supplied ∧
        report.carried? sink = some taken ∧ supplied.type = taken.type := by
  have hall : Ends Run.all { config, graph } _ _ :=
    Run.ends_all hbuilt.wellFormed hbuilt.consistent hbuilt.layered hmono
  unfold infer at hinfer
  split at hinfer
  · rename_i found state hrun
    cases hinfer
    obtain ⟨hc, htypes⟩ := hall.of_eq_ok hrun hclean
    intro w wire hwire sink hsink
    rw [← hc.sinksAt_source hwire (List.ne_nil_of_mem hsink)] at hsink
    exact htypes wire.source sink hsink
  · cases hinfer

theorem exists_report_of_any {answer : Except Fault Report × Graph} {p : Report → Bool}
    (h : answer.1.toOption.any p = true) :
    ∃ report, answer = (.ok report, answer.2) ∧ p report = true := by
  obtain ⟨outcome, g⟩ := answer
  cases outcome with
  | ok report => exact ⟨report, rfl, h⟩
  | error fault => cases h

theorem exists_report_of_isClean {answer : Except Fault Report × Graph}
    (h : answer.1.toOption.any Report.isClean = true) :
    ∃ report, answer = (.ok report, answer.2) ∧ report.isClean = true :=
  exists_report_of_any h

theorem Graph.type_eq_of_isClean_twoIncrements : ∃ report after,
    infer {} twoIncrements = (.ok report, after) ∧ report.isClean = true ∧ after.wires.size = 7 ∧
      ∀ (w : WireId) (wire : Wire), after.wires[w]? = some wire → ∀ sink ∈ wire.sinks,
        ∃ supplied taken, report.carried? wire.source = some supplied ∧
          report.carried? sink = some taken ∧ supplied.type = taken.type := by
  have hanswer : (infer {} twoIncrements).1.toOption.any Report.isClean = true := by decide +kernel
  obtain ⟨report, hinfer, hclean⟩ := exists_report_of_isClean hanswer
  exact ⟨report, _, hinfer, hclean, by decide +kernel,
    built_twoIncrements.type_eq_of_isClean (by decide +kernel) hinfer hclean⟩

end BorrowFlow
