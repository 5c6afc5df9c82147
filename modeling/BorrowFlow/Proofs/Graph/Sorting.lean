import BorrowFlow.Graph.VisitOrder

/-!
# Sorting dependencies

The depth-first search leaves every node, each once, and if the dependencies have no cycle it leaves
a node only after all its successors. So the check that follows the search fails exactly on cycles,
and an order that passes it puts every node after its predecessors.
-/

namespace BorrowFlow

variable {rank : NodeId → Nat} {depth : Nat} {nodes order : List NodeId} {other : NodeId}

namespace Dependencies

variable {dependencies : Dependencies} {search search' : Search} {node : NodeId}

def Closed (dependencies : Dependencies) : Prop :=
  ∀ edge ∈ dependencies.edges, edge.1 ∈ dependencies.nodes ∧ edge.2 ∈ dependencies.nodes

theorem mem_successors :
    other ∈ dependencies.successors node ↔ (node, other) ∈ dependencies.edges := by
  simp [successors]

theorem mem_predecessors :
    other ∈ dependencies.predecessors node ↔ (other, node) ∈ dependencies.edges := by
  simp [predecessors]

/-! ## The search -/

namespace Search

def IsOpen (search : Search) (node : NodeId) : Prop :=
  node ∈ search.entered ∧ node ∉ search.left

/-- The search leaves only what it has entered, and nothing twice. -/
structure Valid (search : Search) : Prop where
  entered : ∀ node ∈ search.left, node ∈ search.entered
  nodup : search.left.Nodup

/-- The second search is further on than the first one, and back at the same place. -/
structure Continues (search search' : Search) : Prop where
  valid : search'.Valid
  entered : ∀ node ∈ search.entered, node ∈ search'.entered
  isOpen_iff : ∀ node, search'.IsOpen node ↔ search.IsOpen node

theorem Continues.refl (h : search.Valid) : search.Continues search :=
  ⟨h, fun _ hm => hm, fun _ => Iff.rfl⟩

theorem Continues.trans {search'' : Search} (h : search.Continues search')
    (h' : search'.Continues search'') : search.Continues search'' where
  valid := h'.valid
  entered node hm := h'.entered node (h.entered node hm)
  isOpen_iff node := (h'.isOpen_iff node).trans (h.isOpen_iff node)

end Search

def unentered (dependencies : Dependencies) (search : Search) : Nat :=
  dependencies.nodes.countP fun node => node ∉ search.entered

theorem countP_notMem_mono {entered entered' : List NodeId}
    (h : ∀ node ∈ entered, node ∈ entered') :
    (nodes.countP fun node => node ∉ entered') ≤ nodes.countP fun node => node ∉ entered := by
  apply List.countP_mono_left
  intro node _ hnode
  simp only [decide_eq_true_eq] at hnode ⊢
  exact fun hm => hnode (h node hm)

theorem unentered_mono (dependencies : Dependencies)
    (h : ∀ node ∈ search.entered, node ∈ search'.entered) :
    dependencies.unentered search' ≤ dependencies.unentered search :=
  countP_notMem_mono h

theorem unentered_lt (hnode : node ∈ dependencies.nodes) (hnew : node ∉ search.entered)
    (left : List NodeId) :
    dependencies.unentered { entered := node :: search.entered, left } <
      dependencies.unentered search := by
  obtain ⟨before, after, heq⟩ := List.append_of_mem hnode
  have hle : ∀ nodes : List NodeId, (nodes.countP fun other => other ∉ node :: search.entered) ≤
      nodes.countP fun other => other ∉ search.entered :=
    fun _ => countP_notMem_mono fun _ => List.mem_cons_of_mem _
  rw [unentered, unentered, heq, List.countP_append, List.countP_append,
    List.countP_cons_of_neg (by simp), List.countP_cons_of_pos (by simpa using hnew)]
  exact Nat.lt_succ_of_le (Nat.add_le_add (hle before) (hle after))

/-- The search goes through a list of nodes. It enters those that it has not entered before, goes
through their successors, and leaves them. -/
inductive Searches (dependencies : Dependencies) : Search → List NodeId → Search → Prop
  | done (search : Search) : Searches dependencies search [] search
  | skip {search search' : Search} {node : NodeId} {rest : List NodeId}
      (hentered : node ∈ search.entered) (hrest : Searches dependencies search rest search') :
      Searches dependencies search (node :: rest) search'
  | enter {search inside search' : Search} {node : NodeId} {rest : List NodeId}
      (hnew : node ∉ search.entered)
      (hinside : Searches dependencies { search with entered := node :: search.entered }
        (dependencies.successors node).reverse inside)
      (hrest : Searches dependencies { inside with left := node :: inside.left } rest search') :
      Searches dependencies search (node :: rest) search'

theorem Searches.entered (h : dependencies.Searches search nodes search') :
    ∀ node ∈ search.entered, node ∈ search'.entered := by
  induction h with
  | done => exact fun _ hm => hm
  | skip _ _ ih => exact ih
  | enter _ _ _ ih ih' => exact fun node hm => ih' node (ih node (List.mem_cons_of_mem _ hm))

theorem Closed.mem_of_mem_successors (hclosed : dependencies.Closed) (node : NodeId) :
    ∀ other ∈ (dependencies.successors node).reverse, other ∈ dependencies.nodes := by
  intro other hm
  rw [List.mem_reverse, mem_successors] at hm
  exact (hclosed _ hm).2

/-- A search that is deep enough for all nodes it has not entered goes all the way. -/
theorem searches_foldl_visit (hclosed : dependencies.Closed)
    (hnodes : ∀ node ∈ nodes, node ∈ dependencies.nodes)
    (hdepth : dependencies.unentered search < depth) :
    dependencies.Searches search nodes (nodes.foldl (dependencies.visit depth) search) := by
  induction depth generalizing search nodes with
  | zero => cases hdepth
  | succ depth ih =>
    induction nodes generalizing search with
    | nil => exact .done search
    | cons node nodes ih' =>
      obtain ⟨hnode, hnodes⟩ := List.forall_mem_cons.mp hnodes
      rw [List.foldl_cons, visit]
      by_cases hentered : node ∈ search.entered
      · rw [if_pos hentered]
        exact .skip hentered (ih' hnodes hdepth)
      · have hlt := unentered_lt hnode hentered search.left
        have hinside := ih (hclosed.mem_of_mem_successors node)
          (Nat.lt_of_lt_of_le hlt (Nat.le_of_lt_succ hdepth))
        have hle := dependencies.unentered_mono hinside.entered
        rw [if_neg hentered]
        exact .enter hentered hinside
          (ih' hnodes (Nat.lt_of_le_of_lt hle (Nat.lt_trans hlt hdepth)))

theorem Search.Valid.enter (h : search.Valid) (node : NodeId) :
    Search.Valid { search with entered := node :: search.entered } :=
  ⟨fun other hm => List.mem_cons_of_mem _ (h.entered other hm), h.nodup⟩

/-- A node is open while the search is inside, so it is left for the first time. -/
theorem Search.Continues.leave {inside : Search} (hvalid : search.Valid)
    (hnew : node ∉ search.entered)
    (h : Search.Continues { search with entered := node :: search.entered } inside) :
    search.Continues { inside with left := node :: inside.left } ∧ node ∈ inside.entered := by
  have hopen : inside.IsOpen node := by
    refine (h.isOpen_iff node).mpr ⟨List.mem_cons_self, fun hm => ?_⟩
    exact hnew (hvalid.entered node hm)
  refine ⟨⟨⟨?_, ?_⟩, ?_, ?_⟩, hopen.1⟩
  · exact List.forall_mem_cons.mpr ⟨hopen.1, h.valid.entered⟩
  · exact List.nodup_cons.mpr ⟨hopen.2, h.valid.nodup⟩
  · exact fun other hm => h.entered other (List.mem_cons_of_mem _ hm)
  · intro other
    have ho := h.isOpen_iff other
    by_cases heq : other = node
    · subst heq
      simp [Search.IsOpen, hnew]
    · simp only [Search.IsOpen, List.mem_cons, heq, false_or] at ho ⊢
      exact ho

theorem Searches.continues (h : dependencies.Searches search nodes search')
    (hvalid : search.Valid) :
    search.Continues search' ∧ ∀ node ∈ nodes, node ∈ search'.entered := by
  induction h with
  | done => exact ⟨.refl hvalid, nofun⟩
  | skip hentered _ ih =>
    obtain ⟨hrest, hothers⟩ := ih hvalid
    exact ⟨hrest, List.forall_mem_cons.mpr ⟨hrest.entered _ hentered, hothers⟩⟩
  | enter hnew _ _ ih ih' =>
    obtain ⟨hfirst, hentered⟩ := (ih (hvalid.enter _)).1.leave hvalid hnew
    obtain ⟨hrest, hothers⟩ := ih' hfirst.valid
    exact ⟨hfirst.trans hrest, List.forall_mem_cons.mpr ⟨hrest.entered _ hentered, hothers⟩⟩

theorem searches_searchOrder (hclosed : dependencies.Closed) :
    ∃ search, dependencies.Searches {} dependencies.nodes search ∧
      search.left = dependencies.searchOrder :=
  ⟨_, searches_foldl_visit hclosed (fun _ hm => hm) (Nat.lt_succ_of_le List.countP_le_length), rfl⟩

theorem Search.valid_empty : Search.Valid {} :=
  ⟨nofun, .nil⟩

theorem mem_searchOrder (hclosed : dependencies.Closed) (hnode : node ∈ dependencies.nodes) :
    node ∈ dependencies.searchOrder := by
  obtain ⟨search, hsearch, heq⟩ := searches_searchOrder hclosed
  obtain ⟨hcontinues, hentered⟩ := hsearch.continues Search.valid_empty
  refine heq ▸ Decidable.byContradiction fun hl => ?_
  have hopen := (hcontinues.isOpen_iff node).mp ⟨hentered node hnode, hl⟩
  cases hopen.1

theorem nodup_searchOrder (hclosed : dependencies.Closed) : dependencies.searchOrder.Nodup := by
  obtain ⟨search, hsearch, heq⟩ := searches_searchOrder hclosed
  exact heq ▸ (hsearch.continues Search.valid_empty).1.valid.nodup

theorem Searches.left_subset (h : dependencies.Searches search nodes search')
    (hclosed : dependencies.Closed) (hnodes : ∀ node ∈ nodes, node ∈ dependencies.nodes)
    (hl : ∀ node ∈ search.left, node ∈ dependencies.nodes) :
    ∀ node ∈ search'.left, node ∈ dependencies.nodes := by
  induction h with
  | done => exact hl
  | skip _ _ ih => exact ih (List.forall_mem_cons.mp hnodes).2 hl
  | enter _ _ _ ih ih' =>
    obtain ⟨hnode, hnodes⟩ := List.forall_mem_cons.mp hnodes
    have hinside := ih (hclosed.mem_of_mem_successors _) hl
    exact ih' hnodes (List.forall_mem_cons.mpr ⟨hnode, hinside⟩)

theorem mem_nodes_of_mem_searchOrder (hclosed : dependencies.Closed)
    (h : node ∈ dependencies.searchOrder) : node ∈ dependencies.nodes := by
  obtain ⟨search, hsearch, heq⟩ := searches_searchOrder hclosed
  exact hsearch.left_subset hclosed (fun _ hm => hm) nofun node (heq ▸ h)

/-! ## Dependencies without a cycle -/

/-- The numbers grow along every edge, so there is no cycle. -/
def Ranks (dependencies : Dependencies) (rank : NodeId → Nat) : Prop :=
  ∀ edge ∈ dependencies.edges, rank edge.1 < rank edge.2

/-- Whatever comes first in the list has its successors behind it. -/
def Descends (dependencies : Dependencies) : List NodeId → Prop
  | [] => True
  | node :: rest =>
    (∀ other ∈ dependencies.successors node, other ∈ rest) ∧ dependencies.Descends rest

/-- Without a cycle, a node is left only when all its successors are. What is open is on the way to
the node, so it has a smaller number, and no successor can be open. -/
theorem Searches.descends (h : dependencies.Searches search nodes search')
    (hrank : dependencies.Ranks rank) (hvalid : search.Valid)
    (hopen : ∀ node ∈ nodes, ∀ other, search.IsOpen other → rank other < rank node)
    (hdescends : dependencies.Descends search.left) : dependencies.Descends search'.left := by
  induction h with
  | done => exact hdescends
  | skip _ _ ih => exact ih hvalid (List.forall_mem_cons.mp hopen).2 hdescends
  | @enter search inside _ node _ hnew hinside _ ih ih' =>
    obtain ⟨hnode, hothers⟩ := List.forall_mem_cons.mp hopen
    have hopen' : ∀ later ∈ (dependencies.successors node).reverse, ∀ other,
        Search.IsOpen { search with entered := node :: search.entered } other →
          rank other < rank later := by
      rintro later hlater other ⟨hentered, hl⟩
      rw [List.mem_reverse, mem_successors] at hlater
      have hlt := hrank _ hlater
      rcases List.mem_cons.mp hentered with rfl | hentered
      · exact hlt
      · exact Nat.lt_trans (hnode other ⟨hentered, hl⟩) hlt
    obtain ⟨hcontinues, hentered⟩ := hinside.continues (hvalid.enter node)
    have hfirst := (hcontinues.leave hvalid hnew).1
    refine ih' hfirst.valid (fun later hlater other ho =>
      hothers later hlater other ((hfirst.isOpen_iff other).mp ho))
      ⟨fun other hm => Decidable.byContradiction fun hl => ?_,
        ih (hvalid.enter node) hopen' hdescends⟩
    have hm' := List.mem_reverse.mpr hm
    have hstill := (hcontinues.isOpen_iff other).mp ⟨hentered other hm', hl⟩
    exact Nat.lt_irrefl _ (hopen' other hm' other hstill)

theorem descends_searchOrder (hclosed : dependencies.Closed) (hrank : dependencies.Ranks rank) :
    dependencies.Descends dependencies.searchOrder := by
  obtain ⟨search, hsearch, heq⟩ := searches_searchOrder hclosed
  rw [← heq]
  refine hsearch.descends hrank Search.valid_empty ?_ trivial
  rintro node - other ⟨hentered, -⟩
  cases hentered

/-! ## The check -/

theorem violation?_cons_eq_none_iff {before : List NodeId} :
    dependencies.violation? before (node :: order) = none ↔
      (∀ other, (other, node) ∈ dependencies.edges → other ∈ node :: before) ∧
        dependencies.violation? (node :: before) order = none := by
  rw [violation?]
  split
  · rename_i other hlast
    have hm := List.mem_of_getLast? hlast
    rw [List.mem_filter, mem_predecessors] at hm
    constructor
    · intro h
      cases h
    · rintro ⟨hall, -⟩
      exact absurd (hall other hm.1) (of_decide_eq_true hm.2)
  · rename_i hnone
    rw [List.getLast?_eq_none_iff, List.filter_eq_nil_iff] at hnone
    have hall : ∀ other, (other, node) ∈ dependencies.edges → other ∈ node :: before := by
      intro other hedge
      have ho := hnone other (mem_predecessors.mpr hedge)
      rw [decide_eq_true_eq] at ho
      exact Decidable.not_not.mp ho
    exact ⟨fun h => ⟨hall, h⟩, fun h => h.2⟩

theorem violation?_eq_none_iff {before : List NodeId} :
    dependencies.violation? before order = none ↔
      ∀ earlier node later, order = earlier ++ node :: later →
        ∀ other, (other, node) ∈ dependencies.edges →
          other ∈ before ∨ other ∈ earlier ∨ other = node := by
  induction order generalizing before with
  | nil => simp [violation?]
  | cons head order ih =>
    rw [violation?_cons_eq_none_iff, ih]
    constructor
    · rintro ⟨hhead, hrest⟩ earlier node later heq other hedge
      cases earlier with
      | nil =>
        obtain ⟨rfl, -⟩ := List.cons.inj heq
        rcases List.mem_cons.mp (hhead other hedge) with h | h
        · exact .inr (.inr h)
        · exact .inl h
      | cons first earlier =>
        obtain ⟨rfl, htail⟩ := List.cons.inj heq
        rcases hrest earlier node later htail other hedge with h | h | h
        · rcases List.mem_cons.mp h with rfl | h
          · exact .inr (.inl List.mem_cons_self)
          · exact .inl h
        · exact .inr (.inl (List.mem_cons_of_mem _ h))
        · exact .inr (.inr h)
    · intro h
      constructor
      · intro other hedge
        rcases h [] head order rfl other hedge with h | h | rfl
        · exact List.mem_cons_of_mem _ h
        · cases h
        · exact List.mem_cons_self
      · intro earlier node later heq other hedge
        rcases h (head :: earlier) node later (by rw [heq, List.cons_append]) other hedge with
          h | h | h
        · exact .inl (List.mem_cons_of_mem _ h)
        · rcases List.mem_cons.mp h with rfl | h
          · exact .inl List.mem_cons_self
          · exact .inr (.inl h)
        · exact .inr (.inr h)

theorem descends_append {earlier later : List NodeId}
    (h : dependencies.Descends (earlier ++ node :: later)) :
    ∀ other ∈ dependencies.successors node, other ∈ later := by
  induction earlier with
  | nil => exact h.1
  | cons first earlier ih => exact ih h.2

theorem sort_eq_ok (hclosed : dependencies.Closed) (hrank : dependencies.Ranks rank) :
    dependencies.sort = .ok dependencies.searchOrder := by
  have hnone : dependencies.violation? [] dependencies.searchOrder = none := by
    rw [violation?_eq_none_iff]
    intro earlier node later heq other hedge
    have hnodup := nodup_searchOrder hclosed
    have hdescends := descends_searchOrder hclosed hrank
    have hm : other ∈ dependencies.searchOrder := mem_searchOrder hclosed (hclosed _ hedge).1
    rw [heq] at hnodup hdescends hm
    rcases List.mem_append.mp hm with hm | hm
    · exact .inr (.inl hm)
    · rcases List.mem_cons.mp hm with rfl | hm
      · exact .inr (.inr rfl)
      · -- then the node would come again after the other one
        obtain ⟨between, last, hlater⟩ := List.append_of_mem hm
        rw [hlater, ← List.cons_append, ← List.append_assoc] at hdescends
        have hagain := descends_append hdescends node (mem_successors.mpr hedge)
        have htwice : node ∈ later := by
          rw [hlater]
          exact List.mem_append_right _ (List.mem_cons_of_mem _ hagain)
        have hnot := (List.nodup_cons.mp (List.nodup_append.mp hnodup).2.1).1
        exact absurd htwice hnot
  rw [sort, hnone]

theorem of_sort_eq_ok (hclosed : dependencies.Closed) (h : dependencies.sort = .ok order) :
    (∀ node ∈ dependencies.nodes, node ∈ order) ∧ ∀ edge ∈ dependencies.edges, edge.1 ≠ edge.2 →
        order.idxOf edge.1 < order.idxOf edge.2 := by
  rw [sort] at h
  split at h
  · cases h
  · rename_i hnone
    obtain rfl := Except.ok.inj h
    refine ⟨fun node hnode => mem_searchOrder hclosed hnode, ?_⟩
    rintro ⟨source, target⟩ hedge hne
    have hm := mem_searchOrder hclosed (hclosed _ hedge).2
    obtain ⟨earlier, later, heq, hfirst⟩ := List.eq_append_cons_of_mem hm
    rcases violation?_eq_none_iff.mp hnone earlier target later heq source hedge with h | h | h
    · cases h
    · have hlt := List.idxOf_lt_length_of_mem h
      rw [heq, List.idxOf_append, List.idxOf_append, if_pos h, if_neg hfirst]
      exact Nat.lt_of_lt_of_le hlt (Nat.le_add_left _ _)
    · exact absurd h hne

/-! ## Collecting dependencies -/

theorem mem_nodes_addNode :
    other ∈ (dependencies.addNode node).nodes ↔ other ∈ dependencies.nodes ∨ other = node := by
  unfold addNode
  split
  · rename_i hm
    constructor
    · exact .inl
    · rintro (h | rfl)
      · exact h
      · exact hm
  · simp

theorem edges_addNode : (dependencies.addNode node).edges = dependencies.edges := by
  unfold addNode
  split <;> rfl

theorem mem_edges_addEdge {source target : NodeId} {edge : NodeId × NodeId} :
    edge ∈ (dependencies.addEdge source target).edges ↔
      edge ∈ dependencies.edges ∨ edge = (source, target) := by
  unfold addEdge
  split
  · rename_i hm
    constructor
    · exact .inl
    · rintro (h | rfl)
      · exact h
      · exact hm
  · simp [edges_addNode]

theorem mem_nodes_addEdge (hclosed : dependencies.Closed) {source target : NodeId} :
    node ∈ (dependencies.addEdge source target).nodes ↔
      node ∈ dependencies.nodes ∨ node = source ∨ node = target := by
  unfold addEdge
  split
  · rename_i hm
    constructor
    · exact .inl
    · rintro (h | rfl | rfl)
      · exact h
      · exact (hclosed _ hm).1
      · exact (hclosed _ hm).2
  · simp [mem_nodes_addNode, or_assoc]

theorem Closed.addEdge (hclosed : dependencies.Closed) (source target : NodeId) :
    (dependencies.addEdge source target).Closed := by
  intro edge hedge
  rw [mem_nodes_addEdge hclosed, mem_nodes_addEdge hclosed]
  rcases mem_edges_addEdge.mp hedge with h | rfl
  · exact ⟨.inl (hclosed edge h).1, .inl (hclosed edge h).2⟩
  · exact ⟨.inr (.inl rfl), .inr (.inr rfl)⟩

end Dependencies

end BorrowFlow
