import BorrowFlow.LifetimeForest
import Mathlib.Data.List.Count
import Mathlib.Logic.Relation

/-!
# The lifetimes of one scope

The search for a path between two lifetimes of a scope finds one if there is one. No lifetime is
recorded to outlive itself, not even through others, and the lifetime of the scope outlives all
others. An edge that is added leads to paths through it and to no others, so the test that an edge
has to pass is all that it takes to keep the graph without cycles.
-/

namespace BorrowFlow

namespace LifetimeGraph

variable {g g' g'' : LifetimeGraph} {first second longer shorter : Nat}

def Edge (g : LifetimeGraph) (first second : Nat) : Prop := (first, second) ∈ g.edges

abbrev Path (g : LifetimeGraph) : Nat → Nat → Prop := Relation.ReflTransGen g.Edge

theorem mem_successors_iff : second ∈ g.successors first ↔ g.Edge first second := by
  simp [successors, Edge]

/-! ## Searching -/

theorem search_sound (fuel : Nat) (stack seen : List Nat) {target : Nat}
    (h : target ∈ g.search fuel stack seen) :
    target ∈ seen ∨ ∃ start ∈ stack, g.Path start target := by
  fun_induction search g fuel stack seen with
  | case1 | case2 => exact .inl h
  | case3 fuel node stack seen _ ih =>
    exact (ih h).imp_right fun ⟨start, hstart, hpath⟩ =>
      ⟨start, List.mem_cons_of_mem _ hstart, hpath⟩
  | case4 fuel node stack seen _ ih =>
    rcases ih h with hseen | ⟨start, hstart, hpath⟩
    · rcases List.mem_cons.mp hseen with rfl | hseen
      · exact .inr ⟨target, List.mem_cons_self, .refl⟩
      · exact .inl hseen
    · rcases List.mem_append.mp hstart with hedge | hstart
      · exact .inr ⟨node, List.mem_cons_self, .head (mem_successors_iff.mp hedge) hpath⟩
      · exact .inr ⟨start, List.mem_cons_of_mem _ hstart, hpath⟩

/-- How many edges leave nodes that have not been seen. Each of them is put on the stack once. -/
def unseen (g : LifetimeGraph) (seen : List Nat) : Nat :=
  g.edges.countP fun edge => edge.1 ∉ seen

theorem unseen_cons {node : Nat} {seen : List Nat} (hnode : node ∉ seen) :
    (g.successors node).length + g.unseen (node :: seen) = g.unseen seen := by
  rw [successors, List.length_map, ← List.countP_eq_length_filter, unseen, unseen]
  induction g.edges with
  | nil => rfl
  | cons edge rest ih =>
    simp only [List.countP_cons, List.mem_cons, not_or, decide_eq_true_eq] at ih ⊢
    by_cases heq : edge.1 = node
    · simp only [heq, hnode, not_true_eq_false, not_false_eq_true, if_true, if_false, false_and]
      omega
    · simp only [heq, not_false_eq_true, true_and, if_false]
      omega

/-- With enough steps, the search leaves out nothing that it could go on to. -/
theorem search_closed (g : LifetimeGraph) (fuel : Nat) (stack seen : List Nat)
    (hfuel : stack.length + g.unseen seen < fuel)
    (hseen : ∀ node ∈ seen, ∀ target, g.Edge node target → target ∈ seen ∨ target ∈ stack) :
    (∀ node, node ∈ seen ∨ node ∈ stack → node ∈ g.search fuel stack seen) ∧
      ∀ node ∈ g.search fuel stack seen, ∀ target, g.Edge node target →
        target ∈ g.search fuel stack seen := by
  fun_induction search g fuel stack seen with
  | case1 => exact absurd hfuel (Nat.not_lt_zero _)
  | case2 =>
    simp only [List.not_mem_nil, or_false] at hseen ⊢
    exact ⟨fun _ => id, hseen⟩
  | case3 fuel node stack seen hm ih =>
    rw [List.length_cons] at hfuel
    obtain ⟨hall, hclosed⟩ := ih (by omega) (by grind)
    exact ⟨fun other ho => hall other (by grind), hclosed⟩
  | case4 fuel node stack seen hm ih =>
    have hcount : (g.successors node).length + g.unseen (node :: seen) =
        g.unseen seen := unseen_cons hm
    rw [List.length_cons] at hfuel
    have hstack : (g.successors node ++ stack).length + g.unseen (node :: seen) < fuel := by
      rw [List.length_append]
      omega
    obtain ⟨hall, hclosed⟩ := ih hstack (by grind [mem_successors_iff])
    exact ⟨fun other ho => hall other (by grind), hclosed⟩

theorem reaches_iff : g.reaches first second = true ↔ g.Path first second := by
  rw [reaches, decide_eq_true_iff, reachable]
  constructor
  · intro h
    rcases search_sound _ _ _ h with hnone | ⟨start, hstart, hpath⟩
    · cases hnone
    · rwa [List.mem_singleton.mp hstart] at hpath
  · obtain ⟨hall, hclosed⟩ := g.search_closed (g.edges.length + 2) [first] []
      (by simp [unseen, Nat.add_comm]) nofun
    intro hpath
    induction hpath with
    | refl => exact hall first (.inr (List.mem_singleton_self _))
    | tail _ hedge ih => exact hclosed _ ih _ hedge

/-! ## One more edge -/

def Links (g : LifetimeGraph) (longer shorter : Nat) (g' : LifetimeGraph) : Prop :=
  ∀ first second, g'.Edge first second ↔ g.Edge first second ∨ first = longer ∧ second = shorter

theorem links_append (g : LifetimeGraph) (longer shorter : Nat) {parent : Option Nat} {size : Nat} :
    g.Links longer shorter { parent, size, edges := g.edges ++ [(longer, shorter)] } := by
  intro first second
  simp [Edge]

theorem Links.path_iff (h : g.Links longer shorter g') : g'.Path first second ↔
    g.Path first second ∨ g.Path first longer ∧ g.Path shorter second := by
  have hold : ∀ {first second}, g.Path first second → g'.Path first second :=
    fun hpath => hpath.lift id fun _ _ hedge => (h _ _).mpr (.inl hedge)
  constructor
  · intro hpath
    induction hpath with
    | refl => exact .inl .refl
    | tail _ hedge ih =>
      rcases (h _ _).mp hedge with hedge | ⟨rfl, rfl⟩
      · exact ih.imp (·.tail hedge) fun ⟨hbefore, hafter⟩ => ⟨hbefore, hafter.tail hedge⟩
      · exact .inr ⟨ih.elim id And.left, .refl⟩
  · rintro (hpath | ⟨hbefore, hafter⟩)
    · exact hold hpath
    · exact ((hold hbefore).tail ((h _ _).mpr (.inr ⟨rfl, rfl⟩))).trans (hold hafter)

def Acyclic (g : LifetimeGraph) : Prop := ∀ node, ¬Relation.TransGen g.Edge node node

theorem Links.acyclic (h : g.Links longer shorter g') (hacyclic : g.Acyclic)
    (hback : ¬g.Path shorter longer) : g'.Acyclic := by
  intro node hcycle
  obtain ⟨next, hedge, hpath⟩ := Relation.TransGen.head'_iff.mp hcycle
  rcases (h _ _).mp hedge with hedge | ⟨rfl, rfl⟩
  · rcases h.path_iff.mp hpath with hpath | ⟨hbefore, hafter⟩
    · exact hacyclic node (.head' hedge hpath)
    · exact hback ((hafter.tail hedge).trans hbefore)
  · rcases h.path_iff.mp hpath with hpath | ⟨hbefore, -⟩
    · exact hback hpath
    · exact hback hbefore

/-- An edge is dropped if it leads back, or is there already. -/
theorem addEdge_cases (g : LifetimeGraph) (longer shorter : Nat) : g.addEdge longer shorter = g ∧
        (g.Path shorter longer ∨ g.Edge longer shorter) ∨
      g.Links longer shorter (g.addEdge longer shorter) ∧ ¬g.Path shorter longer := by
  unfold addEdge
  split
  · rename_i hdropped
    refine .inl ⟨rfl, ?_⟩
    rcases hdropped with rfl | hreaches | hedge
    · exact .inl .refl
    · exact .inl (reaches_iff.mp hreaches)
    · exact .inr hedge
  · rename_i hkept
    refine .inr ⟨g.links_append longer shorter, fun hpath => hkept (.inr (.inl ?_))⟩
    exact reaches_iff.mpr hpath

/-! ## Below the lifetime of the scope -/

/-- Edges are between lifetimes that have been opened, there is no cycle, and everything is below
the lifetime of the scope. -/
structure Rooted (g : LifetimeGraph) : Prop where
  size_pos : 0 < g.size
  edge_lt : ∀ {first second : Nat}, g.Edge first second → first < g.size ∧ second < g.size
  acyclic : g.Acyclic
  root : ∀ node < g.size, g.Path 0 node

theorem rooted_new (parent : Option Nat) : Rooted { parent } where
  size_pos := Nat.one_pos
  edge_lt h := by cases h
  acyclic node hcycle := by
    obtain ⟨next, hedge, -⟩ := Relation.TransGen.head'_iff.mp hcycle
    cases hedge
  root node hlt := by
    rw [Nat.lt_one_iff.mp hlt]

theorem Rooted.eq_of_path_of_le (h : g.Rooted) (hle : g.size ≤ first)
    (hpath : g.Path first second) : second = first := by
  rcases Relation.reflTransGen_iff_eq_or_transGen.mp hpath with heq | hpath
  · exact heq
  · obtain ⟨next, hedge, -⟩ := Relation.TransGen.head'_iff.mp hpath
    exact absurd (h.edge_lt hedge).1 (Nat.not_lt_of_le hle)

theorem Rooted.carve (h : g.Rooted) : g.carve.Rooted := by
  have hlinks : g.Links 0 g.size g.carve := g.links_append 0 g.size
  refine ⟨Nat.succ_pos _, fun {first second} hedge => ?_, hlinks.acyclic h.acyclic fun hpath => ?_,
    fun node hlt => ?_⟩
  · change first < g.size + 1 ∧ second < g.size + 1
    rcases (hlinks _ _).mp hedge with hedge | ⟨rfl, rfl⟩
    · have hlt := h.edge_lt hedge
      omega
    · omega
  · have heq := h.eq_of_path_of_le (Nat.le_refl _) hpath
    exact absurd h.size_pos (by omega)
  · rcases Nat.lt_or_eq_of_le (Nat.le_of_lt_succ hlt) with hlt | rfl
    · exact hlinks.path_iff.mpr (.inl (h.root node hlt))
    · exact .single ((hlinks _ _).mpr (.inr ⟨rfl, rfl⟩))

theorem size_addEdge (g : LifetimeGraph) (longer shorter : Nat) :
    (g.addEdge longer shorter).size = g.size := by
  unfold addEdge
  split <;> rfl

theorem Rooted.addEdge (h : g.Rooted) (hlonger : longer < g.size)
    (hshorter : shorter < g.size) : (g.addEdge longer shorter).Rooted := by
  rcases g.addEdge_cases longer shorter with ⟨heq, -⟩ | ⟨hlinks, hback⟩
  · rwa [heq]
  · have hsize := g.size_addEdge longer shorter
    refine ⟨hsize ▸ h.size_pos, fun hedge => ?_, hlinks.acyclic h.acyclic hback,
      fun node hlt => hlinks.path_iff.mpr (.inl (h.root node (hsize ▸ hlt)))⟩
    rw [hsize]
    rcases (hlinks _ _).mp hedge with hedge | ⟨rfl, rfl⟩
    · exact h.edge_lt hedge
    · exact ⟨hlonger, hshorter⟩

theorem Rooted.path_antisymm (h : g.Rooted) (hforth : g.Path first second)
    (hback : g.Path second first) : first = second := by
  rcases Relation.reflTransGen_iff_eq_or_transGen.mp hforth with heq | hforth
  · exact heq.symm
  · exact absurd (hforth.trans_left hback) (h.acyclic first)

theorem Rooted.eq_zero_of_path (h : g.Rooted) (hpath : g.Path first 0) : first = 0 := by
  by_cases hlt : first < g.size
  · exact h.path_antisymm hpath (h.root first hlt)
  · exact (h.eq_of_path_of_le (Nat.le_of_not_lt hlt) hpath).symm

/-! ## Growing graphs -/

/-- Lifetimes and edges were added. -/
structure Extends (g g' : LifetimeGraph) : Prop where
  parent : g'.parent = g.parent
  size_le : g.size ≤ g'.size
  edge : ∀ {first second : Nat}, g.Edge first second → g'.Edge first second

theorem Extends.refl (g : LifetimeGraph) : g.Extends g := ⟨rfl, Nat.le_refl _, id⟩

theorem Extends.trans (h : g.Extends g') (h' : g'.Extends g'') : g.Extends g'' :=
  ⟨h'.parent.trans h.parent, Nat.le_trans h.size_le h'.size_le, fun hedge => h'.edge (h.edge hedge)⟩

theorem extends_carve (g : LifetimeGraph) : g.Extends g.carve :=
  ⟨rfl, Nat.le_succ _, fun hedge => List.mem_append_left _ hedge⟩

theorem extends_addEdge (g : LifetimeGraph) (first second : Nat) :
    g.Extends (g.addEdge first second) := by
  unfold addEdge
  split
  · exact .refl g
  · exact ⟨rfl, Nat.le_refl _, fun hedge => List.mem_append_left _ hedge⟩

end LifetimeGraph

end BorrowFlow
