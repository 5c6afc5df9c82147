import BorrowFlow.Proofs.Effects
import BorrowFlow.Proofs.LifetimeGraph

/-!
# How lifetimes outlive each other

Whatever is asked of a forest of lifetimes, scopes are younger than those around them, and the graph
of every scope has no cycle and everything below the lifetime of the scope. So one lifetime outlives
another if a path leads from it to the other, or if its scope is around that of the other, and this
is an order. The lifetime of a scope ends with the scope, and so does everything below it: only
lifetimes of the scopes around it outlast it.
-/

namespace BorrowFlow

variable {scope : ScopeId} {g ancestor : Nat} {parent : Option ScopeId}
  {first second : BoundedLifetime}

namespace LifetimeForest

variable {forest forest' forest'' : LifetimeForest} {place outer : BoundedLifetime}

def Has (forest : LifetimeForest) (place : BoundedLifetime) : Prop :=
  ∃ lifetimes, forest.graphs[place.graph]? = some lifetimes ∧ place.node < lifetimes.size

def Owns (forest : LifetimeForest) : Lifetime → Prop
  | .bounded place => forest.Has place
  | _ => True

/-- The first graph is that of the scope around the scope of the second. -/
def Encloses (forest : LifetimeForest) (outer inner : Nat) : Prop :=
  forest.parentOf inner = some outer

def Surrounds (forest : LifetimeForest) (outer inner : ScopeId) : Prop :=
  ∃ g g', forest.graphOf outer = .ok g ∧ forest.graphOf inner = .ok g' ∧ forest.Encloses g g'

theorem graphOf_eq_ok : forest.graphOf scope = .ok g ↔ forest.byScope.get? scope = some g := by
  unfold graphOf
  cases forest.byScope.get? scope <;> simp

theorem exists_of_encloses {g' : Nat} (h : forest.Encloses g g') :
    ∃ lifetimes, forest.graphs[g']? = some lifetimes ∧ lifetimes.parent = some g :=
  Option.bind_eq_some_iff.mp h

/-- Graphs belong to scopes, are as they should be, and are younger than those around them. -/
structure Lawful (forest : LifetimeForest) : Prop where
  rooted : ∀ {g : Nat} {lifetimes : LifetimeGraph}, forest.graphs[g]? = some lifetimes →
    lifetimes.Rooted
  encloses : ∀ {outer inner : Nat}, forest.Encloses outer inner → outer < inner
  inRange : ∀ {scope : ScopeId} {g : Nat}, forest.graphOf scope = .ok g → g < forest.graphs.size
  owned : ∀ g < forest.graphs.size, ∃ scope, forest.graphOf scope = .ok g

theorem lawful_empty : Lawful {} where
  rooted h := by simp at h
  encloses h := by simp [Encloses, parentOf] at h
  inRange h := by
    cases h
  owned g h := absurd h (Nat.not_lt_zero g)

/-! ## More lifetimes and edges -/

/-- Lifetimes and edges were added, and no scope. -/
structure Extends (forest forest' : LifetimeForest) : Prop where
  byScope : forest'.byScope = forest.byScope
  size : forest'.graphs.size = forest.graphs.size
  graphs : ∀ {g : Nat} {lifetimes : LifetimeGraph}, forest.graphs[g]? = some lifetimes →
    ∃ lifetimes', forest'.graphs[g]? = some lifetimes' ∧ lifetimes.Extends lifetimes'

theorem Extends.refl (forest : LifetimeForest) : forest.Extends forest :=
  ⟨rfl, rfl, fun hf => ⟨_, hf, .refl _⟩⟩

theorem Extends.trans (h : forest.Extends forest') (h' : forest'.Extends forest'') :
    forest.Extends forest'' := by
  refine ⟨h'.byScope.trans h.byScope, h'.size.trans h.size, fun hf => ?_⟩
  obtain ⟨_, hf', hext⟩ := h.graphs hf
  obtain ⟨_, hf'', hext'⟩ := h'.graphs hf'
  exact ⟨_, hf'', hext.trans hext'⟩

theorem Extends.graphOf (h : forest.Extends forest') (scope : ScopeId) :
    forest'.graphOf scope = forest.graphOf scope := by
  rw [LifetimeForest.graphOf, LifetimeForest.graphOf, h.byScope]

theorem Extends.has (h : forest.Extends forest') (hhas : forest.Has place) : forest'.Has place := by
  obtain ⟨lifetimes, hf, hlt⟩ := hhas
  obtain ⟨lifetimes', hf', hext⟩ := h.graphs hf
  exact ⟨lifetimes', hf', Nat.lt_of_lt_of_le hlt hext.size_le⟩

theorem Extends.parentOf (h : forest.Extends forest') (g : Nat) :
    forest'.parentOf g = forest.parentOf g := by
  unfold LifetimeForest.parentOf
  cases hf : forest.graphs[g]? with
  | some lifetimes =>
    obtain ⟨lifetimes', hf', hext⟩ := h.graphs hf
    rw [hf', Option.bind_some, Option.bind_some, hext.parent]
  | none =>
    have hle := Array.getElem?_eq_none_iff.mp hf
    rw [Array.getElem?_eq_none (h.size ▸ hle)]

theorem extends_modify {change : LifetimeGraph → LifetimeGraph}
    (hchange : ∀ lifetimes : LifetimeGraph, lifetimes.Extends (change lifetimes)) (changed : Nat) :
    forest.Extends { forest with graphs := forest.graphs.modify changed change } := by
  refine ⟨rfl, Array.size_modify, fun {g lifetimes} hf => ?_⟩
  rw [Array.getElem?_modify, hf]
  split
  · exact ⟨_, rfl, hchange _⟩
  · exact ⟨_, rfl, .refl _⟩

theorem Lawful.modify (h : forest.Lawful) {change : LifetimeGraph → LifetimeGraph} {changed : Nat}
    (hext : ∀ lifetimes : LifetimeGraph, lifetimes.Extends (change lifetimes))
    (hchange : ∀ lifetimes, forest.graphs[changed]? = some lifetimes → lifetimes.Rooted →
      (change lifetimes).Rooted) :
    Lawful { forest with graphs := forest.graphs.modify changed change } where
  rooted {g lifetimes} hf := by
    rw [Array.getElem?_modify] at hf
    split at hf
    · rename_i heq
      subst heq
      obtain ⟨old, hold, rfl⟩ := Option.map_eq_some_iff.mp hf
      exact hchange old hold (h.rooted hold)
    · exact h.rooted hf
  encloses hencloses := by
    rw [Encloses, (extends_modify hext changed).parentOf] at hencloses
    exact h.encloses hencloses
  inRange hgraph := by
    rw [Array.size_modify]
    exact h.inRange hgraph
  owned g hlt := by
    rw [Array.size_modify] at hlt
    exact h.owned g hlt

/-- A new lifetime of a scope, which nothing knew of before and which outlives no other. -/
structure Opens (forest : LifetimeForest) (scope : ScopeId) (place : BoundedLifetime)
    (forest' : LifetimeForest) : Prop where
  graphOf : forest.graphOf scope = .ok place.graph
  not_root : 0 < place.node
  not_has : ¬forest.Has place
  has : forest'.Has place
  last : ∀ {lifetimes : LifetimeGraph}, forest'.graphs[place.graph]? = some lifetimes →
    ∀ node, ¬lifetimes.Edge place.node node
  grows : forest.Extends forest'
  lawful : forest'.Lawful

theorem Lawful.opens (h : forest.Lawful) {lifetime : Lifetime}
    (hcarve : forest.carve scope = .ok (lifetime, forest')) :
    ∃ place, lifetime = .bounded place ∧ forest.Opens scope place forest' := by
  unfold carve at hcarve
  obtain ⟨g, hscope, hcarve⟩ := Except.bind_eq_ok.mp hcarve
  cases hcarve
  obtain ⟨lifetimes, hf⟩ : ∃ lifetimes, forest.graphs[g]? = some lifetimes :=
    ⟨_, Array.getElem?_eq_getElem (h.inRange hscope)⟩
  have hrooted := h.rooted hf
  have hcarved : (forest.graphs.modify g LifetimeGraph.carve)[g]? = some lifetimes.carve := by
    rw [Array.getElem?_modify, if_pos rfl, hf, Option.map_some]
  rw [hf, Option.map_some, Option.getD_some]
  refine ⟨_, rfl, hscope, hrooted.size_pos, ?_, ⟨_, hcarved, Nat.lt_succ_self _⟩, ?_,
    extends_modify LifetimeGraph.extends_carve g,
    h.modify LifetimeGraph.extends_carve fun _ _ => LifetimeGraph.Rooted.carve⟩
  · rintro ⟨_, hlifetimes, hlt⟩
    cases hf.symm.trans hlifetimes
    exact Nat.lt_irrefl _ hlt
  · intro _ hlifetimes node hedge
    cases hcarved.symm.trans hlifetimes
    rcases (lifetimes.links_append 0 lifetimes.size _ _).mp hedge with hedge | ⟨hzero, -⟩
    · exact Nat.lt_irrefl _ (hrooted.edge_lt hedge).1
    · exact absurd hrooted.size_pos (by simpa using hzero)

theorem extends_addOutlives (forest : LifetimeForest) (longer shorter : Lifetime) :
    forest.Extends (forest.addOutlives longer shorter) := by
  unfold addOutlives
  split
  · split
    · exact extends_modify (fun lifetimes => lifetimes.extends_addEdge _ _) _
    · exact .refl forest
  · exact .refl forest

theorem Lawful.addOutlives (h : forest.Lawful) {longer shorter : Lifetime}
    (hlonger : forest.Owns longer) (hshorter : forest.Owns shorter) :
    (forest.addOutlives longer shorter).Lawful := by
  unfold LifetimeForest.addOutlives
  split
  · rename_i first second
    split
    · rename_i hgraph
      refine h.modify (fun lifetimes => lifetimes.extends_addEdge _ _)
        fun lifetimes hf hrooted => ?_
      obtain ⟨_, hfirst, hlt⟩ := hlonger
      obtain ⟨_, hsecond, hlt'⟩ := hshorter
      rw [← hgraph] at hsecond
      cases hf.symm.trans hfirst
      cases hf.symm.trans hsecond
      exact hrooted.addEdge hlt hlt'
    · exact h
  · exact h

/-! ## More scopes -/

theorem of_establish (h : forest.establish scope parent = .ok (g, forest')) :
    forest.byScope.get? scope = none ∧ ∃ around, parent.mapM forest.graphOf = .ok around ∧
      forest' = { graphs := forest.graphs.push { parent := around },
                  byScope := forest.byScope.insert scope forest.graphs.size } := by
  unfold establish at h
  split at h
  · cases h
  · rename_i hnew
    obtain ⟨around, haround, h⟩ := Except.bind_eq_ok.mp h
    cases h
    refine ⟨?_, around, haround, rfl⟩
    simpa [hasGraph, IdMap.contains] using hnew

theorem graphOf_establish {other : ScopeId} {found : Nat}
    (h : forest.establish scope parent = .ok (g, forest')) :
    forest'.graphOf other = .ok found ↔
      other = scope ∧ found = forest.graphs.size ∨ forest.graphOf other = .ok found := by
  obtain ⟨hnew, around, -, rfl⟩ := of_establish h
  rw [graphOf_eq_ok, graphOf_eq_ok, IdMap.get?_insert]
  split
  · rename_i heq
    subst heq
    simp [hnew, eq_comm]
  · rename_i hne
    simp [hne]

theorem Lawful.establish (h : forest.Lawful)
    (hestablish : forest.establish scope parent = .ok (g, forest')) : forest'.Lawful := by
  have hgraphOf : ∀ other found, forest'.graphOf other = .ok found ↔
      other = scope ∧ found = forest.graphs.size ∨ forest.graphOf other = .ok found :=
    fun _ _ => graphOf_establish hestablish
  obtain ⟨-, around, haround, hforest⟩ := of_establish hestablish
  have hgraphs : forest'.graphs = forest.graphs.push { parent := around } := by rw [hforest]
  have hsize : forest'.graphs.size = forest.graphs.size + 1 := by simp [hgraphs]
  refine ⟨fun hf => ?_, fun hencloses => ?_, fun hgraph => ?_, fun g hlt => ?_⟩
  · rw [hgraphs, Array.getElem?_push] at hf
    split at hf
    · cases hf
      exact LifetimeGraph.rooted_new around
    · exact h.rooted hf
  · obtain ⟨lifetimes, hf, hparent⟩ := exists_of_encloses hencloses
    rw [hgraphs, Array.getElem?_push] at hf
    split at hf
    · rename_i heq
      cases hf
      -- the graph around the new one was looked up
      subst heq
      cases parent with
      | none =>
        cases haround
        cases hparent
      | some outer =>
        obtain ⟨found, hscope, heq⟩ := Except.bind_eq_ok.mp haround
        cases heq
        cases hparent
        exact h.inRange hscope
    · refine h.encloses (Option.bind_eq_some_iff.mpr ⟨lifetimes, hf, hparent⟩)
  · rw [hsize]
    rcases (hgraphOf _ _).mp hgraph with ⟨-, rfl⟩ | hgraph
    · exact Nat.lt_succ_self _
    · exact Nat.lt_succ_of_lt (h.inRange hgraph)
  · rw [hsize] at hlt
    rcases Nat.lt_or_eq_of_le (Nat.le_of_lt_succ hlt) with hlt | rfl
    · obtain ⟨other, ho⟩ := h.owned g hlt
      exact ⟨other, (hgraphOf _ _).mpr (.inr ho)⟩
    · exact ⟨scope, (hgraphOf _ _).mpr (.inl ⟨rfl, rfl⟩)⟩

/-! ## Requests -/

/-- What a forest can be asked to do. -/
inductive Request where
  | establish (scope : ScopeId) (parent : Option ScopeId)
  | carve (scope : ScopeId)
  | addOutlives (longer shorter : Lifetime)

namespace Request

def Fits (forest : LifetimeForest) : Request → Prop
  | establish .. | carve _ => True
  | addOutlives longer shorter => forest.Owns longer ∧ forest.Owns shorter

/-- A request that fails changes nothing. -/
def run (forest : LifetimeForest) : Request → LifetimeForest
  | establish scope parent =>
    match forest.establish scope parent with
    | .ok (_, forest') => forest'
    | .error _ => forest
  | carve scope =>
    match forest.carve scope with
    | .ok (_, forest') => forest'
    | .error _ => forest
  | addOutlives longer shorter => forest.addOutlives longer shorter

end Request

def Step (forest forest' : LifetimeForest) : Prop :=
  ∃ request : Request, request.Fits forest ∧ request.run forest = forest'

abbrev Leads : LifetimeForest → LifetimeForest → Prop := Relation.ReflTransGen Step

def Reachable (forest : LifetimeForest) : Prop := Leads {} forest

theorem Lawful.step (h : forest.Lawful) (hstep : forest.Step forest') : forest'.Lawful := by
  obtain ⟨request, hfits, rfl⟩ := hstep
  cases request with
  | establish scope parent =>
    dsimp only [Request.run]
    split
    · rename_i hestablish
      exact h.establish hestablish
    · exact h
  | carve scope =>
    dsimp only [Request.run]
    split
    · rename_i hcarve
      obtain ⟨place, -, hopens⟩ := h.opens hcarve
      exact hopens.lawful
    · exact h
  | addOutlives longer shorter => exact h.addOutlives hfits.1 hfits.2

theorem Reachable.lawful (h : forest.Reachable) : forest.Lawful := by
  induction h with
  | refl => exact lawful_empty
  | tail _ hstep ih => exact ih.step hstep

theorem Leads.graphOf (h : forest.Leads forest') (hgraph : forest.graphOf scope = .ok g) :
    forest'.graphOf scope = .ok g := by
  induction h with
  | refl => exact hgraph
  | tail _ hstep ih =>
    obtain ⟨request, -, rfl⟩ := hstep
    cases request with
    | establish other parent =>
      dsimp only [Request.run]
      split
      · rename_i hestablish
        exact (graphOf_establish hestablish).mpr (.inr ih)
      · exact ih
    | carve other =>
      dsimp only [Request.run]
      split
      · rename_i hcarve
        obtain ⟨_, -, heq⟩ := Except.bind_eq_ok.mp hcarve
        cases heq
        exact ih
      · exact ih
    | addOutlives longer shorter =>
      exact ((extends_addOutlives _ longer shorter).graphOf scope).trans ih

/-- A scope around two others, the first of which is around a third. -/
def scopes : LifetimeForest :=
  [.establish 0 none, .establish 1 (some 0), .establish 2 (some 1), .establish 3 (some 0)].foldl
    Request.run {}

theorem reachable_scopes : scopes.Reachable :=
  (((Relation.ReflTransGen.refl.tail ⟨.establish 0 none, trivial, rfl⟩).tail
    ⟨.establish 1 (some 0), trivial, rfl⟩).tail ⟨.establish 2 (some 1), trivial, rfl⟩).tail
    ⟨.establish 3 (some 0), trivial, rfl⟩

/-- A lifetime of the outermost scope, and two of the scope in it, each of which is asked to outlive
the other one. -/
def borrows : LifetimeForest :=
  [.carve 1, .carve 1, .addOutlives (.bounded ⟨1, 1⟩) (.bounded ⟨1, 2⟩),
    .addOutlives (.bounded ⟨1, 2⟩) (.bounded ⟨1, 1⟩)].foldl Request.run
    (Request.run scopes (.carve 0))

theorem leads_borrows : (Request.run scopes (.carve 0)).Leads borrows :=
  (((Relation.ReflTransGen.refl.tail ⟨.carve 1, trivial, rfl⟩).tail ⟨.carve 1, trivial, rfl⟩).tail
    ⟨.addOutlives (.bounded ⟨1, 1⟩) (.bounded ⟨1, 2⟩),
      ⟨⟨_, rfl, by decide⟩, ⟨_, rfl, by decide⟩⟩, rfl⟩).tail
    ⟨.addOutlives (.bounded ⟨1, 2⟩) (.bounded ⟨1, 1⟩),
      ⟨⟨_, rfl, by decide⟩, ⟨_, rfl, by decide⟩⟩, rfl⟩

theorem reachable_borrows : borrows.Reachable :=
  (reachable_scopes.tail ⟨.carve 0, trivial, rfl⟩).trans leads_borrows

/-! ## Scopes around scopes -/

theorem isAncestorWithin_sound (steps g : Nat)
    (h : forest.isAncestorWithin ancestor steps g = true) :
    Relation.TransGen forest.Encloses ancestor g := by
  fun_induction isAncestorWithin forest ancestor steps g with
  | case1 | case3 => cases h
  | case2 steps g parent hparent ih =>
    rcases Bool.or_eq_true_iff.mp h with heq | h
    · rw [of_decide_eq_true heq] at hparent
      exact .single hparent
    · exact (ih h).tail hparent

/-- Walking up from a graph meets everything above it before the walk runs out of steps. -/
theorem Lawful.isAncestorWithin_of_lt (h : forest.Lawful) (steps : Nat) :
    ∀ g < steps, Relation.TransGen forest.Encloses ancestor g →
      forest.isAncestorWithin ancestor steps g = true := by
  induction steps with
  | zero => exact fun _ hlt => absurd hlt (Nat.not_lt_zero _)
  | succ steps ih =>
    intro g hlt hpath
    obtain ⟨parent, hpath, hparent⟩ := Relation.TransGen.tail'_iff.mp hpath
    have hless := h.encloses hparent
    simp only [isAncestorWithin, show forest.parentOf g = some parent from hparent,
      Bool.or_eq_true, decide_eq_true_eq]
    rcases Relation.reflTransGen_iff_eq_or_transGen.mp hpath with heq | hpath
    · exact .inl heq
    · exact .inr (ih parent (by omega) hpath)

/-- One graph is that of a scope around another one if and only if a walk upwards leads to it. -/
theorem Lawful.isStrictAncestor_iff (h : forest.Lawful) {descendant : Nat} :
    forest.isStrictAncestor ancestor descendant = true ↔
      Relation.TransGen forest.Encloses ancestor descendant := by
  refine ⟨isAncestorWithin_sound _ _, fun hpath => h.isAncestorWithin_of_lt _ _ ?_ hpath⟩
  obtain ⟨parent, -, hparent⟩ := Relation.TransGen.tail'_iff.mp hpath
  obtain ⟨lifetimes, hf, -⟩ := exists_of_encloses hparent
  exact (Array.getElem?_eq_some_iff.mp hf).1

theorem Lawful.lt_of_encloses (h : forest.Lawful) {descendant : Nat}
    (hpath : Relation.TransGen forest.Encloses ancestor descendant) : ancestor < descendant := by
  induction hpath with
  | single hparent => exact h.encloses hparent
  | tail _ hparent ih => exact Nat.lt_trans ih (h.encloses hparent)

/-- Every graph belongs to a scope, so scopes are around scopes as graphs are above graphs. -/
theorem Lawful.surrounds_iff (h : forest.Lawful) {outer inner : ScopeId} {g' : Nat}
    (houter : forest.graphOf outer = .ok g) (hinner : forest.graphOf inner = .ok g') :
    Relation.TransGen forest.Surrounds outer inner ↔ Relation.TransGen forest.Encloses g g' := by
  constructor
  · intro hpath
    induction hpath generalizing g' with
    | single hstep =>
      obtain ⟨found, found', hf, hf', hencloses⟩ := hstep
      cases houter.symm.trans hf
      cases hinner.symm.trans hf'
      exact .single hencloses
    | tail _ hstep ih =>
      obtain ⟨found, found', hf, hf', hencloses⟩ := hstep
      cases hinner.symm.trans hf'
      exact (ih hf).tail hencloses
  · intro hpath
    induction hpath generalizing inner with
    | single hencloses => exact .single ⟨_, _, houter, hinner, hencloses⟩
    | tail _ hencloses ih =>
      have hlt := Nat.lt_trans (h.encloses hencloses) (h.inRange hinner)
      obtain ⟨between, hbetween⟩ := h.owned _ hlt
      exact (ih hbetween).tail ⟨_, _, hbetween, hinner, hencloses⟩

/-! ## What outlives what -/

/-- The two lifetimes are one, a path leads from the first to the second, or the scope of the first
is around that of the second. -/
inductive Covers (forest : LifetimeForest) (first second : BoundedLifetime) : Prop
  | within (hgraph : first.graph = second.graph) {lifetimes : LifetimeGraph}
      (hfound : forest.graphs[first.graph]? = some lifetimes)
      (hpath : lifetimes.Path first.node second.node)
  | across (h : Relation.TransGen forest.Encloses first.graph second.graph)

theorem Lawful.outlives_iff (h : forest.Lawful) :
    forest.outlives (.bounded first) (.bounded second) = true ↔
      first = second ∨ forest.Covers first second := by
  unfold outlives
  by_cases heq : first = second
  · simp [heq]
  rw [if_neg (by simpa using heq)]
  dsimp only
  split
  · rename_i hgraph
    unfold LifetimeForest.reaches
    constructor
    · intro hreaches
      split at hreaches
      · rename_i hf
        exact .inr (.within hgraph hf (LifetimeGraph.reaches_iff.mp hreaches))
      · cases hreaches
    · rintro (hsame | ⟨-, hf, hpath⟩ | hacross)
      · exact absurd hsame heq
      · rw [hf]
        exact LifetimeGraph.reaches_iff.mpr hpath
      · exact absurd (h.lt_of_encloses hacross) (by rw [hgraph]; exact Nat.lt_irrefl _)
  · rename_i hgraph
    rw [h.isStrictAncestor_iff]
    constructor
    · exact fun hacross => .inr (.across hacross)
    · rintro (hsame | ⟨hwithin, -, -⟩ | hacross)
      · exact absurd hsame heq
      · exact absurd hwithin hgraph
      · exact hacross

theorem Covers.trans {third : BoundedLifetime} (h : forest.Covers first second)
    (h' : forest.Covers second third) : forest.Covers first third := by
  cases h with
  | within hgraph hf hpath =>
    cases h' with
    | within hgraph' hf' hpath' =>
      rw [← hgraph] at hf'
      cases hf.symm.trans hf'
      exact .within (hgraph.trans hgraph') hf (hpath.trans hpath')
    | across hacross' => exact .across (hgraph ▸ hacross')
  | across hacross =>
    cases h' with
    | within hgraph' => exact .across (hgraph' ▸ hacross)
    | across hacross' => exact .across (hacross.trans hacross')

theorem Lawful.covers_antisymm (h : forest.Lawful) (hforth : forest.Covers first second)
    (hback : forest.Covers second first) : first = second := by
  cases hforth with
  | within hgraph hf hpath =>
    cases hback with
    | within _ hf' hpath' =>
      rw [← hgraph] at hf'
      cases hf.symm.trans hf'
      have hnode := (h.rooted hf).path_antisymm hpath hpath'
      cases first
      cases second
      cases hgraph
      cases hnode
      rfl
    | across hacross => exact absurd (h.lt_of_encloses hacross) (hgraph ▸ Nat.lt_irrefl _)
  | across hacross =>
    have hlt := h.lt_of_encloses hacross
    cases hback with
    | within hgraph => exact absurd hlt (hgraph ▸ Nat.lt_irrefl _)
    | across hacross' => exact absurd hlt (Nat.lt_asymm (h.lt_of_encloses hacross'))

theorem outlives_refl (forest : LifetimeForest) (lifetime : Lifetime) :
    forest.outlives lifetime lifetime = true :=
  if_pos rfl

theorem Lawful.outlives_trans (h : forest.Lawful) {first second third : Lifetime}
    (hfirst : forest.outlives first second = true)
    (hsecond : forest.outlives second third = true) : forest.outlives first third = true := by
  cases first with
  | unbounded | static => cases third <;> simp [outlives]
  | empty =>
    cases second with
    | empty => exact hsecond
    | _ => simp [outlives] at hfirst
  | bounded first =>
    cases second with
    | unbounded | static => simp [outlives] at hfirst
    | empty =>
      cases third with
      | empty => exact hfirst
      | _ => simp [outlives] at hsecond
    | bounded second =>
      cases third with
      | unbounded | static => simp [outlives] at hsecond
      | empty => simp [outlives]
      | bounded third =>
        rw [h.outlives_iff] at hfirst hsecond ⊢
        rcases hfirst with rfl | hfirst
        · exact hsecond
        · rcases hsecond with rfl | hsecond
          · exact .inr hfirst
          · exact .inr (hfirst.trans hsecond)

/-- Whatever requests lead to the forest, no scope has a cycle of lifetimes and all of them are
below its own, outliving is an order in which no two bounded lifetimes are equal, and walking up
from a scope comes to an end, so the search for a scope among those around another one is
complete. -/
theorem Reachable.outlives_isOrder (h : forest.Reachable) :
    (∀ (graph : Nat) (lifetimes : LifetimeGraph), forest.graphs[graph]? = some lifetimes →
        lifetimes.Acyclic ∧ ∀ node < lifetimes.size, lifetimes.Path 0 node) ∧
      (∀ lifetime, forest.outlives lifetime lifetime = true) ∧
        (∀ first second third, forest.outlives first second = true →
          forest.outlives second third = true → forest.outlives first third = true) ∧
          (∀ first second, first ≠ second →
            forest.outlives (.bounded first) (.bounded second) = true →
              forest.outlives (.bounded second) (.bounded first) = false) ∧
            WellFounded forest.Encloses ∧ ∀ ancestor graph,
              forest.isStrictAncestor ancestor graph = true ↔
                Relation.TransGen forest.Encloses ancestor graph := by
  have hlawful := h.lawful
  refine ⟨fun graph lifetimes hfound => ?_, forest.outlives_refl,
    fun _ _ _ => hlawful.outlives_trans,
    fun first second hne hforth => ?_, ?_, fun _ _ => hlawful.isStrictAncestor_iff⟩
  · have hrooted := hlawful.rooted hfound
    exact ⟨hrooted.acyclic, hrooted.root⟩
  · rw [Bool.eq_false_iff]
    intro hback
    have hcovers := (hlawful.outlives_iff.mp hforth).resolve_left hne
    have hcovers' := (hlawful.outlives_iff.mp hback).resolve_left (Ne.symm hne)
    exact hne (hlawful.covers_antisymm hcovers hcovers')
  · exact Subrelation.wf (fun hencloses => hlawful.encloses hencloses) Nat.lt_wfRel.wf

/-- Only the first of the two edges between the borrows is there. -/
theorem outlives_isOrder_borrows :
    borrows.Reachable ∧ borrows.outlives (.bounded ⟨1, 1⟩) (.bounded ⟨1, 2⟩) = true ∧
      borrows.outlives (.bounded ⟨1, 2⟩) (.bounded ⟨1, 1⟩) = false := by
  refine ⟨reachable_borrows, by decide, ?_⟩
  obtain ⟨-, -, -, hantisymm, -⟩ := reachable_borrows.outlives_isOrder
  exact hantisymm _ _ (by decide) (by decide)

/-! ## What outlasts a scope -/

theorem Lawful.outlasts_eq (h : forest.Lawful) (hgraph : forest.graphOf scope = .ok g) :
    forest.outlasts (.bounded place) scope = .ok (forest.isStrictAncestor place.graph g) := by
  have hroot : forest.reaches g place.node 0 = true → place.node = 0 := by
    intro hreaches
    unfold LifetimeForest.reaches at hreaches
    split at hreaches
    · rename_i hf
      exact (h.rooted hf).eq_zero_of_path (LifetimeGraph.reaches_iff.mp hreaches)
    · cases hreaches
  rw [outlasts, hgraph]
  simp only [bind, Except.bind, pure, Except.pure, Except.ok.injEq, Bool.or_eq_left_iff_imp]
  grind

/-- A lifetime outlasts a scope if and only if it outlives the lifetime of the scope and is a
different one. If it was carved out of a scope, then that scope is around the one that it
outlasts. -/
theorem Reachable.outlasts_iff (h : forest.Reachable) {lifetime : Lifetime} {scope : ScopeId}
    (hscope : forest.hasGraph scope = true) :
    ∃ own answer, forest.scopeLifetime scope = .ok own ∧
      forest.outlasts lifetime scope = .ok answer ∧
        (answer = true ↔ forest.outlives lifetime own = true ∧ lifetime ≠ own) ∧
          ∀ (home : ScopeId) (before after : LifetimeForest), before.Reachable →
            before.carve home = .ok (lifetime, after) → after.Leads forest →
              (answer = true ↔ Relation.TransGen forest.Surrounds home scope) := by
  have hlawful := h.lawful
  obtain ⟨graph, hfound⟩ := Option.isSome_iff_exists.mp hscope
  have hgraph := graphOf_eq_ok.mpr hfound
  have hown : forest.scopeLifetime scope = .ok (.bounded { graph, node := 0 }) := by
    rw [scopeLifetime, hgraph]
    rfl
  cases lifetime with
  | unbounded | static =>
    refine ⟨_, true, hown, rfl, by simp [outlives], fun home before after hbefore hcarve => ?_⟩
    obtain ⟨place, heq, -⟩ := hbefore.lawful.opens hcarve
    cases heq
  | empty =>
    refine ⟨_, false, hown, rfl, by simp [outlives], fun home before after hbefore hcarve => ?_⟩
    obtain ⟨place, heq, -⟩ := hbefore.lawful.opens hcarve
    cases heq
  | bounded place =>
    refine ⟨_, _, hown, hlawful.outlasts_eq hgraph, ?_,
      fun home before after hbefore hcarve hleads => ?_⟩
    · rw [hlawful.isStrictAncestor_iff, hlawful.outlives_iff, ne_eq, Lifetime.bounded.injEq]
      constructor
      · intro hacross
        refine ⟨.inr (.across hacross), fun heq => ?_⟩
        exact absurd (hlawful.lt_of_encloses hacross) (by rw [heq]; exact Nat.lt_irrefl _)
      · rintro ⟨heq | ⟨hwithin, hlifetimes, hpath⟩ | hacross, hne⟩
        · exact absurd heq hne
        · -- nothing but the lifetime of the scope leads to it
          have hzero := (hlawful.rooted hlifetimes).eq_zero_of_path hpath
          cases place
          cases hwithin
          cases hzero
          exact absurd rfl hne
        · exact hacross
    · obtain ⟨_, heq, hopens⟩ := hbefore.lawful.opens hcarve
      cases heq
      have hhome := hleads.graphOf ((hopens.grows.graphOf home).trans hopens.graphOf)
      rw [hlawful.isStrictAncestor_iff, hlawful.surrounds_iff hhome hgraph]

/-- The borrow of the outermost scope outlasts the innermost one. -/
theorem outlasts_iff_borrows :
    borrows.Reachable ∧ borrows.hasGraph 2 = true ∧
      borrows.outlasts (.bounded ⟨0, 1⟩) 2 = .ok true ∧
        Relation.TransGen borrows.Surrounds 0 2 := by
  have hanswer : borrows.outlasts (.bounded ⟨0, 1⟩) 2 = .ok true := rfl
  obtain ⟨own, answer, -, houtlasts, -, hiff⟩ :=
    @Reachable.outlasts_iff _ reachable_borrows (.bounded ⟨0, 1⟩) 2 rfl
  cases hanswer.symm.trans houtlasts
  exact ⟨reachable_borrows, rfl, hanswer,
    (hiff 0 scopes _ reachable_scopes rfl leads_borrows).mp rfl⟩

end LifetimeForest

end BorrowFlow
