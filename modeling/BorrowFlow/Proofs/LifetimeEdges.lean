import BorrowFlow.Proofs.LifetimeForest

/-!
# What one more edge between lifetimes changes

Recording that one lifetime outlives another has consequences for whatever outlives the first and
for whatever the second outlives, and for nothing else. If the two are not different lifetimes of
one scope, or if the second outlives the first already, then nothing is recorded. Which scopes a
lifetime outlasts does not change in any case.
-/

namespace BorrowFlow

namespace LifetimeGraph

variable {g : LifetimeGraph} {first second longer shorter : Nat}

/-- An edge that is there already has no consequences, and they are said to be there too. -/
theorem path_addEdge_iff (hback : ¬g.Path shorter longer) :
    (g.addEdge longer shorter).Path first second ↔
      g.Path first second ∨ g.Path first longer ∧ g.Path shorter second := by
  rcases g.addEdge_cases longer shorter with ⟨heq, hpath | hedge⟩ | ⟨hlinks, -⟩
  · exact absurd hpath hback
  · rw [heq]
    refine ⟨.inl, fun h => h.elim id fun ⟨hbefore, hafter⟩ => ?_⟩
    exact (hbefore.tail hedge).trans hafter
  · exact hlinks.path_iff

theorem addEdge_of_path (hback : g.Path shorter longer) : g.addEdge longer shorter = g := by
  rcases g.addEdge_cases longer shorter with ⟨heq, -⟩ | ⟨-, hnot⟩
  · exact heq
  · exact absurd hback hnot

end LifetimeGraph

namespace LifetimeForest

variable {forest forest' : LifetimeForest} {longer shorter first second : BoundedLifetime}

/-- The two are different lifetimes of one scope, and the second does not outlive the first. -/
def Separates (forest : LifetimeForest) : Lifetime → Lifetime → Prop
  | .bounded longer, .bounded shorter =>
    longer ≠ shorter ∧ longer.graph = shorter.graph ∧
      forest.outlives (.bounded shorter) (.bounded longer) = false
  | _, _ => False

theorem separates_iff (hgraph : longer.graph = shorter.graph) {lifetimes : LifetimeGraph}
    (hf : forest.graphs[longer.graph]? = some lifetimes) :
    forest.Separates (.bounded longer) (.bounded shorter) ↔
      ¬lifetimes.Path shorter.node longer.node := by
  by_cases heq : longer = shorter
  · rw [heq]
    exact ⟨fun h => absurd rfl h.1, fun h => absurd .refl h⟩
  · rw [Separates, outlives, if_neg (by simpa using Ne.symm heq), if_pos hgraph.symm, reaches,
      ← hgraph, hf, ← LifetimeGraph.reaches_iff, Bool.not_eq_true]
    exact ⟨fun h => h.2.2, fun h => ⟨heq, rfl, h⟩⟩

theorem addOutlives_of_not_separates {longer shorter : Lifetime}
    (h : ¬forest.Separates longer shorter) : forest.addOutlives longer shorter = forest := by
  unfold addOutlives
  split
  · rename_i longer shorter
    split
    · rename_i hgraph
      have hsame : forest.graphs.modify longer.graph (·.addEdge longer.node shorter.node) =
          forest.graphs := by
        refine Array.ext_getElem? fun g => ?_
        rw [Array.getElem?_modify]
        split
        · rename_i hg
          subst hg
          cases hf : forest.graphs[longer.graph]? with
          | none => rfl
          | some lifetimes =>
            rw [separates_iff hgraph hf, not_not] at h
            rw [Option.map_some, LifetimeGraph.addEdge_of_path h]
        · rfl
      rw [hsame]
    · rfl
  · rfl

theorem getElem?_addOutlives (hgraph : longer.graph = shorter.graph) (g : Nat) :
    (forest.addOutlives (.bounded longer) (.bounded shorter)).graphs[g]? =
      if longer.graph = g then (forest.graphs[g]?).map (·.addEdge longer.node shorter.node)
      else forest.graphs[g]? := by
  simp only [addOutlives, if_pos hgraph, Array.getElem?_modify]

theorem encloses_addOutlives (forest : LifetimeForest) (longer shorter : Lifetime) :
    (forest.addOutlives longer shorter).Encloses = forest.Encloses := by
  funext outer inner
  rw [Encloses, Encloses, (extends_addOutlives forest longer shorter).parentOf]

/-! ## Consequences -/

theorem Covers.of_extends (h : forest.Covers first second) (hext : forest.Extends forest') :
    forest'.Covers first second := by
  cases h with
  | within hgraph hf hpath =>
    obtain ⟨lifetimes', hf', hext'⟩ := hext.graphs hf
    exact .within hgraph hf' (hpath.lift id fun _ _ => hext'.edge)
  | across h =>
    exact .across (h.lift id fun _ _ => (hext.parentOf _).trans)

section

variable (h : forest.Separates (.bounded longer) (.bounded shorter)) (hhas : forest.Has longer)
include h hhas

theorem Separates.covers_addOutlives :
    (forest.addOutlives (.bounded longer) (.bounded shorter)).Covers longer shorter := by
  obtain ⟨lifetimes, hf, -⟩ := hhas
  have hgraph := h.2.1
  refine .within hgraph (by rw [getElem?_addOutlives hgraph, if_pos rfl, hf, Option.map_some]) ?_
  rw [LifetimeGraph.path_addEdge_iff ((separates_iff hgraph hf).mp h)]
  exact .inr ⟨.refl, .refl⟩

/-- What the new edge makes a lifetime outlive, it outlives through the two lifetimes that the edge
connects. -/
theorem Separates.of_covers
    (hcovers : (forest.addOutlives (.bounded longer) (.bounded shorter)).Covers first second) :
    forest.Covers first second ∨ forest.Covers first longer ∧ forest.Covers shorter second := by
  obtain ⟨lifetimes, hf, -⟩ := hhas
  have hgraph := h.2.1
  cases hcovers with
  | within hwithin hf' hpath =>
    rw [getElem?_addOutlives hgraph] at hf'
    split at hf'
    · rename_i heq
      rw [← heq, hf, Option.map_some, Option.some.injEq] at hf'
      rw [← hf', LifetimeGraph.path_addEdge_iff ((separates_iff hgraph hf).mp h)] at hpath
      refine hpath.imp (fun hpath => .within hwithin (heq ▸ hf) hpath) fun ⟨hbefore, hafter⟩ => ?_
      exact ⟨.within heq.symm (heq ▸ hf) hbefore,
        .within (hgraph.symm.trans (heq.trans hwithin)) (hgraph ▸ hf) hafter⟩
    · exact .inl (.within hwithin hf' hpath)
  | across hacross =>
    rw [encloses_addOutlives] at hacross
    exact .inl (.across hacross)

theorem Separates.outlives_iff_of_bounded (hlawful : forest.Lawful) (hhas' : forest.Has shorter) :
    (forest.addOutlives (.bounded longer) (.bounded shorter)).outlives (.bounded first)
        (.bounded second) = true ↔
      forest.outlives (.bounded first) (.bounded second) = true ∨
        forest.outlives (.bounded first) (.bounded longer) = true ∧
          forest.outlives (.bounded shorter) (.bounded second) = true := by
  have hlawful' : (forest.addOutlives (.bounded longer) (.bounded shorter)).Lawful :=
    hlawful.addOutlives hhas hhas'
  have hext := extends_addOutlives forest (.bounded longer) (.bounded shorter)
  simp only [hlawful'.outlives_iff, hlawful.outlives_iff]
  constructor
  · rintro (heq | hcovers)
    · exact .inl (.inl heq)
    · exact (h.of_covers hhas hcovers).imp .inr fun ⟨hbefore, hafter⟩ => ⟨.inr hbefore, .inr hafter⟩
  · rintro ((heq | hcovers) | ⟨hbefore, hafter⟩)
    · exact .inl heq
    · exact .inr (hcovers.of_extends hext)
    · have hnew := h.covers_addOutlives hhas
      refine .inr ?_
      rcases hbefore with rfl | hbefore
      · rcases hafter with rfl | hafter
        · exact hnew
        · exact hnew.trans (hafter.of_extends hext)
      · rcases hafter with rfl | hafter
        · exact (hbefore.of_extends hext).trans hnew
        · exact ((hbefore.of_extends hext).trans hnew).trans (hafter.of_extends hext)

end

theorem Lawful.outlasts_addOutlives (h : forest.Lawful) {longer shorter : Lifetime}
    (hlonger : forest.Owns longer) (hshorter : forest.Owns shorter) (lifetime : Lifetime)
    (scope : ScopeId) :
    (forest.addOutlives longer shorter).outlasts lifetime scope =
      forest.outlasts lifetime scope := by
  have h' := h.addOutlives hlonger hshorter
  have hgraphOf := (extends_addOutlives forest longer shorter).graphOf scope
  cases lifetime with
  | bounded place =>
    cases hgraph : forest.graphOf scope with
    | ok g =>
      rw [hgraph] at hgraphOf
      rw [h.outlasts_eq hgraph, h'.outlasts_eq hgraphOf, Except.ok.injEq, Bool.eq_iff_iff,
        h.isStrictAncestor_iff, h'.isStrictAncestor_iff, encloses_addOutlives]
    | error fault =>
      rw [hgraph] at hgraphOf
      rw [outlasts, outlasts, hgraph, hgraphOf]
      rfl
  | _ => rfl

/-- After it was recorded that a lifetime outlives another, whatever outlives the first outlives
whatever the second does, and there is nothing else that outlives more than it did. Nothing is
recorded about lifetimes that are equal, special, of different scopes or in the opposite order
already, and whatever is recorded has no influence on which scopes a lifetime outlasts. -/
theorem Reachable.outlives_addOutlives (h : forest.Reachable) {longer shorter : Lifetime}
    (hlonger : forest.Owns longer) (hshorter : forest.Owns shorter) :
    (forest.Separates longer shorter → ∀ first second,
        ((forest.addOutlives longer shorter).outlives first second = true ↔
          forest.outlives first second = true ∨
            forest.outlives first longer = true ∧ forest.outlives shorter second = true)) ∧
      (¬forest.Separates longer shorter → ∀ first second,
        (forest.addOutlives longer shorter).outlives first second =
          forest.outlives first second) ∧
        ∀ lifetime scope, (forest.addOutlives longer shorter).outlasts lifetime scope =
          forest.outlasts lifetime scope := by
  refine ⟨fun hsep first second => ?_, fun hsep _ _ => by rw [addOutlives_of_not_separates hsep],
    h.lawful.outlasts_addOutlives hlonger hshorter⟩
  cases longer with
  | bounded longer =>
    cases shorter with
    | bounded shorter =>
      cases first with
      | bounded first =>
        cases second with
        | bounded second => exact hsep.outlives_iff_of_bounded hlonger h.lawful hshorter
        | _ => simp [outlives]
      | _ => cases second <;> simp [outlives]
    | _ => cases hsep
  | _ => cases hsep

/-- The first of the two borrows comes to outlive a third one, through the second. -/
theorem outlives_addOutlives_borrows :
    let forest := Request.run borrows (.carve 1)
    forest.Reachable ∧ forest.outlives (.bounded ⟨1, 1⟩) (.bounded ⟨1, 3⟩) = false ∧
      (forest.addOutlives (.bounded ⟨1, 2⟩) (.bounded ⟨1, 3⟩)).outlives (.bounded ⟨1, 1⟩)
        (.bounded ⟨1, 3⟩) = true := by
  have hreachable : (Request.run borrows (.carve 1)).Reachable :=
    reachable_borrows.tail ⟨.carve 1, trivial, rfl⟩
  obtain ⟨hiff, -, -⟩ := @Reachable.outlives_addOutlives _ hreachable (.bounded ⟨1, 2⟩)
    (.bounded ⟨1, 3⟩) ⟨_, rfl, by decide⟩ ⟨_, rfl, by decide⟩
  refine ⟨hreachable, by decide, (hiff ⟨by decide, rfl, by decide⟩ _ _).mpr (.inr ?_)⟩
  decide

end LifetimeForest

end BorrowFlow
