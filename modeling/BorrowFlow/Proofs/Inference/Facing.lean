import BorrowFlow.Proofs.Inference.Admission

/-!
# What facing the ports does

After the first pass every handle has its sort, groups and facades are arranged as they should be,
and the ports of every node show what the node declares. If no signature has a polymorphic
reference, then no reference shares its mutability.
-/

namespace BorrowFlow

/-! ## Signatures without polymorphic references -/

def DeclaredType.Monomorphic : DeclaredType → Prop
  | generic _ | concrete _ => True
  | constructed _ argument => argument.Monomorphic
  | reference mutability _ referent => mutability ≠ .polymorphic ∧ referent.Monomorphic

def NodeKind.Monomorphic : NodeKind → Prop
  | functional signature => ∀ parameter ∈ signature.parameters, parameter.type.Monomorphic
  | _ => True

def Graph.Monomorphic (g : Graph) : Prop :=
  ∀ node ∈ g.nodes, node.kind.Monomorphic

instance DeclaredType.decidableMonomorphic : (type : DeclaredType) → Decidable type.Monomorphic
  | generic _ | concrete _ => .isTrue trivial
  | constructed _ argument => decidableMonomorphic argument
  | reference mutability _ referent =>
    have := decidableMonomorphic referent
    inferInstanceAs (Decidable (mutability ≠ .polymorphic ∧ referent.Monomorphic))

instance NodeKind.decidableMonomorphic : (kind : NodeKind) → Decidable kind.Monomorphic
  | functional signature =>
    inferInstanceAs (Decidable (∀ parameter ∈ signature.parameters, parameter.type.Monomorphic))
  | constant .. | explicitBorrow .. | terminateLifetime .. | drop | compound _ | border .. =>
    .isTrue trivial

instance (g : Graph) : Decidable g.Monomorphic :=
  inferInstanceAs (Decidable (∀ node ∈ g.nodes, node.kind.Monomorphic))

variable {g : Graph} {n : NodeId} {p : PortId} {t : TermId} {node : Node} {d : Draft} {fixed : Prop}

theorem Graph.Asks.monomorphic {depth : Nat} {type : DeclaredType} (h : g.Asks n p depth type)
    (hmono : g.Monomorphic) : type.Monomorphic := by
  induction h with
  | parameter hnode hk hpair _ =>
    have hsignature := hmono _ (Array.mem_of_getElem? hnode)
    rw [hk] at hsignature
    exact hsignature _ (Pass.mem_assignPorts hpair).1
  | iterated => exact ⟨by simp, trivial⟩
  | constructed _ ih => exact ih
  | reference _ ih => exact ih.2

/-! ## What a lawful draft is good for -/

namespace Draft

theorem Lawful.stands (h : d.Lawful g) (hmono : fixed → g.Monomorphic) :
    d.toContext.Stands fixed g.Arranged := by
  refine ⟨⟨h.sound, fun hfixed t shared underlying lifetime hp => ?_, fun f t ht => ?_,
    fun id b hb => ?_⟩, h.arranged⟩
  · have hfits := h.fits t (TermStore.lt_size_of_probe hp)
    rw [hp] at hfits
    generalize d.role t = role at hfits
    cases hfits with
    | reference => exact ⟨_, rfl⟩
    | layerReference hasks hshares =>
      cases shared with
      | fixed mutable => exact ⟨mutable, rfl⟩
      | shared t => exact absurd hshares.1 (hasks.monomorphic (hmono hfixed)).1
  · obtain ⟨hlt, hsort, -⟩ := h.typed f t ht
    exact hsort ▸ h.hasSort ⟨hlt, rfl⟩
  · obtain ⟨⟨_, hlifetime⟩, -⟩ := h.serves id b hb
    exact h.hasSort hlifetime

theorem Lawful.instantiates (h : d.Lawful g) {depth : Nat} {type : DeclaredType}
    (ht : d.Has t (.of n p depth type)) : d.terms.Instantiates (d.book n).generics type t := by
  induction type generalizing t depth with
  | generic index => exact (h.lists.generics n index t).mpr ht
  | concrete | constructed => trivial
  | reference declared parameter referent ih =>
    have hfits := h.fits_of_has ht
    generalize hp : d.terms.probe t = data at hfits
    cases hfits with
    | layerReference _ _ hunderlying _ => exact ⟨_, _, _, hp, ih hunderlying⟩

theorem Lawful.answers (h : d.Lawful g) (hnode : g.nodes[n]? = some node) {signature : Signature}
    (hk : node.kind = .functional signature) (hall : d.HasGenerics n signature.generics.length) :
    d.toContext.Answers fixed signature.generics (d.book n).generics := by
  have hfits : ∀ (index : Nat) (t : TermId), (d.book n).generics[index]? = some t →
      ∃ generic, signature.generics[index]? = some generic ∧ d.terms.Answers fixed generic t := by
    intro index t ht
    have hfits := h.fits_of_has ((h.lists.generics n index t).mp ht)
    generalize hp : d.terms.probe t = data at hfits
    cases hfits with
    | generic hbounds =>
      obtain ⟨generic, hgeneric, rfl⟩ := hbounds node signature hnode hk
      exact ⟨generic, hgeneric, fun _ hconstraint => .unbound hp hconstraint⟩
  refine List.forall₂_iff_get.mpr ⟨Nat.le_antisymm (Nat.le_of_not_lt fun hlt => ?_)
    (Nat.le_of_not_lt fun hlt => ?_), fun index hindex hindex' _ => ?_⟩
  · obtain ⟨t, ht⟩ := hall _ hlt
    have hlisted := (h.lists.generics ..).mpr ht
    simp at hlisted
  · obtain ⟨generic, hgeneric, -⟩ := hfits _ _ (List.getElem?_eq_getElem hlt)
    simp at hgeneric
  · obtain ⟨generic, hgeneric, hanswers⟩ := hfits index _ (List.getElem?_eq_getElem hindex')
    rw [List.getElem?_eq_getElem hindex] at hgeneric
    rw [List.get_eq_getElem, Option.some.inj hgeneric]
    exact hanswers

theorem Presents.context (h : d.Presents g n node) (hl : d.Lawful g)
    (hnode : g.nodes[n]? = some node) : d.toContext.Presents fixed g node := by
  refine ⟨fun signature hk => ⟨(d.book n).generics, ?_, fun pair hpair => ?_⟩, h.borrows, h.returns⟩
  · exact hl.answers hnode hk (h.signature signature hk).1
  · obtain ⟨facade, hfacade, hsuits, -, -, t, ht, hhas⟩ := (h.signature signature hk).2 pair hpair
    exact ⟨facade, t, hfacade, hsuits, Context.carries_of_term ht, hl.instantiates hhas⟩

end Draft

/-- Facing the ports of a well-formed graph leaves a typed and arranged context, which knows an
order of the nodes, and in which every node shows what it declares. -/
theorem Pass.ends_facePorts {config : Config} (hw : g.WellFormed) (hc : g.Consistent)
    (hl : g.Layered) (hmono : fixed → g.Monomorphic) :
    Yields (facePorts config g) {} fun _ ctx => ctx.Stands fixed g.Arranged ∧
        g.visitOrder = .ok ctx.order ∧ ∀ (n : NodeId) (node : Node), g.nodes[n]? = some node →
            ctx.Presents fixed g node := by
  refine Meets.mono (meets_facePorts hw hc hl) ?_ fun _ _ _ => trivial
  rintro _ _ ⟨-, d, rfl, hr, hord, hpresents⟩
  exact ⟨hr.lawful.stands hmono, hord,
    fun n node hnode => (hpresents n node hnode).context hr.lawful hnode⟩

end BorrowFlow
