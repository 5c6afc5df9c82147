import BorrowFlow.Proofs.Effects

/-!
# Two computations side by side

Two computations are coupled if related states lead to the same value and to related states, or to
the same fault and to states that are related as far as this is asked of a failure.
-/

namespace BorrowFlow

variable {ε σ τ α β γ : Type}

/-- From related states, two computations go the same way, to related states. -/
def Couples (lost pre : σ → τ → Prop) (x : EStateM ε σ α) (y : EStateM ε τ α)
    (post : σ → τ → Prop) : Prop :=
  ∀ s t, pre s t →
    match x s with
    | .ok a s' => ∃ t', y t = .ok a t' ∧ post s' t'
    | .error fault s' => ∃ t', y t = .error fault t' ∧ lost s' t'

namespace Couples

variable {lost pre post : σ → τ → Prop} {x : EStateM ε σ α} {y : EStateM ε τ α}

theorem of_eq_ok (h : Couples lost pre x y post) {s s' : σ} {t : τ} {a : α} (hpre : pre s t)
    (hrun : x s = .ok a s') : ∃ t', y t = .ok a t' ∧ post s' t' := by
  have h := h s t hpre
  rw [hrun] at h
  exact h

theorem of_eq_error (h : Couples lost pre x y post) {s s' : σ} {t : τ} {fault : ε}
    (hpre : pre s t) (hrun : x s = .error fault s') :
    ∃ t', y t = .error fault t' ∧ lost s' t' := by
  have h := h s t hpre
  rw [hrun] at h
  exact h

theorem pure (a : α) : Couples lost pre (Pure.pure a) (Pure.pure a : EStateM ε τ α) pre :=
  fun _ t hstands => ⟨t, rfl, hstands⟩

theorem throw (fault : ε) (h : ∀ s t, pre s t → lost s t) :
    Couples lost pre (MonadExcept.throw fault : EStateM ε σ α) (MonadExcept.throw fault) post :=
  fun s t hstands => ⟨t, rfl, h s t hstands⟩

theorem lift {answer : Except Fault α} (h : ∀ s t, pre s t → lost s t) :
    Couples lost pre (liftM answer : EStateM Fault σ α) (liftM answer : EStateM Fault τ α) pre := by
  cases answer with
  | ok a => exact .pure a
  | error fault => exact .throw fault h

theorem modify {change : σ → σ} {change' : τ → τ}
    (h : ∀ s t, pre s t → post (change s) (change' t)) :
    Couples lost pre (modify change : EStateM ε σ PUnit) (modify change' : EStateM ε τ PUnit)
      post :=
  fun s t hstands => ⟨change' t, rfl, h s t hstands⟩

theorem bind {x' : α → EStateM ε σ β} {y' : α → EStateM ε τ β} {last : σ → τ → Prop}
    (h : Couples lost pre x y post) (hnext : ∀ a, Couples lost post (x' a) (y' a) last) :
    Couples lost pre (x >>= x') (y >>= y') last := by
  intro s t hstands
  have h := h s t hstands
  change match EStateM.bind x x' s with
    | .ok a s' => ∃ t', EStateM.bind y y' t = .ok a t' ∧ last s' t'
    | .error fault s' => ∃ t', EStateM.bind y y' t = .error fault t' ∧ lost s' t'
  unfold EStateM.bind
  cases hrun : x s with
  | ok a s' =>
    rw [hrun] at h
    obtain ⟨t', hrun', hpost⟩ := h
    rw [hrun']
    exact hnext a s' t' hpost
  | error fault s' =>
    rw [hrun] at h
    obtain ⟨t', hrun', hlost⟩ := h
    rw [hrun']
    exact ⟨t', rfl, hlost⟩

theorem get_bind {x' : σ → EStateM ε σ β} {y' : τ → EStateM ε τ β} {last : σ → τ → Prop}
    (h : ∀ s t, pre s t → Couples lost pre (x' s) (y' t) last) :
    Couples lost pre (MonadState.get >>= x') (MonadState.get >>= y') last :=
  fun s t hstands => h s t hstands s t hstands

theorem forM {items : List γ} {body : γ → EStateM ε σ PUnit} {body' : γ → EStateM ε τ PUnit}
    (h : ∀ item, Couples lost pre (body item) (body' item) pre) :
    Couples lost pre (items.forM body) (items.forM body') pre := by
  induction items with
  | nil => exact .pure PUnit.unit
  | cons item rest ih => exact (h item).bind fun _ => ih

theorem mapM {items : List γ} {body : γ → EStateM ε σ α} {body' : γ → EStateM ε τ α}
    (h : ∀ item, Couples lost pre (body item) (body' item) pre) :
    Couples lost pre (items.mapM body) (items.mapM body') pre := by
  induction items with
  | nil => exact .pure []
  | cons item rest ih =>
    rw [List.mapM_cons, List.mapM_cons]
    exact (h item).bind fun _ => ih.bind fun _ => .pure _

end Couples

end BorrowFlow
