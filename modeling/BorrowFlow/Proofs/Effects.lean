import BorrowFlow.Message.Fault
import Mathlib.Data.List.Forall2

/-!
# Runs of effects

How a run of a composed computation splits into runs of its parts. A computation over a list is
followed by an invariant that knows which elements are done.
-/

namespace BorrowFlow

variable {ε σ α β : Type} {results : List β} {x : EStateM ε σ α} {f : α → EStateM ε σ β}
  {post post' : α → σ → Prop} {next : β → σ → Prop} {answer : Except Fault α} {items : List α}
  {g : α → EStateM ε σ PUnit} {fault : ε} {t s : σ} {a : α}

/-! ## Computations that may fail -/

theorem Except.bind_eq_ok {x : Except ε α} {f : α → Except ε β} {b : β} :
    (x >>= f) = .ok b ↔ ∃ a, x = .ok a ∧ f a = .ok b := by
  cases x with
  | error fault => exact ⟨nofun, nofun⟩
  | ok a => exact ⟨fun h => ⟨a, rfl, h⟩, fun ⟨_, ha, h⟩ => by cases ha; exact h⟩

theorem Except.bind_eq_error {x : Except ε α} {f : α → Except ε β} :
    (x >>= f) = .error fault ↔ x = .error fault ∨ ∃ a, x = .ok a ∧ f a = .error fault := by
  cases x with
  | error found =>
    constructor
    · intro h
      cases h
      exact .inl rfl
    · rintro (h | ⟨_, h, -⟩)
      · cases h
        rfl
      · cases h
  | ok a =>
    constructor
    · exact fun h => .inr ⟨a, rfl, h⟩
    · rintro (h | ⟨_, ha, h⟩)
      · cases h
      · cases ha
        exact h

theorem exists_of_forall₂ {related : α → β → Prop}
    (h : List.Forall₂ related items results) : ∀ item ∈ items, ∃ result ∈ results,
      related item result := by
  induction h with
  | nil => exact nofun
  | cons hfirst _ ih =>
    refine List.forall_mem_cons.mpr ⟨⟨_, List.mem_cons_self, hfirst⟩, fun item hitem => ?_⟩
    obtain ⟨result, hresult, hrelated⟩ := ih item hitem
    exact ⟨result, List.mem_cons_of_mem _ hresult, hrelated⟩

theorem forall₂_of_mapM_ok {f : α → Except ε β} (h : items.mapM f = .ok results) :
    List.Forall₂ (fun item result => f item = .ok result) items results := by
  induction items generalizing results with
  | nil =>
    cases h
    exact .nil
  | cons head rest ih =>
    rw [List.mapM_cons] at h
    obtain ⟨first, hhead, h⟩ := Except.bind_eq_ok.mp h
    obtain ⟨others, hrest, h⟩ := Except.bind_eq_ok.mp h
    cases h
    exact .cons hhead (ih hrest)

theorem exists_of_mapM_ok {f : α → Except ε β} (h : items.mapM f = .ok results) :
    ∀ item ∈ items, ∃ result ∈ results, f item = .ok result :=
  exists_of_forall₂ (forall₂_of_mapM_ok h)

theorem exists_of_mem_mapM_ok {f : α → Except ε β}
    (h : items.mapM f = .ok results) : ∀ result ∈ results, ∃ item ∈ items, f item = .ok result :=
  exists_of_forall₂ (forall₂_of_mapM_ok h).flip

theorem exists_of_mapM_error {f : α → Except ε β} (h : items.mapM f = .error fault) :
    ∃ item ∈ items, f item = .error fault := by
  induction items with
  | nil => cases h
  | cons head rest ih =>
    rw [List.mapM_cons] at h
    rcases Except.bind_eq_error.mp h with hhead | ⟨first, -, h⟩
    · exact ⟨head, List.mem_cons_self, hhead⟩
    · rcases Except.bind_eq_error.mp h with hrest | ⟨others, -, h⟩
      · obtain ⟨item, hitem, hrun⟩ := ih hrest
        exact ⟨item, List.mem_cons_of_mem _ hitem, hrun⟩
      · cases h

theorem pairwise_flatten_of_mapM_ok {f : α → Except ε (List β)} {R : β → β → Prop}
    {parts : List (List β)} (h : items.mapM f = .ok parts)
    (hpart : ∀ item ∈ items, ∀ part, f item = .ok part → part.Pairwise R)
    (hparts : items.Pairwise fun first second => ∀ part part', f first = .ok part →
      f second = .ok part' → ∀ x ∈ part, ∀ y ∈ part', R x y) : parts.flatten.Pairwise R := by
  replace h := forall₂_of_mapM_ok h
  induction h with
  | nil => exact .nil
  | @cons head first rest others hhead hrest ih =>
    rw [List.forall_mem_cons] at hpart
    rw [List.pairwise_cons] at hparts
    rw [List.flatten_cons, List.pairwise_append]
    refine ⟨hpart.1 first hhead, ih hpart.2 hparts.2, fun x hx y hy => ?_⟩
    obtain ⟨part, hm, hy⟩ := List.mem_flatten.mp hy
    obtain ⟨item, hitem, hrun⟩ := exists_of_forall₂ hrest.flip part hm
    exact hparts.1 item hitem first part hhead hrun x hx y hy

theorem exists_mapM_ok {f : α → Except ε β} (h : ∀ item ∈ items, ∃ result, f item = .ok result) :
    ∃ results, items.mapM f = .ok results := by
  induction items with
  | nil => exact ⟨[], rfl⟩
  | cons head rest ih =>
    obtain ⟨first, hfirst⟩ := h head List.mem_cons_self
    obtain ⟨others, hothers⟩ := ih fun item hm => h item (List.mem_cons_of_mem _ hm)
    refine ⟨first :: others, ?_⟩
    rw [List.mapM_cons]
    simp [hfirst, hothers, bind, Except.bind, pure, Except.pure]

theorem eq_filter_of_filterM_ok {f : α → Except ε Bool} {p : α → Bool} {results : List α}
    (hp : ∀ item b, f item = .ok b → p item = b) (h : items.filterM f = .ok results) :
    results = items.filter p := by
  -- the auxiliary function collects the results in reverse
  have haux : ∀ (items done out : List α), items.filterAuxM f done = .ok out →
      out = (items.filter p).reverse ++ done := by
    intro items
    induction items with
    | nil =>
      intro done out hout
      cases hout
      rfl
    | cons head rest ih =>
      intro done out hout
      obtain ⟨b, hhead, hrest⟩ := Except.bind_eq_ok.mp hout
      rw [ih _ _ hrest, List.filter_cons, hp head b hhead]
      cases b <;> simp
  obtain ⟨out, hout, hreverse⟩ := Except.bind_eq_ok.mp h
  cases hreverse
  rw [haux items [] out hout]
  simp

theorem exists_filterM_ok {f : α → Except ε Bool} (h : ∀ item ∈ items, ∃ b, f item = .ok b) :
    ∃ results, items.filterM f = .ok results := by
  have haux : ∀ (items done : List α), (∀ item ∈ items, ∃ b, f item = .ok b) →
      ∃ out, items.filterAuxM f done = .ok out := by
    intro items
    induction items with
    | nil => exact fun done _ => ⟨done, rfl⟩
    | cons head rest ih =>
      intro done hall
      obtain ⟨⟨b, hhead⟩, hrest⟩ := List.forall_mem_cons.mp hall
      obtain ⟨out, hout⟩ := ih (cond b (head :: done) done) hrest
      exact ⟨out, Except.bind_eq_ok.mpr ⟨b, hhead, hout⟩⟩
  obtain ⟨out, hout⟩ := haux items [] h
  exact ⟨out.reverse, Except.bind_eq_ok.mpr ⟨out, hout, rfl⟩⟩

/-! ## Computations with a state -/

/-- The state that a computation leaves, whether it fails or not. -/
def leaves (x : EStateM ε σ α) (s : σ) : σ :=
  match x s with
  | .ok _ t | .error _ t => t

def succeeds (x : EStateM ε σ α) (s : σ) : Bool :=
  match x s with
  | .ok .. => true
  | .error .. => false

theorem eq_ok_of_succeeds {x : EStateM ε σ PUnit} (h : succeeds x s = true) :
    x s = .ok ⟨⟩ (leaves x s) := by
  unfold succeeds at h
  unfold leaves
  cases hrun : x s with
  | ok a t => rfl
  | error fault t => simp [hrun] at h

theorem exists_of_bind_eq_ok {b : β}
    (h : (x >>= f) s = .ok b t) : ∃ a u, x s = .ok a u ∧ f a u = .ok b t := by
  change EStateM.bind x f s = .ok b t at h
  unfold EStateM.bind at h
  cases hrun : x s with
  | ok a u =>
    rw [hrun] at h
    exact ⟨a, u, rfl, h⟩
  | error fault u =>
    rw [hrun] at h
    cases h

theorem get_run (s : σ) : (EStateM.get : EStateM ε σ σ) s = .ok s s :=
  rfl

theorem leaves_bind_pure (x : EStateM ε σ α) (b : β) (s : σ) :
    leaves (x.bind fun _ => EStateM.pure b) s = leaves x s := by
  unfold leaves EStateM.bind
  cases x s <;> rfl

/-- A run that ends well ends with `post`, and one that fails ends with `failed`. -/
def Meets (x : EStateM ε σ α) (s : σ) (post : α → σ → Prop) (failed : ε → σ → Prop) : Prop :=
  match x s with
  | .ok a t => post a t
  | .error fault t => failed fault t

/-- How a computation on a part of a state ends for the whole. -/
def within {τ : Type} (put : σ → τ) : EStateM.Result ε σ α → EStateM.Result ε τ α
  | .ok a s => .ok a (put s)
  | .error fault s => .error fault (put s)

section Meets

variable {failed failed' : ε → σ → Prop}

theorem Meets.of_eq_ok (h : Meets x s post failed) (hrun : x s = .ok a t) : post a t := by
  rw [Meets, hrun] at h
  exact h

theorem Meets.of_eq_error (h : Meets x s post failed) (hrun : x s = .error fault t) :
    failed fault t := by
  rw [Meets, hrun] at h
  exact h

theorem Meets.of_ok (hrun : x s = .ok a t) (h : post a t) : Meets x s post failed := by
  rw [Meets, hrun]
  exact h

theorem Meets.of_error (hrun : x s = .error fault t) (h : failed fault t) :
    Meets x s post failed := by
  rw [Meets, hrun]
  exact h

theorem Meets.exists_eq_ok (h : Meets x s post fun _ _ => False) :
    ∃ a t, x s = .ok a t ∧ post a t := by
  cases hrun : x s with
  | ok a t => exact ⟨a, t, rfl, h.of_eq_ok hrun⟩
  | error fault t => exact (h.of_eq_error hrun).elim

theorem Meets.mono (h : Meets x s post failed) (hpost : ∀ a t, post a t → post' a t)
    (hfailed : ∀ fault t, failed fault t → failed' fault t) : Meets x s post' failed' := by
  unfold Meets at h ⊢
  cases hrun : x s with
  | ok a t =>
    rw [hrun] at h
    exact hpost a t h
  | error fault t =>
    rw [hrun] at h
    exact hfailed fault t h

theorem Meets.and (h : Meets x s post failed) (h' : Meets x s post' failed') :
    Meets x s (fun a t => post a t ∧ post' a t)
      fun fault t => failed fault t ∧ failed' fault t := by
  cases hrun : x s with
  | ok a t => exact .of_ok hrun ⟨h.of_eq_ok hrun, h'.of_eq_ok hrun⟩
  | error fault t => exact .of_error hrun ⟨h.of_eq_error hrun, h'.of_eq_error hrun⟩

theorem Meets.bind (h : Meets x s (fun a t => Meets (f a) t next failed) failed) :
    Meets (x >>= f) s next failed := by
  change (match EStateM.bind x f s with
    | .ok b t => next b t
    | .error fault t => failed fault t)
  unfold Meets at h
  unfold EStateM.bind
  cases hrun : x s with
  | ok a t =>
    rw [hrun] at h
    exact h
  | error fault t =>
    rw [hrun] at h
    exact h

theorem Meets.discard {last : PUnit → σ → Prop}
    (h : Meets x s (fun _ => last ⟨⟩) failed) : Meets (discard x) s last failed := by
  have hdiscard : (Functor.discard x : EStateM ε σ PUnit) = x >>= fun _ => Pure.pure ⟨⟩ := by
    simp [Functor.discard, map_const]
  rw [hdiscard]
  exact Meets.bind h

theorem Meets.lift {failed : Fault → σ → Prop} (hok : ∀ a, answer = .ok a → post a s)
    (hfailed : ∀ fault, answer = .error fault → failed fault s) :
    Meets (liftM answer : EStateM Fault σ α) s post failed := by
  cases answer with
  | ok a => exact hok a rfl
  | error fault => exact hfailed fault rfl

theorem Meets.of_part {τ : Type} {y : EStateM ε τ α} {t : τ} {put : σ → τ} {last : α → τ → Prop}
    {lost : ε → τ → Prop} (hrun : y t = within put (x s))
    (h : Meets x s (fun a s => last a (put s)) fun fault s => lost fault (put s)) :
    Meets y t last lost := by
  unfold Meets at h ⊢
  rw [hrun]
  cases hpart : x s with
  | ok a s =>
    rw [hpart] at h
    exact h
  | error fault s =>
    rw [hpart] at h
    exact h

/-- A computation over a list, with an invariant that knows what is left to do. -/
theorem Meets.forM {done : PUnit → σ → Prop} (inv : List α → σ → Prop) (h : inv items s)
    (hstep : ∀ item rest s, inv (item :: rest) s → Meets (g item) s (fun _ => inv rest) failed)
    (hdone : ∀ s, inv [] s → done ⟨⟩ s) : Meets (items.forM g) s done failed := by
  induction items generalizing s with
  | nil => exact hdone s h
  | cons item rest ih =>
    apply Meets.bind
    exact (hstep item rest s h).mono (fun _ t ht => ih ht) fun _ _ ht => ht

end Meets

/-- A run that ends well ends with `post`, and one that fails leaves a state with `failed`. -/
def Ends (x : EStateM ε σ α) (s : σ) (post : α → σ → Prop) (failed : σ → Prop) : Prop :=
  Meets x s post fun _ => failed

section Ends

variable {failed failed' : σ → Prop}

theorem Ends.of_eq_ok (h : Ends x s post failed) (hrun : x s = .ok a t) : post a t :=
  Meets.of_eq_ok h hrun

theorem Ends.of_eq_error (h : Ends x s post failed) (hrun : x s = .error fault t) : failed t :=
  Meets.of_eq_error h hrun

theorem Ends.of_ok (hrun : x s = .ok a t) (h : post a t) : Ends x s post failed :=
  Meets.of_ok hrun h

theorem Ends.of_error (hrun : x s = .error fault t) (h : failed t) : Ends x s post failed :=
  Meets.of_error hrun h

theorem Ends.leaves {p : σ → Prop} (h : Ends x s (fun _ => p) p) : p (leaves x s) := by
  unfold Ends Meets at h
  unfold BorrowFlow.leaves
  cases hrun : x s with
  | ok a t =>
    rw [hrun] at h
    exact h
  | error fault t =>
    rw [hrun] at h
    exact h

theorem Ends.mono (h : Ends x s post failed) (hpost : ∀ a t, post a t → post' a t)
    (hfailed : ∀ t, failed t → failed' t) : Ends x s post' failed' :=
  Meets.mono h hpost fun _ => hfailed

theorem Ends.imp (h : Ends x s post failed) (hpost : ∀ a t, post a t → post' a t) :
    Ends x s post' failed :=
  h.mono hpost fun _ => id

theorem Ends.trivially (x : EStateM ε σ α) (s : σ) : Ends x s (fun _ _ => True) fun _ => True := by
  unfold Ends Meets
  split <;> trivial

theorem Ends.pure (h : post a s) : Ends (Pure.pure a : EStateM ε σ α) s post failed :=
  h

theorem Ends.get {post : σ → σ → Prop} (h : post s s) :
    Ends (MonadState.get : EStateM ε σ σ) s post failed :=
  h

theorem Ends.bind (h : Ends x s (fun a t => Ends (f a) t next failed) failed) :
    Ends (x >>= f) s next failed :=
  Meets.bind h

theorem Ends.seq (h : Ends x s post failed)
    (hnext : ∀ a t, post a t → Ends (f a) t next failed) : Ends (x >>= f) s next failed :=
  .bind (h.imp hnext)

theorem Ends.discard {last : PUnit → σ → Prop}
    (h : Ends x s (fun _ => last ⟨⟩) failed) : Ends (discard x) s last failed :=
  Meets.discard h

theorem Ends.lift (hok : ∀ a, answer = .ok a → post a s) (hfailed : failed s) :
    Ends (liftM answer : EStateM Fault σ α) s post failed :=
  Meets.lift hok fun _ _ => hfailed

theorem Ends.of_part {τ : Type} {y : EStateM ε τ α} {t : τ} {put : σ → τ} {last : α → τ → Prop}
    {lost : τ → Prop} (hrun : y t = within put (x s))
    (h : Ends x s (fun a s => last a (put s)) fun s => lost (put s)) : Ends y t last lost :=
  Meets.of_part hrun h

theorem Ends.forM {done : PUnit → σ → Prop} (inv : List α → σ → Prop) (h : inv items s)
    (hstep : ∀ item rest s, inv (item :: rest) s → Ends (g item) s (fun _ => inv rest) failed)
    (hdone : ∀ s, inv [] s → done ⟨⟩ s) : Ends (items.forM g) s done failed :=
  Meets.forM inv h hstep hdone

/-- Every item of a loop gets a fact of its own, which the items after it leave as it is. -/
theorem Ends.forM_each (inv : List α → σ → Prop) (fact : α → σ → Prop) (h : inv items s)
    (hstep : ∀ done item rest s, done ++ item :: rest = items → inv (item :: rest) s →
      Ends (g item) s
        (fun _ t => inv rest t ∧ fact item t ∧ ∀ other ∈ done, fact other s → fact other t)
        failed) :
    Ends (items.forM g) s (fun _ t => inv [] t ∧ ∀ item ∈ items, fact item t) failed := by
  apply Ends.forM fun rest s => ∃ done, done ++ rest = items ∧ inv rest s ∧
    ∀ item ∈ done, fact item s
  · exact ⟨[], rfl, h, nofun⟩
  · rintro item rest s ⟨done, hitems, hinv, hfacts⟩
    apply (hstep done item rest s hitems hinv).imp ?_
    rintro _ t ⟨hinv', hfact, hkept⟩
    refine ⟨done ++ [item], by simpa using hitems, hinv', ?_⟩
    rw [List.forall_mem_append]
    exact ⟨fun other ho => hkept other ho (hfacts other ho), by simpa using hfact⟩
  · rintro s ⟨done, hitems, hinv, hfacts⟩
    rw [List.append_nil] at hitems
    exact ⟨hinv, hitems ▸ hfacts⟩

/-- A run that ends well ends with `post`. -/
abbrev Yields (x : EStateM ε σ α) (s : σ) (post : α → σ → Prop) : Prop :=
  Ends x s post fun _ => True

theorem Ends.yields (h : Ends x s post failed) (hpost : ∀ a t, post a t → post' a t) :
    Yields x s post' :=
  h.mono hpost fun _ _ => trivial

theorem Ends.both (h : Ends x s post failed) (h' : Ends x s post' failed') :
    Yields x s fun a t => post a t ∧ post' a t :=
  (Meets.and h h').mono (fun _ _ => id) fun _ _ _ => trivial

theorem Yields.lift_bind {f : α → EStateM Fault σ β}
    (h : ∀ a, answer = .ok a → Yields (f a) s next) : Yields (liftM answer >>= f) s next :=
  Ends.bind (Ends.lift h trivial)

end Ends

end BorrowFlow
