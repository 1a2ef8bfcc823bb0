import Miniverse.Lib.Async

/-!
# Ghost state

What programs know about the shared state is written down in a ghost that only grows. A step may rely on the invariant, and
on all that was known before, however far the ghost has grown since.
-/

namespace Lib

structure Ghost (σ γ : Type) where
  Grows : γ → γ → Prop
  Inv : γ → σ → Prop
  refl : ∀ g, Grows g g
  trans : ∀ {g₁ g₂ g₃}, Grows g₁ g₂ → Grows g₂ g₃ → Grows g₁ g₃

/-- What is known stays known. -/
def Ghost.Stable {σ γ : Type} (G : Ghost σ γ) (F : γ → Prop) : Prop := ∀ g g', G.Grows g g' → F g → F g'

namespace Async

variable {σ γ ε α β : Type} {G : Ghost σ γ} {cond : (σ → σ) → σ → Prop}

/-- Each step that is taken under the condition keeps the invariant, and the result fits the ghost at the end. -/
def Safe (G : Ghost σ γ) (cond : (σ → σ) → σ → Prop) (fits : γ → α → Prop) : Async σ α → γ → Prop
  | done a, g => fits g a
  | step f next, g => ∀ g' s, G.Grows g g' → G.Inv g' s → cond f s →
      ∃ g'', G.Grows g' g'' ∧ G.Inv g'' (f s) ∧ Safe G cond fits (next s) g''

theorem Safe.bind {fits : γ → α → Prop} {fits' : γ → β → Prop} {p : Async σ α} {k : α → Async σ β} {g : γ}
    (hp : Safe G cond fits p g) (hk : ∀ g a, fits g a → Safe G cond fits' (k a) g) : Safe G cond fits' (p >>= k) g := by
  induction p generalizing g with
  | done a => exact hk g a hp
  | step f next ih =>
      intro g' s hgrows hinv hcond
      obtain ⟨g'', hgrows', hinv', hnext⟩ := hp g' s hgrows hinv hcond
      exact ⟨g'', hgrows', hinv', ih s hnext⟩

/-- What fits a result, where nothing is asked of an exception. -/
def Returned (P : γ → α → Prop) (g : γ) : Except ε α → Prop
  | .ok a => P g a
  | .error _ => True

theorem Safe.bind_except {P : γ → α → Prop} {Q : γ → β → Prop} {p : ExceptT ε (Async σ) α}
    {k : α → ExceptT ε (Async σ) β} {g : γ} (hp : Safe G cond (Returned P) p.run g)
    (hk : ∀ g a, P g a → Safe G cond (Returned Q) (k a).run g) : Safe G cond (Returned Q) (p >>= k).run g := by
  refine Safe.bind hp fun g r hr => ?_
  cases r with
  | ok a => exact hk g a hr
  | error e => exact trivial

theorem Safe.mono {fits fits' : γ → α → Prop} (h : ∀ g a, fits g a → fits' g a) {p : Async σ α} {g : γ}
    (hp : Safe G cond fits p g) : Safe G cond fits' p g := by
  induction p generalizing g with
  | done a => exact h g a hp
  | step f next ih =>
      intro g' s hgrows hinv hcond
      obtain ⟨g'', hgrows', hinv', hnext⟩ := hp g' s hgrows hinv hcond
      exact ⟨g'', hgrows', hinv', ih s hnext⟩

/-- A program whose steps leave every ghost as it is. -/
theorem All.safe {Q : (σ → σ) → Prop} {F : γ → Prop} (hQ : ∀ f g s, Q f → G.Inv g s → G.Inv g (f s)) (hF : G.Stable F)
    {p : Async σ α} {g : γ} (hp : All Q p) (h : F g) : Safe G cond (fun g _ => F g) p g := by
  induction p generalizing g with
  | done a => exact h
  | step f next ih =>
      intro g' s hgrows hinv _
      exact ⟨g', G.refl g', hQ f g' s hp.1 hinv, ih s (hp.2 s) (hF g g' hgrows h)⟩

/-- A program may start later. -/
theorem Safe.grows {p : Async σ α} {g g' : γ} (h : Safe G cond (fun _ _ => True) p g) (hgrows : G.Grows g g') :
    Safe G cond (fun _ _ => True) p g' := by
  cases p with
  | done a => exact trivial
  | step f next => exact fun g₂ s hgrows₂ => h g₂ s (G.trans hgrows hgrows₂)

end Async

/-! ## Runs -/

namespace Arrivals

variable {σ γ ι α : Type} [DecidableEq ι] {G : Ghost σ γ} {cond : (σ → σ) → σ → Prop} {request : ι → Async σ α}

/-- The step that a request takes next meets the condition. -/
def StepMeets (cond : (σ → σ) → σ → Prop) (request : ι → Async σ α) (c : Arrivals σ ι α) (i : ι) : Prop :=
  ∀ f, (c.program request i).Next f → cond f c.shared

/-- The requests are safe, and the ghost fits the state. -/
structure SafeAt (G : Ghost σ γ) (cond : (σ → σ) → σ → Prop) (request : ι → Async σ α) (g : γ) (c : Arrivals σ ι α) :
    Prop where
  inv : G.Inv g c.shared
  safe : ∀ i, Async.Safe G cond (fun _ _ => True) (c.program request i) g

theorem SafeAt.turn {g : γ} {c : Arrivals σ ι α} (h : SafeAt G cond request g c) {i : ι} (hcond : StepMeets cond request c i) :
    ∃ g', G.Grows g g' ∧ SafeAt G cond request g' (c.turn request i) := by
  have hi := h.safe i
  unfold StepMeets at hcond
  have hshared : (c.turn request i).shared = ((c.program request i).once c.shared).1 := rfl
  cases hp : c.program request i with
  | done a =>
      rw [hp] at hi
      rw [hp, Async.once_done] at hshared
      refine ⟨g, G.refl g, hshared ▸ h.inv, forall_turn (P := fun _ p => Async.Safe G cond (fun _ _ => True) p g) h.safe ?_⟩
      rw [hp]
      exact hi
  | step f next =>
      rw [hp] at hi hcond
      rw [hp, Async.once_step] at hshared
      obtain ⟨g', hgrows, hinv', hnext⟩ := hi g c.shared (G.refl g) h.inv (hcond f ⟨next, rfl⟩)
      refine ⟨g', hgrows, hshared ▸ hinv', forall_turn (P := fun _ p => Async.Safe G cond (fun _ _ => True) p g')
        (fun j => (h.safe j).grows hgrows) ?_⟩
      rw [hp]
      exact hnext

end Arrivals

end Lib
