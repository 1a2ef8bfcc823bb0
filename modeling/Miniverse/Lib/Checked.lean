import Miniverse.Lib.Async

/-!
# Check, then act

A program that acts only after a step at which its way was free. Other programs run between the check and the act: what the
check has found still holds at the act where nobody has changed it.
-/

namespace Lib

namespace Async

variable {σ ε α β : Type} {acts : (σ → σ) → Prop} {free : σ → Prop}

/-- The program does not act before it has taken a step in a state where the way is free. -/
def ChecksFirst (acts : (σ → σ) → Prop) (free : σ → Prop) : Async σ α → Prop
  | done _ => True
  | step f next => ¬ acts f ∧ ∀ s, free s ∨ ChecksFirst acts free (next s)

/-- The program acts once at most. -/
def ActsOnce (acts : (σ → σ) → Prop) : Async σ α → Prop
  | done _ => True
  | step f next => ∀ s, ActsOnce acts (next s) ∧ (acts f → All (fun f => ¬ acts f) (next s))

theorem All.checksFirst {p : Async σ α} (h : All (fun f => ¬ acts f) p) : ChecksFirst acts free p := by
  induction p with
  | done a => exact trivial
  | step f next ih => exact ⟨h.1, fun s => Or.inr (ih s (h.2 s))⟩

theorem ChecksFirst.bind_except {p : ExceptT ε (Async σ) α} {k : α → ExceptT ε (Async σ) β}
    (hp : ChecksFirst acts free p.run) (hk : ∀ a, ChecksFirst acts free (k a).run) :
    ChecksFirst acts free (p >>= k).run := by
  have key (q : Async σ (Except ε α)) (hq : ChecksFirst acts free q) :
      ChecksFirst acts free (q >>= ExceptT.bindCont k : Async σ (Except ε β)) := by
    induction q with
    | done r =>
        cases r with
        | ok a => exact hk a
        | error e => exact trivial
    | step f next ih => exact ⟨hq.1, fun s => (hq.2 s).imp_right (ih s)⟩
  exact key p.run hp

theorem ActsOnce.bind_except {p : ExceptT ε (Async σ) α} {k : α → ExceptT ε (Async σ) β}
    (hp : All (fun f => ¬ acts f) p.run) (hk : ∀ a, ActsOnce acts (k a).run) : ActsOnce acts (p >>= k).run := by
  have key (q : Async σ (Except ε α)) (hq : All (fun f => ¬ acts f) q) :
      ActsOnce acts (q >>= ExceptT.bindCont k : Async σ (Except ε β)) := by
    induction q with
    | done r =>
        cases r with
        | ok a => exact hk a
        | error e => exact trivial
    | step f next ih => exact fun s => ⟨ih s (hq.2 s), fun hacts => absurd hacts hq.1⟩
  exact key p.run hp

theorem ActsOnce.once {p : Async σ α} (h : ActsOnce acts p) (s : σ) : ActsOnce acts (p.once s).2 := by
  cases p with
  | done a => exact trivial
  | step f next => exact (h s).1

end Async

/-! ## Turns -/

namespace Arrivals

variable {σ ι α : Type} {acts : ι → (σ → σ) → Prop} {free : ι → σ → Prop} {request : ι → Async σ α} {c : Arrivals σ ι α}

/-- The way of each request is free, or it checks before it acts. -/
def Checked (acts : ι → (σ → σ) → Prop) (free : ι → σ → Prop) (request : ι → Async σ α) (c : Arrivals σ ι α) : Prop :=
  ∀ j, free j c.shared ∨ Async.ChecksFirst (acts j) (free j) (c.program request j)

/-- The way of a request that acts next is free. -/
theorem Checked.free_of_next (h : Checked acts free request c) {i : ι} {f : σ → σ} (hnext : (c.program request i).Next f)
    (hacts : acts i f) : free i c.shared := by
  obtain ⟨next, hp⟩ := hnext
  rcases h i with hfree | hchecks
  · exact hfree
  · rw [hp] at hchecks
    exact absurd hacts hchecks.1

/-- A turn at which every way that was free stays so, or its request still checks before it acts. -/
theorem Checked.turn [DecidableEq ι] (h : Checked acts free request c) {i : ι}
    (hkeep : ∀ j, free j c.shared → free j (c.turn request i).shared ∨
      Async.ChecksFirst (acts j) (free j) ((c.turn request i).program request j)) :
    Checked acts free request (c.turn request i) := by
  intro j
  rcases h j with hfree | hchecks
  · exact hkeep j hfree
  by_cases hj : j = i
  · subst hj
    cases hp : c.program request j with
    | done a =>
        rw [program_turn_self, hp]
        exact Or.inr trivial
    | step f next =>
        rw [hp] at hchecks
        rcases hchecks.2 c.shared with hfree | hnext
        · exact hkeep j hfree
        · rw [program_turn_self, hp]
          exact Or.inr hnext
  · rw [program_turn_ne hj]
    exact Or.inr hchecks

end Arrivals

end Lib
