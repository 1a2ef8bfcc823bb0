import Miniverse.Lib.Async

/-!
# Programs that run alone

A program that no other interrupts runs to its end: it takes a state, and leaves a result and a state behind.
-/

namespace Lib

namespace Async

variable {σ τ ε α β γ δ : Type}

def run : Async σ α → σ → α × σ
  | done a, s => (a, s)
  | step f next, s => (next s).run (f s)

@[simp] theorem run_done (a : α) (s : σ) : (done a).run s = (a, s) := rfl

@[simp] theorem run_pure (a : α) (s : σ) : (pure a : Async σ α).run s = (a, s) := rfl

@[simp] theorem run_step (f : σ → σ) (next : σ → Async σ α) (s : σ) : (step f next).run s = (next s).run (f s) := rfl

@[simp] theorem run_look (f : σ → α) (s : σ) : (look f).run s = (f s, s) := rfl

@[simp] theorem run_act (f : σ → σ) (s : σ) : (act f).run s = ((), f s) := rfl

@[simp] theorem run_bind (p : Async σ α) (k : α → Async σ β) (s : σ) : (p >>= k).run s = (k (p.run s).1).run (p.run s).2 := by
  induction p generalizing s with
  | done a => rfl
  | step f next ih => exact ih s (f s)

/-- On a part of the state that can be read back. -/
theorem run_zoom {get : τ → σ} {set : σ → τ → τ} (hget : ∀ s t, get (set s t) = s)
    (hset : ∀ s s' t, set s' (set s t) = set s' t) (hsame : ∀ t, set (get t) t = t) (p : Async σ α) (t : τ) :
    (p.zoom get set).run t = ((p.run (get t)).1, set (p.run (get t)).2 t) := by
  induction p generalizing t with
  | done a => rw [zoom, run_done, run_done, hsame]
  | step f next ih => rw [zoom, run_step, ih, hget, hset, run_step]

/-! ## Programs that may raise -/

/-- Run alone from the state, the program does what the computation does, and returns what `f` makes of its result. -/
def RunsAs (f : β → α) (p : ExceptT ε (Async σ) α) (m : Eff σ ε β) (s : σ) : Prop :=
  p.run.run s = ((m s).1.map f, (m s).2)

theorem RunsAs.eq {p : ExceptT ε (Async σ) α} {m : Eff σ ε α} {s : σ} (h : RunsAs id p m s) : p.run.run s = m s := by
  rw [RunsAs, Except.map_id] at h
  exact h

/-- What the computation does from other states does not matter. -/
theorem RunsAs.congr {f : β → α} {p : ExceptT ε (Async σ) α} {m m' : Eff σ ε β} {s : σ} (h : RunsAs f p m s)
    (hsame : m s = m' s) : RunsAs f p m' s := by
  rw [RunsAs, ← hsame]
  exact h

theorem runsAs_lift (m : Eff σ ε α) (s : σ) : RunsAs id (lift m) m s := by
  show ((m s).1, (m s).2) = ((m s).1.map id, (m s).2)
  rw [Except.map_id, id]

theorem runsAs_pure (f : β → α) (b : β) (s : σ) : RunsAs f (pure (f b)) (pure b : Eff σ ε β) s := rfl

/-- A sequence of programs, the second from the state in which the first has ended. -/
theorem RunsAs.bind {f : β → α} {g : δ → γ} {p : ExceptT ε (Async σ) α} {m : Eff σ ε β} {k : α → ExceptT ε (Async σ) γ}
    {l : β → Eff σ ε δ} {s : σ} (hp : RunsAs f p m s) (hk : ∀ b s', m s = (.ok b, s') → RunsAs g (k (f b)) (l b) s') :
    RunsAs g (p >>= k) (m >>= l) s := by
  have hbind : (p >>= k).run.run s = (ExceptT.bindCont k (p.run.run s).1).run (p.run.run s).2 := run_bind _ _ s
  rw [RunsAs, hbind, hp, Eff.bind_run]
  cases hm : m s with
  | mk r s' =>
      cases r with
      | error e => rfl
      | ok b => exact hk b s' hm

/-- The result is dropped. -/
theorem RunsAs.forget {f : β → α} {p : ExceptT ε (Async σ) α} {m : Eff σ ε β} {s : σ} (h : RunsAs f p m s) :
    RunsAs id (do let _ ← p) (do let _ ← m) s :=
  h.bind fun _ s' _ => runsAs_pure id () s'

/-- A step that does several things, one after the other. -/
theorem RunsAs.lift_bind {g : δ → γ} {m : Eff σ ε α} {l : α → Eff σ ε β} {k : β → ExceptT ε (Async σ) γ} {r : α → Eff σ ε δ}
    {s : σ} (h : ∀ a s', m s = (.ok a, s') → RunsAs g (lift (l a) >>= k) (r a) s') :
    RunsAs g (lift (m >>= l) >>= k) (m >>= r) s := by
  have hlift : (lift (m >>= l) >>= k).run.run s = (ExceptT.bindCont k ((m >>= l) s).1).run ((m >>= l) s).2 := rfl
  rw [RunsAs, hlift, Eff.bind_run, Eff.bind_run]
  cases hm : m s with
  | mk a s' =>
      cases a with
      | error e => rfl
      | ok a => exact h a s' hm

theorem RunsAs.lift_pure {g : δ → γ} {a : α} {k : α → ExceptT ε (Async σ) γ} {r : Eff σ ε δ} {s : σ}
    (h : RunsAs g (k a) r s) : RunsAs g (lift (pure a) >>= k) r s := h

end Async

end Lib
