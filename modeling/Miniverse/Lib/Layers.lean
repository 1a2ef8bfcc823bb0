import Miniverse.Lib.Effect

/-!
# A state with more in it

A computation on a larger state that does to a part of it, and returns, what another computation does on that part.
-/

namespace Lib

namespace Eff

variable {σ τ ε α β : Type} {get : τ → σ}

/-- On the part, `n` does what `m` does. -/
def Projects (get : τ → σ) (n : Eff τ ε α) (m : Eff σ ε α) : Prop := ∀ t, ((n t).1, get (n t).2) = m (get t)

theorem Projects.pure (a : α) : Projects get (Pure.pure a : Eff τ ε α) (Pure.pure a) := fun _ => rfl

theorem Projects.zoom {set : σ → τ → τ} (hget : ∀ s t, get (set s t) = s) (m : Eff σ ε α) :
    Projects get (m.zoom get set) m := fun t => Prod.ext rfl (hget _ t)

theorem Projects.run {n : Eff τ ε α} {m : Eff σ ε α} (h : Projects get n m) {t : τ} {r : Except ε α} {s : σ}
    (hm : m (get t) = (r, s)) : ∃ t', n t = (r, t') ∧ get t' = s := by
  obtain ⟨hr, hs⟩ := Prod.mk.inj ((h t).trans hm)
  exact ⟨(n t).2, Prod.ext hr rfl, hs⟩

theorem Projects.bind {n : Eff τ ε α} {m : Eff σ ε α} {k : α → Eff τ ε β} {k' : α → Eff σ ε β} (h : Projects get n m)
    (hk : ∀ a, Projects get (k a) (k' a)) : Projects get (n >>= k) (m >>= k') := by
  intro t
  rcases hm : m (get t) with ⟨e | a, s⟩
  · obtain ⟨t', hn, rfl⟩ := h.run hm
    rw [bind_run_error hn, bind_run_error hm]
  · obtain ⟨t', hn, rfl⟩ := h.run hm
    rw [bind_run_ok hn, bind_run_ok hm]
    exact hk a t'

theorem Projects.elim {o : Option α} {n : Eff τ ε β} {m : Eff σ ε β} {k : α → Eff τ ε β} {k' : α → Eff σ ε β}
    (h : Projects get n m) (hk : ∀ a, Projects get (k a) (k' a)) : Projects get (o.elim n k) (o.elim m k') := by
  cases o with
  | none => exact h
  | some a => exact hk a

end Eff

end Lib
