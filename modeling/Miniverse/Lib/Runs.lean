import Mathlib.Order.Basic
import Mathlib.Tactic.Common
import Miniverse.Lib.Effect

/-!
# Runs of requests

A program handles requests one at a time; each leaves a state behind, whether it returns or raises. What one request
keeps under a condition is kept by every run whose requests all meet it.
-/

namespace Lib

variable {σ ε α ρ : Type}

/-- The state after the requests of a list. -/
def runs (handle : ρ → Eff σ ε α) (rs : List ρ) (s : σ) : σ := rs.foldl (fun s r => (handle r s).2) s

/-- Every request of the run meets the condition in the state in which it is handled. -/
def Meets (handle : ρ → Eff σ ε α) (cond : σ → ρ → Prop) : List ρ → σ → Prop
  | [], _ => True
  | r :: rs, s => cond s r ∧ Meets handle cond rs (handle r s).2

@[simp] theorem runs_nil (handle : ρ → Eff σ ε α) (s : σ) : runs handle [] s = s := rfl

@[simp] theorem runs_cons (handle : ρ → Eff σ ε α) (r : ρ) (rs : List ρ) (s : σ) :
    runs handle (r :: rs) s = runs handle rs (handle r s).2 := rfl

theorem runs_append (handle : ρ → Eff σ ε α) (rs ts : List ρ) (s : σ) :
    runs handle (rs ++ ts) s = runs handle ts (runs handle rs s) := by
  simp [runs]

theorem meets_append {handle : ρ → Eff σ ε α} {cond : σ → ρ → Prop} {rs ts : List ρ} {s : σ} :
    Meets handle cond (rs ++ ts) s ↔ Meets handle cond rs s ∧ Meets handle cond ts (runs handle rs s) := by
  induction rs generalizing s with
  | nil => simp [Meets]
  | cons r rs ih => simp [Meets, ih, and_assoc]

theorem meets_of_forall {handle : ρ → Eff σ ε α} {cond : σ → ρ → Prop} (h : ∀ s r, cond s r) (rs : List ρ) (s : σ) :
    Meets handle cond rs s := by
  induction rs generalizing s with
  | nil => exact trivial
  | cons r rs ih => exact ⟨h s r, ih _⟩

theorem meets_of_mem {handle : ρ → Eff σ ε α} {cond : σ → ρ → Prop} {rs : List ρ} (h : ∀ r ∈ rs, ∀ s, cond s r) (s : σ) :
    Meets handle cond rs s := by
  induction rs generalizing s with
  | nil => exact trivial
  | cons r rs ih => exact ⟨h r List.mem_cons_self s, ih (fun t ht => h t (List.mem_cons_of_mem r ht)) _⟩

/-- A condition that holds wherever the list is cut. -/
theorem meets_of_cuts {handle : ρ → Eff σ ε α} {cond : σ → ρ → Prop} {rs : List ρ} {s : σ}
    (h : ∀ before r after, rs = before ++ r :: after → cond (runs handle before s) r) : Meets handle cond rs s := by
  induction rs generalizing s with
  | nil => exact trivial
  | cons r rs ih => exact ⟨h [] r rs rfl, ih fun before t after hcut => h (r :: before) t after (congrArg (r :: ·) hcut)⟩

theorem Meets.mono {handle : ρ → Eff σ ε α} {cond cond' : σ → ρ → Prop} (h : ∀ s r, cond s r → cond' s r) {rs : List ρ}
    {s : σ} (hmeets : Meets handle cond rs s) : Meets handle cond' rs s := by
  induction rs generalizing s with
  | nil => exact trivial
  | cons r rs ih => exact ⟨h s r hmeets.1, ih hmeets.2⟩

instance decidableMeets (handle : ρ → Eff σ ε α) (cond : σ → ρ → Prop) [∀ s r, Decidable (cond s r)] :
    (rs : List ρ) → (s : σ) → Decidable (Meets handle cond rs s)
  | [], _ => isTrue trivial
  | r :: rs, s => @instDecidableAnd _ _ _ (decidableMeets handle cond rs (handle r s).2)

/-- An invariant holds where each request is handled. -/
theorem Meets.always {handle : ρ → Eff σ ε α} {cond : σ → ρ → Prop} {I : σ → Prop}
    (hstep : ∀ s r, cond s r → I s → I (handle r s).2) {rs : List ρ} {s : σ} (hmeets : Meets handle cond rs s) (h : I s) :
    Meets handle (fun s r => cond s r ∧ I s) rs s := by
  induction rs generalizing s with
  | nil => exact trivial
  | cons r rs ih => exact ⟨⟨hmeets.1, h⟩, ih hmeets.2 (hstep s r hmeets.1 h)⟩

/-- What the requests of a list are answered. -/
def answers (handle : ρ → Eff σ ε α) : List ρ → σ → List (Except ε α)
  | [], _ => []
  | r :: rs, s => (handle r s).1 :: answers handle rs (handle r s).2

/-- Two handlers that answer each request alike answer runs alike. -/
theorem answers_alike {handle handle' : ρ → Eff σ ε α} {cond : σ → ρ → Prop} {R : σ → σ → Prop}
    (hstep : ∀ s t r, cond s r → R s t → (handle r s).1 = (handle' r t).1 ∧ R (handle r s).2 (handle' r t).2) {rs : List ρ}
    {s t : σ} (hmeets : Meets handle cond rs s) (h : R s t) : answers handle rs s = answers handle' rs t := by
  induction rs generalizing s t with
  | nil => rfl
  | cons r rs ih =>
      obtain ⟨hanswer, hr⟩ := hstep s t r hmeets.1 h
      rw [answers, answers, hanswer, ih hmeets.2 hr]

/-- An invariant that each request keeps under the condition is kept by the run. -/
theorem runs_invariant {handle : ρ → Eff σ ε α} {cond : σ → ρ → Prop} {I : σ → Prop}
    (hstep : ∀ s r, cond s r → I s → I (handle r s).2) {rs : List ρ} {s : σ} (hmeets : Meets handle cond rs s)
    (h : I s) : I (runs handle rs s) := by
  induction rs generalizing s with
  | nil => exact h
  | cons r rs ih => exact ih hmeets.2 (hstep s r hmeets.1 h)

end Lib
