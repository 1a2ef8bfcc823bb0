import Mathlib.Data.List.Induction
import Miniverse.Lib.Runs

/-!
# Histories

The latest request of a kind in a run, and what a run leaves when one more request comes.
-/

namespace Lib

variable {σ ε α ρ : Type}

/-- The latest entry of a kind. -/
def latest (p : ρ → Bool) (rs : List ρ) : Option ρ := rs.reverse.find? p

@[simp] theorem latest_nil (p : ρ → Bool) : latest p [] = none := rfl

theorem latest_concat (p : ρ → Bool) (rs : List ρ) (r : ρ) : latest p (rs ++ [r]) = if p r then some r else latest p rs := by
  rw [latest, List.reverse_concat, List.find?_cons]
  cases p r <;> rfl

/-- The latest entry of a kind is the latest of a narrower kind, if it is of that. -/
theorem latest_narrow {p q : ρ → Bool} (hqp : ∀ r, q r = true → p r = true) {rs : List ρ} {r : ρ} (h : latest p rs = some r)
    (hq : q r = true) : latest q rs = some r := by
  induction rs using List.reverseRecOn with
  | nil => cases h
  | append_singleton rs t ih =>
      rw [latest_concat] at h ⊢
      by_cases hp : p t = true
      · rw [if_pos hp] at h
        cases h
        rw [if_pos hq]
      · rw [if_neg hp] at h
        rw [if_neg fun hqt => hp (hqp t hqt), ih h]

theorem runs_concat (handle : ρ → Eff σ ε α) (rs : List ρ) (r : ρ) (s : σ) :
    runs handle (rs ++ [r]) s = (handle r (runs handle rs s)).2 := runs_append handle rs [r] s

/-- What holds at first and is kept by each request holds of every run, with what was requested so far. -/
theorem runs_history {handle : ρ → Eff σ ε α} {s : σ} {P : List ρ → σ → Prop} (hstart : P [] s)
    (hstep : ∀ rs r t, P rs t → P (rs ++ [r]) (handle r t).2) (rs : List ρ) : P rs (runs handle rs s) := by
  induction rs using List.reverseRecOn with
  | nil => exact hstart
  | append_singleton rs r ih => exact runs_concat handle rs r s ▸ hstep rs r _ ih

end Lib
