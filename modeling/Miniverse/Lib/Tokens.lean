import Mathlib.Data.List.TakeWhile
import Mathlib.Tactic.Common

/-!
# Tokens

A text is cut where a class of characters begins or ends. The pieces are determined by the text.
-/

namespace Lib

variable {α : Type} {p : α → Bool}

/-- Pieces that are not empty, in the class and out of it by turns. -/
def Alternates (p : α → Bool) : Bool → List (List α) → Prop
  | _, [] => True
  | b, t :: ts => t ≠ [] ∧ (∀ c ∈ t, p c = b) ∧ Alternates p (!b) ts

/-- After a piece comes what is not of its kind. -/
theorem Alternates.takeWhile_append {b : Bool} {t : List α} {ts : List (List α)} (ht : ∀ c ∈ t, p c = b)
    (hts : Alternates p (!b) ts) : (t ++ ts.flatten).takeWhile (fun c => p c == b) = t := by
  have hrest : ts.flatten.takeWhile (fun c => p c == b) = [] := by
    cases ts with
    | nil => rfl
    | cons u us =>
        obtain ⟨hne, hu, _⟩ := hts
        cases u with
        | nil => exact absurd rfl hne
        | cons c cs =>
            have hc : p c = !b := hu c List.mem_cons_self
            simp [hc]
  rw [List.takeWhile_append_of_pos fun c hc => by simp [ht c hc], hrest, List.append_nil]

theorem Alternates.unique {b : Bool} {ts us : List (List α)} (hts : Alternates p b ts) (hus : Alternates p b us)
    (h : ts.flatten = us.flatten) : ts = us := by
  induction ts generalizing b us with
  | nil =>
      cases us with
      | nil => rfl
      | cons u us => exact absurd (List.append_eq_nil_iff.mp h.symm).1 hus.1
  | cons t ts ih =>
      cases us with
      | nil => exact absurd (List.append_eq_nil_iff.mp h).1 hts.1
      | cons u us =>
          rw [List.flatten_cons, List.flatten_cons] at h
          have htu : t = u := by rw [← takeWhile_append hts.2.1 hts.2.2, h, takeWhile_append hus.2.1 hus.2.2]
          subst htu
          rw [ih hts.2.2 hus.2.2 (List.append_cancel_left h)]

end Lib
