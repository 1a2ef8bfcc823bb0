import Mathlib.Data.List.Infix

/-!
# Patterns for keys

A star stands for any text, a question mark for one character. Brackets and backslashes are left out.
-/

namespace Lib

def glob : List Char → List Char → Bool
  | [], cs => cs.isEmpty
  | p :: ps, cs =>
      if p = '*' then cs.tails.any (glob ps)
      else match cs with
        | [] => false
        | c :: cs => (decide (p = '?') || decide (p = c)) && glob ps cs

theorem glob_star (cs : List Char) : glob ['*'] cs = true := by
  have hnil : [] ∈ cs.tails := List.mem_tails _ _ |>.mpr List.nil_suffix
  unfold glob
  rw [if_pos rfl]
  exact List.any_eq_true.mpr ⟨[], hnil, rfl⟩

/-- A text before a star matches what begins with it. -/
theorem glob_literal_star {ps cs : List Char} (h : ∀ p ∈ ps, p ≠ '*' ∧ p ≠ '?') :
    glob (ps ++ ['*']) cs = true ↔ ps <+: cs := by
  induction ps generalizing cs with
  | nil => exact iff_of_true (glob_star cs) List.nil_prefix
  | cons p ps ih =>
      obtain ⟨hstar, hmark⟩ := h p List.mem_cons_self
      have hrest (cs : List Char) : glob (ps ++ ['*']) cs = true ↔ ps <+: cs := ih fun q hq => h q (List.mem_cons_of_mem _ hq)
      cases cs with
      | nil => simp [glob, hstar]
      | cons c cs => simp [glob, hstar, hmark, hrest, List.cons_prefix_cons]

end Lib
