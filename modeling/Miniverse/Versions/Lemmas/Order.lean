import Miniverse.Versions.Lemmas.Parse

/-!
# The order of versions

The order that the comparison is meant to follow.
-/

namespace Backend

open Lib

/-! ## The order -/

namespace ParsedMinecraftVersion

/-- `pre`, `rc` and the release, in this order. -/
def stage (p : ParsedMinecraftVersion) : Nat :=
  match p.type with
  | .release => 2
  | _ => if p.suffix = some "rc" then 1 else 0

/-- The number after the suffix. -/
def number (p : ParsedMinecraftVersion) : Nat :=
  match p.type, p.type_version with
  | .prerelease, .number n => n
  | _, _ => 0

def key (p : ParsedMinecraftVersion) : List Nat := [p.major, p.minor, p.patch, p.stage, p.number]

end ParsedMinecraftVersion

/-- The sign of a lexicographic comparison. -/
def lexSign (a b : List Nat) : Int := if a < b then -1 else if b < a then 1 else 0

theorem lexSign_self (a : List Nat) : lexSign a a = 0 := by
  have h := List.lt_irrefl a
  rw [lexSign, if_neg h, if_neg h]

theorem lexSign_cons (a b : Nat) (as bs : List Nat) :
    lexSign (a :: as) (b :: bs) = if a ≠ b then sign a b else lexSign as bs := by
  unfold lexSign sign
  simp only [List.cons_lt_cons_iff]
  rcases Nat.lt_trichotomy a b with h | rfl | h
  · have hne : a ≠ b := by omega
    have hba : ¬ b < a := by omega
    simp [h, hne, hba]
  · simp
  · have hne : a ≠ b := by omega
    have hne' : b ≠ a := by omega
    have hab : ¬ a < b := by omega
    simp [h, hne, hne', hab]

theorem lexSign_eq_zero {a b : List Nat} : lexSign a b = 0 ↔ a = b := by
  constructor
  · intro h
    unfold lexSign at h
    split at h
    · cases h
    · split at h
      · cases h
      · exact List.le_antisymm (List.not_lt.mp ‹_›) (List.not_lt.mp ‹_›)
  · rintro rfl
    exact lexSign_self a

/-- Texts of one length decide first. -/
theorem lexSign_append {a b : List Nat} (h : a.length = b.length) (as bs : List Nat) :
    lexSign (a ++ as) (b ++ bs) = if a ≠ b then lexSign a b else lexSign as bs := by
  induction a generalizing b with
  | nil =>
      cases b with
      | nil => simp
      | cons y b => cases h
  | cons x a ih =>
      cases b with
      | nil => cases h
      | cons y b =>
          rw [List.cons_append, List.cons_append, lexSign_cons, lexSign_cons, ih (Nat.succ.inj h)]
          by_cases hxy : x = y
          · simp [hxy]
          · simp [hxy]

theorem lexSign_swap (a b : List Nat) : lexSign b a = -lexSign a b := by
  by_cases h : a = b
  · rw [h, lexSign_self]
    rfl
  · unfold lexSign
    by_cases hlt : a < b
    · rw [if_pos hlt, if_neg (List.lt_asymm hlt), if_pos hlt]
      rfl
    · have hgt : b < a := by
        by_contra hnot
        exact h (List.le_antisymm (List.not_lt.mp hnot) (List.not_lt.mp hlt))
      rw [if_pos hgt, if_neg hlt, if_pos hgt]

theorem sign_swap (a b : Int) : sign b a = -sign a b := by
  unfold sign
  split <;> split <;> omega

theorem sign_eq_zero {a b : Int} : sign a b = 0 ↔ a = b := by
  unfold sign
  split <;> split <;> omega

theorem compare_main_versions_eq (p q : ParsedMinecraftVersion) :
    compare_main_versions p.major p.minor p.patch q.major q.minor q.patch 0 0 =
      lexSign [p.major, p.minor, p.patch] [q.major, q.minor, q.patch] := by
  simp only [compare_main_versions, lexSign_cons, lexSign_self]
  simp

theorem compare_prerelease_identifiers_same (id : Option String) : compare_prerelease_identifiers id id = .ok 0 := by
  simp [compare_prerelease_identifiers]

/-- A suffix alone is no identifier: the number after it is missing. -/
theorem compare_prerelease_identifiers_differ {id1 id2 : Option String} (h1 : id1 = some "pre" ∨ id1 = some "rc")
    (h2 : id2 = some "pre" ∨ id2 = some "rc") (hne : id1 ≠ id2) :
    compare_prerelease_identifiers id1 id2 = .error .attributeError := by
  rcases h1 with rfl | rfl <;> rcases h2 with rfl | rfl
  · exact absurd rfl hne
  · decide
  · decide
  · exact absurd rfl hne

end Backend
