import Mathlib.Data.List.Nodup
import Mathlib.Data.List.Perm.Subperm
import Mathlib.Data.List.Range
import Mathlib.Tactic.Common

/-!
# The first free candidate

A search tries the candidates of a sequence in turn until one is free. With distinct candidates and
finitely many taken values it ends, on the first free one.
-/

namespace Lib

variable {β : Type}

/-- The first free candidate from number `i` on, trying `fuel` of them. -/
def firstFree (taken : β → Bool) (cand : Nat → β) : Nat → Nat → Option β
  | 0, _ => none
  | fuel + 1, i => if taken (cand i) then firstFree taken cand fuel (i + 1) else some (cand i)

variable {taken : β → Bool} {cand : Nat → β}

theorem firstFree_eq_some {fuel i : Nat} {b : β} (h : firstFree taken cand fuel i = some b) :
    ∃ k, i ≤ k ∧ b = cand k ∧ taken b = false ∧ ∀ j, i ≤ j → j < k → taken (cand j) = true := by
  induction fuel generalizing i with
  | zero => cases h
  | succ fuel ih =>
      unfold firstFree at h
      split at h
      · rename_i ht
        obtain ⟨k, hk, hb, hfree, hall⟩ := ih h
        refine ⟨k, by omega, hb, hfree, fun j hj hjk => ?_⟩
        rcases Nat.eq_or_lt_of_le hj with rfl | hj
        · exact ht
        · exact hall j hj hjk
      · rename_i ht
        cases h
        exact ⟨i, Nat.le_refl i, rfl, by simpa using ht, fun j h₁ h₂ => by omega⟩

theorem firstFree_eq_none {fuel i : Nat} (h : firstFree taken cand fuel i = none) :
    ∀ j, i ≤ j → j < i + fuel → taken (cand j) = true := by
  induction fuel generalizing i with
  | zero => intro j h₁ h₂; omega
  | succ fuel ih =>
      unfold firstFree at h
      split at h
      · rename_i ht
        intro j h₁ h₂
        rcases Nat.eq_or_lt_of_le h₁ with rfl | h₁
        · exact ht
        · exact ih h j h₁ (by omega)
      · cases h

/-- More fuel changes nothing. -/
theorem firstFree_mono {fuel fuel' i : Nat} {b : β} (h : firstFree taken cand fuel i = some b) (hle : fuel ≤ fuel') :
    firstFree taken cand fuel' i = some b := by
  induction fuel generalizing fuel' i with
  | zero => cases h
  | succ fuel ih =>
      obtain ⟨more, rfl⟩ : ∃ n, fuel' = n + 1 := ⟨fuel' - 1, by omega⟩
      unfold firstFree at h ⊢
      split at h
      · rename_i ht
        rw [if_pos ht]
        exact ih h (by omega)
      · rename_i ht
        rw [if_neg ht, h]

/-- Among more distinct candidates than there are taken ones, one is free. -/
theorem firstFree_isSome {l : List β} {fuel i : Nat} (hl : ∀ j, i ≤ j → taken (cand j) = true → cand j ∈ l)
    (hinj : ∀ j k, i ≤ j → i ≤ k → cand j = cand k → j = k) (hfuel : l.length < fuel) :
    (firstFree taken cand fuel i).isSome = true := by
  rcases h : firstFree taken cand fuel i with _ | b
  · have hall := firstFree_eq_none h
    have hsub : (List.range fuel).map (fun j => cand (i + j)) ⊆ l := by
      intro b hb
      obtain ⟨j, hj, rfl⟩ := List.mem_map.mp hb
      exact hl _ (by omega) (hall _ (by omega) (by have := List.mem_range.mp hj; omega))
    have hnodup : ((List.range fuel).map fun j => cand (i + j)).Nodup := by
      refine List.nodup_range.map_on fun j _ k _ hjk => ?_
      have := hinj _ _ (by omega) (by omega) hjk
      omega
    have := (hnodup.subperm hsub).length_le
    simp at this
    omega
  · rfl

/-- Two searches that find the same candidates taken end with the same number. -/
theorem firstFree_map {γ δ : Type} {taken' : γ → Bool} {cand' : Nat → γ} (f : β → δ) (g : γ → δ)
    (htaken : ∀ j, taken (cand j) = taken' (cand' j)) (hcand : ∀ j, f (cand j) = g (cand' j)) (fuel i : Nat) :
    (firstFree taken cand fuel i).map f = (firstFree taken' cand' fuel i).map g := by
  induction fuel generalizing i with
  | zero => rfl
  | succ fuel ih =>
      rw [firstFree, firstFree, ← htaken]
      split
      · exact ih (i + 1)
      · exact congrArg some (hcand i)

end Lib
