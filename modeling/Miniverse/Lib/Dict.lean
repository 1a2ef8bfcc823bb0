import Mathlib.Data.List.Basic

/-!
# Dictionaries

Association lists in the order in which their keys were put in, each key once.
-/

namespace Lib

variable {κ α : Type} [DecidableEq κ]

abbrev Dict (κ α : Type) : Type := List (κ × α)

namespace Dict

def keys (d : Dict κ α) : List κ := d.map Prod.fst

def values (d : Dict κ α) : List α := d.map Prod.snd

/-- A key that is there keeps its place. -/
def put (d : Dict κ α) (k : κ) (a : α) : Dict κ α :=
  if k ∈ d.keys then d.map fun e => if e.1 = k then (k, a) else e else d ++ [(k, a)]

/-- Every entry of the second dictionary is put into the first. -/
def update (d e : Dict κ α) : Dict κ α := e.foldl (fun d p => d.put p.1 p.2) d

def get (d : Dict κ α) (k : κ) : Option α := (d.find? fun e => decide (e.1 = k)).map Prod.snd

def erase (d : Dict κ α) (k : κ) : Dict κ α := d.filter fun e => decide (e.1 ≠ k)

@[simp] theorem mem_keys_put {d : Dict κ α} {k k' : κ} {a : α} : k' ∈ (d.put k a).keys ↔ k' = k ∨ k' ∈ d.keys := by
  unfold put
  by_cases hk : k ∈ d.keys
  · have hkeys : keys (d.map fun e => if e.1 = k then (k, a) else e) = d.keys := by
      simp only [keys, List.map_map]
      refine List.map_congr_left fun e _ => ?_
      by_cases he : e.1 = k <;> simp [he]
    rw [if_pos hk, hkeys]
    exact ⟨Or.inr, fun h => h.elim (fun heq => heq ▸ hk) id⟩
  · rw [if_neg hk]
    simp [keys, or_comm]

@[simp] theorem mem_keys_update {d e : Dict κ α} {k : κ} : k ∈ (d.update e).keys ↔ k ∈ d.keys ∨ k ∈ e.keys := by
  induction e generalizing d with
  | nil => simp [update, keys]
  | cons p e ih =>
      have hstep : d.update (p :: e) = (d.put p.1 p.2).update e := rfl
      rw [hstep, ih, mem_keys_put]
      simp only [keys, List.map_cons, List.mem_cons]
      exact ⟨fun h => h.elim (fun h => h.elim (fun heq => Or.inr (Or.inl heq)) Or.inl) fun hk => Or.inr (Or.inr hk),
        fun h => h.elim (fun hk => Or.inl (Or.inr hk)) fun h => h.elim (fun heq => Or.inl (Or.inl heq)) Or.inr⟩

theorem get_put (d : Dict κ α) (k k' : κ) (a : α) : (d.put k a).get k' = if k' = k then some a else d.get k' := by
  unfold put get
  by_cases hk : k ∈ d.keys
  · have hkeys (e : κ × α) : (if e.1 = k then (k, a) else e).1 = e.1 := by
      by_cases he : e.1 = k <;> simp [he]
    rw [if_pos hk, List.find?_map]
    simp only [Function.comp_def, hkeys, Option.map_map]
    cases hfound : d.find? fun e => decide (e.1 = k') with
    | none =>
        have hne : k' ≠ k := by
          rintro rfl
          obtain ⟨e, he, rfl⟩ := List.mem_map.mp hk
          exact List.find?_eq_none.mp hfound e he (decide_eq_true rfl)
        rw [if_neg hne]
        rfl
    | some e =>
        have he : e.1 = k' := of_decide_eq_true (List.find?_some hfound :)
        by_cases hkk : k' = k <;> simp [he, hkk]
  · rw [if_neg hk, List.find?_append]
    by_cases hkk : k' = k
    · subst hkk
      have hnone : (d.find? fun e => decide (e.1 = k')) = none :=
        List.find?_eq_none.mpr fun e he heq => hk (List.mem_map.mpr ⟨e, he, of_decide_eq_true heq⟩)
      simp [hnone]
    · have hne : k ≠ k' := fun h => hkk h.symm
      simp [hkk, hne]

theorem get_cons (e : κ × α) (d : Dict κ α) (k : κ) : get (e :: d) k = if e.1 = k then some e.2 else get d k := by
  unfold get
  rw [List.find?_cons]
  by_cases h : e.1 = k <;> simp [h]

theorem get_eq_none {d : Dict κ α} {k : κ} : d.get k = none ↔ k ∉ d.keys := by
  rw [get, Option.map_eq_none_iff, List.find?_eq_none, keys, List.mem_map]
  constructor
  · rintro h ⟨e, he, rfl⟩
    exact h e he (decide_eq_true rfl)
  · intro h e he heq
    exact h ⟨e, he, of_decide_eq_true heq⟩

theorem mem_of_get {d : Dict κ α} {k : κ} {a : α} (h : d.get k = some a) : (k, a) ∈ d := by
  obtain ⟨e, hfound, rfl⟩ := Option.map_eq_some_iff.mp h
  obtain rfl : e.1 = k := of_decide_eq_true (List.find?_some hfound :)
  exact List.mem_of_find?_eq_some hfound

/-- What is in the second dictionary hides what is in the first. -/
theorem get_update {d e : Dict κ α} (he : e.keys.Nodup) (k : κ) : (d.update e).get k = (e.get k).or (d.get k) := by
  induction e generalizing d with
  | nil => rfl
  | cons p e ih =>
      obtain ⟨hp, he⟩ := List.nodup_cons.mp he
      have hstep : d.update (p :: e) = (d.put p.1 p.2).update e := rfl
      rw [hstep, ih he, get_put, get_cons]
      by_cases hk : p.1 = k
      · subst hk
        rw [if_pos rfl, if_pos rfl, get_eq_none.mpr hp]
        rfl
      · rw [if_neg hk, if_neg fun h => hk h.symm]

/-- New keys come to the end, in their order. -/
theorem update_new {d e : Dict κ α} (he : e.keys.Nodup) (hnew : ∀ k ∈ e.keys, k ∉ d.keys) : d.update e = d ++ e := by
  induction e generalizing d with
  | nil => exact (List.append_nil d).symm
  | cons p e ih =>
      obtain ⟨hp, he⟩ := List.nodup_cons.mp he
      have hstep : d.update (p :: e) = (d.put p.1 p.2).update e := rfl
      have hput : d.put p.1 p.2 = d ++ [p] := if_neg (hnew p.1 List.mem_cons_self)
      rw [hstep, hput, ih he fun k hk => ?_, List.append_assoc, List.singleton_append]
      have hkeys : keys (d ++ [p]) = d.keys ++ [p.1] := by simp [keys]
      rw [hkeys, List.mem_append, List.mem_singleton]
      rintro (hd | rfl)
      · exact hnew k (List.mem_cons_of_mem _ hk) hd
      · exact hp hk

end Dict

end Lib
