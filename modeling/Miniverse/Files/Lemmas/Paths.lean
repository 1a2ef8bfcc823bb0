import Miniverse.Files.Service

/-!
# Confined paths and free names
-/

namespace Backend

open Lib

variable {α : Type}

/-! ## `safe_user_path` -/

/-- `safe_user_path` accepts a path whose resolution from the root stays at or below the root. -/
theorem safe_user_path_ok {root t : Loc} {p : PurePath} (hroot : ∀ c ∈ root, c ≠ "..") :
    safe_user_path root p = .ok t ↔ p.hasNul = false ∧ t = resolveFrom root p.tail ∧ root <+: t := by
  have hbase : resolveFrom [] root = root := by simpa using @resolveFrom_of_forall_ne [] root hroot
  simp only [safe_user_path, PurePath.parse_dot_slash, hbase, resolveFrom_append]
  have hnul : (PurePath.ofTail p.tail p.tail_ok).hasNul = p.hasNul := rfl
  rw [hnul]
  simp only [PurePath.ofTail]
  cases h : p.hasNul with
  | true => simp
  | false =>
      by_cases hp : root <+: resolveFrom root p.tail
      · simp only [Bool.false_eq_true, if_false, hp, if_true, Except.ok.injEq, true_and]
        constructor
        · rintro rfl
          exact ⟨rfl, hp⟩
        · rintro ⟨rfl, _⟩
          rfl
      · simp only [Bool.false_eq_true, if_false, hp, true_and]
        constructor
        · intro h
          cases h
        · rintro ⟨rfl, h⟩
          exact absurd h hp

theorem safe_user_path_below {root t : Loc} {p : PurePath} (hroot : ∀ c ∈ root, c ≠ "..")
    (h : safe_user_path root p = .ok t) : root <+: t :=
  ((safe_user_path_ok hroot).mp h).2.2

/-- A confined path has no parent component. -/
theorem safe_user_path_ne {root t : Loc} {p : PurePath} (hroot : ∀ c ∈ root, c ≠ "..")
    (h : safe_user_path root p = .ok t) : ∀ c ∈ t, c ≠ ".." := by
  obtain ⟨_, rfl, _⟩ := (safe_user_path_ok hroot).mp h
  exact resolveFrom_forall hroot fun c _ hc => hc

/-- A confined path has proper names. -/
theorem safe_user_path_isName {root t : Loc} {p : PurePath} (hroot : ∀ c ∈ root, IsName c)
    (h : safe_user_path root p = .ok t) : ∀ c ∈ t, IsName c := by
  obtain ⟨hnul, rfl, _⟩ := (safe_user_path_ok fun c hc => (hroot c hc).2.2.1).mp h
  refine resolveFrom_forall hroot fun c hc hne => ?_
  have hcomp := p.tail_ok c hc
  refine ⟨hcomp.1, hcomp.2.1, hne, hcomp.2.2, fun hmem => ?_⟩
  have : p.hasNul = true := List.any_eq_true.mpr ⟨c, hc, by simpa using hmem⟩
  simp [this] at hnul

/-- Proper names lead below the root. -/
theorem safe_user_path_append {root : Loc} {p : PurePath} (hroot : ∀ c ∈ root, c ≠ "..") (hp : ∀ c ∈ p.tail, IsName c) :
    safe_user_path root p = .ok (root ++ p.tail) := by
  refine (safe_user_path_ok hroot).mpr ⟨?_, (resolveFrom_of_forall_ne fun c hc => (hp c hc).2.2.1).symm, List.prefix_append _ _⟩
  rw [PurePath.hasNul, List.any_eq_false]
  exact fun c hc => by simpa using (hp c hc).2.2.2.2

/-- The paths are accepted together when each one is. -/
theorem safe_user_paths_ok {root : Loc} {ps : List PurePath} {ts : List Loc} :
    safe_user_paths root ps = .ok ts ↔ List.Forall₂ (fun p t => safe_user_path root p = .ok t) ps ts := by
  unfold safe_user_paths
  induction ps generalizing ts with
  | nil =>
      simp only [List.mapM_nil, pure, Except.pure, Except.ok.injEq, List.forall₂_nil_left_iff]
      exact eq_comm
  | cons p ps ih =>
      rw [List.mapM_cons, List.forall₂_cons_left_iff]
      rcases hp : safe_user_path root p with e | t
      · simp [bind, Except.bind]
      · rcases hps : ps.mapM (safe_user_path root) with e | us
        · have hno : ∀ us, ¬ List.Forall₂ (fun p t => safe_user_path root p = .ok t) ps us := fun us h => by
            simpa [hps] using ih.mpr h
          simp [bind, Except.bind, hno]
        · simp only [bind, Except.bind, pure, Except.pure, Except.ok.injEq]
          constructor
          · rintro rfl
            exact ⟨t, us, rfl, ih.mp hps, rfl⟩
          · rintro ⟨t', us', rfl, h, rfl⟩
            rw [Except.ok.inj (hps.symm.trans (ih.mpr h))]

/-- What is accepted is what the paths denote. -/
theorem mem_safe_user_paths {root : Loc} {ps : List PurePath} {ts : List Loc} (h : safe_user_paths root ps = .ok ts) (t : Loc) :
    t ∈ ts ↔ ∃ p ∈ ps, safe_user_path root p = .ok t := by
  have hall := safe_user_paths_ok.mp h
  clear h
  induction hall with
  | nil => simp
  | cons hp _ ih => simp [ih, hp, eq_comm]

theorem safe_user_paths_accepts {root : Loc} {ps : List PurePath} :
    (∃ ts, safe_user_paths root ps = .ok ts) ↔ ∀ p ∈ ps, ∃ t, safe_user_path root p = .ok t := by
  simp only [safe_user_paths_ok]
  induction ps with
  | nil => simp
  | cons p ps ih =>
      rw [List.forall_mem_cons, ← ih]
      constructor
      · rintro ⟨_, h⟩
        cases h with
        | cons hp hps => exact ⟨⟨_, hp⟩, ⟨_, hps⟩⟩
      · rintro ⟨⟨t, hp⟩, ⟨ts, hps⟩⟩
        exact ⟨t :: ts, hps.cons hp⟩

theorem safe_user_paths_eq {root : Loc} {ps : List PurePath} {ts : List Loc} (hroot : ∀ c ∈ root, c ≠ "..")
    (h : safe_user_paths root ps = .ok ts) : ts = ps.map fun p => resolveFrom root p.tail := by
  have hall := safe_user_paths_ok.mp h
  clear h
  induction hall with
  | nil => rfl
  | cons hp _ ih => rw [List.map_cons, ← ih, ← ((safe_user_path_ok hroot).mp hp).2.1]

theorem safe_user_paths_below {root : Loc} {ps : List PurePath} {ts : List Loc} (hroot : ∀ c ∈ root, c ≠ "..")
    (h : safe_user_paths root ps = .ok ts) : ∀ t ∈ ts, root <+: t := by
  intro t ht
  obtain ⟨p, _, hp⟩ := (mem_safe_user_paths h t).mp ht
  exact safe_user_path_below hroot hp

/-! ## `change_path_name_if_exists` -/

theorem isName_numbered {a b : String} {i : Nat} (ha : '/' ∉ a.toList ∧ Char.ofNat 0 ∉ a.toList)
    (hb : '/' ∉ b.toList ∧ Char.ofNat 0 ∉ b.toList) : IsName (a ++ " (" ++ i.repr ++ ")" ++ b) := by
  have hmem : '(' ∈ (a ++ " (" ++ i.repr ++ ")" ++ b).toList := by simp
  have hslash : '/' ∉ i.repr.toList := fun h => absurd (isDigit_of_mem_repr h) (by decide)
  have hnul : Char.ofNat 0 ∉ i.repr.toList := fun h => absurd (isDigit_of_mem_repr h) (by decide)
  refine ⟨?_, ?_, ?_, ?_, ?_⟩
  · intro h
    rw [h] at hmem
    exact absurd hmem (by decide)
  · intro h
    rw [h] at hmem
    exact absurd hmem (by decide)
  · intro h
    rw [h] at hmem
    exact absurd hmem (by decide)
  · simp only [String.toList_append, List.mem_append, not_or]
    exact ⟨⟨⟨⟨ha.1, by decide⟩, hslash⟩, by decide⟩, hb.1⟩
  · simp only [String.toList_append, List.mem_append, not_or]
    exact ⟨⟨⟨⟨ha.2, by decide⟩, hnul⟩, by decide⟩, hb.2⟩

theorem mem_stem {name : String} {c : Char} (h : c ∈ (stem name).toList) : c ∈ name.toList := by
  rw [← stem_append_suffix name, String.toList_append]
  exact List.mem_append_left _ h

theorem mem_suffix {name : String} {c : Char} (h : c ∈ (suffix name).toList) : c ∈ name.toList := by
  rw [← stem_append_suffix name, String.toList_append]
  exact List.mem_append_right _ h

/-- A numbered candidate is a proper name next to the path, with its number in parentheses. -/
theorem candidate_eq {t : FileTree α} {path : Loc} {i : Nat} (hi : 2 ≤ i)
    (hname : '/' ∉ path.name.toList ∧ Char.ofNat 0 ∉ path.name.toList) :
    ∃ c, (IsName c ∧ '(' ∈ c.toList) ∧ candidate t path i = path.parent ++ [c] := by
  have hi' : ¬ i ≤ 1 := by omega
  unfold candidate
  rw [if_neg hi']
  split
  · refine ⟨_, ⟨?_, by simp⟩, rfl⟩
    have := isName_numbered (i := i) (b := "") hname (by decide)
    simpa using this
  · refine ⟨_, ⟨?_, by simp⟩, rfl⟩
    exact isName_numbered ⟨fun h => hname.1 (mem_stem h), fun h => hname.2 (mem_stem h)⟩
      ⟨fun h => hname.1 (mem_suffix h), fun h => hname.2 (mem_suffix h)⟩

theorem name_chars_of_exists {t : FileTree α} {path : Loc} (h : t.exists path = true) :
    '/' ∉ path.name.toList ∧ Char.ofNat 0 ∉ path.name.toList := by
  rcases Loc.eq_nil_or_concat path with rfl | ⟨q, c, rfl⟩
  · decide
  · rw [Loc.name_concat]
    exact (FileTree.isName_of_exists h c (by simp)).2.2.2

/-- The name found is free: it is the path itself when that is free, and otherwise a proper name in the same
directory. -/
theorem change_path_name_cases (t : FileTree α) (path : Loc) :
    t.exists (change_path_name_if_exists t path) = false ∧
      (t.exists path = false ∧ change_path_name_if_exists t path = path ∨
        t.exists path = true ∧
          ∃ c, (IsName c ∧ '(' ∈ c.toList) ∧ change_path_name_if_exists t path = path.parent ++ [c]) := by
  obtain ⟨b, hb⟩ := Option.isSome_iff_exists.mp (freeName_isSome t path)
  have heq : change_path_name_if_exists t path = b := by simp [change_path_name_if_exists, hb]
  rw [heq]
  obtain ⟨k, hk, rfl, hfree, hall⟩ := firstFree_eq_some hb
  refine ⟨hfree, ?_⟩
  rcases Nat.eq_or_lt_of_le hk with rfl | hk
  · exact Or.inl ⟨hfree, rfl⟩
  · have hex : t.exists path = true := hall 1 (Nat.le_refl 1) hk
    exact Or.inr ⟨hex, candidate_eq hk (name_chars_of_exists hex)⟩

/-- The name found is in the same directory. -/
theorem change_path_name_parent (t : FileTree α) (path : Loc) :
    (change_path_name_if_exists t path).parent = path.parent := by
  rcases (change_path_name_cases t path).2 with ⟨_, h⟩ | ⟨_, c, _, h⟩
  · rw [h]
  · rw [h, Loc.parent_concat]

theorem change_path_name_ne (t : FileTree α) (path : Loc) (hex : t.exists path = true) :
    change_path_name_if_exists t path ≠ path := by
  intro h
  have := (change_path_name_cases t path).1
  rw [h, hex] at this
  cases this

/-- A name strictly below a directory is replaced by one strictly below it. -/
theorem change_path_name_below {t : FileTree α} {r path : Loc} (hr : r <+: path) (hne : path ≠ r) :
    r <+: change_path_name_if_exists t path ∧ change_path_name_if_exists t path ≠ r := by
  have hpar := Loc.prefix_parent hr hne
  rcases (change_path_name_cases t path).2 with ⟨_, h⟩ | ⟨_, c, _, h⟩
  · rw [h]
    exact ⟨hr, hne⟩
  · rw [h]
    refine ⟨hpar.trans (List.prefix_append _ _), fun heq => ?_⟩
    exact Loc.concat_not_prefix _ _ (heq ▸ hpar)

theorem change_path_name_isName {t : FileTree α} {path : Loc} (h : ∀ c ∈ path, IsName c) :
    ∀ c ∈ change_path_name_if_exists t path, IsName c := by
  rcases (change_path_name_cases t path).2 with ⟨_, heq⟩ | ⟨_, c, hc, heq⟩
  · rw [heq]
    exact h
  · rw [heq]
    intro d hd
    rcases List.mem_append.mp hd with hd | hd
    · exact h d ((List.dropLast_sublist _).subset hd)
    · exact List.mem_singleton.mp hd ▸ hc.1

end Backend
