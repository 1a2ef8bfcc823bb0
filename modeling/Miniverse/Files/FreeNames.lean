import Miniverse.Files.Lemmas.Paths

/-!
# Free names

The search of `change_path_name_if_exists` as the loop that it is, for any path of a process: the path may be relative and have
parent components. The loop ends on the first free path.
-/

namespace Backend

open Lib

variable {α : Type}

section Search

variable (t : FileTree α) (cwd : Loc) (path : PurePath)

/-- `path.exists()` -/
def path_exists : Bool := (t.locate cwd path).any t.exists

/-- `path.is_dir()` -/
def path_is_dir : Bool := (t.locate cwd path).any t.isDir

/-- The name that is tried for a number. -/
def numbered_name (i : Nat) : String :=
  if path_is_dir t cwd path then path.name ++ " (" ++ i.repr ++ ")"
  else stem path.name ++ " (" ++ i.repr ++ ")" ++ suffix path.name

/-- `path.parent / name` -/
def sibling (name : String) : PurePath := path.parent.join (.parse name)

/-- The loop from a number and the path for it, through at most `fuel` tests. -/
def search : Nat → Nat → PurePath → Option PurePath
  | 0, _, _ => none
  | fuel + 1, i, new_path =>
      if path_exists t cwd new_path then search fuel (i + 1) (sibling path (numbered_name t cwd path (i + 1)))
      else some new_path

/-- The path for a number. The search starts with the path itself. -/
def tried (i : Nat) : PurePath := if i ≤ 1 then path else sibling path (numbered_name t cwd path i)

end Search

variable {t : FileTree α} {cwd : Loc} {path : PurePath}

/-! ## Numbered names -/

theorem numbered_name_injective {j k : Nat} (h : numbered_name t cwd path j = numbered_name t cwd path k) : j = k := by
  unfold numbered_name at h
  split at h
  · exact @numbered_injective path.name "" j k (by rw [h])
  · exact numbered_injective h

theorem slash_not_mem_name : '/' ∉ path.name.toList := by
  unfold PurePath.name
  rcases Loc.eq_nil_or_concat path.tail with hnil | ⟨init, c, htail⟩
  · rw [hnil]
    decide
  · rw [htail, List.getLast?_concat, Option.getD_some]
    exact (path.tail_ok c (by simp [htail])).2.2

/-- A numbered name is a component, and not the parent component. -/
theorem isComponent_numbered_name (i : Nat) : IsComponent (numbered_name t cwd path i) ∧ numbered_name t cwd path i ≠ ".." := by
  have hparen : '(' ∈ (numbered_name t cwd path i).toList := by
    unfold numbered_name
    split <;> simp
  have hdigits : '/' ∉ i.repr.toList := fun h => absurd (isDigit_of_mem_repr h) (by decide)
  have hslash : '/' ∉ (numbered_name t cwd path i).toList := by
    have hname : '/' ∉ path.name.toList := slash_not_mem_name
    have hstem : '/' ∉ (stem path.name).toList := fun h => hname (mem_stem h)
    have hsuffix : '/' ∉ (suffix path.name).toList := fun h => hname (mem_suffix h)
    unfold numbered_name
    split <;> simp_all
  refine ⟨⟨fun h => ?_, fun h => ?_, hslash⟩, fun h => ?_⟩
  · rw [h] at hparen
    exact absurd hparen (by decide)
  · rw [h] at hparen
    exact absurd hparen (by decide)
  · rw [h] at hparen
    exact absurd hparen (by decide)

/-! ## Siblings -/

section Sibling

variable {c : String}

theorem parse_component (hc : IsComponent c) : PurePath.parse c = .ofTail [c] (List.forall_mem_singleton.mpr hc) := by
  have hroot : Root.ofChars c.toList = .relative := by
    obtain ⟨hne, _, hslash⟩ := hc
    cases hchars : c.toList with
    | nil => rfl
    | cons x xs =>
        have hx : x ≠ '/' := by
          rintro rfl
          exact hslash (hchars ▸ List.mem_cons_self)
        unfold Root.ofChars
        split <;> simp_all
  exact PurePath.ext hroot (components_of_isComponent hc)

theorem sibling_root (hc : IsComponent c) : (sibling path c).root = path.root := by
  rw [sibling, parse_component hc]
  rfl

theorem sibling_tail (hc : IsComponent c) : (sibling path c).tail = path.tail.dropLast ++ [c] := by
  rw [sibling, parse_component hc]
  rfl

theorem sibling_name (hc : IsComponent c) : (sibling path c).name = c := by
  rw [PurePath.name, sibling_tail hc, List.getLast?_concat, Option.getD_some]

theorem sibling_parent (hc : IsComponent c) : (sibling path c).parent = path.parent := by
  refine PurePath.ext (sibling_root hc) ?_
  show (sibling path c).tail.dropLast = path.tail.dropLast
  rw [sibling_tail hc, List.dropLast_concat]

/-- Where a sibling exists, there is an entry with its name. -/
theorem sibling_exists (hc : IsComponent c) (hup : c ≠ "..") (h : path_exists t cwd (sibling path c) = true) :
    ∃ e ∈ t.entries, Loc.name e.1 = c := by
  obtain ⟨q, hloc, hq⟩ := (Option.any_eq_true _ _).mp h
  have hwalk : ∃ base, t.walk base (path.tail.dropLast ++ [c]) = some q := by
    unfold FileTree.locate at hloc
    rw [sibling_tail hc] at hloc
    split at hloc
    · exact ⟨_, hloc⟩
    · exact ⟨_, hloc⟩
  obtain ⟨base, hwalk⟩ := hwalk
  obtain ⟨n, hn⟩ := FileTree.exists_iff.mp hq
  refine ⟨(q, n), FileTree.get_eq_some.mp hn, ?_⟩
  rw [FileTree.walk_eq_resolveFrom hwalk, resolveFrom_append, resolveFrom_cons, resolveFrom_nil, resolveStep, if_neg hup,
    Loc.name_concat]

end Sibling

/-! ## The search -/

@[simp] theorem tried_one : tried t cwd path 1 = path := if_pos (Nat.le_refl 1)

theorem tried_numbered {j : Nat} (hj : 2 ≤ j) : tried t cwd path j = sibling path (numbered_name t cwd path j) := if_neg (by omega)

theorem search_from {fuel i : Nat} (hi : 1 ≤ i) :
    search t cwd path fuel i (tried t cwd path i) = firstFree (path_exists t cwd) (tried t cwd path) fuel i := by
  induction fuel generalizing i with
  | zero => rfl
  | succ fuel ih => rw [search, firstFree, ← tried_numbered (by omega), ih (by omega)]

/-- The loop looks for the first free one of the paths that are tried. -/
theorem search_eq (fuel : Nat) : search t cwd path fuel 1 path = firstFree (path_exists t cwd) (tried t cwd path) fuel 1 := by
  have hfrom := @search_from α t cwd path fuel 1 (Nat.le_refl 1)
  rwa [tried_one] at hfrom

/-- The search ends: the numbered names are distinct, and the tree is finite. -/
theorem search_isSome {fuel : Nat} (hfuel : t.entries.length + 2 ≤ fuel) : (search t cwd path fuel 1 path).isSome = true := by
  obtain ⟨fuel, rfl⟩ : ∃ n, fuel = n + 1 := ⟨fuel - 1, by omega⟩
  rw [search_eq, firstFree]
  split
  · -- the names of the entries bound how many of the numbered ones are taken
    refine firstFree_isSome (l := t.entries.map fun e => sibling path (Loc.name e.1)) (fun j hj hexists => ?_)
      (fun j k hj hk heq => ?_) (by rw [List.length_map]; omega)
    · obtain ⟨hcomponent, hup⟩ := @isComponent_numbered_name α t cwd path j
      rw [tried_numbered hj] at hexists ⊢
      obtain ⟨e, he, hname⟩ := sibling_exists hcomponent hup hexists
      exact List.mem_map.mpr ⟨e, he, by rw [hname]⟩
    · rw [tried_numbered hj, tried_numbered hk] at heq
      have hname := congrArg PurePath.name heq
      rw [sibling_name (isComponent_numbered_name j).1, sibling_name (isComponent_numbered_name k).1] at hname
      exact numbered_name_injective hname
  · rfl

/-! ## Locations -/

section Locations

variable {p : Loc}

theorem locate_location (hroot : path.root = .slash) (hup : ∀ c ∈ path.tail, c ≠ "..") :
    t.locate cwd path = some path.tail ∨ t.locate cwd path = none ∧ t.exists path.tail = false := by
  have hwalk := FileTree.walk_cases (t := t) (p := []) hup
  rw [List.nil_append] at hwalk
  rwa [FileTree.locate, hroot]

theorem path_exists_location (hroot : path.root = .slash) (hup : ∀ c ∈ path.tail, c ≠ "..") :
    path_exists t cwd path = t.exists path.tail := by
  rcases @locate_location α t cwd path hroot hup with h | ⟨h, hfree⟩
  · rw [path_exists, h, Option.any_some]
  · rw [path_exists, h, Option.any_none, hfree]

theorem path_is_dir_location (hroot : path.root = .slash) (hup : ∀ c ∈ path.tail, c ≠ "..") :
    path_is_dir t cwd path = t.isDir path.tail := by
  rcases @locate_location α t cwd path hroot hup with h | ⟨h, hfree⟩
  · rw [path_is_dir, h, Option.any_some]
  · have hnodir : t.isDir path.tail = false := by
      rw [FileTree.isDir, FileTree.exists_eq_false.mp hfree]
    rw [path_is_dir, h, Option.any_none, hnodir]

/-- For a location the search finds what `change_path_name_if_exists` gives. -/
theorem search_location (hp : ∀ c ∈ p, IsName c) (fuel : Nat) (hfuel : t.entries.length + 2 ≤ fuel) :
    (search t cwd (.ofLoc p hp) fuel 1 (.ofLoc p hp)).map PurePath.tail = some (change_path_name_if_exists t p) := by
  have hdir : path_is_dir t cwd (.ofLoc p hp) = t.isDir p := path_is_dir_location rfl fun c hc => (hp c hc).2.2.1
  have hname (j : Nat) := @isComponent_numbered_name α t cwd (.ofLoc p hp) j
  have htail (j : Nat) : (tried t cwd (.ofLoc p hp) j).tail = candidate t p j := by
    unfold tried candidate
    split
    · rfl
    · rw [sibling_tail (hname j).1, numbered_name, hdir]
      split <;> rfl
  have hroot (j : Nat) : (tried t cwd (.ofLoc p hp) j).root = .slash := by
    unfold tried
    split
    · rfl
    · exact sibling_root (hname j).1
  have hup (j : Nat) : ∀ c ∈ (tried t cwd (.ofLoc p hp) j).tail, c ≠ ".." := by
    intro c hc
    unfold tried at hc
    split at hc
    · exact (hp c hc).2.2.1
    · rw [sibling_tail (hname j).1] at hc
      rcases List.mem_append.mp hc with hc | hc
      · exact (hp c ((List.dropLast_sublist _).subset hc)).2.2.1
      · exact List.mem_singleton.mp hc ▸ (hname j).2
  have hexists (j : Nat) : path_exists t cwd (tried t cwd (.ofLoc p hp) j) = t.exists (candidate t p j) := by
    rw [path_exists_location (hroot j) (hup j), htail]
  have hfree : freeName t p = some (change_path_name_if_exists t p) := (Option.some_get _).symm
  rw [search_eq, firstFree_map PurePath.tail id hexists htail, Option.map_id, id_eq]
  exact firstFree_mono hfree hfuel

end Locations

/-! ## What is found -/

/-- The search ends, on a path that is free and has the same parent: on the path itself when it is free, and otherwise on the first
free one of those with a numbered name. For a location this is what `change_path_name_if_exists` gives. -/
theorem search_finds (t : FileTree α) (cwd : Loc) (path : PurePath) :
    ∃ found, (∃ enough, ∀ fuel, enough ≤ fuel → search t cwd path fuel 1 path = some found) ∧
      found.parent = path.parent ∧ path_exists t cwd found = false ∧
      (path_exists t cwd path = false → found = path) ∧
      (path_exists t cwd path = true → ∃ k, 2 ≤ k ∧ found = sibling path (numbered_name t cwd path k) ∧
        ∀ j, 2 ≤ j → j < k → path_exists t cwd (sibling path (numbered_name t cwd path j)) = true) ∧
      ∀ p hp, path = .ofLoc p hp → found.tail = change_path_name_if_exists t p := by
  obtain ⟨found, hfound⟩ := Option.isSome_iff_exists.mp (@search_isSome α t cwd path _ (Nat.le_refl _))
  rw [search_eq] at hfound
  obtain ⟨k, hk, rfl, hfree, hall⟩ := firstFree_eq_some hfound
  refine ⟨_, ⟨_, fun fuel hfuel => (search_eq fuel).trans (firstFree_mono hfound hfuel)⟩, ?_, hfree, fun hnew => ?_,
    fun hexists => ?_, fun p hp hpath => ?_⟩
  · rcases Nat.eq_or_lt_of_le hk with rfl | hk
    · rw [tried_one]
    · rw [tried_numbered hk, sibling_parent (isComponent_numbered_name k).1]
  · -- nothing is tried after a free path
    rcases Nat.eq_or_lt_of_le hk with rfl | hk
    · exact tried_one
    · have htaken := hall 1 (Nat.le_refl 1) hk
      rw [tried_one, hnew] at htaken
      cases htaken
  · have hk : 2 ≤ k := by
      rcases Nat.eq_or_lt_of_le hk with rfl | hk
      · rw [tried_one, hexists] at hfree
        cases hfree
      · exact hk
    refine ⟨k, hk, tried_numbered hk, fun j hj hjk => ?_⟩
    rw [← tried_numbered hj]
    exact hall j (by omega) hjk
  · have hlocation := @search_location α t cwd p hp _ (Nat.le_refl _)
    rw [← hpath, search_eq, hfound] at hlocation
    exact Option.some.inj hlocation

end Backend
