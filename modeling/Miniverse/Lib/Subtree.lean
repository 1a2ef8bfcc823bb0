import Miniverse.Lib.Disk

/-!
# Parts of a file tree

The files of a tree, how deep its directories are nested, and what a tree becomes when parts of it are removed or copied.
-/

namespace Lib

namespace FileTree

variable {α : Type}

/-! ## Files -/

/-- The regular files with their contents. -/
def files (t : FileTree α) : List (Loc × α) :=
  t.entries.filterMap fun e =>
    match e.2 with
    | .dir => none
    | .file x => some (e.1, x)

theorem mem_files {t : FileTree α} {q : Loc} {x : α} : (q, x) ∈ t.files ↔ t.get q = some (.file x) := by
  rw [files, List.mem_filterMap, get_eq_some]
  constructor
  · rintro ⟨⟨r, n⟩, hmem, hf⟩
    cases n with
    | dir => cases hf
    | file y =>
        cases hf
        exact hmem
  · exact fun h => ⟨_, h, rfl⟩

theorem nodup_files (t : FileTree α) : t.files.Nodup := by
  refine (List.Nodup.of_map Prod.fst t.nodup).filterMap ?_
  rintro ⟨p, m⟩ ⟨q, n⟩ ⟨r, x⟩ hm hn
  cases m with
  | dir => cases hm
  | file y =>
      cases n with
      | dir => cases hn
      | file z =>
          cases hm
          cases hn
          rfl

/-! ## Removed parts -/

/-- `t'` is `t` without the locations and everything below them. -/
def Pruned (files : List Loc) (t t' : FileTree α) : Prop :=
  t'.entries = t.entries.filter fun e => decide (∀ f ∈ files, ¬ f <+: e.1)

theorem Pruned.get {files : List Loc} {t t' : FileTree α} (h : Pruned files t t') (q : Loc) :
    t'.get q = if ∃ f ∈ files, f <+: q then none else t.get q := by
  ext n
  rw [get_eq_some, h, List.mem_filter, decide_eq_true_eq]
  by_cases hq : ∃ f ∈ files, f <+: q
  · rw [if_pos hq]
    obtain ⟨f, hf, hfq⟩ := hq
    simpa using fun _ => ⟨f, hf, hfq⟩
  · rw [if_neg hq, get_eq_some]
    simpa using fun _ f hf hfq => hq ⟨f, hf, hfq⟩

theorem Pruned.nil (t : FileTree α) : Pruned [] t t := by simp [Pruned]

theorem Pruned.cons {f : Loc} {files : List Loc} {t₁ t₂ t₃ : FileTree α} (h₁ : Pruned [f] t₁ t₂)
    (h₂ : Pruned files t₂ t₃) : Pruned (f :: files) t₁ t₃ := by
  unfold Pruned at *
  rw [h₂, h₁, List.filter_filter]
  refine List.filter_congr fun e _ => ?_
  simp [Bool.and_comm]

theorem pruned_remove (t : FileTree α) {f : Loc} (hf : f ≠ []) : Pruned [f] t (t.remove f hf) := by
  simp [Pruned, remove]

/-- Where nothing is, nothing has to be removed. -/
theorem pruned_missing {t : FileTree α} {f : Loc} (h : t.exists f = false) : Pruned [f] t t := by
  refine (List.filter_eq_self.mpr fun e he => ?_).symm
  have hnot := Disk.not_below_free h (get_eq_some.mpr he)
  simpa using hnot

/-- The order of the locations is of no account, nor how often each is given. -/
theorem Pruned.unique {files files' : List Loc} {t t₁ t₂ : FileTree α} (h₁ : Pruned files t t₁) (h₂ : Pruned files' t t₂)
    (hsub : files ⊆ files') (hsub' : files' ⊆ files) : t₁ = t₂ := by
  have hentries : t₁.entries = t₂.entries := by
    rw [h₁, h₂]
    refine List.filter_congr fun e _ => decide_eq_decide.mpr ?_
    exact ⟨fun h f hf => h f (hsub' hf), fun h f hf => h f (hsub hf)⟩
  cases t₁
  cases t₂
  simpa using hentries

/-- What was removed once need not be removed again. -/
theorem Pruned.again {files : List Loc} {t t₁ t₂ : FileTree α} (h₁ : Pruned files t t₁) (h₂ : Pruned files t₁ t₂) :
    t₂ = t₁ := by
  have hentries : t₂.entries = t₁.entries := by
    rw [h₂, h₁, List.filter_filter]
    simp
  cases t₁
  cases t₂
  simpa using hentries

/-! ## Depth -/

/-- How many directories are nested at and below a location. -/
def height (t : FileTree α) (p : Loc) : Nat :=
  (t.entries.map fun e =>
    match e.2 with
    | .dir => if p <+: e.1 then e.1.length + 1 - p.length else 0
    | .file _ => 0).foldr max 0

theorem height_le {t : FileTree α} {p : Loc} {n : Nat} : t.height p ≤ n ↔ ∀ r, t.isDir (p ++ r) = true → r.length < n := by
  have hmax : ∀ l : List Nat, l.foldr max 0 ≤ n ↔ ∀ k ∈ l, k ≤ n := by
    intro l
    induction l with
    | nil => simp
    | cons k l ih => rw [List.foldr_cons, Nat.max_le, ih, List.forall_mem_cons]
  rw [height, hmax]
  constructor
  · intro h r hdir
    have hk : (if p <+: p ++ r then (p ++ r).length + 1 - p.length else 0) ≤ n :=
      h _ (List.mem_map_of_mem (get_eq_some.mp (isDir_iff.mp hdir)))
    rw [if_pos (List.prefix_append p r), List.length_append] at hk
    omega
  · intro h k hk
    obtain ⟨⟨q, node⟩, hmem, rfl⟩ := List.mem_map.mp hk
    cases node with
    | file x => exact Nat.zero_le n
    | dir =>
        dsimp only
        split
        · rename_i hle
          obtain ⟨r, rfl⟩ := hle
          have := h r (isDir_iff.mpr (get_eq_some.mpr hmem))
          show (p ++ r).length + 1 - p.length ≤ n
          rw [List.length_append]
          omega
        · exact Nat.zero_le n

/-! ## The entries of a directory -/

theorem mem_children {t : FileTree α} {p : Loc} {c : String} : c ∈ t.children p ↔ t.exists (p ++ [c]) = true := by
  rw [children, List.mem_filterMap, exists_iff]
  constructor
  · rintro ⟨⟨q, n⟩, hmem, hc⟩
    split at hc
    · rename_i hq
      obtain ⟨hne, rfl⟩ := hq
      cases hc
      rw [Loc.parent_append_name hne]
      exact ⟨n, get_eq_some.mpr hmem⟩
    · cases hc
  · rintro ⟨n, hn⟩
    exact ⟨_, get_eq_some.mp hn, by simp⟩

theorem nodup_children (t : FileTree α) (p : Loc) : (t.children p).Nodup := by
  refine List.Pairwise.filterMap _ (fun e e' hne c hc c' hc' heq => hne ?_) (List.pairwise_map.mp t.nodup)
  split at hc
  · rename_i hp
    split at hc'
    · rename_i hp'
      cases hc
      cases hc'
      rw [← Loc.parent_append_name hp.1, ← Loc.parent_append_name hp'.1, hp.2, hp'.2, heq]
    · cases hc'
  · cases hc

/-! ## Copied parts -/

/-- `t'` is `t` with a copy of what is at and below `src` at `dst`. -/
structure Copied (src dst : Loc) (t t' : FileTree α) : Prop where
  below : ∀ r, t'.get (dst ++ r) = t.get (src ++ r)
  outside : ∀ q, ¬ dst <+: q → t'.get q = t.get q

/-- Nothing that was there is changed by a copy to a free location. -/
theorem Copied.keeps {src dst : Loc} {t t' : FileTree α} (h : Copied src dst t t') (hfree : t.exists dst = false) {q : Loc}
    {n : Node α} (hq : t.get q = some n) : t'.get q = some n := by
  rw [h.outside q (Disk.not_below_free hfree hq), hq]

/-- A copy is as deep as what was copied. -/
theorem Copied.height_dst {src dst : Loc} {t t' : FileTree α} (h : Copied src dst t t') : t'.height dst = t.height src := by
  refine eq_of_forall_ge_iff fun n => ?_
  simp only [height_le, isDir, h.below]

/-- Away from the copy nothing gets deeper. -/
theorem Copied.height_other {src dst p : Loc} {t t' : FileTree α} (h : Copied src dst t t') (hfree : t.exists dst = false)
    (hex : t.exists p = true) (hnot : ¬ p <+: dst) : t'.height p = t.height p := by
  refine eq_of_forall_ge_iff fun n => ?_
  have hsame : ∀ r, t'.get (p ++ r) = t.get (p ++ r) := by
    intro r
    refine h.outside _ fun hle => ?_
    rcases List.prefix_or_prefix_of_prefix hle (List.prefix_append p r) with hle | hle
    · obtain ⟨n, hn⟩ := exists_iff.mp hex
      exact Disk.not_below_free hfree hn hle
    · exact hnot hle
  simp only [height_le, isDir, hsame]

/-- The directory that gets the copy is deep enough for it. -/
theorem Copied.height_parent {src p : Loc} {c : String} {t t' : FileTree α} (h : Copied src (p ++ [c]) t t')
    (hfree : t.exists (p ++ [c]) = false) (hdir : t.isDir p = true) :
    t'.height p = max (t.height p) (t.height src + 1) := by
  refine eq_of_forall_ge_iff fun n => ?_
  rw [Nat.max_le, ← h.height_dst]
  have hpos : (∀ r, t'.isDir (p ++ r) = true → r.length < n) → 0 < n := by
    intro hall
    refine hall [] ?_
    rw [List.append_nil]
    exact isDir_iff.mpr (h.keeps hfree (isDir_iff.mp hdir))
  constructor
  · intro hall
    rw [height_le] at hall
    have hn := hpos hall
    refine ⟨height_le.mpr fun r hr => ?_, ?_⟩
    · exact hall r (isDir_iff.mpr (h.keeps hfree (isDir_iff.mp hr)))
    · have hbelow : t'.height (p ++ [c]) ≤ n - 1 := height_le.mpr fun r hr => by
        have := hall ([c] ++ r) (by rwa [← List.append_assoc])
        rw [List.length_append, List.length_singleton] at this
        omega
      omega
  · rintro ⟨hold, hnew⟩
    rw [height_le] at hold ⊢
    intro r hr
    by_cases hle : p ++ [c] <+: p ++ r
    · obtain ⟨r', rfl⟩ := (List.prefix_append_right_inj p).mp hle
      have hbelow : t'.height (p ++ [c]) ≤ n - 1 := by omega
      have := height_le.mp hbelow r' (by rwa [List.append_assoc])
      rw [List.length_append, List.length_singleton]
      omega
    · refine hold r ?_
      rwa [isDir, ← h.outside _ hle]

end FileTree

end Lib
