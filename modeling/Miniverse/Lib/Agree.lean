import Miniverse.Lib.Disk

/-!
# Trees that agree below a location

Two file trees may differ outside of a directory. A program that looks only at what is inside gives the same result on both,
and leaves the same inside.
-/

namespace Lib

variable {α ε β : Type}

namespace FileTree

/-- The entries at and below a location, in the order of the tree. -/
def inside (t : FileTree α) (root : Loc) : List (Loc × Node α) := t.entries.filter fun e => decide (root <+: e.1)

variable {t t' : FileTree α} {root p : Loc}

theorem get_inside (hp : root <+: p) : t.get p = ((t.inside root).find? fun e => decide (e.1 = p)).map Prod.snd := by
  have hsame : ∀ e : Loc × Node α, decide (decide (root <+: e.1) = true ∧ decide (e.1 = p) = true) = decide (e.1 = p) := by
    intro e
    by_cases he : e.1 = p
    · simp [he, hp]
    · simp [he]
  rw [inside, List.find?_filter, get]
  simp only [hsame]

theorem get_congr (h : t.inside root = t'.inside root) (hp : root <+: p) : t.get p = t'.get p := by
  rw [get_inside hp, get_inside hp, h]

theorem exists_congr (h : t.inside root = t'.inside root) (hp : root <+: p) : t.exists p = t'.exists p := by
  rw [FileTree.exists, FileTree.exists, get_congr h hp]

theorem isDir_congr (h : t.inside root = t'.inside root) (hp : root <+: p) : t.isDir p = t'.isDir p := by
  rw [isDir, isDir, get_congr h hp]

theorem isFile_congr (h : t.inside root = t'.inside root) (hp : root <+: p) : t.isFile p = t'.isFile p := by
  rw [isFile, isFile, get_congr h hp]

theorem below_inside (hp : root <+: p) : t.below p = (t.inside root).filter fun e => decide (p <+: e.1 ∧ e.1 ≠ p) := by
  rw [inside, List.filter_filter, below]
  refine List.filter_congr fun e _ => ?_
  by_cases he : p <+: e.1
  · simp [he, hp.trans he]
  · simp [he]

theorem below_congr (h : t.inside root = t'.inside root) (hp : root <+: p) : t.below p = t'.below p := by
  rw [below_inside hp, below_inside hp, h]

theorem children_inside (hp : root <+: p) : t.children p =
    (t.inside root).filterMap fun e => if e.1 ≠ [] ∧ e.1.parent = p then some (Loc.name e.1) else none := by
  rw [inside, List.filterMap_filter, children]
  refine List.filterMap_congr fun e _ => ?_
  by_cases he : e.1.parent = p
  · have hin : root <+: e.1 := (he ▸ hp).trans (List.dropLast_prefix _)
    simp [hin]
  · simp [he]

theorem children_congr (h : t.inside root = t'.inside root) (hp : root <+: p) : t.children p = t'.children p := by
  rw [children_inside hp, children_inside hp, h]

/-- Above what exists there is no file, so that a failing lookup fails inside. -/
theorem lookupError_congr (h : t.inside root = t'.inside root) (hroot : t.exists root = true) (hp : root <+: p) :
    t.lookupError p = t'.lookupError p := by
  have hroot' : t'.exists root = true := exists_congr h (List.prefix_refl root) ▸ hroot
  have hfile : ∀ k, t.isFile (p.take k) = t'.isFile (p.take k) := by
    intro k
    rcases List.prefix_or_prefix_of_prefix hp (List.take_prefix k p) with hin | hout
    · exact isFile_congr h hin
    · by_cases heq : p.take k = root
      · rw [heq]
        exact isFile_congr h (List.prefix_refl root)
      · have hdir := isDir_above hout heq hroot
        have hdir' := isDir_above hout heq hroot'
        rw [isFile_eq_false_above (List.prefix_refl _) hdir, isFile_eq_false_above (List.prefix_refl _) hdir']
  rw [lookupError, lookupError]
  simp only [hfile]

/-! ## Changes inside -/

theorem inside_insert {n : Node α} {hn hd hc} (hp : root <+: p) :
    (t.insert p n hn hd hc).inside root = t.inside root ++ [(p, n)] := by
  simp [inside, insert, hp]

theorem inside_setContent {x : α} {hf} : (t.setContent p x hf).inside root =
    (t.inside root).map fun e => if e.1 = p then (p, .file x) else e := by
  rw [inside, setContent, inside, List.filter_map]
  refine congrArg _ (List.filter_congr fun e _ => ?_)
  by_cases he : e.1 = p
  · simp [he]
  · simp [he]

theorem inside_insert_off {n : Node α} {hn hd hc} (hp : ¬ root <+: p) : (t.insert p n hn hd hc).inside root = t.inside root := by
  simp [inside, insert, hp]

theorem inside_setContent_off {x : α} {hf} (hp : ¬ root <+: p) : (t.setContent p x hf).inside root = t.inside root := by
  rw [inside_setContent]
  have hsame : ∀ e ∈ t.inside root, (if e.1 = p then (p, .file x) else e) = e := by
    intro e he
    have hin : root <+: e.1 := by simpa using (List.mem_filter.mp he).2
    exact if_neg fun (heq : e.1 = p) => hp (heq ▸ hin)
  rw [List.map_congr_left hsame, List.map_id']

/-- What is written outside is not seen inside. -/
theorem inside_write_off {u : FileTree α} {x : α} (hp : ¬ root <+: p) (h : t.write p x = .ok u) : u.inside root = t.inside root := by
  unfold write at h
  split at h
  · cases h
    exact inside_setContent_off hp
  · split at h
    · unfold create at h
      split at h
      · split at h
        · cases h
          exact inside_insert_off hp
        · cases h
      · cases h
    · cases h

/-- The call fails with one error, or leaves trees that agree. -/
def SameResult (root : Loc) (r r' : Except OSError (FileTree α)) : Prop :=
  (∃ e, r = .error e ∧ r' = .error e) ∨
    ∃ u u', r = .ok u ∧ r' = .ok u' ∧ u.exists root = true ∧ u.inside root = u'.inside root

theorem sameResult_create {n : Node α} (h : t.inside root = t'.inside root) (hroot : t.exists root = true) (hp : root <+: p)
    (hn : t.exists p = false) (hn' : t'.exists p = false) : SameResult root (t.create p n hn) (t'.create p n hn') := by
  have hne : p ≠ root := by
    rintro rfl
    rw [hroot] at hn
    cases hn
  have hparent := isDir_congr h (Loc.prefix_parent hp hne)
  unfold create
  by_cases hdir : t.isDir p.parent = true
  · have hdir' : t'.isDir p.parent = true := by rwa [← hparent]
    rw [dif_pos hdir, dif_pos hdir']
    by_cases hname : IsName p.name
    · rw [dif_pos hname, dif_pos hname]
      refine Or.inr ⟨_, _, rfl, rfl, ?_, ?_⟩
      · rw [FileTree.exists, get_insert, if_neg (Ne.symm hne)]
        exact hroot
      · rw [inside_insert hp, inside_insert hp, h]
    · rw [dif_neg hname, dif_neg hname]
      exact Or.inl ⟨_, rfl, rfl⟩
  · have hdir' : ¬ t'.isDir p.parent = true := by rwa [← hparent]
    rw [dif_neg hdir, dif_neg hdir', lookupError_congr h hroot hp]
    exact Or.inl ⟨_, rfl, rfl⟩

theorem sameResult_mkdir (h : t.inside root = t'.inside root) (hroot : t.exists root = true) (hp : root <+: p) :
    SameResult root (t.mkdir p) (t'.mkdir p) := by
  have hexists := exists_congr h hp
  unfold mkdir
  by_cases hn : t.exists p = false
  · rw [dif_pos hn, dif_pos (hexists ▸ hn)]
    exact sameResult_create h hroot hp hn _
  · have hn' : ¬ t'.exists p = false := by rwa [← hexists]
    rw [dif_neg hn, dif_neg hn']
    exact Or.inl ⟨_, rfl, rfl⟩

theorem sameResult_write {x : α} (h : t.inside root = t'.inside root) (hroot : t.exists root = true) (hp : root <+: p) :
    SameResult root (t.write p x) (t'.write p x) := by
  have hexists := exists_congr h hp
  have hisFile := isFile_congr h hp
  unfold write
  by_cases hfile : t.isFile p = true
  · rw [dif_pos hfile, dif_pos (hisFile ▸ hfile)]
    refine Or.inr ⟨_, _, rfl, rfl, ?_, ?_⟩
    · rw [FileTree.exists, get_setContent]
      split
      · rfl
      · exact hroot
    · rw [inside_setContent, inside_setContent, h]
  · have hfile' : ¬ t'.isFile p = true := by rwa [← hisFile]
    rw [dif_neg hfile, dif_neg hfile']
    by_cases hn : t.exists p = false
    · rw [dif_pos hn, dif_pos (hexists ▸ hn)]
      exact sameResult_create h hroot hp hn _
    · have hn' : ¬ t'.exists p = false := by rwa [← hexists]
      rw [dif_neg hn, dif_neg hn']
      exact Or.inl ⟨_, rfl, rfl⟩

end FileTree

namespace Disk

variable [RaisesOS ε] {root p : Loc}

/-- The trees agree at and below a location. -/
def SameInside (root : Loc) (d d' : Disk α) : Prop := d.tree.inside root = d'.tree.inside root

instance (root : Loc) : Std.Refl (SameInside (α := α) root) := ⟨fun _ => rfl⟩

/-- They agree at and below a location that exists. -/
def Agree (root : Loc) (d d' : Disk α) : Prop := d.tree.exists root = true ∧ SameInside root d d'

omit [RaisesOS ε] in
theorem alike_look {R : Disk α → Disk α → Prop} (hR : ∀ d d', R d d' → SameInside root d d') {f : FileTree α → β}
    (hf : ∀ t t' : FileTree α, t.inside root = t'.inside root → f t = f t') : (look f : Eff (Disk α) ε β).Alike R :=
  Eff.Alike.read fun d d' h => hf d.tree d'.tree (hR d d' h)

omit [RaisesOS ε] in
theorem alike_look_agree {f : FileTree α → β} (hf : ∀ t t' : FileTree α, t.inside root = t'.inside root → f t = f t') :
    (look f : Eff (Disk α) ε β).Alike (Agree root) := alike_look (fun _ _ h => h.2) hf

theorem alike_readFile (hp : root <+: p) : (readFile p : Eff (Disk α) ε α).Alike (Agree root) := by
  intro d d' h
  have hget := FileTree.get_congr h.2 hp
  unfold readFile
  rw [← hget]
  rcases d.tree.get p with _ | _ | x
  · exact ⟨congrArg (fun e => Except.error (RaisesOS.os e)) (FileTree.lookupError_congr h.2 h.1 hp), h⟩
  · exact ⟨rfl, h⟩
  · exact ⟨rfl, h⟩

theorem alike_call {ps : List Loc} {f : FileTree α → Except OSError (FileTree α)}
    (h : ∀ t t' : FileTree α, t.inside root = t'.inside root → t.exists root = true →
      FileTree.SameResult root (f t) (f t')) : (call ps f : Eff (Disk α) ε Unit).Alike (Agree root) := by
  intro d d' hagree
  unfold call
  rcases h d.tree d'.tree hagree.2 hagree.1 with ⟨e, he, he'⟩ | ⟨u, u', hu, hu', hroot, hinside⟩
  · rw [he, he']
    exact ⟨rfl, hagree⟩
  · rw [hu, hu']
    exact ⟨rfl, hroot, hinside⟩

theorem alike_mkdir (hp : root <+: p) : (mkdir p : Eff (Disk α) ε Unit).Alike (Agree root) :=
  alike_call fun _ _ h hroot => FileTree.sameResult_mkdir h hroot hp

theorem alike_write (hp : root <+: p) (x : α) : (write p x : Eff (Disk α) ε Unit).Alike (Agree root) :=
  alike_call fun _ _ h hroot => FileTree.sameResult_write h hroot hp

theorem sameInside_write (hp : ¬ root <+: p) (x : α) : (write p x : Eff (Disk α) ε Unit).Within (SameInside root) :=
  within_call fun _ _ h => (FileTree.inside_write_off hp h).symm

end Disk

end Lib
