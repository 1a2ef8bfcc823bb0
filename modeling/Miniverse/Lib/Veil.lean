import Miniverse.Lib.Agree

/-!
# Trees with hidden contents

Two file trees may differ in the contents of the files at and below a location, and in nothing else. A program that does not read
there gives the same result on both, and leaves two such trees behind.
-/

namespace Lib

variable {α ε β : Type}

/-- What `f` tells of two lists that `g` does not tell apart. -/
theorem filter_congr_of_map {γ δ : Type} {g : γ → δ} {P : γ → Bool} {l l' : List γ} (h : l.map g = l'.map g)
    (hP : ∀ a b, g a = g b → P a = P b) (hinj : ∀ a ∈ l, P a = true → ∀ b, g a = g b → a = b) : l.filter P = l'.filter P := by
  induction l generalizing l' with
  | nil =>
      obtain rfl : l' = [] := by simpa using h.symm
      rfl
  | cons a l ih =>
      cases l' with
      | nil => cases h
      | cons b l' =>
          obtain ⟨hab, hrest⟩ := List.cons.inj h
          have ih := ih hrest fun c hc => hinj c (List.mem_cons_of_mem _ hc)
          cases hPa : P a with
          | false => rw [List.filter_cons_of_neg (by simp [hPa]), List.filter_cons_of_neg (by simp [← hP a b hab, hPa]), ih]
          | true =>
              obtain rfl := hinj a List.mem_cons_self hPa b hab
              rw [List.filter_cons_of_pos hPa, List.filter_cons_of_pos hPa, ih]

namespace FileTree

/-- A node, whose content is hidden at and below a location. -/
def veilNode (root p : Loc) : Node α → Node (Option α)
  | .dir => .dir
  | .file x => .file (if root <+: p then none else some x)

def veil (root : Loc) (e : Loc × Node α) : Loc × Node (Option α) := (e.1, veilNode root e.1 e.2)

/-- The entries of the tree, with the contents at and below a location hidden. -/
def veiled (root : Loc) (t : FileTree α) : List (Loc × Node (Option α)) := t.entries.map (veil root)

variable {t t' : FileTree α} {root p : Loc}

theorem veilNode_injective (hp : ¬ root <+: p) {m n : Node α} (h : veilNode root p m = veilNode root p n) : m = n := by
  cases m with
  | dir =>
      cases n with
      | dir => rfl
      | file y => cases h
  | file x =>
      cases n with
      | dir => cases h
      | file y =>
          simp only [veilNode, if_neg hp, Node.file.injEq, Option.some.injEq] at h
          rw [h]

/-! ## Looking up -/

theorem find_veiled : ((t.veiled root).find? fun e => decide (e.1 = p)).map Prod.snd = (t.get p).map (veilNode root p) := by
  rw [veiled, List.find?_map, Option.map_map, get, Option.map_map]
  show ((t.entries.find? fun e => decide (e.1 = p)).map fun e => veilNode root e.1 e.2) = _
  cases hfind : t.entries.find? fun e => decide (e.1 = p) with
  | none => rfl
  | some e =>
      have he : e.1 = p := by simpa using List.find?_some hfind
      simp [he]

theorem get_veiled (h : t.veiled root = t'.veiled root) : (t.get p).map (veilNode root p) = (t'.get p).map (veilNode root p) := by
  rw [← find_veiled, ← find_veiled, h]

/-- Elsewhere the trees are the same. -/
theorem get_off (h : t.veiled root = t'.veiled root) (hp : ¬ root <+: p) : t.get p = t'.get p :=
  Option.map_injective (fun _ _ => veilNode_injective hp) (get_veiled h)

theorem kind_veiled (h : t.veiled root = t'.veiled root) : (t.get p = none ∧ t'.get p = none) ∨
    (t.get p = some .dir ∧ t'.get p = some .dir) ∨ ∃ x x', t.get p = some (.file x) ∧ t'.get p = some (.file x') := by
  have hget := get_veiled (p := p) h
  rcases hm : t.get p with _ | _ | x <;> rcases hn : t'.get p with _ | _ | x' <;> rw [hm, hn] at hget
  · exact Or.inl ⟨rfl, rfl⟩
  · cases hget
  · cases hget
  · cases hget
  · exact Or.inr (Or.inl ⟨rfl, rfl⟩)
  · cases hget
  · cases hget
  · cases hget
  · exact Or.inr (Or.inr ⟨x, x', rfl, rfl⟩)

theorem exists_veiled (h : t.veiled root = t'.veiled root) (p : Loc) : t.exists p = t'.exists p := by
  unfold FileTree.exists
  rcases kind_veiled (p := p) h with ⟨hm, hn⟩ | ⟨hm, hn⟩ | ⟨x, x', hm, hn⟩
  · rw [hm, hn]
  · rw [hm, hn]
  · rw [hm, hn]
    rfl

theorem isDir_veiled (h : t.veiled root = t'.veiled root) (p : Loc) : t.isDir p = t'.isDir p := by
  unfold isDir
  rcases kind_veiled (p := p) h with ⟨hm, hn⟩ | ⟨hm, hn⟩ | ⟨x, x', hm, hn⟩ <;> rw [hm, hn]

theorem isFile_veiled (h : t.veiled root = t'.veiled root) (p : Loc) : t.isFile p = t'.isFile p := by
  unfold isFile
  rcases kind_veiled (p := p) h with ⟨hm, hn⟩ | ⟨hm, hn⟩ | ⟨x, x', hm, hn⟩ <;> rw [hm, hn]

theorem lookupError_veiled (h : t.veiled root = t'.veiled root) (p : Loc) : t.lookupError p = t'.lookupError p := by
  simp only [lookupError, isFile_veiled h]

theorem walk_veiled (h : t.veiled root = t'.veiled root) (p : Loc) (cs : List String) : t.walk p cs = t'.walk p cs := by
  induction cs generalizing p with
  | nil => rfl
  | cons c cs ih => rw [walk, walk, isDir_veiled h, ih]

theorem locate_veiled (h : t.veiled root = t'.veiled root) (cwd : Loc) (p : PurePath) : t.locate cwd p = t'.locate cwd p := by
  unfold locate
  split <;> exact walk_veiled h _ _

theorem locations_veiled (h : t.veiled root = t'.veiled root) : t.entries.map Prod.fst = t'.entries.map Prod.fst := by
  have hfst (u : FileTree α) : u.entries.map Prod.fst = (u.veiled root).map Prod.fst := by
    rw [veiled, List.map_map]
    rfl
  rw [hfst, hfst, h]

theorem length_veiled (h : t.veiled root = t'.veiled root) : t.entries.length = t'.entries.length := by
  simpa using congrArg List.length (locations_veiled h)

theorem children_veiled (h : t.veiled root = t'.veiled root) (p : Loc) : t.children p = t'.children p := by
  have hlocations (u : FileTree α) : u.children p = (u.entries.map Prod.fst).filterMap
      fun q : Loc => if q ≠ [] ∧ q.parent = p then some (Loc.name q) else none := by
    rw [List.filterMap_map]
    rfl
  rw [hlocations, hlocations, locations_veiled h]

/-- What is below a location without hidden contents. -/
theorem below_veiled (h : t.veiled root = t'.veiled root) (hp : ∀ q, p <+: q → root <+: q → t.isFile q = false) :
    t.below p = t'.below p := by
  refine filter_congr_of_map h (fun a b hab => ?_) fun a ha hbelow b hab => ?_
  · rw [show a.1 = b.1 from (Prod.mk.inj hab).1]
  · obtain ⟨q, m⟩ := a
    obtain ⟨q', n⟩ := b
    obtain ⟨rfl, hnode⟩ := Prod.mk.inj hab
    simp only [decide_eq_true_eq] at hbelow
    refine Prod.ext rfl ?_
    by_cases hq : root <+: q
    · have hfile := hp q hbelow.1 hq
      have hget := get_eq_some.mpr ha
      cases m with
      | file x => rw [isFile_iff.mpr ⟨x, hget⟩] at hfile; cases hfile
      | dir =>
          cases n with
          | dir => rfl
          | file y => cases hnode
    · exact veilNode_injective hq hnode

/-- A part without hidden contents. -/
theorem inside_veiled (h : t.veiled root = t'.veiled root) (hclear : ∀ q, p <+: q → ¬ root <+: q) : t.inside p = t'.inside p := by
  refine filter_congr_of_map h (fun a b hab => ?_) fun a _ hin b hab => ?_
  · rw [show a.1 = b.1 from (Prod.mk.inj hab).1]
  · obtain ⟨q, m⟩ := a
    obtain ⟨q', n⟩ := b
    obtain ⟨rfl, hnode⟩ := Prod.mk.inj hab
    exact Prod.ext rfl (veilNode_injective (hclear q (of_decide_eq_true hin)) hnode)

theorem isEmpty_below_veiled (h : t.veiled root = t'.veiled root) (p : Loc) : (t.below p).isEmpty = (t'.below p).isEmpty := by
  have hlocations (u : FileTree α) : (u.below p).isEmpty =
      ((u.entries.map Prod.fst).filter fun q => decide (p <+: q ∧ q ≠ p)).isEmpty := by
    rw [List.filter_map, List.isEmpty_map]
    rfl
  rw [hlocations, hlocations, locations_veiled h]

/-! ## Changing -/

theorem veiled_insert {n : Node α} {hn hd hc} : (t.insert p n hn hd hc).veiled root = t.veiled root ++ [veil root (p, n)] := by
  simp [veiled, insert]

theorem veiled_setContent {x : α} {hf} : (t.setContent p x hf).veiled root =
    (t.veiled root).map fun e => if e.1 = p then veil root (p, .file x) else e := by
  rw [veiled, veiled, setContent, List.map_map, List.map_map]
  refine List.map_congr_left fun e _ => ?_
  by_cases he : e.1 = p
  · simp [veil, he]
  · simp [veil, he]

theorem veiled_remove {hp} : (t.remove p hp).veiled root = (t.veiled root).filter fun e => decide (¬ p <+: e.1) := by
  rw [veiled, veiled, remove, List.filter_map]
  rfl

/-- A node that was not hidden, at a new location. -/
def hide (root p : Loc) : Node (Option α) → Node (Option α)
  | .dir => .dir
  | .file x => .file (if root <+: p then none else x)

theorem hide_veilNode {q : Loc} (h : ¬ root <+: q ∨ q = p) (n : Node α) : hide root p (veilNode root q n) = veilNode root p n := by
  cases n with
  | dir => rfl
  | file x =>
      rcases h with h | rfl
      · simp only [veilNode, hide, if_neg h]
      · simp only [veilNode, hide]
        split <;> rfl

/-- What is moved was not hidden. -/
theorem veiled_move {a b : Loc} {hab hba hd hc} (ha : ∀ q, a <+: q → ¬ root <+: q) : (t.move a b hab hba hd hc).veiled root =
    ((t.veiled root).filter fun e => decide (¬ b <+: e.1)).map fun e => (relocate a b e.1, hide root (relocate a b e.1) e.2) := by
  rw [veiled, veiled, move, List.filter_map, List.map_map, List.map_map]
  refine List.map_congr_left fun e _ => Prod.ext rfl ?_
  refine (hide_veilNode ?_ e.2).symm
  by_cases hae : a <+: e.1
  · exact Or.inl (ha _ hae)
  · exact Or.inr (relocate_of_not b hae).symm

/-- The call fails with one error, or leaves trees that differ only in what is hidden. -/
def SameVeil (root : Loc) (r r' : Except OSError (FileTree α)) : Prop :=
  (∃ e, r = .error e ∧ r' = .error e) ∨ ∃ u u', r = .ok u ∧ r' = .ok u' ∧ u.veiled root = u'.veiled root

/-- The same condition on both sides. -/
theorem SameVeil.ite (c : Prop) [Decidable c] {r₁ r₁' r₂ r₂' : Except OSError (FileTree α)} (h₁ : SameVeil root r₁ r₁')
    (h₂ : SameVeil root r₂ r₂') : SameVeil root (if c then r₁ else r₂) (if c then r₁' else r₂') := by
  by_cases hc : c
  · rw [if_pos hc, if_pos hc]
    exact h₁
  · rw [if_neg hc, if_neg hc]
    exact h₂

theorem sameVeil_create {n : Node α} (h : t.veiled root = t'.veiled root) (hn : t.exists p = false) (hn' : t'.exists p = false) :
    SameVeil root (t.create p n hn) (t'.create p n hn') := by
  unfold create
  by_cases hdir : t.isDir p.parent = true
  · have hdir' : t'.isDir p.parent = true := by rwa [← isDir_veiled h]
    rw [dif_pos hdir, dif_pos hdir']
    by_cases hname : IsName p.name
    · rw [dif_pos hname, dif_pos hname]
      refine Or.inr ⟨_, _, rfl, rfl, ?_⟩
      rw [veiled_insert, veiled_insert, h]
    · rw [dif_neg hname, dif_neg hname]
      exact Or.inl ⟨_, rfl, rfl⟩
  · have hdir' : ¬ t'.isDir p.parent = true := by rwa [← isDir_veiled h]
    rw [dif_neg hdir, dif_neg hdir', lookupError_veiled h]
    exact Or.inl ⟨_, rfl, rfl⟩

theorem sameVeil_mkdir (h : t.veiled root = t'.veiled root) (p : Loc) : SameVeil root (t.mkdir p) (t'.mkdir p) := by
  unfold mkdir
  by_cases hn : t.exists p = false
  · rw [dif_pos hn, dif_pos (exists_veiled h p ▸ hn)]
    exact sameVeil_create h hn _
  · have hn' : ¬ t'.exists p = false := by rwa [← exists_veiled h]
    rw [dif_neg hn, dif_neg hn']
    exact Or.inl ⟨_, rfl, rfl⟩

theorem sameVeil_write (h : t.veiled root = t'.veiled root) (p : Loc) (x : α) : SameVeil root (t.write p x) (t'.write p x) := by
  unfold write
  by_cases hfile : t.isFile p = true
  · rw [dif_pos hfile, dif_pos (isFile_veiled h p ▸ hfile)]
    refine Or.inr ⟨_, _, rfl, rfl, ?_⟩
    rw [veiled_setContent, veiled_setContent, h]
  · have hfile' : ¬ t'.isFile p = true := by rwa [← isFile_veiled h]
    rw [dif_neg hfile, dif_neg hfile']
    by_cases hn : t.exists p = false
    · rw [dif_pos hn, dif_pos (exists_veiled h p ▸ hn)]
      exact sameVeil_create h hn _
    · have hn' : ¬ t'.exists p = false := by rwa [← exists_veiled h]
      rw [dif_neg hn, dif_neg hn']
      exact Or.inl ⟨_, rfl, rfl⟩

theorem sameVeil_unlink (h : t.veiled root = t'.veiled root) (p : Loc) : SameVeil root (t.unlink p) (t'.unlink p) := by
  unfold unlink
  by_cases hfile : t.isFile p = true
  · rw [dif_pos hfile, dif_pos (isFile_veiled h p ▸ hfile)]
    refine Or.inr ⟨_, _, rfl, rfl, ?_⟩
    rw [veiled_remove, veiled_remove, h]
  · have hfile' : ¬ t'.isFile p = true := by rwa [← isFile_veiled h]
    rw [dif_neg hfile, dif_neg hfile', exists_veiled h, lookupError_veiled h]
    split <;> exact Or.inl ⟨_, rfl, rfl⟩

theorem sameVeil_rmtree (h : t.veiled root = t'.veiled root) (p : Loc) : SameVeil root (t.rmtree p) (t'.rmtree p) := by
  unfold rmtree
  by_cases hp : p = []
  · rw [dif_pos hp, dif_pos hp]
    exact Or.inl ⟨_, rfl, rfl⟩
  · rw [dif_neg hp, dif_neg hp, isDir_veiled h, exists_veiled h, lookupError_veiled h]
    split
    · refine Or.inr ⟨_, _, rfl, rfl, ?_⟩
      rw [veiled_remove, veiled_remove, h]
    · split <;> exact Or.inl ⟨_, rfl, rfl⟩

/-- What is moved is not hidden, or cannot be moved. -/
theorem sameVeil_rename {a b : Loc} (h : t.veiled root = t'.veiled root) (ha : a <+: b ∨ ∀ q, a <+: q → ¬ root <+: q) :
    SameVeil root (t.rename a b) (t'.rename a b) := by
  unfold rename
  by_cases hmissing : t.exists a = false
  · rw [if_pos hmissing, if_pos (exists_veiled h a ▸ hmissing), lookupError_veiled h]
    exact Or.inl ⟨_, rfl, rfl⟩
  have hmissing' : ¬ t'.exists a = false := by rwa [← exists_veiled h]
  rw [if_neg hmissing, if_neg hmissing']
  by_cases hdir : t.isDir b.parent = true
  · have hdir' : t'.isDir b.parent = true := by rwa [← isDir_veiled h]
    rw [dif_pos hdir, dif_pos hdir']
    by_cases heq : a = b
    · rw [if_pos heq, if_pos heq]
      exact Or.inr ⟨t, t', rfl, rfl, h⟩
    rw [if_neg heq, if_neg heq]
    by_cases hab : a <+: b
    · rw [dif_pos hab, dif_pos hab]
      exact Or.inl ⟨_, rfl, rfl⟩
    rw [dif_neg hab, dif_neg hab]
    by_cases hba : b <+: a
    · rw [dif_pos hba, dif_pos hba]
      exact Or.inl ⟨_, rfl, rfl⟩
    rw [dif_neg hba, dif_neg hba]
    by_cases hname : IsName b.name
    · rw [dif_pos hname, dif_pos hname, ← isDir_veiled h, ← isDir_veiled h, ← isFile_veiled h, ← isFile_veiled h,
        ← isEmpty_below_veiled h]
      refine .ite _ (Or.inl ⟨_, rfl, rfl⟩) (.ite _ (Or.inl ⟨_, rfl, rfl⟩) (.ite _ (Or.inl ⟨_, rfl, rfl⟩) ?_))
      refine Or.inr ⟨_, _, rfl, rfl, ?_⟩
      rw [veiled_move (ha.resolve_left hab), veiled_move (ha.resolve_left hab), h]
    · rw [dif_neg hname, dif_neg hname]
      exact Or.inl ⟨_, rfl, rfl⟩
  · have hdir' : ¬ t'.isDir b.parent = true := by rwa [← isDir_veiled h]
    rw [dif_neg hdir, dif_neg hdir', lookupError_veiled h]
    exact Or.inl ⟨_, rfl, rfl⟩

end FileTree

namespace Disk

variable [RaisesOS ε] {root p : Loc}

/-- The trees differ only in the contents at and below a location. -/
def Veiled (root : Loc) (d d' : Disk α) : Prop := d.tree.veiled root = d'.tree.veiled root

omit [RaisesOS ε] in
theorem veiled_look {f : FileTree α → β} (hf : ∀ t t' : FileTree α, t.veiled root = t'.veiled root → f t = f t') :
    (look f : Eff (Disk α) ε β).Alike (Veiled root) := Eff.Alike.read fun d d' h => hf d.tree d'.tree h

theorem veiled_readFile (hp : ¬ root <+: p) : (readFile p : Eff (Disk α) ε α).Alike (Veiled root) := by
  intro d d' h
  unfold readFile
  rw [← FileTree.get_off h hp, FileTree.lookupError_veiled h]
  rcases d.tree.get p with _ | _ | x
  · exact ⟨rfl, h⟩
  · exact ⟨rfl, h⟩
  · exact ⟨rfl, h⟩

theorem veiled_call {ps : List Loc} {f : FileTree α → Except OSError (FileTree α)}
    (h : ∀ t t' : FileTree α, t.veiled root = t'.veiled root → FileTree.SameVeil root (f t) (f t')) :
    (call ps f : Eff (Disk α) ε Unit).Alike (Veiled root) := by
  intro d d' hveiled
  unfold call
  rcases h d.tree d'.tree hveiled with ⟨e, he, he'⟩ | ⟨u, u', hu, hu', hsame⟩
  · rw [he, he']
    exact ⟨rfl, hveiled⟩
  · rw [hu, hu']
    exact ⟨rfl, hsame⟩

theorem veiled_mkdir (p : Loc) : (mkdir p : Eff (Disk α) ε Unit).Alike (Veiled root) :=
  veiled_call fun _ _ h => FileTree.sameVeil_mkdir h p

theorem veiled_write (p : Loc) (x : α) : (write p x : Eff (Disk α) ε Unit).Alike (Veiled root) :=
  veiled_call fun _ _ h => FileTree.sameVeil_write h p x

theorem veiled_unlink (p : Loc) : (unlink p : Eff (Disk α) ε Unit).Alike (Veiled root) :=
  veiled_call fun _ _ h => FileTree.sameVeil_unlink h p

theorem veiled_rmtree (p : Loc) : (rmtree p : Eff (Disk α) ε Unit).Alike (Veiled root) :=
  veiled_call fun _ _ h => FileTree.sameVeil_rmtree h p

theorem veiled_rename {a b : Loc} (ha : a <+: b ∨ ∀ q, a <+: q → ¬ root <+: q) :
    (rename a b : Eff (Disk α) ε Unit).Alike (Veiled root) :=
  veiled_call fun _ _ h => FileTree.sameVeil_rename h ha

theorem veiled_mkdirExistOk (p : Loc) : (mkdirExistOk p : Eff (Disk α) ε Unit).Alike (Veiled root) := by
  intro d d' h
  simp only [mkdirExistOk, look, Eff.read_bind_run]
  rcases FileTree.sameVeil_mkdir h p with ⟨e, he, he'⟩ | ⟨u, u', hu, hu', _⟩
  · simp only [he, he', Eff.read_bind_run]
    rw [FileTree.isDir_veiled h]
    exact (Eff.Alike.pure ()).ite (Eff.Alike.raise _) d d' h
  · simp only [hu, hu']
    exact veiled_mkdir p d d' h

theorem veiled_mkdirsRev (rev : List String) : (mkdirsRev rev : Eff (Disk α) ε Unit).Alike (Veiled root) := by
  induction rev with
  | nil => exact veiled_mkdirExistOk []
  | cons c up ih =>
      intro d d' h
      by_cases hmissing : d.tree.mkdir (c :: up).reverse = .error .fileNotFound
      · have hmissing' : d'.tree.mkdir (c :: up).reverse = .error .fileNotFound := by
          rcases FileTree.sameVeil_mkdir h (c :: up).reverse with ⟨e, he, he'⟩ | ⟨u, _, hu, _⟩
          · rw [he', ← he, hmissing]
          · rw [hu] at hmissing
            cases hmissing
        rw [mkdirsRev_missing hmissing, mkdirsRev_missing hmissing']
        exact (ih.bind fun _ => veiled_mkdirExistOk _) d d' h
      · have hmissing' : d'.tree.mkdir (c :: up).reverse ≠ .error .fileNotFound := by
          rcases FileTree.sameVeil_mkdir h (c :: up).reverse with ⟨e, he, he'⟩ | ⟨_, u', _, hu', _⟩
          · rwa [he', ← he]
          · rw [hu']
            intro h
            cases h
        rw [mkdirsRev_not_missing hmissing, mkdirsRev_not_missing hmissing']
        exact veiled_mkdirExistOk _ d d' h

theorem veiled_mkdirs (p : Loc) : (mkdirs p : Eff (Disk α) ε Unit).Alike (Veiled root) := veiled_mkdirsRev _

end Disk

end Lib
