import Miniverse.Lib.Effect
import Miniverse.Lib.FileTree

/-!
# Programs that change a file tree

The state of such a program is the tree and the list of the locations that its calls created, wrote,
renamed or removed so far. Each call comes with what it does to that list, and with a frame rule: away
from the listed locations the tree is as it was.
-/

namespace Lib

/-- A file tree and the locations changed so far. -/
structure Disk (α : Type) where
  tree : FileTree α
  touched : List Loc

/-- Exceptions that carry the errors of system calls. -/
class RaisesOS (ε : Type) where
  os : OSError → ε

namespace Disk

variable {α ε : Type} [RaisesOS ε]

/-- A system call that changes the locations `ps` when it succeeds. -/
def call (ps : List Loc) (f : FileTree α → Except OSError (FileTree α)) : Eff (Disk α) ε Unit := fun d =>
  match f d.tree with
  | .ok t => (.ok (), ⟨t, d.touched ++ ps⟩)
  | .error e => (.error (RaisesOS.os e), d)

def mkdir (p : Loc) : Eff (Disk α) ε Unit := call [p] (·.mkdir p)

def write (p : Loc) (x : α) : Eff (Disk α) ε Unit := call [p] (·.write p x)

def unlink (p : Loc) : Eff (Disk α) ε Unit := call [p] (·.unlink p)

def rmtree (p : Loc) : Eff (Disk α) ε Unit := call [p] (·.rmtree p)

def rename (a b : Loc) : Eff (Disk α) ε Unit := call [a, b] (·.rename a b)

/-- Look at the tree. -/
def look {β : Type} (f : FileTree α → β) : Eff (Disk α) ε β := Eff.read fun d => f d.tree

/-- The content of a file. -/
def readFile (p : Loc) : Eff (Disk α) ε α := fun d =>
  match d.tree.get p with
  | some (.file x) => (.ok x, d)
  | some .dir => (.error (RaisesOS.os .isADirectory), d)
  | none => (.error (RaisesOS.os (d.tree.lookupError p)), d)

/-- `Path.mkdir(exist_ok=True)` -/
def mkdirExistOk (p : Loc) : Eff (Disk α) ε Unit := do
  match ← look (·.mkdir p) with
  | .ok _ => mkdir p
  | .error e => if ← look (·.isDir p) then pure () else Eff.raise (RaisesOS.os e)

/-- `Path.mkdir(parents=True, exist_ok=True)`, of the location whose names from the last to the first are
given. -/
def mkdirsRev : List String → Eff (Disk α) ε Unit
  | [] => mkdirExistOk []
  | c :: up => do
      match ← look (·.mkdir (c :: up).reverse) with
      | .error .fileNotFound => do
          mkdirsRev up
          mkdirExistOk (c :: up).reverse
      | _ => mkdirExistOk (c :: up).reverse

/-- `Path.mkdir(parents=True, exist_ok=True)` -/
def mkdirs (p : Loc) : Eff (Disk α) ε Unit := mkdirsRev p.reverse

/-! ## Rules for every relation -/

section Rules

variable {R : Disk α → Disk α → Prop} [Std.Refl R] [IsTrans (Disk α) R]

omit [IsTrans (Disk α) R] in
theorem within_call {ps : List Loc} {f : FileTree α → Except OSError (FileTree α)}
    (h : ∀ d t, f d.tree = .ok t → R d ⟨t, d.touched ++ ps⟩) : (call ps f : Eff (Disk α) ε Unit).Within R := by
  intro d
  unfold call
  split
  · exact h d _ ‹_›
  · exact Std.Refl.refl d

omit [IsTrans (Disk α) R] [RaisesOS ε] in
theorem within_look {β : Type} (f : FileTree α → β) : (look f : Eff (Disk α) ε β).Within R := Eff.Within.read _

omit [IsTrans (Disk α) R] in
theorem within_readFile (p : Loc) : (readFile p : Eff (Disk α) ε α).Within R := by
  intro d
  unfold readFile
  split <;> exact Std.Refl.refl d

theorem within_mkdirExistOk {p : Loc} (h : (mkdir p : Eff (Disk α) ε Unit).Within R) :
    (mkdirExistOk p : Eff (Disk α) ε Unit).Within R := by
  refine (within_look _).bind fun r => ?_
  cases r with
  | ok _ => exact h
  | error e => exact (within_look _).bind fun b => (Eff.Within.pure ()).ite (Eff.Within.raise _)

/-- What holds of making each directory on the way holds of making them all. -/
theorem within_mkdirsRev {rev : List String}
    (h : ∀ q, q <+: rev.reverse → (mkdir q : Eff (Disk α) ε Unit).Within R) :
    (mkdirsRev rev : Eff (Disk α) ε Unit).Within R := by
  induction rev with
  | nil => exact within_mkdirExistOk (h [] List.nil_prefix)
  | cons c up ih =>
      have hself := within_mkdirExistOk (h _ (List.prefix_refl _))
      have hup := ih fun q hq => h q (hq.trans (by simp))
      refine (within_look _).bind fun r => ?_
      split
      · exact hup.bind fun _ => hself
      · exact hself

theorem within_mkdirs {p : Loc} (h : ∀ q, q <+: p → (mkdir q : Eff (Disk α) ε Unit).Within R) :
    (mkdirs p : Eff (Disk α) ε Unit).Within R :=
  within_mkdirsRev (by simpa using h)

end Rules

/-! ## Frames -/

/-- The calls from `d` to `d'` extended the list of changed locations, and the tree is the same wherever no
new one lies at or above. -/
def Frame (d d' : Disk α) : Prop :=
  ∃ new, d'.touched = d.touched ++ new ∧ ∀ q, (∀ p ∈ new, ¬ p <+: q) → d'.tree.get q = d.tree.get q

instance : Std.Refl (Frame (α := α)) := ⟨fun d => ⟨[], by simp, fun _ _ => rfl⟩⟩

instance : IsTrans (Disk α) Frame where
  trans d₁ d₂ d₃ := by
    rintro ⟨new₁, h₁, hf₁⟩ ⟨new₂, h₂, hf₂⟩
    refine ⟨new₁ ++ new₂, by rw [h₂, h₁, List.append_assoc], fun q hq => ?_⟩
    rw [hf₂ q fun p hp => hq p (List.mem_append_right _ hp), hf₁ q fun p hp => hq p (List.mem_append_left _ hp)]

theorem Frame.subset {d d' : Disk α} (h : Frame d d') {p : Loc} (hp : p ∈ d.touched) : p ∈ d'.touched := by
  obtain ⟨new, hnew, _⟩ := h
  exact hnew ▸ List.mem_append_left _ hp

theorem frame_call {ps : List Loc} {f : FileTree α → Except OSError (FileTree α)}
    (h : ∀ t t', f t = .ok t' → ∀ q, (∀ p ∈ ps, ¬ p <+: q) → t'.get q = t.get q) :
    (call ps f : Eff (Disk α) ε Unit).Within Frame :=
  within_call fun d t ht => ⟨ps, rfl, h d.tree t ht⟩

theorem ne_of_not_above {p q : Loc} (h : ¬ p <+: q) : q ≠ p := by
  rintro rfl
  exact h (List.prefix_refl _)

theorem frame_mkdir (p : Loc) : (mkdir p : Eff (Disk α) ε Unit).Within Frame := by
  refine frame_call fun t t' h q hq => ?_
  rw [(FileTree.mkdir_ok h).2.2, if_neg (ne_of_not_above (hq p (by simp)))]

theorem frame_write (p : Loc) (x : α) : (write p x : Eff (Disk α) ε Unit).Within Frame := by
  refine frame_call fun t t' h q hq => ?_
  rw [(FileTree.write_ok h).2.2, if_neg (ne_of_not_above (hq p (by simp)))]

theorem frame_unlink (p : Loc) : (unlink p : Eff (Disk α) ε Unit).Within Frame := by
  refine frame_call fun t t' h q hq => ?_
  rw [(FileTree.unlink_ok h).2, if_neg (hq p (by simp))]

theorem frame_rename (a b : Loc) : (rename a b : Eff (Disk α) ε Unit).Within Frame := by
  refine frame_call fun t t' h q hq => ?_
  by_cases hab : a = b
  · subst hab
    rw [FileTree.rename_same h]
  · rw [(FileTree.rename_ok h hab).2.2.2.2, if_neg (hq b (by simp)), if_neg (hq a (by simp))]

theorem frame_mkdirs (p : Loc) : (mkdirs p : Eff (Disk α) ε Unit).Within Frame :=
  within_mkdirs fun q _ => frame_mkdir q

/-- The tree is the same at every location that does not satisfy `S`. -/
def SameOff (S : Loc → Prop) (d d' : Disk α) : Prop := ∀ q, ¬ S q → d'.tree.get q = d.tree.get q

instance (S : Loc → Prop) : Std.Refl (SameOff (α := α) S) := ⟨fun _ _ _ => rfl⟩

instance (S : Loc → Prop) : IsTrans (Disk α) (SameOff S) := ⟨fun _ _ _ h₁ h₂ q hq => (h₂ q hq).trans (h₁ q hq)⟩

section SameOff

variable {S : Loc → Prop}

theorem sameOff_mkdir {p : Loc} (h : S p) : (mkdir p : Eff (Disk α) ε Unit).Within (SameOff S) := by
  refine within_call fun d t ht q hq => ?_
  have hne : q ≠ p := fun hqp => hq (hqp ▸ h)
  rw [(FileTree.mkdir_ok ht).2.2, if_neg hne]

theorem sameOff_mkdirs {p : Loc} (h : ∀ q, q <+: p → S q) : (mkdirs p : Eff (Disk α) ε Unit).Within (SameOff S) :=
  within_mkdirs fun q hq => sameOff_mkdir (h q hq)

theorem sameOff_write {p : Loc} {x : α} (h : S p) : (write p x : Eff (Disk α) ε Unit).Within (SameOff S) := by
  refine within_call fun d t ht q hq => ?_
  have hne : q ≠ p := fun hqp => hq (hqp ▸ h)
  rw [(FileTree.write_ok ht).2.2, if_neg hne]

/-- Below a file there is nothing. -/
theorem sameOff_unlink {p : Loc} (h : S p) : (unlink p : Eff (Disk α) ε Unit).Within (SameOff S) := by
  refine within_call fun d t ht q hq => ?_
  obtain ⟨hfile, hget⟩ := FileTree.unlink_ok ht
  rw [hget]
  split
  · rename_i hpq
    refine (FileTree.exists_eq_false.mp ?_).symm
    by_contra hex
    have hdir := FileTree.isDir_above hpq (fun hpq => hq (hpq ▸ h)) (by simpa using hex)
    rw [FileTree.isDir_eq_false_of_isFile hfile] at hdir
    cases hdir
  · rfl

theorem sameOff_rmtree {p : Loc} (h : ∀ q, p <+: q → S q) : (rmtree p : Eff (Disk α) ε Unit).Within (SameOff S) := by
  refine within_call fun d t ht q hq => ?_
  rw [(FileTree.rmtree_ok ht).2, if_neg fun hpq => hq (h q hpq)]

/-- What is renamed is in `S`, or is above its new location and cannot be renamed. -/
theorem sameOff_rename {a b : Loc} (ha : a <+: b ∨ ∀ q, a <+: q → S q) (hb : ∀ q, b <+: q → S q) :
    (rename a b : Eff (Disk α) ε Unit).Within (SameOff S) := by
  refine within_call fun d t ht q hq => ?_
  by_cases hab : a = b
  · subst hab
    rw [FileTree.rename_same ht]
  · obtain ⟨_, hnot, _, _, hget⟩ := FileTree.rename_ok ht hab
    rw [hget, if_neg fun h => hq (hb q h), if_neg fun h => hq (ha.resolve_left hnot q h)]

/-- The files at the locations that do not satisfy `S` keep their contents. -/
def FilesKept (S : Loc → Prop) (d d' : Disk α) : Prop :=
  ∀ q x, ¬ S q → d.tree.get q = some (.file x) → d'.tree.get q = some (.file x)

instance (S : Loc → Prop) : Std.Refl (FilesKept (α := α) S) := ⟨fun _ _ _ _ h => h⟩

instance (S : Loc → Prop) : IsTrans (Disk α) (FilesKept S) := ⟨fun _ _ _ h₁ h₂ q x hq h => h₂ q x hq (h₁ q x hq h)⟩

theorem SameOff.filesKept {d d' : Disk α} (h : SameOff S d d') : FilesKept S d d' := fun q _ hq hx => (h q hq).trans hx

theorem FilesKept.mono {S' : Loc → Prop} {d d' : Disk α} (h : FilesKept S d d') (hS : ∀ q, S q → S' q) :
    FilesKept S' d d' := fun q x hq => h q x fun hSq => hq (hS q hSq)

/-- A directory is made only where nothing is. -/
theorem filesKept_mkdir (S : Loc → Prop) (p : Loc) : (mkdir p : Eff (Disk α) ε Unit).Within (FilesKept S) := by
  refine within_call fun d t ht r x _ hx => ?_
  obtain ⟨hnew, _, hget⟩ := FileTree.mkdir_ok ht
  have hne : r ≠ p := by
    rintro rfl
    rw [FileTree.exists_eq_false.mp hnew] at hx
    cases hx
  rw [hget, if_neg hne]
  exact hx

theorem filesKept_mkdirs (S : Loc → Prop) (p : Loc) : (mkdirs p : Eff (Disk α) ε Unit).Within (FilesKept S) :=
  within_mkdirs fun q _ => filesKept_mkdir S q

theorem filesKept_write {p : Loc} {x : α} (h : S p) : (write p x : Eff (Disk α) ε Unit).Within (FilesKept S) :=
  fun d => (sameOff_write h d).filesKept

theorem filesKept_unlink {p : Loc} (h : S p) : (unlink p : Eff (Disk α) ε Unit).Within (FilesKept S) :=
  fun d => (sameOff_unlink h d).filesKept

theorem filesKept_rename {a b : Loc} (ha : ∀ q, a <+: q → S q) (hb : ∀ q, b <+: q → S q) :
    (rename a b : Eff (Disk α) ε Unit).Within (FilesKept S) :=
  fun d => (sameOff_rename (Or.inr ha) hb d).filesKept

/-- Below a free location there is nothing. -/
theorem not_below_free {t : FileTree α} {p q : Loc} {n : Node α} (hfree : t.exists p = false) (hq : t.get q = some n) :
    ¬ p <+: q := by
  intro hpq
  have hex : t.exists q = true := FileTree.exists_iff.mpr ⟨n, hq⟩
  by_cases heq : p = q
  · rw [heq, hex] at hfree
    cases hfree
  · rw [FileTree.exists_of_isDir (FileTree.isDir_above hpq heq hex)] at hfree
    cases hfree

/-- Where nothing was there was no file. -/
theorem FilesKept.of_fresh {p : Loc} {d d' : Disk α} (hnew : d.tree.exists p = false)
    (h : FilesKept (fun q => p <+: q ∨ S q) d d') : FilesKept S d d' := by
  intro q x hq hx
  refine h q x (fun hor => ?_) hx
  rcases hor with hpq | hS
  · exact not_below_free hnew hx hpq
  · exact hq hS

/-- What was at or below the one location is at or below the other, and the other files keep their contents. -/
def Moved (a b : Loc) (d d' : Disk α) : Prop :=
  ∀ q x, d.tree.get q = some (.file x) →
    d'.tree.get (if a <+: q then b ++ q.drop a.length else q) = some (.file x)

theorem rename_moved {a b : Loc} {d d' : Disk α} (hnew : d.tree.exists b = false)
    (h : (rename a b : Eff (Disk α) ε Unit) d = (.ok (), d')) : Moved a b d d' := by
  unfold rename call at h
  split at h
  · rename_i t ht
    cases h
    intro q x hx
    have hbq := not_below_free hnew hx
    replace ht : d.tree.rename a b = .ok t := ht
    have hab : a ≠ b := by
      rintro rfl
      obtain ⟨e, he⟩ := FileTree.rename_fails (b := a) hnew
      rw [he] at ht
      cases ht
    have hget := (FileTree.rename_ok ht hab).2.2.2.2
    by_cases haq : a <+: q
    · obtain ⟨r, rfl⟩ := haq
      rw [if_pos (List.prefix_append a r), List.drop_left, hget, if_pos (List.prefix_append b r), List.drop_left]
      exact hx
    · rw [if_neg haq, hget, if_neg hbq, if_neg haq]
      exact hx
  · cases h

theorem write_returned {p : Loc} {x : α} {d d' : Disk α} {a : Unit} (h : (write p x : Eff (Disk α) ε Unit) d = (.ok a, d')) :
    d'.tree.get p = some (.file x) := by
  unfold write call at h
  split at h
  · cases h
    rw [(FileTree.write_ok ‹_›).2.2, if_pos rfl]
  · cases h

end SameOff

/-! ## Confinement -/

/-- Every changed location satisfies `S`. -/
def Confined (S : Loc → Prop) (d : Disk α) : Prop := ∀ p ∈ d.touched, S p

variable {S : Loc → Prop}

theorem keeps_call {ps : List Loc} {f : FileTree α → Except OSError (FileTree α)}
    (h : ∀ t t', f t = .ok t' → ∀ p ∈ ps, S p) : (call ps f : Eff (Disk α) ε Unit).Keeps (Confined S) := by
  refine within_call fun d t ht hd p hp => ?_
  rcases List.mem_append.mp hp with hp | hp
  · exact hd p hp
  · exact h _ _ ht p hp

theorem keeps_write {p : Loc} {x : α} (h : S p) : (write p x : Eff (Disk α) ε Unit).Keeps (Confined S) :=
  keeps_call fun _ _ _ _ hq => List.mem_singleton.mp hq ▸ h

theorem keeps_unlink {p : Loc} (h : S p) : (unlink p : Eff (Disk α) ε Unit).Keeps (Confined S) :=
  keeps_call fun _ _ _ _ hq => List.mem_singleton.mp hq ▸ h

theorem keeps_rmtree {p : Loc} (h : S p) : (rmtree p : Eff (Disk α) ε Unit).Keeps (Confined S) :=
  keeps_call fun _ _ _ _ hq => List.mem_singleton.mp hq ▸ h

theorem keeps_rename {a b : Loc} (ha : S a) (hb : S b) : (rename a b : Eff (Disk α) ε Unit).Keeps (Confined S) := by
  refine keeps_call fun _ _ _ q hq => ?_
  rcases List.mem_pair.mp hq with rfl | rfl
  · exact ha
  · exact hb

/-! ## Working below a directory -/

/-- The directory `r` is there, and every changed location satisfies `S`. -/
def Inside (r : Loc) (S : Loc → Prop) (d : Disk α) : Prop := d.tree.isDir r = true ∧ Confined S d

variable {r : Loc}

/-- A call that leaves directories alone and changes locations of `S`. -/
theorem inside_call {ps : List Loc} {f : FileTree α → Except OSError (FileTree α)}
    (h : ∀ t t', t.isDir r = true → f t = .ok t' → t'.isDir r = true ∧ ∀ p ∈ ps, S p) :
    (call ps f : Eff (Disk α) ε Unit).Keeps (Inside r S) := by
  refine within_call fun d t ht hd => ?_
  obtain ⟨hdir, hS⟩ := h _ _ hd.1 ht
  refine ⟨hdir, fun p hp => ?_⟩
  rcases List.mem_append.mp hp with hp | hp
  · exact hd.2 p hp
  · exact hS p hp

theorem inside_write {p : Loc} {x : α} (h : S p) : (write p x : Eff (Disk α) ε Unit).Keeps (Inside r S) := by
  refine inside_call fun t t' hr ht => ?_
  obtain ⟨hp, _, hget⟩ := FileTree.write_ok ht
  refine ⟨?_, by simpa using h⟩
  have hne : r ≠ p := by
    rintro rfl
    simp [hp] at hr
  rw [FileTree.isDir_iff, hget, if_neg hne]
  exact FileTree.isDir_iff.mp hr

/-- A directory that can be made is another one than `r`, and not above it. -/
theorem inside_mkdir {p : Loc} (h : p ≠ r → ¬ p <+: r → S p) :
    (mkdir p : Eff (Disk α) ε Unit).Keeps (Inside r S) := by
  refine inside_call fun t t' hr ht => ?_
  obtain ⟨hnew, _, hget⟩ := FileTree.mkdir_ok ht
  have hne : r ≠ p := by
    rintro rfl
    simp [FileTree.exists_of_isDir hr] at hnew
  refine ⟨?_, ?_⟩
  · rw [FileTree.isDir_iff, hget, if_neg hne]
    exact FileTree.isDir_iff.mp hr
  · simp only [List.mem_singleton, forall_eq]
    refine h (Ne.symm hne) fun hp => ?_
    have := FileTree.exists_of_isDir (FileTree.isDir_above hp (Ne.symm hne) (FileTree.exists_of_isDir hr))
    simp [this] at hnew

/-- Making directories below an existing directory changes locations strictly below it only. -/
theorem inside_mkdirs {p : Loc} (hp : r <+: p) (hS : ∀ q, r <+: q → q ≠ r → q <+: p → S q) :
    (mkdirs p : Eff (Disk α) ε Unit).Keeps (Inside r S) := by
  refine within_mkdirs fun q hq => inside_mkdir fun hne hnot => hS q ?_ hne hq
  exact (List.prefix_or_prefix_of_prefix hp hq).resolve_right hnot

/-! ## What making directories leads to -/

theorem call_ok {ps : List Loc} {f : FileTree α → Except OSError (FileTree α)} {d : Disk α} {t : FileTree α}
    (h : f d.tree = .ok t) : (call ps f : Eff (Disk α) ε Unit) d = (.ok (), ⟨t, d.touched ++ ps⟩) := by
  simp only [call, h]

theorem call_error {ps : List Loc} {f : FileTree α → Except OSError (FileTree α)} {d : Disk α} {e : OSError}
    (h : f d.tree = .error e) : (call ps f : Eff (Disk α) ε Unit) d = (.error (RaisesOS.os e), d) := by
  simp only [call, h]

/-- The calls from `d` to `d'` made directories and nothing else: every new location is in the list. -/
def Made (d d' : Disk α) : Prop :=
  d.touched ⊆ d'.touched ∧ (∀ q, d'.tree.isFile q = d.tree.isFile q) ∧
    ∀ q, d'.tree.exists q = true → d.tree.exists q = true ∨ q ∈ d'.touched

instance : Std.Refl (Made (α := α)) := ⟨fun _ => ⟨fun _ h => h, fun _ => rfl, fun _ h => Or.inl h⟩⟩

instance : IsTrans (Disk α) Made where
  trans d₁ d₂ d₃ := by
    rintro ⟨hsub₁, hfile₁, hnew₁⟩ ⟨hsub₂, hfile₂, hnew₂⟩
    refine ⟨fun p hp => hsub₂ (hsub₁ hp), fun q => (hfile₂ q).trans (hfile₁ q), fun q hq => ?_⟩
    rcases hnew₂ q hq with hq | hq
    · exact (hnew₁ q hq).imp id fun h => hsub₂ h
    · exact Or.inr hq

theorem made_mkdir (p : Loc) : (mkdir p : Eff (Disk α) ε Unit).Within Made := by
  refine within_call fun d t ht => ?_
  obtain ⟨hnew, _, hget⟩ := FileTree.mkdir_ok ht
  refine ⟨fun q hq => List.mem_append_left _ hq, fun q => ?_, fun q hq => ?_⟩
  · by_cases h : q = p
    · subst h
      simp [FileTree.isFile, hget, FileTree.exists_eq_false.mp hnew]
    · simp [FileTree.isFile, hget, h]
  · by_cases h : q = p
    · exact Or.inr (by simp [h])
    · exact Or.inl (by simpa [FileTree.exists, hget, h] using hq)

theorem made_mkdirs (p : Loc) : (mkdirs p : Eff (Disk α) ε Unit).Within Made :=
  within_mkdirs fun q _ => made_mkdir q

theorem mkdirsRev_missing {c : String} {up : List String} {d : Disk α}
    (h : d.tree.mkdir (c :: up).reverse = .error .fileNotFound) : (mkdirsRev (c :: up) : Eff (Disk α) ε Unit) d =
      (mkdirsRev up >>= fun _ => mkdirExistOk (c :: up).reverse) d := by
  simp only [mkdirsRev, look, Eff.read_bind_run, h]

theorem mkdirsRev_not_missing {c : String} {up : List String} {d : Disk α}
    (h : d.tree.mkdir (c :: up).reverse ≠ .error .fileNotFound) : (mkdirsRev (c :: up) : Eff (Disk α) ε Unit) d =
      mkdirExistOk (c :: up).reverse d := by
  simp only [mkdirsRev, look, Eff.read_bind_run]

/-- When it returns, the directory is there. -/
theorem isDir_of_mkdirExistOk {d d' : Disk α} {p : Loc}
    (h : (mkdirExistOk p : Eff (Disk α) ε Unit) d = (.ok (), d')) : d'.tree.isDir p = true := by
  simp only [mkdirExistOk, look, Eff.read_bind_run] at h
  rcases hm : d.tree.mkdir p with e | t
  · simp only [hm, Eff.read_bind_run] at h
    by_cases hdir : d.tree.isDir p = true
    · simp only [hdir, if_true, Eff.pure_run, Prod.mk.injEq, true_and] at h
      exact h ▸ hdir
    · simp [hdir] at h
  · simp only [hm] at h
    have h := (call_ok hm).symm.trans h
    simp only [Prod.mk.injEq, true_and] at h
    rw [← h, FileTree.isDir_iff, (FileTree.mkdir_ok hm).2.2, if_pos rfl]

theorem isDir_of_mkdirs {d d' : Disk α} {p : Loc} (h : (mkdirs p : Eff (Disk α) ε Unit) d = (.ok (), d')) :
    d'.tree.isDir p = true := by
  unfold mkdirs at h
  rcases hrev : p.reverse with _ | ⟨c, up⟩
  · have hp : p = [] := by simpa using hrev
    rw [hrev] at h
    exact hp ▸ isDir_of_mkdirExistOk h
  · have hp : p = (c :: up).reverse := by rw [← hrev, List.reverse_reverse]
    rw [hrev] at h
    rw [hp]
    by_cases hm : d.tree.mkdir (c :: up).reverse = .error .fileNotFound
    · rw [mkdirsRev_missing hm] at h
      obtain ⟨_, _, _, h⟩ := Eff.bind_ok h
      exact isDir_of_mkdirExistOk h
    · rw [mkdirsRev_not_missing hm] at h
      exact isDir_of_mkdirExistOk h

/-- No file can be written over a directory. -/
theorem write_fails_of_isDir {p : Loc} (x : α) {d : Disk α} (h : d.tree.isDir p = true) :
    (write p x : Eff (Disk α) ε Unit) d = (.error (RaisesOS.os .isADirectory), d) := by
  have hnofile : d.tree.isFile p = false := FileTree.isFile_eq_false_above (List.prefix_refl _) h
  exact call_error (by simp [FileTree.write, hnofile, FileTree.exists_of_isDir h])

/-- No new file can be written where there is no directory. -/
theorem write_fails_of_parent {p : Loc} (x : α) {d : Disk α} (hnew : d.tree.exists p = false)
    (hdir : d.tree.isDir p.parent = false) :
    (write p x : Eff (Disk α) ε Unit) d = (.error (RaisesOS.os (d.tree.lookupError p)), d) := by
  have hnofile : d.tree.isFile p = false := by simp [FileTree.isFile, FileTree.exists_eq_false.mp hnew]
  exact call_error (by simp [FileTree.write, FileTree.create, hnofile, hnew, hdir])

/-- An existing directory is left alone. -/
theorem mkdirExistOk_of_isDir {d : Disk α} {p : Loc} (h : d.tree.isDir p = true) :
    (mkdirExistOk p : Eff (Disk α) ε Unit) d = (.ok (), d) := by
  have hm : d.tree.mkdir p = .error .fileExists := by
    simp [FileTree.mkdir, FileTree.exists_of_isDir h]
  simp only [mkdirExistOk, look, Eff.read_bind_run, hm, h, if_true, Eff.pure_run]

/-- An existing directory needs nothing made. -/
theorem mkdirs_of_isDir {p : Loc} {d : Disk α} (h : d.tree.isDir p = true) :
    (mkdirs p : Eff (Disk α) ε Unit) d = (.ok (), d) := by
  unfold mkdirs
  rcases hrev : p.reverse with _ | ⟨c, up⟩
  · have hp : p = [] := by simpa using hrev
    exact mkdirExistOk_of_isDir (hp ▸ h)
  · have hp : (c :: up).reverse = p := by rw [← hrev, List.reverse_reverse]
    rw [mkdirsRev_not_missing, hp]
    · exact mkdirExistOk_of_isDir h
    · simp [hp, FileTree.mkdir, FileTree.exists_of_isDir h]

/-- What is no file and can be made next to others becomes a directory. -/
theorem mkdirExistOk_succeeds {d : Disk α} {p : Loc} (hfile : d.tree.isFile p = false)
    (hpar : d.tree.isDir p.parent = true) (hname : p ≠ [] → IsName p.name) :
    ∃ d', (mkdirExistOk p : Eff (Disk α) ε Unit) d = (.ok (), d') := by
  by_cases hex : d.tree.exists p = true
  · exact ⟨d, mkdirExistOk_of_isDir (by simpa [FileTree.exists_eq, hfile] using hex)⟩
  · have hnew : d.tree.exists p = false := by simpa using hex
    have hne : p ≠ [] := by
      rintro rfl
      simp [FileTree.exists, FileTree.get_nil] at hnew
    obtain ⟨t, ht⟩ := FileTree.mkdir_succeeds hnew hpar (hname hne)
    refine ⟨⟨t, d.touched ++ [p]⟩, ?_⟩
    simp only [mkdirExistOk, look, Eff.read_bind_run, ht]
    exact call_ok ht

/-- Without a file at or above the location, the missing directories can be made. -/
theorem mkdirsRev_succeeds {rev : List String} (hname : ∀ c ∈ rev, IsName c) {d : Disk α}
    (hfile : ∀ q, q <+: rev.reverse → d.tree.isFile q = false) :
    ∃ d', (mkdirsRev rev : Eff (Disk α) ε Unit) d = (.ok (), d') := by
  induction rev generalizing d with
  | nil => exact ⟨d, mkdirExistOk_of_isDir (FileTree.isDir_iff.mpr d.tree.get_nil)⟩
  | cons c up ih =>
      have hself : (c :: up).reverse = up.reverse ++ [c] := List.reverse_cons
      have hup : up.reverse <+: (c :: up).reverse := hself ▸ List.prefix_append _ _
      have hlast : (c :: up).reverse ≠ [] → IsName (Loc.name (c :: up).reverse) := fun _ => by
        rw [hself, Loc.name_concat]
        exact hname c List.mem_cons_self
      by_cases herr : d.tree.mkdir (c :: up).reverse = .error .fileNotFound
      · -- the directory above is made first, and that makes no file
        obtain ⟨d₁, hd₁⟩ := ih (fun x hx => hname x (List.mem_cons_of_mem _ hx)) fun q hq => hfile q (hq.trans hup)
        have hmade : Made d d₁ := by
          have : (mkdirsRev up : Eff (Disk α) ε Unit).Within Made := within_mkdirsRev fun q _ => made_mkdir q
          have := this d
          rwa [hd₁] at this
        rw [mkdirsRev_missing herr, Eff.bind_run_ok hd₁]
        refine mkdirExistOk_succeeds ((hmade.2.1 _).trans (hfile _ (List.prefix_refl _))) ?_ hlast
        rw [hself, Loc.parent_concat]
        exact isDir_of_mkdirs (p := up.reverse) (by simpa [mkdirs] using hd₁)
      · rw [mkdirsRev_not_missing herr]
        refine mkdirExistOk_succeeds (hfile _ (List.prefix_refl _)) ?_ hlast
        by_contra hpar
        refine herr ?_
        have hnew : d.tree.exists (c :: up).reverse = false := by
          by_contra hex
          exact hpar (FileTree.isDir_parent (by simpa using hex))
        have hnofile : ((List.range (c :: up).reverse.length).any fun k =>
            d.tree.isFile ((c :: up).reverse.take k)) = false := by
          simp only [List.any_eq_false, Bool.not_eq_true]
          exact fun k _ => hfile _ (List.take_prefix _ _)
        simp only [FileTree.mkdir, hnew, dif_pos, FileTree.create, hpar, FileTree.lookupError, hnofile]
        rfl

/-- Without a file at or above the location, it becomes a directory, and what was missing on the way is in
the list. -/
theorem mkdirs_succeeds {p : Loc} (hname : ∀ c ∈ p, IsName c) {d : Disk α}
    (hfile : ∀ q, q <+: p → d.tree.isFile q = false) :
    ∃ d', (mkdirs p : Eff (Disk α) ε Unit) d = (.ok (), d') ∧
      ∀ q, q <+: p → d.tree.exists q = false → q ∈ d'.touched := by
  obtain ⟨d', hd'⟩ : ∃ d', (mkdirs p : Eff (Disk α) ε Unit) d = (.ok (), d') :=
    mkdirsRev_succeeds (by simpa using hname) (by simpa using hfile)
  refine ⟨d', hd', fun q hq hmiss => ?_⟩
  have hmade : Made d d' := by
    have := made_mkdirs (ε := ε) p d
    rwa [show (mkdirs p : Eff (Disk α) ε Unit) d = (.ok (), d') from hd'] at this
  have hdir := isDir_of_mkdirs (p := p) hd'
  have hex : d'.tree.exists q = true := by
    by_cases h : q = p
    · exact h ▸ FileTree.exists_of_isDir hdir
    · exact FileTree.exists_of_isDir (FileTree.isDir_above hq h (FileTree.exists_of_isDir hdir))
  rcases hmade.2.2 q hex with h | h
  · rw [hmiss] at h
    cases h
  · exact h

/-- Exactly the location and what is above it become directories. -/
theorem mkdirs_exact {p : Loc} (hname : ∀ c ∈ p, IsName c) {d : Disk α} (hfile : ∀ q, q <+: p → d.tree.isFile q = false) :
    ∃ d', (mkdirs p : Eff (Disk α) ε Unit) d = (.ok (), d') ∧
      ∀ q, d'.tree.get q = if q <+: p then some .dir else d.tree.get q := by
  obtain ⟨d', hrun, _⟩ := mkdirs_succeeds (ε := ε) hname hfile
  refine ⟨d', hrun, fun q => ?_⟩
  have hdir := isDir_of_mkdirs hrun
  by_cases hq : q <+: p
  · rw [if_pos hq]
    by_cases hne : q = p
    · exact FileTree.isDir_iff.mp (hne ▸ hdir)
    · exact FileTree.isDir_iff.mp (FileTree.isDir_above hq hne (FileTree.exists_of_isDir hdir))
  · rw [if_neg hq]
    have hsame := sameOff_mkdirs (ε := ε) (S := (· <+: p)) (p := p) (fun _ h => h) d
    rw [hrun] at hsame
    exact hsame q hq

/-- A free location in an existing directory. -/
theorem mkdirs_new {p : Loc} (hname : ∀ c ∈ p, IsName c) {d : Disk α} (hnew : d.tree.exists p = false)
    (hdir : d.tree.isDir p.parent = true) :
    ∃ d', (mkdirs p : Eff (Disk α) ε Unit) d = (.ok (), d') ∧
      ∀ q, d'.tree.get q = if q <+: p then some .dir else d.tree.get q := by
  refine mkdirs_exact hname fun q hq => ?_
  rcases Loc.eq_nil_or_concat p with rfl | ⟨r, c, rfl⟩
  · rw [List.prefix_nil.mp hq]
    simp [FileTree.isFile, FileTree.get_nil]
  · rw [Loc.parent_concat] at hdir
    rcases List.prefix_concat_iff.mp hq with rfl | hq
    · simp [FileTree.isFile, FileTree.exists_eq_false.mp hnew]
    · exact FileTree.isFile_eq_false_above hq hdir

/-- A new file in an existing directory. -/
theorem write_new {p : Loc} (x : α) {d : Disk α} (hnew : d.tree.exists p = false) (hdir : d.tree.isDir p.parent = true)
    (hname : IsName p.name) : ∃ d', (write p x : Eff (Disk α) ε Unit) d = (.ok (), d') ∧
      ∀ q, d'.tree.get q = if q = p then some (.file x) else d.tree.get q := by
  obtain ⟨t, ht⟩ := FileTree.write_succeeds (x := x) hnew hdir hname
  exact ⟨_, call_ok ht, (FileTree.write_ok ht).2.2⟩

/-- What is in a new file tells what was written. -/
theorem write_new_injective {p : Loc} {x y : α} {d : Disk α} (hnew : d.tree.exists p = false) (hdir : d.tree.isDir p.parent = true)
    (hname : IsName p.name) (h : (write p x : Eff (Disk α) ε Unit) d = write p y d) : x = y := by
  obtain ⟨d', hx, hget⟩ := write_new (ε := ε) x hnew hdir hname
  obtain ⟨d'', hy, hget'⟩ := write_new (ε := ε) y hnew hdir hname
  obtain rfl : d' = d'' := (Prod.mk.inj (hx.symm.trans (h.trans hy))).2
  have hsame := (hget p).symm.trans (hget' p)
  rw [if_pos rfl, if_pos rfl] at hsame
  exact Node.file.inj (Option.some.inj hsame)

/-- A new directory in an existing one is made. -/
theorem mkdirs_of_parent {p : Loc} {c : String} {d : Disk α} (hp : d.tree.isDir p = true) (hc : IsName c)
    (hnew : d.tree.exists (p ++ [c]) = false) :
    ∃ d', (mkdirs (p ++ [c]) : Eff (Disk α) ε Unit) d = (.ok (), d') ∧ p ++ [c] ∈ d'.touched := by
  have hname : ∀ x ∈ p ++ [c], IsName x := by
    intro x hx
    rcases List.mem_append.mp hx with hx | hx
    · exact FileTree.isName_of_exists (FileTree.exists_of_isDir hp) x hx
    · exact List.mem_singleton.mp hx ▸ hc
  obtain ⟨d', hd', htouched⟩ := mkdirs_succeeds (ε := ε) hname (d := d) fun q hq => by
    rcases List.prefix_concat_iff.mp hq with rfl | hq
    · simp [FileTree.isFile, FileTree.exists_eq_false.mp hnew]
    · exact FileTree.isFile_eq_false_above hq hp
  exact ⟨d', hd', htouched _ (List.prefix_refl _) hnew⟩

/-- A file that is there gets its new content. -/
theorem write_existing {p : Loc} (x : α) {d : Disk α} (hfile : d.tree.isFile p = true) :
    ∃ d', (write p x : Eff (Disk α) ε Unit) d = (.ok (), d') ∧
      ∀ q, d'.tree.get q = if q = p then some (.file x) else d.tree.get q := by
  have hwrite : d.tree.write p x = .ok (d.tree.setContent p x hfile) := by
    rw [FileTree.write, dif_pos hfile]
  exact ⟨_, call_ok hwrite, (FileTree.write_ok hwrite).2.2⟩

/-- Under a file no directory can be made. -/
theorem mkdirs_fails {p q : Loc} (hq : q <+: p) (hne : q ≠ p) {d : Disk α} (hfile : d.tree.isFile q = true) :
    ∃ e, (mkdirs p : Eff (Disk α) ε Unit) d = (.error e, d) := by
  have hmiss : d.tree.exists p = false := by
    by_contra hex
    have := FileTree.isDir_above hq hne (by simpa using hex)
    simp [FileTree.isDir_eq_false_of_isFile hfile] at this
  have hne' : p ≠ [] := by
    rintro rfl
    exact hne (List.prefix_nil.mp hq)
  have hpar : d.tree.isDir p.parent = false := by
    by_contra hdir
    have hdir : d.tree.isDir p.parent = true := by simpa using hdir
    have hq' : q <+: p.parent := Loc.prefix_parent hq (Ne.symm hne)
    by_cases h : q = p.parent
    · rw [← h, FileTree.isDir_eq_false_of_isFile hfile] at hdir
      cases hdir
    · have := FileTree.isDir_above hq' h (FileTree.exists_of_isDir hdir)
      simp [FileTree.isDir_eq_false_of_isFile hfile] at this
  have hany : ((List.range p.length).any fun k => d.tree.isFile (p.take k)) = true := by
    refine List.any_eq_true.mpr ⟨q.length, List.mem_range.mpr ?_, ?_⟩
    · exact Nat.lt_of_le_of_ne hq.length_le fun h => hne (hq.eq_of_length h)
    · rw [← List.prefix_iff_eq_take.mp hq]
      exact hfile
  have hm : d.tree.mkdir p = .error .notADirectory := by
    simp [FileTree.mkdir, hmiss, FileTree.create, hpar, FileTree.lookupError, hany]
  have hdirp : d.tree.isDir p = false := by simp [FileTree.isDir, FileTree.exists_eq_false.mp hmiss]
  refine ⟨RaisesOS.os .notADirectory, ?_⟩
  obtain ⟨c, up, hrev⟩ := List.exists_cons_of_ne_nil (l := p.reverse) (by simpa using hne')
  have hp : (c :: up).reverse = p := by rw [← hrev, List.reverse_reverse]
  rw [mkdirs, hrev, mkdirsRev_not_missing (by rw [hp, hm]; simp), hp]
  simp only [look, Eff.read_bind_run, hm, mkdirExistOk, hdirp, Bool.false_eq_true, if_false, Eff.raise_run]

end Disk

end Lib
