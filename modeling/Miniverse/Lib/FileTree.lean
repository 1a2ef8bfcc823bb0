import Mathlib.Data.List.Induction
import Mathlib.Data.List.Nodup
import Mathlib.Data.List.Perm.Subperm
import Miniverse.Lib.Posix

/-!
# File trees of directories and regular files

A tree is the list of its entries, in the order in which the system lists them. Its fields say what every
tree has: one entry at a location, a root directory, a directory above every entry, proper names. The
operations are the system calls a program makes, with the errors they return.
-/

namespace Lib

inductive Node (α : Type) where
  | dir
  | file (content : α)
deriving DecidableEq, Repr

inductive OSError where
  | fileNotFound
  | fileExists
  | notADirectory
  | isADirectory
  | notEmpty
  | invalidArgument
  | sameFile
deriving DecidableEq, Repr

structure FileTree (α : Type) where
  entries : List (Loc × Node α)
  nodup : (entries.map Prod.fst).Nodup
  root_dir : ([], .dir) ∈ entries
  closed : ∀ e ∈ entries, e.1 ≠ [] → (e.1.parent, Node.dir) ∈ entries
  names : ∀ e ∈ entries, ∀ c ∈ e.1, IsName c

namespace FileTree

variable {α : Type}

/-! ## Looking up -/

/-- What is at a location. -/
def get (t : FileTree α) (p : Loc) : Option (Node α) := (t.entries.find? fun e => decide (e.1 = p)).map Prod.snd

def «exists» (t : FileTree α) (p : Loc) : Bool := (t.get p).isSome

def isDir (t : FileTree α) (p : Loc) : Bool :=
  match t.get p with
  | some .dir => true
  | _ => false

def isFile (t : FileTree α) (p : Loc) : Bool :=
  match t.get p with
  | some (.file _) => true
  | _ => false

/-- The names in a directory. -/
def children (t : FileTree α) (p : Loc) : List String :=
  t.entries.filterMap fun e => if e.1 ≠ [] ∧ e.1.parent = p then some (Loc.name e.1) else none

/-- The entries strictly below a location. -/
def below (t : FileTree α) (p : Loc) : List (Loc × Node α) :=
  t.entries.filter fun e => decide (p <+: e.1 ∧ e.1 ≠ p)

/-- The location of components read from a location by the system: every component is looked up in a
directory that exists. -/
def walk (t : FileTree α) : Loc → List String → Option Loc
  | p, [] => some p
  | p, c :: cs => if t.isDir p then t.walk (resolveStep p c) cs else none

/-- Where the system finds a path, for a process working in `cwd`. -/
def locate (t : FileTree α) (cwd : Loc) (p : PurePath) : Option Loc :=
  match p.root with
  | .relative => t.walk cwd p.tail
  | _ => t.walk [] p.tail

theorem get_eq_some {t : FileTree α} {p : Loc} {n : Node α} : t.get p = some n ↔ (p, n) ∈ t.entries := by
  unfold get
  constructor
  · intro h
    obtain ⟨⟨q, m⟩, hf, rfl⟩ := Option.map_eq_some_iff.mp h
    have hq := List.find?_some hf
    simp only [decide_eq_true_eq] at hq
    subst hq
    exact List.mem_of_find?_eq_some hf
  · intro h
    obtain ⟨⟨q, m⟩, hf⟩ : ∃ e, t.entries.find? (fun e => decide (e.1 = p)) = some e := by
      rw [← Option.isSome_iff_exists, List.find?_isSome]
      exact ⟨(p, n), h, by simp⟩
    have hq := List.find?_some hf
    simp only [decide_eq_true_eq] at hq
    subst hq
    have := List.inj_on_of_nodup_map t.nodup (List.mem_of_find?_eq_some hf) h rfl
    rw [hf, this]
    rfl

theorem get_eq_none {t : FileTree α} {p : Loc} : t.get p = none ↔ ∀ n, (p, n) ∉ t.entries := by
  rw [Option.eq_none_iff_forall_ne_some]
  exact forall_congr' fun n => not_congr get_eq_some

theorem isDir_iff {t : FileTree α} {p : Loc} : t.isDir p = true ↔ t.get p = some .dir := by
  unfold isDir
  split <;> simp_all

theorem isFile_iff {t : FileTree α} {p : Loc} : t.isFile p = true ↔ ∃ x, t.get p = some (.file x) := by
  unfold isFile
  split
  · simp_all
  · rename_i h
    simp only [Bool.false_eq_true, false_iff, not_exists]
    exact h

theorem exists_iff {t : FileTree α} {p : Loc} : t.exists p = true ↔ ∃ n, t.get p = some n :=
  Option.isSome_iff_exists

theorem exists_eq_false {t : FileTree α} {p : Loc} : t.exists p = false ↔ t.get p = none := by
  simp [FileTree.exists]

theorem get_nil (t : FileTree α) : t.get [] = some .dir := get_eq_some.mpr t.root_dir

theorem exists_of_isDir {t : FileTree α} {p : Loc} (h : t.isDir p = true) : t.exists p = true :=
  exists_iff.mpr ⟨_, isDir_iff.mp h⟩

theorem exists_of_isFile {t : FileTree α} {p : Loc} (h : t.isFile p = true) : t.exists p = true :=
  let ⟨_, hx⟩ := isFile_iff.mp h; exists_iff.mpr ⟨_, hx⟩

theorem isDir_eq_false_of_isFile {t : FileTree α} {p : Loc} (h : t.isFile p = true) : t.isDir p = false := by
  obtain ⟨x, hx⟩ := isFile_iff.mp h
  simp [isDir, hx]

theorem exists_eq (t : FileTree α) (p : Loc) : t.exists p = (t.isDir p || t.isFile p) := by
  unfold FileTree.exists isDir isFile
  rcases t.get p with _ | _ | _ <;> rfl

/-- Above an entry there are directories. -/
theorem isDir_above {t : FileTree α} {p q : Loc} (h : p <+: q) (hne : p ≠ q) (hq : t.exists q = true) :
    t.isDir p = true := by
  obtain ⟨r, rfl⟩ := h
  induction r using List.reverseRecOn with
  | nil => simp at hne
  | append_singleton r c ih =>
      obtain ⟨n, hn⟩ := exists_iff.mp hq
      have hpar := t.closed _ (get_eq_some.mp hn) (by simp)
      rw [← List.append_assoc, Loc.parent_concat] at hpar
      have hdir := isDir_iff.mpr (get_eq_some.mpr hpar)
      by_cases hr : r = []
      · subst hr
        simpa using hdir
      · exact ih (by simpa using hr) (exists_of_isDir hdir)

theorem exists_above {t : FileTree α} {p q : Loc} (h : p <+: q) (hq : t.exists q = true) : t.exists p = true := by
  by_cases hne : p = q
  · exact hne ▸ hq
  · exact exists_of_isDir (isDir_above h hne hq)

theorem isDir_parent {t : FileTree α} {p : Loc} (h : t.exists p = true) : t.isDir p.parent = true := by
  rcases Loc.eq_nil_or_concat p with rfl | ⟨q, c, rfl⟩
  · exact isDir_iff.mpr t.get_nil
  · rw [Loc.parent_concat]
    exact isDir_above (List.prefix_append q [c]) (by simp) h

/-- At and above a directory there is no file. -/
theorem isFile_eq_false_above {t : FileTree α} {p q : Loc} (h : q <+: p) (hp : t.isDir p = true) :
    t.isFile q = false := by
  by_contra hfile
  have hdir : t.isDir q = true := by
    by_cases hqp : q = p
    · exact hqp ▸ hp
    · exact isDir_above h hqp (exists_of_isDir hp)
  rw [isDir_eq_false_of_isFile (by simpa using hfile)] at hdir
  cases hdir

/-- Where a lookup ends is known from the components alone. -/
theorem walk_eq_resolveFrom {t : FileTree α} {p q : Loc} {cs : List String} (h : t.walk p cs = some q) :
    q = resolveFrom p cs := by
  induction cs generalizing p with
  | nil => exact (Option.some.inj h).symm
  | cons c cs ih =>
      unfold walk at h
      split at h
      · exact ih h
      · cases h

theorem isName_of_exists {t : FileTree α} {p : Loc} (h : t.exists p = true) : ∀ c ∈ p, IsName c := by
  obtain ⟨n, hn⟩ := exists_iff.mp h
  exact t.names _ (get_eq_some.mp hn)

/-- Names are looked up one below the other. -/
theorem walk_cases {t : FileTree α} {p cs : Loc} (hcs : ∀ c ∈ cs, c ≠ "..") :
    t.walk p cs = some (p ++ cs) ∨ t.walk p cs = none ∧ t.exists (p ++ cs) = false := by
  induction cs generalizing p with
  | nil => simp [walk]
  | cons c cs ih =>
      have hstep : resolveStep p c = p ++ [c] := if_neg (hcs c List.mem_cons_self)
      have happ : p ++ c :: cs = p ++ [c] ++ cs := by simp
      unfold walk
      by_cases hdir : t.isDir p = true
      · rw [if_pos hdir, hstep, happ]
        exact ih fun d hd => hcs d (List.mem_cons_of_mem _ hd)
      · rw [if_neg hdir]
        refine Or.inr ⟨rfl, ?_⟩
        by_contra hex
        exact hdir (isDir_above (List.prefix_append p (c :: cs)) (by simp) (by simpa using hex))

/-! ## Changing a tree -/

/-- A new entry in an existing directory. -/
def insert (t : FileTree α) (p : Loc) (n : Node α) (hnew : t.exists p = false) (hdir : t.isDir p.parent = true)
    (hname : IsName p.name) : FileTree α where
  entries := t.entries ++ [(p, n)]
  nodup := by
    rw [List.map_append, List.nodup_append]
    refine ⟨t.nodup, by simp, ?_⟩
    intro q hq r hr
    obtain ⟨e, he, rfl⟩ := List.mem_map.mp hq
    obtain rfl : r = p := by simpa using hr
    rintro rfl
    exact get_eq_none.mp (exists_eq_false.mp hnew) e.2 he
  root_dir := List.mem_append_left _ t.root_dir
  closed := by
    intro e he hne
    rcases List.mem_append.mp he with he | he
    · exact List.mem_append_left _ (t.closed e he hne)
    · obtain rfl := List.mem_singleton.mp he
      exact List.mem_append_left _ (get_eq_some.mp (isDir_iff.mp hdir))
  names := by
    intro e he c hc
    rcases List.mem_append.mp he with he | he
    · exact t.names e he c hc
    · obtain rfl := List.mem_singleton.mp he
      have hne : p ≠ [] := by
        rintro rfl
        simp [exists_eq_false, get_nil] at hnew
      rw [← Loc.parent_append_name hne] at hc
      rcases List.mem_append.mp hc with hc | hc
      · exact isName_of_exists (exists_of_isDir hdir) c hc
      · exact List.mem_singleton.mp hc ▸ hname

/-- The new content of an existing file. -/
def setContent (t : FileTree α) (p : Loc) (x : α) (hfile : t.isFile p = true) : FileTree α where
  entries := t.entries.map fun e => if e.1 = p then (p, .file x) else e
  nodup := by
    have : (t.entries.map fun e => if e.1 = p then (p, Node.file x) else e).map Prod.fst = t.entries.map Prod.fst := by
      rw [List.map_map]
      refine List.map_congr_left fun e _ => ?_
      by_cases h : e.1 = p <;> simp [h]
    rw [this]
    exact t.nodup
  root_dir := by
    refine List.mem_map.mpr ⟨_, t.root_dir, ?_⟩
    rw [if_neg]
    rintro rfl
    simp [isFile, get_nil] at hfile
  closed := by
    have keep : ∀ q, (q, Node.dir) ∈ t.entries →
        (q, Node.dir) ∈ t.entries.map fun e => if e.1 = p then (p, Node.file x) else e := by
      intro q hq
      refine List.mem_map.mpr ⟨_, hq, if_neg ?_⟩
      rintro rfl
      simp [isFile, get_eq_some.mpr hq] at hfile
    intro e he hne
    obtain ⟨e', he', rfl⟩ := List.mem_map.mp he
    refine keep _ ?_
    by_cases h : e'.1 = p
    · simp only [h, if_true] at hne ⊢
      exact h ▸ t.closed e' he' (h ▸ hne)
    · simp only [h, if_false] at hne ⊢
      exact t.closed e' he' hne
  names := by
    intro e he
    obtain ⟨e', he', rfl⟩ := List.mem_map.mp he
    by_cases h : e'.1 = p
    · simp only [h, if_true]
      exact h ▸ t.names e' he'
    · simp only [h, if_false]
      exact t.names e' he'

/-- The tree without a location and everything below it. -/
def remove (t : FileTree α) (p : Loc) (hp : p ≠ []) : FileTree α where
  entries := t.entries.filter fun e => decide (¬ p <+: e.1)
  nodup := t.nodup.sublist (List.filter_sublist.map _)
  root_dir := List.mem_filter.mpr ⟨t.root_dir, by simpa using hp⟩
  closed := by
    intro e he hne
    obtain ⟨he, hp⟩ := List.mem_filter.mp he
    refine List.mem_filter.mpr ⟨t.closed e he hne, ?_⟩
    simp only [decide_eq_true_eq] at hp ⊢
    exact fun h => hp (h.trans (List.dropLast_prefix _))
  names := fun e he => t.names e (List.mem_filter.mp he).1

/-- The location of `q` after `a` has become `b`. -/
def relocate (a b q : Loc) : Loc := if a <+: q then b ++ q.drop a.length else q

theorem relocate_append (a b r : Loc) : relocate a b (a ++ r) = b ++ r := by
  simp [relocate]

theorem relocate_of_not {a q : Loc} (b : Loc) (h : ¬ a <+: q) : relocate a b q = q := if_neg h

/-- The tree with `a` and everything below it moved to `b`, whatever was at `b` replaced. -/
def move (t : FileTree α) (a b : Loc) (hab : ¬ a <+: b) (hba : ¬ b <+: a) (hdir : t.isDir b.parent = true)
    (hname : IsName b.name) : FileTree α where
  entries := (t.entries.filter fun e => decide (¬ b <+: e.1)).map fun e => (relocate a b e.1, e.2)
  nodup := by
    rw [List.map_map]
    have hsub := t.nodup.sublist ((List.filter_sublist (p := fun e => decide (¬ b <+: e.1))).map Prod.fst)
    have hcomp : (Prod.fst ∘ fun e : Loc × Node α => (relocate a b e.1, e.2)) = relocate a b ∘ Prod.fst := rfl
    rw [hcomp, ← List.map_map]
    refine hsub.map_on ?_
    -- moved locations lie under `b`, the others do not
    intro q hq r hr h
    have hnot : ∀ q ∈ (t.entries.filter fun e => decide (¬ b <+: e.1)).map Prod.fst, ¬ b <+: q := by
      intro q hq
      obtain ⟨e, he, rfl⟩ := List.mem_map.mp hq
      simpa using (List.mem_filter.mp he).2
    by_cases h₁ : a <+: q <;> by_cases h₂ : a <+: r
    · obtain ⟨q', rfl⟩ := h₁
      obtain ⟨r', rfl⟩ := h₂
      rw [relocate_append, relocate_append] at h
      rw [List.append_cancel_left h]
    · obtain ⟨q', rfl⟩ := h₁
      rw [relocate_append, relocate_of_not b h₂] at h
      exact absurd ⟨q', h⟩ (hnot r hr)
    · obtain ⟨r', rfl⟩ := h₂
      rw [relocate_append, relocate_of_not b h₁] at h
      exact absurd ⟨r', h.symm⟩ (hnot q hq)
    · rwa [relocate_of_not b h₁, relocate_of_not b h₂] at h
  root_dir := by
    refine List.mem_map.mpr ⟨_, List.mem_filter.mpr ⟨t.root_dir, ?_⟩, ?_⟩
    · simp only [List.prefix_nil, decide_not, Bool.not_eq_true', decide_eq_false_iff_not]
      rintro rfl
      exact hba List.nil_prefix
    · rw [relocate_of_not]
      intro h
      exact hab ((List.prefix_nil.mp h) ▸ List.nil_prefix)
  closed := by
    intro e he hne
    obtain ⟨e', he', rfl⟩ := List.mem_map.mp he
    obtain ⟨hmem, hb⟩ := List.mem_filter.mp he'
    simp only [decide_eq_true_eq] at hb
    have keep : ∀ q, (q, Node.dir) ∈ t.entries → ¬ b <+: q →
        (relocate a b q, Node.dir) ∈ (t.entries.filter fun e => decide (¬ b <+: e.1)).map
          fun e => (relocate a b e.1, e.2) := by
      intro q hq hb
      exact List.mem_map.mpr ⟨_, List.mem_filter.mpr ⟨hq, by simpa using hb⟩, rfl⟩
    have hbpar : ¬ a <+: b.parent := fun h => hab (h.trans (List.dropLast_prefix _))
    have hbself : ¬ b <+: b.parent := by
      intro h
      have := h.length_le
      rw [List.length_dropLast] at this
      have hb0 : b ≠ [] := by rintro rfl; exact hba List.nil_prefix
      have := List.length_pos_of_ne_nil hb0
      omega
    by_cases ha : a <+: e'.1
    · obtain ⟨r, hr⟩ := ha
      simp only [← hr, relocate_append] at hne ⊢
      rcases Loc.eq_nil_or_concat r with rfl | ⟨r, c, rfl⟩
      · have := keep _ (get_eq_some.mp (isDir_iff.mp hdir)) hbself
        rw [relocate_of_not b hbpar] at this
        simpa using this
      · have hpar := t.closed e' hmem (by simp [← hr])
        rw [← hr, ← List.append_assoc, Loc.parent_concat] at hpar
        have hnb : ¬ b <+: a ++ r := fun h => hb (hr ▸ h.trans ⟨[c], by simp⟩)
        have := keep _ hpar hnb
        rw [relocate_append] at this
        rwa [← List.append_assoc, Loc.parent_concat]
    · simp only [relocate_of_not b ha] at hne ⊢
      have hnb : ¬ b <+: Loc.parent e'.1 := fun h => hb (h.trans (List.dropLast_prefix _))
      have hna : ¬ a <+: Loc.parent e'.1 := fun h => ha (h.trans (List.dropLast_prefix _))
      have := keep _ (t.closed e' hmem hne) hnb
      rwa [relocate_of_not b hna] at this
  names := by
    intro e he c hc
    obtain ⟨e', he', rfl⟩ := List.mem_map.mp he
    have hmem := (List.mem_filter.mp he').1
    unfold relocate at hc
    split at hc
    · rcases List.mem_append.mp hc with hc | hc
      · have hb0 : b ≠ [] := by rintro rfl; exact hba List.nil_prefix
        rw [← Loc.parent_append_name hb0] at hc
        rcases List.mem_append.mp hc with hc | hc
        · exact isName_of_exists (exists_of_isDir hdir) c hc
        · exact List.mem_singleton.mp hc ▸ hname
      · exact t.names e' hmem c (List.mem_of_mem_drop hc)
    · exact t.names e' hmem c hc

/-! ## Looking up after a change -/

theorem get_insert {t : FileTree α} {p : Loc} {n : Node α} {hn hd hc} (q : Loc) :
    (t.insert p n hn hd hc).get q = if q = p then some n else t.get q := by
  ext m
  have hnone := get_eq_none.mp (exists_eq_false.mp hn)
  rw [get_eq_some]
  by_cases h : q = p
  · subst h
    simp [insert, hnone, eq_comm]
  · simp [insert, h, get_eq_some]

theorem get_setContent {t : FileTree α} {p : Loc} {x : α} {hf} (q : Loc) :
    (t.setContent p x hf).get q = if q = p then some (.file x) else t.get q := by
  ext m
  obtain ⟨y, hy⟩ := isFile_iff.mp hf
  simp only [get_eq_some, setContent, List.mem_map]
  by_cases h : q = p
  · subst h
    simp only [if_true, Option.some.injEq]
    constructor
    · rintro ⟨e, _, he⟩
      by_cases hq : e.1 = q
      · simp only [hq, if_true, Prod.mk.injEq, true_and] at he
        exact he
      · simp only [hq, if_false] at he
        exact absurd (congrArg Prod.fst he) hq
    · rintro rfl
      exact ⟨_, get_eq_some.mp hy, by simp⟩
  · simp only [h, if_false]
    constructor
    · rintro ⟨e, hmem, he⟩
      by_cases hq : e.1 = p
      · simp only [hq, if_true, Prod.mk.injEq] at he
        exact absurd he.1.symm h
      · simp only [hq, if_false] at he
        exact get_eq_some.mpr (he ▸ hmem)
    · intro hm
      exact ⟨_, get_eq_some.mp hm, by simp [h]⟩

theorem get_remove {t : FileTree α} {p : Loc} {hp} (q : Loc) :
    (t.remove p hp).get q = if p <+: q then none else t.get q := by
  ext m
  rw [get_eq_some]
  by_cases h : p <+: q <;> simp [remove, h, get_eq_some]

theorem get_move {t : FileTree α} {a b : Loc} {hab hba hd hc} (q : Loc) :
    (t.move a b hab hba hd hc).get q =
      if b <+: q then t.get (a ++ q.drop b.length) else if a <+: q then none else t.get q := by
  ext m
  simp only [get_eq_some, move, List.mem_map, List.mem_filter, decide_eq_true_eq, Prod.mk.injEq]
  by_cases hb : b <+: q
  · obtain ⟨r, rfl⟩ := hb
    have hba' : ¬ b <+: a ++ r := by
      intro h
      rcases List.prefix_or_prefix_of_prefix h (List.prefix_append a r) with h | h
      · exact hba h
      · exact hab h
    simp only [List.prefix_append, if_true, List.drop_left]
    rw [get_eq_some]
    constructor
    · rintro ⟨e, ⟨he, hnb⟩, h, rfl⟩
      by_cases ha : a <+: e.1
      · obtain ⟨s, hs⟩ := ha
        rw [← hs, relocate_append] at h
        rwa [← List.append_cancel_left h, hs]
      · rw [relocate_of_not b ha] at h
        exact absurd ⟨r, h.symm⟩ hnb
    · intro h
      exact ⟨_, ⟨h, hba'⟩, relocate_append a b r, rfl⟩
  · simp only [hb, if_false]
    by_cases ha : a <+: q
    · simp only [ha, if_true, reduceCtorEq, iff_false]
      rintro ⟨e, ⟨_, _⟩, h, _⟩
      by_cases hae : a <+: e.1
      · obtain ⟨s, hs⟩ := hae
        rw [← hs, relocate_append] at h
        exact hb ⟨s, h⟩
      · rw [relocate_of_not b hae] at h
        exact hae (h ▸ ha)
    · simp only [ha, if_false, get_eq_some]
      constructor
      · rintro ⟨e, ⟨he, _⟩, h, rfl⟩
        by_cases hae : a <+: e.1
        · obtain ⟨s, hs⟩ := hae
          rw [← hs, relocate_append] at h
          exact absurd ⟨s, h⟩ hb
        · rw [relocate_of_not b hae] at h
          exact h ▸ he
      · intro h
        exact ⟨_, ⟨h, hb⟩, relocate_of_not b ha, rfl⟩

/-! ## System calls -/

theorem ne_nil_of_isFile {t : FileTree α} {p : Loc} (h : t.isFile p = true) : p ≠ [] := by
  rintro rfl
  simp [isFile, get_nil] at h

/-- The error of looking `p` up when its directory is not there. -/
def lookupError (t : FileTree α) (p : Loc) : OSError :=
  if (List.range p.length).any fun k => t.isFile (p.take k) then .notADirectory else .fileNotFound

/-- Add an entry where there is none. -/
def create (t : FileTree α) (p : Loc) (n : Node α) (hnew : t.exists p = false) : Except OSError (FileTree α) :=
  if hdir : t.isDir p.parent = true then
    if hname : IsName p.name then .ok (t.insert p n hnew hdir hname) else .error .invalidArgument
  else .error (t.lookupError p)

/-- `mkdir(2)` -/
def mkdir (t : FileTree α) (p : Loc) : Except OSError (FileTree α) :=
  if hnew : t.exists p = false then t.create p .dir hnew else .error .fileExists

/-- Open for writing, which creates or empties the file, and write `x`. -/
def write (t : FileTree α) (p : Loc) (x : α) : Except OSError (FileTree α) :=
  if hfile : t.isFile p = true then .ok (t.setContent p x hfile)
  else if hnew : t.exists p = false then t.create p (.file x) hnew
  else .error .isADirectory

/-- `unlink(2)` -/
def unlink (t : FileTree α) (p : Loc) : Except OSError (FileTree α) :=
  if hfile : t.isFile p = true then .ok (t.remove p (ne_nil_of_isFile hfile))
  else if t.exists p then .error .isADirectory
  else .error (t.lookupError p)

/-- Remove a directory and everything in it. The root cannot be removed. -/
def rmtree (t : FileTree α) (p : Loc) : Except OSError (FileTree α) :=
  if hroot : p = [] then .error .invalidArgument
  else if t.isDir p then .ok (t.remove p hroot)
  else if t.exists p then .error .notADirectory
  else .error (t.lookupError p)

/-- `rename(2)` -/
def rename (t : FileTree α) (a b : Loc) : Except OSError (FileTree α) :=
  if t.exists a = false then .error (t.lookupError a)
  else if hdir : t.isDir b.parent = true then
    if a = b then .ok t
    else if hab : a <+: b then .error .invalidArgument
    else if hba : b <+: a then .error .notEmpty
    else if hname : IsName b.name then
      if t.isDir a && t.isFile b then .error .notADirectory
      else if t.isFile a && t.isDir b then .error .isADirectory
      else if t.isDir b && !(t.below b).isEmpty then .error .notEmpty
      else .ok (t.move a b hab hba hdir hname)
    else .error .invalidArgument
  else .error (t.lookupError b)

theorem create_ok {t t' : FileTree α} {p : Loc} {n : Node α} {hnew} (h : t.create p n hnew = .ok t') :
    t.isDir p.parent = true ∧ ∀ q, t'.get q = if q = p then some n else t.get q := by
  unfold create at h
  split at h
  · split at h
    · cases h
      exact ⟨‹_›, get_insert⟩
    · cases h
  · cases h

theorem mkdir_ok {t t' : FileTree α} {p : Loc} (h : t.mkdir p = .ok t') :
    t.exists p = false ∧ t.isDir p.parent = true ∧ ∀ q, t'.get q = if q = p then some .dir else t.get q := by
  unfold mkdir at h
  split at h
  · exact ⟨‹_›, create_ok h⟩
  · cases h

theorem write_ok {t t' : FileTree α} {p : Loc} {x : α} (h : t.write p x = .ok t') :
    t.isDir p = false ∧ t.isDir p.parent = true ∧ ∀ q, t'.get q = if q = p then some (.file x) else t.get q := by
  unfold write at h
  split at h
  · rename_i hfile
    cases h
    exact ⟨isDir_eq_false_of_isFile hfile, isDir_parent (exists_of_isFile hfile), get_setContent⟩
  · split at h
    · rename_i hnew
      refine ⟨?_, create_ok h⟩
      simp [isDir, exists_eq_false.mp hnew]
    · cases h

theorem unlink_ok {t t' : FileTree α} {p : Loc} (h : t.unlink p = .ok t') :
    t.isFile p = true ∧ ∀ q, t'.get q = if p <+: q then none else t.get q := by
  unfold unlink at h
  split at h
  · cases h
    exact ⟨‹_›, get_remove⟩
  · split at h <;> cases h

theorem rmtree_ok {t t' : FileTree α} {p : Loc} (h : t.rmtree p = .ok t') :
    t.isDir p = true ∧ ∀ q, t'.get q = if p <+: q then none else t.get q := by
  unfold rmtree at h
  split at h
  · cases h
  · split at h
    · cases h
      exact ⟨‹_›, get_remove⟩
    · split at h <;> cases h

/-- A renaming that succeeds onto a location other than the old one. -/
theorem rename_ok {t t' : FileTree α} {a b : Loc} (h : t.rename a b = .ok t') (hne : a ≠ b) :
    t.exists a = true ∧ ¬ a <+: b ∧ ¬ b <+: a ∧ t.isDir b.parent = true ∧ ∀ q, t'.get q =
      if b <+: q then t.get (a ++ q.drop b.length) else if a <+: q then none else t.get q := by
  unfold rename at h
  split at h
  · cases h
  · rename_i ha
    repeat' split at h
    all_goals first
      | contradiction
      | (cases h; exact ⟨by simpa using ha, ‹_›, ‹_›, ‹_›, get_move⟩)

theorem rename_same {t t' : FileTree α} {a : Loc} (h : t.rename a a = .ok t') : t' = t := by
  unfold rename at h
  repeat' split at h
  all_goals first
    | contradiction
    | (cases h; rfl)

/-! ## When a call succeeds -/

theorem mkdir_succeeds {t : FileTree α} {p : Loc} (hnew : t.exists p = false) (hdir : t.isDir p.parent = true)
    (hname : IsName p.name) : ∃ t', t.mkdir p = .ok t' := by
  simp [mkdir, create, hnew, hdir, hname]

theorem write_succeeds {t : FileTree α} {p : Loc} {x : α} (hnew : t.exists p = false)
    (hdir : t.isDir p.parent = true) (hname : IsName p.name) : ∃ t', t.write p x = .ok t' := by
  have hfile : t.isFile p = false := by simp [isFile, exists_eq_false.mp hnew]
  simp [write, create, hfile, hnew, hdir, hname]

theorem unlink_succeeds {t : FileTree α} {p : Loc} (h : t.isFile p = true) : ∃ t', t.unlink p = .ok t' := by
  simp [unlink, h]

theorem unlink_fails {t : FileTree α} {p : Loc} (h : t.isFile p = false) : ∃ e, t.unlink p = .error e := by
  unfold unlink
  rw [dif_neg (by simp [h])]
  split <;> exact ⟨_, rfl⟩

theorem rename_fails {t : FileTree α} {a b : Loc} (h : t.exists a = false) : ∃ e, t.rename a b = .error e := by
  unfold rename
  exact ⟨_, if_pos h⟩

theorem rename_succeeds {t : FileTree α} {a b : Loc} (ha : t.exists a = true) (hb : t.exists b = false)
    (hdir : t.isDir b.parent = true) (hname : IsName b.name) (hab : ¬ a <+: b) : ∃ t', t.rename a b = .ok t' := by
  have hne : a ≠ b := by
    rintro rfl
    simp [ha] at hb
  have hba : ¬ b <+: a := by
    intro h
    have := exists_of_isDir (isDir_above h (Ne.symm hne) ha)
    simp [this] at hb
  have hdirb : t.isDir b = false := by simp [isDir, exists_eq_false.mp hb]
  have hfileb : t.isFile b = false := by simp [isFile, exists_eq_false.mp hb]
  simp [rename, ha, hdir, hne, hab, hba, hname, hdirb, hfileb]

end FileTree

end Lib
