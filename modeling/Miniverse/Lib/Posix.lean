import Mathlib.Data.List.Basic
import Miniverse.Lib.Lines

/-!
# POSIX paths

A pure path is what a program computes with before it asks the file system: a root and a list of
components, read from a string. A location is an absolute path in normal form, the place in a file tree.
-/

namespace Lib

/-! ## Names and components -/

/-- A name that an entry of a directory can have. -/
def IsName (c : String) : Prop :=
  c ≠ "" ∧ c ≠ "." ∧ c ≠ ".." ∧ '/' ∉ c.toList ∧ Char.ofNat 0 ∉ c.toList

instance (c : String) : Decidable (IsName c) := inferInstanceAs (Decidable (_ ∧ _))

/-- A component of a pure path. The parent component `..` is one, the empty string and `.` are not. -/
def IsComponent (c : String) : Prop := c ≠ "" ∧ c ≠ "." ∧ '/' ∉ c.toList

instance (c : String) : Decidable (IsComponent c) := inferInstanceAs (Decidable (_ ∧ _))

theorem IsName.isComponent {c : String} (h : IsName c) : IsComponent c := ⟨h.1, h.2.1, h.2.2.2.1⟩

/-! ## Locations -/

/-- An absolute path in normal form: the names from the root of the file system down. -/
abbrev Loc := List String

/-- The last name of a location, empty for the root. -/
def Loc.name (p : Loc) : String := p.getLast?.getD ""

/-- The directory that holds a location. The root holds itself. -/
abbrev Loc.parent (p : Loc) : Loc := p.dropLast

@[simp] theorem Loc.name_concat (p : Loc) (c : String) : Loc.name (p ++ [c]) = c := by
  simp [Loc.name]

@[simp] theorem Loc.parent_concat (p : Loc) (c : String) : Loc.parent (p ++ [c]) = p := by
  simp [Loc.parent]

theorem Loc.parent_append_name {p : Loc} (h : p ≠ []) : p.parent ++ [p.name] = p := by
  rw [Loc.name, List.getLast?_eq_some_getLast h]
  exact List.dropLast_append_getLast h

theorem Loc.concat_not_prefix (p : Loc) (c : String) : ¬ p ++ [c] <+: p := by
  intro h
  have := h.length_le
  rw [List.length_append] at this
  exact Nat.not_succ_le_self _ this

theorem Loc.eq_nil_or_concat (p : Loc) : p = [] ∨ ∃ q c, p = q ++ [c] := by
  rcases List.eq_nil_or_concat p with h | ⟨q, c, h⟩
  · exact Or.inl h
  · exact Or.inr ⟨q, c, by simpa using h⟩

/-- A location strictly below `d` has its parent at or below `d`. -/
theorem Loc.prefix_parent {d p : Loc} (h : d <+: p) (hne : p ≠ d) : d <+: p.parent := by
  obtain ⟨e, rfl⟩ := h
  rcases Loc.eq_nil_or_concat e with rfl | ⟨e, c, rfl⟩
  · simp at hne
  · exact ⟨e, by rw [← List.append_assoc, Loc.parent_concat]⟩

/-- One component of a resolution: `..` goes up, and stays at the root of the file system. -/
def resolveStep (p : Loc) (c : String) : Loc := if c = ".." then p.dropLast else p ++ [c]

/-- Follow components from a location, without symbolic links. -/
def resolveFrom (base : Loc) (cs : List String) : Loc := cs.foldl resolveStep base

@[simp] theorem resolveFrom_nil (base : Loc) : resolveFrom base [] = base := rfl

@[simp] theorem resolveFrom_cons (base : Loc) (c : String) (cs : List String) :
    resolveFrom base (c :: cs) = resolveFrom (resolveStep base c) cs := rfl

theorem resolveFrom_append (base : Loc) (cs ds : List String) :
    resolveFrom base (cs ++ ds) = resolveFrom (resolveFrom base cs) ds := by
  simp [resolveFrom]

/-- Without `..`, the components are appended. -/
theorem resolveFrom_of_forall_ne {base : Loc} {cs : List String} (h : ∀ c ∈ cs, c ≠ "..") :
    resolveFrom base cs = base ++ cs := by
  induction cs generalizing base with
  | nil => simp
  | cons c cs ih =>
      rw [resolveFrom_cons, ih fun d hd => h d (List.mem_cons_of_mem _ hd)]
      simp [resolveStep, h c List.mem_cons_self]

/-- A resolution that starts from proper names and meets no other name ends with proper names. -/
theorem resolveFrom_forall {P : String → Prop} {base : Loc} {cs : List String} (hb : ∀ c ∈ base, P c)
    (hc : ∀ c ∈ cs, c ≠ ".." → P c) : ∀ c ∈ resolveFrom base cs, P c := by
  induction cs generalizing base with
  | nil => exact hb
  | cons d cs ih =>
      refine ih ?_ fun c hm => hc c (List.mem_cons_of_mem _ hm)
      intro c hm
      unfold resolveStep at hm
      split at hm
      · exact hb c ((List.dropLast_sublist _).subset hm)
      · rcases List.mem_append.mp hm with hm | hm
        · exact hb c hm
        · obtain rfl := List.mem_singleton.mp hm
          exact hc c List.mem_cons_self ‹_›

/-! ## Pure paths -/

inductive Root where
  | relative
  | slash
  | doubleSlash
deriving DecidableEq, Repr

/-- Exactly two leading slashes are a root of their own, any other number is one slash. -/
def Root.ofChars : List Char → Root
  | '/' :: '/' :: '/' :: _ => .slash
  | '/' :: '/' :: _ => .doubleSlash
  | '/' :: _ => .slash
  | _ => .relative

def Root.chars : Root → List Char
  | .relative => []
  | .slash => ['/']
  | .doubleSlash => ['/', '/']

/-- The components of a string: the pieces between slashes, without the empty ones and `.`. -/
def components (s : List Char) : List String :=
  ((s.splitOn '/').map String.ofList).filter fun c => decide (c ≠ "" ∧ c ≠ ".")

theorem components_sep (s t : List Char) : components (s ++ '/' :: t) = components s ++ components t := by
  simp only [components, List.splitOn_append_cons_self, List.map_append, List.filter_append]

@[simp] theorem components_nil : components [] = [] := rfl

theorem components_slash (t : List Char) : components ('/' :: t) = components t :=
  components_sep [] t

theorem components_isComponent (s : List Char) : ∀ c ∈ components s, IsComponent c := by
  intro c hc
  simp only [components, List.mem_filter, List.mem_map, decide_eq_true_eq] at hc
  obtain ⟨⟨l, hl, rfl⟩, hne, hdot⟩ := hc
  refine ⟨hne, hdot, ?_⟩
  rw [String.toList_ofList]
  exact not_mem_of_mem_splitOn hl

theorem components_of_isComponent {c : String} (h : IsComponent c) : components c.toList = [c] := by
  simp [components, List.splitOn_eq_singleton h.2.2, h.1, h.2.1]

/-- What a text ends with, its last component ends with. -/
theorem components_append {t : List Char} (hslash : '/' ∉ t) (hlen : 2 ≤ t.length) (s : List Char) :
    ∃ cs c, components (s ++ t) = cs ++ [c] ∧ t <:+ c.toList := by
  induction hn : s.length using Nat.strongRecOn generalizing s with
  | ind n ih =>
      by_cases hmem : '/' ∈ s
      · obtain ⟨a, b, rfl⟩ := List.append_of_mem hmem
        have hshort : b.length < n := by
          simp only [List.length_append, List.length_cons] at hn
          omega
        obtain ⟨cs, c, hcs, hc⟩ := ih b.length hshort b rfl
        refine ⟨components a ++ cs, c, ?_, hc⟩
        rw [List.append_assoc, List.cons_append, components_sep, hcs, List.append_assoc]
      · have hcomponent : IsComponent (String.ofList (s ++ t)) := by
          have hlong : 2 ≤ (String.ofList (s ++ t)).toList.length := by
            rw [String.toList_ofList, List.length_append]
            omega
          refine ⟨fun h => ?_, fun h => ?_, ?_⟩
          · rw [h] at hlong
            exact absurd hlong (by decide)
          · rw [h] at hlong
            exact absurd hlong (by decide)
          · simpa using ⟨hmem, hslash⟩
        have := components_of_isComponent hcomponent
        rw [String.toList_ofList] at this
        exact ⟨[], _, this, by simp⟩

/-- Joining components with slashes and reading them back. -/
theorem components_intercalate {cs : List String} (h : ∀ c ∈ cs, IsComponent c) :
    components (['/'].intercalate (cs.map String.toList)) = cs := by
  induction cs with
  | nil => rfl
  | cons c cs ih =>
      have hc := components_of_isComponent (h c List.mem_cons_self)
      have hcs := ih fun d hd => h d (List.mem_cons_of_mem _ hd)
      cases cs with
      | nil => simpa using hc
      | cons d ds =>
          simp only [List.map_cons, List.intercalate_cons_cons, List.append_assoc, List.cons_append,
            List.nil_append] at hcs ⊢
          rw [components_sep, hc, hcs, List.singleton_append]

/-- A path as a program computes with it. -/
structure PurePath where
  root : Root
  tail : List String
  tail_ok : ∀ c ∈ tail, IsComponent c
deriving DecidableEq

namespace PurePath

@[ext] theorem ext {p q : PurePath} (hr : p.root = q.root) (ht : p.tail = q.tail) : p = q := by
  cases p; cases q; simp_all

/-- `PurePosixPath(s)` -/
def parse (s : String) : PurePath := ⟨.ofChars s.toList, components s.toList, components_isComponent _⟩

/-- `str(p)` -/
def str (p : PurePath) : String :=
  if p.root = .relative ∧ p.tail = [] then "."
  else String.ofList (p.root.chars ++ ['/'].intercalate (p.tail.map String.toList))

/-- The root, if there is one, and the components. -/
def parts (p : PurePath) : List String :=
  match p.root with
  | .relative => p.tail
  | r => String.ofList r.chars :: p.tail

/-- The last component, empty when there is none. -/
def name (p : PurePath) : String := p.tail.getLast?.getD ""

def parent (p : PurePath) : PurePath :=
  ⟨p.root, p.tail.dropLast, fun c hc => p.tail_ok c ((List.dropLast_sublist _).subset hc)⟩

/-- Replace the last component. There must be one, and the new one must be a component. -/
def withName (p : PurePath) (name : String) : Option PurePath :=
  if h : p.tail ≠ [] ∧ IsComponent name then
    some ⟨p.root, p.tail.dropLast ++ [name], fun c hc => by
      rcases List.mem_append.mp hc with hc | hc
      · exact p.tail_ok c ((List.dropLast_sublist _).subset hc)
      · exact List.mem_singleton.mp hc ▸ h.2⟩
  else none

theorem withName_of {p : PurePath} {name : String} (hne : p.tail ≠ []) (hname : IsComponent name) :
    ∃ q, p.withName name = some q ∧ q.root = p.root ∧ q.tail = p.tail.dropLast ++ [name] := by
  unfold withName
  rw [dif_pos ⟨hne, hname⟩]
  exact ⟨_, rfl, rfl, rfl⟩

/-- `p / q` -/
def join (p q : PurePath) : PurePath :=
  match q.root with
  | .relative => ⟨p.root, p.tail ++ q.tail, fun c hc => (List.mem_append.mp hc).elim (p.tail_ok c) (q.tail_ok c)⟩
  | _ => q

/-- The path of a location. -/
def ofLoc (p : Loc) (h : ∀ c ∈ p, IsName c) : PurePath := ⟨.slash, p, fun c hc => (h c hc).isComponent⟩

/-- A component holds the null character, which no system call takes. -/
def hasNul (p : PurePath) : Bool := p.tail.any fun c => decide (Char.ofNat 0 ∈ c.toList)

/-- The path of a list of components. -/
def ofTail (cs : List String) (h : ∀ c ∈ cs, IsComponent c) : PurePath := ⟨.relative, cs, h⟩

/-- A string that starts with `./` is a relative path, whatever follows. -/
theorem parse_dot_slash (p : PurePath) :
    parse ("./" ++ p.str) = ofTail p.tail p.tail_ok := by
  have hchars : ("./" ++ p.str).toList = '.' :: '/' :: p.str.toList := by simp
  have htail : components p.str.toList = p.tail := by
    unfold str
    split
    · rename_i h
      rw [h.2]
      rfl
    · have hj := components_intercalate p.tail_ok
      rw [String.toList_ofList]
      cases p.root with
      | relative => exact hj
      | slash => exact (components_slash _).trans hj
      | doubleSlash => exact ((components_slash _).trans (components_slash _)).trans hj
  refine PurePath.ext ?_ ?_
  · simp only [parse, hchars, ofTail]
    rfl
  · show components ("./" ++ p.str).toList = p.tail
    rw [hchars]
    exact (components_sep ['.'] _).trans htail

end PurePath

/-! ## Suffix and stem -/

/-- The name cut at its last dot, when the dot is neither the first nor the last character. -/
def splitSuffix (name : List Char) : List Char × List Char :=
  match name.reverse.dropWhile (· ≠ '.') with
  | [] => (name, [])
  | dot :: before =>
      let ext := name.reverse.takeWhile (· ≠ '.')
      if before ≠ [] ∧ ext ≠ [] then (before.reverse, dot :: ext.reverse) else (name, [])

theorem splitSuffix_append (name : List Char) : (splitSuffix name).1 ++ (splitSuffix name).2 = name := by
  unfold splitSuffix
  split
  · simp
  · rename_i dot before h
    dsimp only
    split
    · have := List.takeWhile_append_dropWhile (p := fun c => decide (c ≠ '.')) (l := name.reverse)
      rw [h] at this
      have := congrArg List.reverse this
      simpa using this
    · simp

/-- The last suffix of a name, with its dot. -/
def suffix (name : String) : String := String.ofList (splitSuffix name.toList).2

/-- The name without its last suffix. -/
def stem (name : String) : String := String.ofList (splitSuffix name.toList).1

theorem stem_append_suffix (name : String) : stem name ++ suffix name = name := by
  rw [stem, suffix, ← String.ofList_append, splitSuffix_append, String.ofList_toList]

/-- Before a suffix there is something. -/
theorem stem_ne_empty {name : String} (h : suffix name ≠ "") : stem name ≠ "" := by
  have hparts : (splitSuffix name.toList).2 ≠ [] → (splitSuffix name.toList).1 ≠ [] := by
    unfold splitSuffix
    split
    · simp
    · dsimp only
      split
      · rename_i hcut
        simpa using hcut.1
      · simp
  intro hstem
  refine h ?_
  rw [stem, String.ofList_eq_empty_iff] at hstem
  rw [suffix, String.ofList_eq_empty_iff]
  exact Classical.not_not.mp fun hne => hparts hne hstem

/-- Replace the last suffix of the last component. -/
def PurePath.withSuffix (p : PurePath) (s : String) : Option PurePath := p.withName (stem p.name ++ s)

/-- A location as text. -/
def Loc.str (p : Loc) : String := "/" ++ String.ofList (['/'].intercalate (p.map String.toList))

example : (suffix "world.tar.gz", stem "..zip", suffix ".zip") = (".gz", ".", "") := by decide

end Lib
