import Miniverse.Files.Lemmas.Extract
import Miniverse.Lib.Subtree

/-!
# Complete extraction

An archive whose members have proper names, none of them below a file, is unpacked into a new directory member by member.
-/

namespace Backend

open Lib

variable {α : Type} {pf : Platform α}

/-! ## Members -/

/-- The components of the name, without the final slash of a directory. -/
def ZipMember.path (m : ZipMember α) : Loc :=
  ((if m.is_dir then m.filename.toList.dropLast else m.filename.toList).splitOn '/').map String.ofList

/-- The members have proper names, each its own, and none lies below a file; the files can be read. -/
structure WellFormed (members : List (ZipMember α)) : Prop where
  names : ∀ m ∈ members, ∀ c ∈ m.path, IsName c
  distinct : (members.map ZipMember.path).Nodup
  above : ∀ m ∈ members, ∀ m' ∈ members, m.is_dir = false → m.path <+: m'.path → m.path = m'.path
  readable : ∀ m ∈ members, m.opens = true ∧ m.complete = true

/-- All members have the same first component, and there are some. -/
def sharedTop : List (ZipMember α) → Bool
  | [] => false
  | m :: ms => ms.all fun m' => m'.path.head? == m.path.head?

/-- Where a member belongs below the container. -/
def ZipMember.target (m : ZipMember α) (shared : Bool) : Loc := if shared then m.path.drop 1 else m.path

theorem ZipMember.path_ne_nil (m : ZipMember α) : m.path ≠ [] := by
  unfold path
  rw [ne_eq, List.map_eq_nil_iff]
  exact List.splitOn_ne_nil _ _

theorem head_of_sharedTop {members : List (ZipMember α)} (h : sharedTop members = true) {m m' : ZipMember α}
    (hm : m ∈ members) (hm' : m' ∈ members) : m.path.head? = m'.path.head? := by
  cases members with
  | nil => cases hm
  | cons m₀ ms =>
      have hfirst : ∀ m' ∈ m₀ :: ms, m'.path.head? = m₀.path.head? := by
        simp only [sharedTop, List.all_eq_true, beq_iff_eq] at h
        intro m' hm'
        rcases List.mem_cons.mp hm' with rfl | hm'
        · rfl
        · exact h m' hm'
      rw [hfirst m hm, hfirst m' hm']

/-- The name of a member is read as its path. -/
theorem parse_filename {m : ZipMember α} (hnames : ∀ c ∈ m.path, IsName c) :
    (PurePath.parse m.filename).root = .relative ∧ (PurePath.parse m.filename).tail = m.path := by
  have hpieces : ∀ s : List Char, (∀ c ∈ (s.splitOn '/').map String.ofList, IsName c) →
      components s = (s.splitOn '/').map String.ofList := by
    intro s hs
    refine List.filter_eq_self.mpr fun c hc => ?_
    have hc := hs c hc
    simpa using ⟨hc.1, hc.2.1⟩
  have htail : components m.filename.toList = m.path := by
    unfold ZipMember.path at hnames ⊢
    cases hdir : m.is_dir with
    | false =>
        rw [hdir, if_neg Bool.false_ne_true] at hnames
        rw [if_neg Bool.false_ne_true]
        exact hpieces _ hnames
    | true =>
        rw [hdir, if_pos rfl] at hnames
        rw [if_pos rfl, ← hpieces _ hnames]
        have hlast : m.filename.toList.getLast? = some '/' := by simpa [ZipMember.is_dir] using hdir
        obtain ⟨init, hinit⟩ := List.getLast?_eq_some_iff.mp hlast
        rw [hinit, List.dropLast_concat]
        exact (components_sep init []).trans (List.append_nil _)
  refine ⟨?_, htail⟩
  show Root.ofChars m.filename.toList = .relative
  rcases hchars : m.filename.toList with _ | ⟨c, cs⟩
  · rfl
  · by_cases hc : c = '/'
    · -- a leading slash makes the first component empty
      subst hc
      have hempty : "" ∈ m.path := by
        unfold ZipMember.path
        rw [hchars]
        split
        · cases cs with
          | nil => decide
          | cons c' cs =>
              rw [List.dropLast_cons_cons, List.splitOn_cons_eq_if_modifyHead, if_pos (beq_self_eq_true _)]
              exact List.mem_cons_self
        · rw [List.splitOn_cons_eq_if_modifyHead, if_pos (beq_self_eq_true _)]
          exact List.mem_cons_self
      exact absurd rfl (hnames _ hempty).1
    · unfold Root.ofChars
      split <;> simp_all

/-! ## The container -/

section WellFormed

variable {members : List (ZipMember α)} (hwell : WellFormed members)

include hwell

theorem WellFormed.zip_roots : get_zip_roots members = (members.filterMap fun m => m.path.head?).dedup := by
  have hfull : members.filter (fun info => decide (info.filename ≠ "")) = members := by
    refine List.filter_eq_self.mpr fun m hm => ?_
    rw [decide_eq_true_eq]
    intro hempty
    have htail := (parse_filename (hwell.names m hm)).2
    rw [hempty] at htail
    exact m.path_ne_nil htail.symm
  rw [get_zip_roots, hfull]
  congr 1
  refine List.filterMap_congr fun m hm => ?_
  obtain ⟨hroot, htail⟩ := parse_filename (hwell.names m hm)
  simp only [PurePath.parts, hroot, htail]

/-- There is one root exactly when all members share their first component. -/
theorem WellFormed.one_root : ((get_zip_roots members).length == 1) = sharedTop members := by
  rw [hwell.zip_roots, Bool.eq_iff_iff, beq_iff_eq, List.length_eq_one_iff]
  cases members with
  | nil => simp [sharedTop]
  | cons m ms =>
      obtain ⟨root, hroot⟩ : ∃ root, m.path.head? = some root := by
        rw [← Option.isSome_iff_exists, List.isSome_head?]
        simpa using m.path_ne_nil
      have hmem : root ∈ (m :: ms).filterMap fun m => m.path.head? :=
        List.mem_filterMap.mpr ⟨m, List.mem_cons_self, hroot⟩
      simp only [sharedTop, List.all_eq_true, beq_iff_eq, hroot]
      constructor
      · rintro ⟨root', hone⟩ m' hm'
        have hall : ∀ b ∈ (m :: ms).filterMap fun m => m.path.head?, b = root' := fun b hb =>
          List.mem_singleton.mp (hone ▸ List.mem_dedup.mpr hb)
        obtain ⟨root'', hroot''⟩ : ∃ root', m'.path.head? = some root' := by
          rw [← Option.isSome_iff_exists, List.isSome_head?]
          simpa using m'.path_ne_nil
        rw [hroot'', hall root hmem, hall root'' (List.mem_filterMap.mpr ⟨m', List.mem_cons_of_mem _ hm', hroot''⟩)]
      · intro hall
        refine ⟨root, dedup_eq_singleton (List.ne_nil_of_mem hmem) fun b hb => ?_⟩
        obtain ⟨m', hm', hhead⟩ := List.mem_filterMap.mp hb
        rcases List.mem_cons.mp hm' with rfl | hm'
        · exact Option.some.inj (hhead.symm.trans hroot)
        · exact Option.some.inj (hhead.symm.trans (hall m' hm'))

end WellFormed

/-! ## Unpacking -/

/-- The handled members are unpacked into the container, and nothing else has changed. -/
structure Unpacked (shared : Bool) (container : Loc) (done : List (ZipMember α)) (t t' : FileTree α) : Prop where
  isDir : t'.isDir container = true
  outside : ∀ q, ¬ container <+: q → t'.get q = t.get q
  file : ∀ r x, t'.get (container ++ r) = some (.file x) ↔
    ∃ m ∈ done, m.is_dir = false ∧ m.target shared = r ∧ m.data = x
  dir : ∀ r, r ≠ [] → t'.get (container ++ r) = some .dir →
    ∃ m ∈ done, m.is_dir = false ∧ r <+: m.target shared ∧ r ≠ m.target shared

/-- The new container is empty. -/
theorem Unpacked.nil {shared : Bool} {container : Loc} {t t' : FileTree α} (hfree : t.exists container = false)
    (hdir : t.isDir container.parent = true)
    (hget : ∀ q, t'.get q = if q <+: container then some .dir else t.get q) : Unpacked shared container [] t t' := by
  have hbelow : ∀ r, r ≠ [] → t'.get (container ++ r) = none := by
    intro r hr
    rw [hget, if_neg fun h => hr (by simpa using h.eq_of_length_le (by simp))]
    cases h : t.get (container ++ r) with
    | none => rfl
    | some n => exact absurd (List.prefix_append container r) (Disk.not_below_free hfree h)
  refine ⟨FileTree.isDir_iff.mpr (by rw [hget, if_pos (List.prefix_refl _)]), fun q hq => ?_, fun r x => ?_, fun r hr h => ?_⟩
  · rw [hget]
    split
    · rename_i hle
      have hne : q ≠ container := by
        rintro rfl
        exact hq (List.prefix_refl q)
      have habove : q <+: container.parent := by
        rcases Loc.eq_nil_or_concat container with rfl | ⟨p, c, rfl⟩
        · exact absurd (List.prefix_nil.mp hle) hne
        · rw [Loc.parent_concat]
          exact (List.prefix_concat_iff.mp hle).resolve_left hne
      by_cases hpar : q = container.parent
      · exact (FileTree.isDir_iff.mp (hpar ▸ hdir)).symm
      · exact (FileTree.isDir_iff.mp (FileTree.isDir_above habove hpar (FileTree.exists_of_isDir hdir))).symm
    · rfl
  · refine iff_of_false (fun h => ?_) fun ⟨_, hm, _⟩ => List.not_mem_nil hm
    by_cases hr : r = []
    · rw [hr, List.append_nil, hget, if_pos (List.prefix_refl _)] at h
      cases h
    · rw [hbelow r hr] at h
      cases h
  · rw [hbelow r hr] at h
    cases h

/-- A directory among the members is skipped. -/
theorem Unpacked.skip {shared : Bool} {container : Loc} {done : List (ZipMember α)} {m : ZipMember α} {t t' : FileTree α}
    (h : Unpacked shared container done t t') (hdir : m.is_dir = true) : Unpacked shared container (done ++ [m]) t t' := by
  refine ⟨h.isDir, h.outside, fun r x => ?_, fun r hr hget => ?_⟩
  · rw [h.file]
    simp [hdir]
  · obtain ⟨m', hm', hrest⟩ := h.dir r hr hget
    exact ⟨m', List.mem_append_left _ hm', hrest⟩

/-- A file is written below the container, in directories made for it. -/
theorem Unpacked.write {shared : Bool} {container : Loc} {done : List (ZipMember α)} {m : ZipMember α} {t t' t'' : FileTree α}
    (h : Unpacked shared container done t t') (hfile : m.is_dir = false) (hne : m.target shared ≠ [])
    (hget : ∀ q, t''.get q = if q = container ++ m.target shared then some (.file m.data)
      else if q <+: container ++ (m.target shared).dropLast then some .dir else t'.get q)
    (hnew : t'.exists (container ++ m.target shared) = false)
    (hno : ∀ q, q <+: container ++ (m.target shared).dropLast → t'.isFile q = false) :
    Unpacked shared container (done ++ [m]) t t'' := by
  have hcontainer : container ≠ container ++ m.target shared := by simpa using hne
  have hproper : ∀ r, container ++ r <+: container ++ (m.target shared).dropLast →
      r <+: m.target shared ∧ r ≠ m.target shared := by
    intro r hr
    have hr := (List.prefix_append_right_inj container).mp hr
    refine ⟨hr.trans (List.dropLast_prefix _), ?_⟩
    rintro rfl
    have := hr.length_le
    have := List.length_pos_of_ne_nil hne
    rw [List.length_dropLast] at *
    omega
  refine ⟨?_, fun q hq => ?_, fun r x => ?_, fun r hr hdir => ?_⟩
  · rw [FileTree.isDir_iff, hget, if_neg hcontainer, if_pos (List.prefix_append _ _)]
  · have hq' : q ≠ container ++ m.target shared := by
      rintro rfl
      exact hq (List.prefix_append _ _)
    rw [hget, if_neg hq']
    split
    · -- above the container there are directories already
      rename_i hle
      rcases List.prefix_or_prefix_of_prefix hle (List.prefix_append container _) with hle | hle
      · have habove := FileTree.isDir_above hle (fun heq => hq (heq ▸ List.prefix_refl _)) (FileTree.exists_of_isDir h.isDir)
        rw [← h.outside q hq]
        exact (FileTree.isDir_iff.mp habove).symm
      · exact absurd hle hq
    · exact h.outside q hq
  · rw [hget]
    by_cases hr : r = m.target shared
    · subst hr
      rw [if_pos rfl, Option.some.injEq, Node.file.injEq]
      constructor
      · exact fun hx => ⟨m, List.mem_append_right _ (List.mem_singleton_self m), hfile, rfl, hx⟩
      · rintro ⟨m', hm', hfile', htarget, hx⟩
        rcases List.mem_append.mp hm' with hm' | hm'
        · have hold := (h.file _ _).mpr ⟨m', hm', hfile', htarget, hx⟩
          rw [FileTree.exists_eq_false.mp hnew] at hold
          cases hold
        · rwa [← List.mem_singleton.mp hm']
    · rw [if_neg (by simpa using hr)]
      have hold : (∃ m' ∈ done ++ [m], m'.is_dir = false ∧ m'.target shared = r ∧ m'.data = x) ↔
          t'.get (container ++ r) = some (.file x) := by
        rw [h.file]
        constructor
        · rintro ⟨m', hm', hrest⟩
          rcases List.mem_append.mp hm' with hm' | hm'
          · exact ⟨m', hm', hrest⟩
          · exact absurd (List.mem_singleton.mp hm' ▸ hrest.2.1).symm hr
        · rintro ⟨m', hm', hrest⟩
          exact ⟨m', List.mem_append_left _ hm', hrest⟩
      rw [hold]
      split
      · rename_i hle
        refine iff_of_false (fun hx => nomatch hx) fun hx => ?_
        have := hno _ hle
        rw [FileTree.isFile_iff.mpr ⟨x, hx⟩] at this
        cases this
      · exact Iff.rfl
  · rw [hget] at hdir
    split at hdir
    · cases hdir
    · split at hdir
      · rename_i hle
        exact ⟨m, List.mem_append_right _ (List.mem_singleton_self m), hfile, hproper r hle⟩
      · obtain ⟨m', hm', hrest⟩ := h.dir r hr hdir
        exact ⟨m', List.mem_append_left _ hm', hrest⟩

theorem target_isName {m : ZipMember α} (hnames : ∀ c ∈ m.path, IsName c) (shared : Bool) :
    ∀ c ∈ m.target shared, IsName c := by
  intro c hc
  cases shared with
  | true => exact hnames c (List.mem_of_mem_drop hc)
  | false => exact hnames c hc

/-- What is left of the name of a member to find its place in the container. -/
def memberPath (shared : Bool) (m : ZipMember α) : PurePath :=
  if shared then dropFirstPart (.parse m.filename) else .parse m.filename

theorem memberPath_tail {m : ZipMember α} (hnames : ∀ c ∈ m.path, IsName c) (shared : Bool) :
    (memberPath shared m).tail = m.target shared := by
  obtain ⟨hroot, htail⟩ := parse_filename hnames
  cases shared with
  | true =>
      rw [memberPath, if_pos rfl, dropFirstPart, hroot]
      exact congrArg (List.drop 1) htail
  | false => exact htail

/-- The body of the loop for a file whose name leads to `target`. -/
theorem extract_member_eq {shared : Bool} {container target : Loc} {m : ZipMember α} (hfile : m.is_dir = false)
    (hreadable : m.opens = true ∧ m.complete = true) (hsafe : safe_user_path container (memberPath shared m) = .ok target)
    (d : Disk α) : extract_member shared container m d = (do
      Disk.mkdirs target.parent
      Disk.write target m.data : Fs α Unit) d := by
  rw [extract_member, hfile, if_neg Bool.false_ne_true]
  show (Eff.ofExcept (safe_user_path container (memberPath shared m)) >>= _) d = _
  rw [hsafe, Eff.ofExcept_ok_bind, hreadable.1, hreadable.2, Eff.bind_run, Eff.bind_run]
  rcases (Disk.mkdirs target.parent : Fs α Unit) d with ⟨_ | _, d₁⟩
  · rfl
  · show ((Disk.write target m.data : Fs α Unit) >>= fun _ => Eff.raiseIf false .zipMember) d₁ = Disk.write target m.data d₁
    rw [Eff.bind_run]
    rcases (Disk.write target m.data : Fs α Unit) d₁ with ⟨_ | _, _⟩ <;> rfl

/-- One turn of the loop, for a member that lies beside those before it. -/
theorem extract_member_run {shared : Bool} {container : Loc} {done : List (ZipMember α)} {m : ZipMember α} {t : FileTree α}
    {d : Disk α} (h : Unpacked shared container done t d.tree) (hnames : ∀ c ∈ m.path, IsName c)
    (hreadable : m.opens = true ∧ m.complete = true) (hne : m.is_dir = false → m.target shared ≠ [])
    (hapart : m.is_dir = false → ∀ m' ∈ done, m'.is_dir = false →
      ¬ m'.target shared <+: m.target shared ∧ ¬ m.target shared <+: m'.target shared) :
    ∃ d', extract_member shared container m d = (.ok (), d') ∧ Unpacked shared container (done ++ [m]) t d'.tree := by
  cases hdir : m.is_dir with
  | true => exact ⟨d, by rw [extract_member, hdir, if_pos rfl]; rfl, h.skip hdir⟩
  | false =>
      have hne := hne hdir
      have hapart := hapart hdir
      have hcnames := FileTree.isName_of_exists (FileTree.exists_of_isDir h.isDir)
      have htnames := target_isName hnames shared
      have hsafe : safe_user_path container (memberPath shared m) = .ok (container ++ m.target shared) := by
        rw [← memberPath_tail hnames shared]
        exact safe_user_path_append (fun c hc => (hcnames c hc).2.2.1) (memberPath_tail hnames shared ▸ htnames)
      have hparent : (container ++ m.target shared).parent = container ++ (m.target shared).dropLast :=
        List.dropLast_append_of_ne_nil hne
      have hno : ∀ q, q <+: container ++ (m.target shared).dropLast → d.tree.isFile q = false := by
        intro q hq
        rcases List.prefix_or_prefix_of_prefix hq (List.prefix_append container _) with hle | ⟨r, rfl⟩
        · exact FileTree.isFile_eq_false_above hle h.isDir
        · by_contra hfile
          obtain ⟨x, hx⟩ := FileTree.isFile_iff.mp (by simpa using hfile)
          obtain ⟨m', hm', hfile', rfl, _⟩ := (h.file r x).mp hx
          have hle := (List.prefix_append_right_inj container).mp hq
          exact (hapart m' hm' hfile').1 (hle.trans (List.dropLast_prefix _))
      have hnew : d.tree.exists (container ++ m.target shared) = false := by
        by_contra hex
        obtain ⟨n, hn⟩ := FileTree.exists_iff.mp (by simpa using hex)
        cases n with
        | dir =>
            obtain ⟨m', hm', hfile', hle, _⟩ := h.dir _ hne hn
            exact (hapart m' hm' hfile').2 hle
        | file x =>
            obtain ⟨m', hm', hfile', heq, _⟩ := (h.file _ x).mp hn
            exact (hapart m' hm' hfile').1 (heq ▸ List.prefix_refl _)
      have hmknames : ∀ c ∈ container ++ (m.target shared).dropLast, IsName c := by
        intro c hc
        rcases List.mem_append.mp hc with hc | hc
        · exact hcnames c hc
        · exact htnames c ((List.dropLast_sublist _).subset hc)
      obtain ⟨d₁, hmk, hget₁⟩ := Disk.mkdirs_exact (ε := PyError) hmknames hno
      have hlong : ¬ container ++ m.target shared <+: container ++ (m.target shared).dropLast := by
        intro hle
        have := ((List.prefix_append_right_inj container).mp hle).length_le
        have := List.length_pos_of_ne_nil hne
        rw [List.length_dropLast] at *
        omega
      have hnew₁ : d₁.tree.exists (container ++ m.target shared) = false := by
        rw [FileTree.exists_eq_false, hget₁, if_neg hlong]
        exact FileTree.exists_eq_false.mp hnew
      have hdir₁ : d₁.tree.isDir (container ++ m.target shared).parent = true := by
        rw [hparent, FileTree.isDir_iff, hget₁, if_pos (List.prefix_refl _)]
      have hname : IsName (Loc.name (container ++ m.target shared)) := by
        rw [Loc.name, List.getLast?_append_of_ne_nil _ hne, List.getLast?_eq_some_getLast hne]
        exact htnames _ (List.getLast_mem hne)
      obtain ⟨d₂, hwrite, hget₂⟩ := Disk.write_new (ε := PyError) m.data hnew₁ hdir₁ hname
      refine ⟨d₂, ?_, h.write hdir hne (fun q => ?_) hnew hno⟩
      · rw [extract_member_eq hdir hreadable hsafe, hparent, Eff.bind_run_ok hmk]
        exact hwrite
      · rw [hget₂, hget₁]

section Run

variable {members : List (ZipMember α)} (hwell : WellFormed members)

include hwell

/-- With a shared first component, only a single file has nothing left when it is removed. -/
theorem WellFormed.target_ne_nil (hlone : ¬ ∃ m, members = [m] ∧ m.is_dir = false ∧ m.path.length = 1) {m : ZipMember α}
    (hm : m ∈ members) (hfile : m.is_dir = false) : m.target (sharedTop members) ≠ [] := by
  cases hshared : sharedTop members with
  | false => exact m.path_ne_nil
  | true =>
      intro hnil
      have hpos := List.length_pos_of_ne_nil m.path_ne_nil
      have hone : m.path.length = 1 := by
        have := congrArg List.length hnil
        simp only [ZipMember.target, if_true, List.length_drop, List.length_nil] at this
        omega
      obtain ⟨root, hroot⟩ := List.length_eq_one_iff.mp hone
      have hhead : ∀ m' ∈ members, m'.path.head? = some root := fun m' hm' => by
        rw [head_of_sharedTop hshared hm' hm, hroot]
        rfl
      -- every member is at or below the file
      have hsame : ∀ m' ∈ members, m'.path = m.path := by
        intro m' hm'
        refine (hwell.above m hm m' hm' hfile ?_).symm
        obtain ⟨rest, hrest⟩ := List.head?_eq_some_iff.mp (hhead m' hm')
        exact ⟨rest, by rw [hroot, hrest]; rfl⟩
      refine hlone ⟨m, ?_, hfile, hone⟩
      have hpaths : members.map ZipMember.path = [m.path] := by
        refine List.perm_singleton.mp ((List.perm_ext_iff_of_nodup hwell.distinct (List.nodup_singleton _)).mpr fun p => ?_)
        rw [List.mem_singleton, List.mem_map]
        constructor
        · rintro ⟨m', hm', rfl⟩
          exact hsame m' hm'
        · rintro rfl
          exact ⟨m, hm, rfl⟩
      obtain ⟨m', hmembers, _⟩ := List.map_eq_singleton_iff.mp hpaths
      rw [hmembers] at hm ⊢
      rw [List.mem_singleton.mp hm]

/-- Two members with comparable targets, one of them a file, are the same. -/
theorem WellFormed.target_prefix {m m' : ZipMember α} (hm : m ∈ members) (hm' : m' ∈ members) (hfile : m.is_dir = false)
    (h : m.target (sharedTop members) <+: m'.target (sharedTop members)) : m.path = m'.path := by
  refine hwell.above m hm m' hm' hfile ?_
  cases hshared : sharedTop members with
  | false => rwa [hshared] at h
  | true =>
      rw [hshared] at h
      have hhead := head_of_sharedTop hshared hm hm'
      rcases hpath : m.path with _ | ⟨a, p⟩
      · exact absurd hpath m.path_ne_nil
      · rcases hpath' : m'.path with _ | ⟨a', p'⟩
        · exact absurd hpath' m'.path_ne_nil
        · rw [hpath, hpath', List.head?_cons, List.head?_cons, Option.some.injEq] at hhead
          rw [ZipMember.target, ZipMember.target, if_pos rfl, if_pos rfl, hpath, hpath'] at h
          rw [hhead]
          exact (List.prefix_cons_inj a').mpr h

/-- The loop over the members. -/
theorem WellFormed.extract_run (hlone : ¬ ∃ m, members = [m] ∧ m.is_dir = false ∧ m.path.length = 1) {container : Loc}
    {t : FileTree α} {d : Disk α} (h : Unpacked (sharedTop members) container [] t d.tree) :
    ∃ d', members.forM (extract_member (sharedTop members) container) d = (.ok (), d') ∧
      Unpacked (sharedTop members) container members t d'.tree := by
  have key (rest : List (ZipMember α)) : ∀ done d, members = done ++ rest →
      Unpacked (sharedTop members) container done t (Disk.tree d) →
        ∃ d', rest.forM (extract_member (sharedTop members) container) d = (.ok (), d') ∧
          Unpacked (sharedTop members) container members t d'.tree := by
    induction rest with
    | nil =>
        intro done d hsplit hdone
        rw [List.append_nil] at hsplit
        exact ⟨d, rfl, hsplit ▸ hdone⟩
    | cons m rest ih =>
        intro done d hsplit hdone
        have hm : m ∈ members := hsplit ▸ List.mem_append_right done List.mem_cons_self
        -- no member before this one has its path
        have hother : ∀ m' ∈ done, m'.path ≠ m.path := by
          intro m' hm' heq
          have hdistinct := hwell.distinct
          rw [hsplit, List.map_append, List.map_cons] at hdistinct
          exact (List.nodup_append.mp hdistinct).2.2 _ (List.mem_map_of_mem hm') _ List.mem_cons_self heq
        obtain ⟨d₁, hrun, hdone₁⟩ := extract_member_run hdone (hwell.names m hm) (hwell.readable m hm)
          (hwell.target_ne_nil hlone hm) fun hfile m' hm' hfile' => by
            have hm'' : m' ∈ members := hsplit ▸ List.mem_append_left _ hm'
            exact ⟨fun hle => hother m' hm' (hwell.target_prefix hm'' hm hfile' hle),
              fun hle => hother m' hm' (hwell.target_prefix hm hm'' hfile hle).symm⟩
        obtain ⟨d', hrest, hall⟩ := ih (done ++ [m]) d₁ (by rw [hsplit, List.append_assoc]; rfl) hdone₁
        refine ⟨d', ?_, hall⟩
        rw [List.forM_eq_forM, List.forM_cons, Eff.bind_run_ok hrun]
        exact hrest
  exact key members [] d rfl h

/-- The members are unpacked into a new directory, found from a name in an existing one. -/
theorem WellFormed.extract_members_run (hlone : ¬ ∃ m, members = [m] ∧ m.is_dir = false ∧ m.path.length = 1) {container : Loc}
    {d : Disk α} (hdir : d.tree.isDir container.parent = true) (hnames : ∀ c ∈ container, IsName c) :
    ∃ d', extract_members members container d = (.ok (), d') ∧
      d.tree.exists (change_path_name_if_exists d.tree container) = false ∧
      Unpacked (sharedTop members) (change_path_name_if_exists d.tree container) members d.tree d'.tree := by
  have hfree := (change_path_name_cases d.tree container).1
  have hparent := change_path_name_parent d.tree container
  rw [← hparent] at hdir
  obtain ⟨d₁, hmk, hget⟩ := Disk.mkdirs_new (ε := PyError) (change_path_name_isName hnames) hfree hdir
  obtain ⟨d', hrun, hall⟩ := hwell.extract_run hlone (Unpacked.nil hfree hdir hget)
  refine ⟨d', ?_, hfree, hall⟩
  rw [extract_members, Disk.look, Eff.read_bind_run, Eff.bind_run_ok hmk, hwell.one_root]
  exact hrun

/-- A single file at the top has no place of its own below the container. -/
theorem WellFormed.extract_lone_raises {m : ZipMember α} (hmembers : members = [m]) (hfile : m.is_dir = false)
    (hlone : m.path.length = 1) {container : Loc} {d : Disk α} (hdir : d.tree.isDir container.parent = true)
    (hnames : ∀ c ∈ container, IsName c) : ∃ e, (extract_members members container d).1 = .error e := by
  have hshared : sharedTop members = true := by
    rw [hmembers]
    rfl
  have hroots := hwell.one_root
  have hmnames := hwell.names m (hmembers ▸ List.mem_singleton_self m)
  have hfree := (change_path_name_cases d.tree container).1
  have hparent := change_path_name_parent d.tree container
  rw [← hparent] at hdir
  have hnames := change_path_name_isName (t := d.tree) hnames
  unfold extract_members
  rw [Disk.look, Eff.read_bind_run, hroots, hshared, hmembers]
  generalize change_path_name_if_exists d.tree container = fresh at *
  obtain ⟨d₁, hmk, hget⟩ := Disk.mkdirs_new (ε := PyError) hnames hfree hdir
  have hmade : d₁.tree.isDir fresh = true := FileTree.isDir_iff.mpr (by rw [hget, if_pos (List.prefix_refl _)])
  have htail : (memberPath true m).tail = [] := by
    rw [memberPath_tail hmnames]
    exact List.drop_eq_nil_iff.mpr (Nat.le_of_eq hlone)
  have hsafe : safe_user_path fresh (memberPath true m) = .ok fresh := by
    rw [safe_user_path_append (fun c hc => (hnames c hc).2.2.1) (by simp [htail]), htail, List.append_nil]
  have hmember : extract_member true fresh m d₁ = (.error (.os .isADirectory), d₁) := by
    have hparent := FileTree.isDir_parent (FileTree.exists_of_isDir hmade)
    rw [extract_member_eq hfile (hwell.readable m (hmembers ▸ List.mem_singleton_self m)) hsafe,
      Eff.bind_run_ok (Disk.mkdirs_of_isDir hparent)]
    exact Disk.write_fails_of_isDir m.data hmade
  refine ⟨.os .isADirectory, ?_⟩
  rw [Eff.bind_run_ok hmk, List.forM_eq_forM, List.forM_cons, Eff.bind_run_error hmember]

/-- The files of the tree after the extraction: those before it, and one for each file among the members. -/
theorem WellFormed.files_perm {container : Loc} {t t' : FileTree α} (hfree : t.exists container = false)
    (h : Unpacked (sharedTop members) container members t t') :
    t'.files.Perm (t.files ++ (members.filter fun m => !m.is_dir).map
      fun m => (container ++ m.target (sharedTop members), m.data)) := by
  have hnew : ∀ p, p ∈ (members.filter fun m => !m.is_dir).map (fun m => (container ++ m.target (sharedTop members), m.data)) ↔
      ∃ r x, p = (container ++ r, x) ∧ ∃ m ∈ members, m.is_dir = false ∧ m.target (sharedTop members) = r ∧ m.data = x := by
    intro p
    simp only [List.mem_map, List.mem_filter, Bool.not_eq_true']
    constructor
    · rintro ⟨m, ⟨hm, hfile⟩, rfl⟩
      exact ⟨_, _, rfl, m, hm, hfile, rfl, rfl⟩
    · rintro ⟨_, _, rfl, m, hm, hfile, rfl, rfl⟩
      exact ⟨m, ⟨hm, hfile⟩, rfl⟩
  have hbelow : ∀ r x, (container ++ r, x) ∉ t.files := fun r x hold =>
    Disk.not_below_free hfree (FileTree.mem_files.mp hold) (List.prefix_append _ _)
  refine (List.perm_ext_iff_of_nodup t'.nodup_files (List.nodup_append.mpr ⟨t.nodup_files, ?_, ?_⟩)).mpr ?_
  · -- two files with one target have one path
    refine (hwell.distinct.of_map.filter _).map_on fun m hm m' hm' heq => ?_
    obtain ⟨hm, hfile⟩ := List.mem_filter.mp hm
    obtain ⟨hm', _⟩ := List.mem_filter.mp hm'
    have htarget := List.append_cancel_left (Prod.mk.inj heq).1
    have hpath := hwell.target_prefix hm hm' (by simpa using hfile) (htarget ▸ List.prefix_refl _)
    exact List.inj_on_of_nodup_map hwell.distinct hm hm' hpath
  · intro p hp p' hp' heq
    obtain ⟨r, x, rfl, _⟩ := (hnew p').mp hp'
    exact hbelow r x (heq ▸ hp)
  · rintro ⟨q, x⟩
    rw [List.mem_append, hnew, FileTree.mem_files, FileTree.mem_files]
    by_cases hq : container <+: q
    · obtain ⟨r, rfl⟩ := hq
      rw [h.file, or_iff_right fun hold => hbelow r x (FileTree.mem_files.mpr hold)]
      constructor
      · exact fun hm => ⟨r, x, rfl, hm⟩
      · rintro ⟨r', x', heq, hm⟩
        obtain ⟨hr, rfl⟩ := Prod.mk.inj heq
        rwa [List.append_cancel_left hr]
    · rw [h.outside q hq, or_iff_left]
      rintro ⟨r, x', heq, _⟩
      exact hq ((Prod.mk.inj heq).1 ▸ List.prefix_append _ _)

/-- The name of the container is the shared first component, or the stem of the archive. -/
theorem WellFormed.container_name_cases (archive : Loc) :
    (sharedTop members = true → IsName (container_name (get_zip_roots members) archive)) ∧
      (sharedTop members = false → container_name (get_zip_roots members) archive = stem archive.name) := by
  have hone := hwell.one_root
  constructor
  · intro hshared
    rw [hshared, beq_iff_eq, List.length_eq_one_iff] at hone
    obtain ⟨root, hroots⟩ := hone
    have hmem : root ∈ get_zip_roots members := hroots ▸ List.mem_singleton_self root
    rw [hwell.zip_roots, List.mem_dedup, List.mem_filterMap] at hmem
    obtain ⟨m, hm, hhead⟩ := hmem
    rw [hroots]
    exact hwell.names m hm root (List.mem_of_mem_head? hhead)
  · intro hshared
    rw [hshared, beq_eq_false_iff_ne] at hone
    unfold container_name
    split
    · rename_i root hroots
      rw [hroots] at hone
      exact absurd rfl hone
    · rfl

end Run

/-! ## The archive -/

variable {extract_dir : Loc}

/-- A proper name denotes an entry of the directory, and a dot the directory itself. -/
theorem safe_container {name : String} (hdir : ∀ c ∈ extract_dir, c ≠ "..") (hname : IsName name ∨ name = ".") :
    ∃ container, safe_user_path extract_dir (.parse name) = .ok container ∧
      (container = extract_dir ∨ IsName name ∧ container = extract_dir ++ [name]) := by
  rcases hname with hname | rfl
  · have htail : (PurePath.parse name).tail = [name] := components_of_isComponent hname.isComponent
    refine ⟨extract_dir ++ [name], ?_, Or.inr ⟨hname, rfl⟩⟩
    rw [safe_user_path_append hdir (by simpa [htail] using hname), htail]
  · refine ⟨extract_dir, ?_, Or.inl rfl⟩
    have htail : (PurePath.parse ".").tail = [] := rfl
    rw [safe_user_path_append hdir (by simp [htail]), htail, List.append_nil]

theorem safe_container_parent (hdir : ∀ c ∈ extract_dir, c ≠ "..") (hne : extract_dir ≠ []) :
    ∃ e, safe_user_path extract_dir (.parse "..") = .error e := by
  rcases hsafe : safe_user_path extract_dir (.parse "..") with e | container
  · exact ⟨e, rfl⟩
  · obtain ⟨_, heq, hle⟩ := (safe_user_path_ok hdir).mp hsafe
    have hup : container = extract_dir.dropLast := heq
    have := hle.length_le
    have := List.length_pos_of_ne_nil hne
    rw [hup, List.length_dropLast] at *
    omega

/-- An archive in the data directory is extracted next to itself. -/
theorem extract_archive_eq {id : Uuid4} {path : PurePath} {archive : Loc} {content : α} {members : List (ZipMember α)}
    {d : Disk α} (hsafe : safe_user_path (miniverse_data_path pf id) path = .ok archive)
    (hget : d.tree.get archive = some (.file content)) (hzip : (suffix archive.name).toList.map Char.toLower = ".zip".toList)
    (hmembers : pf.zipfile content = some members) :
    extract_miniverse_archive pf id path d =
      (Eff.ofExcept (safe_user_path archive.parent (.parse (container_name (get_zip_roots members) archive))) >>=
        extract_members members) d := by
  have hfile : d.tree.isFile archive = true := FileTree.isFile_iff.mpr ⟨content, hget⟩
  have hread : (Disk.readFile archive : Fs α α) d = (.ok content, d) := by simp only [Disk.readFile, hget]
  unfold extract_miniverse_archive
  rw [hsafe, Eff.ofExcept_ok_bind, Disk.look, Eff.read_bind_run, hfile, Bool.not_true, Eff.raiseIf_false_bind, if_pos hzip,
    _extract_zip, Eff.bind_run_ok hread, hmembers, Eff.getOr_some_bind]

end Backend
