import Miniverse.Files.Reads
import Miniverse.Files.Lemmas.Confine
import Miniverse.Lib.Subtree

/-!
# The entries of an archive

The selection is confined on one list of locations and walked on the paths as the user wrote them. What the process finds at
a path is compared with what the path denotes.
-/

namespace Backend

open Lib

variable {α : Type} {pf : Platform α}

/-- The file `rel` below what the process finds at the path. -/
def FoundBelow (pf : Platform α) (t : FileTree α) (path : PurePath) (rel : Loc) (x : α) : Prop :=
  ∃ p, t.locate pf.cwd path = some p ∧ t.get (p ++ rel) = some (.file x)

/-- What the archive should have for the selected locations, with names relative to their parent. -/
def expected_entries (t : FileTree α) (parent : Loc) (files : List Loc) : List (String × α) :=
  files.flatMap fun file => (listedFiles t file).map fun f => (relativePosix parent f.1, f.2)

/-- A name that an archive keeps as it is. -/
def ArchiveName (name : String) : Prop :=
  ∃ c rel, (IsName c ∨ c = "..") ∧ (∀ d ∈ rel, IsName d) ∧ name = relativePosix [] (c :: rel)

/-! ## Names -/

theorem relativePosix_append (parent rel : Loc) : relativePosix parent (parent ++ rel) = relativePosix [] rel := by
  rw [relativePosix, relativePosix, List.drop_left, List.length_nil, List.drop_zero]

/-- A location is read back from its text. -/
theorem components_relativePosix {p : Loc} (hp : ∀ c ∈ p, IsComponent c) : components (relativePosix [] p).toList = p := by
  rw [relativePosix, String.toList_ofList, List.length_nil, List.drop_zero]
  exact components_intercalate hp

theorem relativePosix_injective {p q : Loc} (hp : ∀ c ∈ p, IsComponent c) (hq : ∀ c ∈ q, IsComponent c)
    (h : relativePosix [] p = relativePosix [] q) : p = q := by
  rw [← components_relativePosix hp, ← components_relativePosix hq, h]

/-- Lists of files with the same names have the same locations. -/
theorem map_names_injective {l l' : List (Loc × α)} (hl : ∀ e ∈ l, ∀ c ∈ e.1, IsComponent c)
    (hl' : ∀ e ∈ l', ∀ c ∈ e.1, IsComponent c)
    (h : l.map (fun e => (relativePosix [] e.1, e.2)) = l'.map fun e => (relativePosix [] e.1, e.2)) : l = l' := by
  -- the locations are read back from the names
  have hread {l : List (Loc × α)} (hl : ∀ e ∈ l, ∀ c ∈ e.1, IsComponent c) :
      (l.map fun e => (relativePosix [] e.1, e.2)).map (fun e => (components e.1.toList, e.2)) = l := by
    rw [List.map_map, List.map_congr_left, List.map_id]
    exact fun e he => Prod.ext (components_relativePosix (hl e he)) rfl
  rw [← hread hl, h, hread hl']

/-! ## What is walked -/

/-- The files at and below a location, stored under a name for the location. -/
def storedUnder (t : FileTree α) (c : String) (p : Loc) : List (String × α) :=
  (listedFiles t p).map fun f => (relativePosix [] (c :: f.1.drop p.length), f.2)

theorem mem_storedUnder {t : FileTree α} {c : String} {p : Loc} {name : String} {x : α} :
    (name, x) ∈ storedUnder t c p ↔ ∃ rel, t.get (p ++ rel) = some (.file x) ∧ name = relativePosix [] (c :: rel) := by
  simp only [storedUnder, List.mem_map, Prod.mk.injEq]
  constructor
  · rintro ⟨⟨q, y⟩, hmem, rfl, rfl⟩
    obtain ⟨⟨rel, rfl⟩, hget⟩ := mem_listedFiles.mp hmem
    exact ⟨rel, hget, by rw [List.drop_left]⟩
  · rintro ⟨rel, hget, rfl⟩
    exact ⟨(_, x), mem_listedFiles.mpr ⟨List.prefix_append _ rel, hget⟩, by rw [List.drop_left], rfl⟩

theorem nodup_listedFiles (t : FileTree α) (path : Loc) : (listedFiles t path).Nodup := by
  unfold listedFiles
  rcases t.get path with _ | _ | x
  · exact List.nodup_nil
  · exact t.nodup_files.sublist (List.Sublist.filterMap _ List.filter_sublist)
  · exact List.nodup_singleton _

theorem isComponent_below {t : FileTree α} {p rel : Loc} {c : String} {x : α} (hc : IsComponent c)
    (hget : t.get (p ++ rel) = some (.file x)) : ∀ d ∈ c :: rel, IsComponent d := by
  intro d hd
  rcases List.mem_cons.mp hd with rfl | hd
  · exact hc
  · exact (FileTree.isName_of_exists (FileTree.exists_iff.mpr ⟨_, hget⟩) d (List.mem_append_right p hd)).isComponent

/-- Each file has a name of its own. -/
theorem nodup_storedUnder (t : FileTree α) {c : String} (hc : IsComponent c) (p : Loc) : (storedUnder t c p).Nodup := by
  refine (nodup_listedFiles t p).map_on ?_
  rintro ⟨q, x⟩ hq ⟨q', x'⟩ hq' heq
  obtain ⟨⟨rel, rfl⟩, hget⟩ := mem_listedFiles.mp hq
  obtain ⟨⟨rel', rfl⟩, hget'⟩ := mem_listedFiles.mp hq'
  obtain ⟨hname, rfl⟩ := Prod.mk.inj heq
  rw [List.drop_left, List.drop_left] at hname
  have := relativePosix_injective (isComponent_below hc hget) (isComponent_below hc hget') hname
  rw [(List.cons.inj this).2]

/-- The entries of an archive are the files that are found, with their locations as names. -/
theorem zip_entries_eq_found (t : FileTree α) (path : PurePath) :
    zip_entries pf t path = (foundAt pf t path).map fun e => (relativePosix [] e.1, e.2) := by
  unfold zip_entries foundAt listedFiles
  rcases t.locate pf.cwd path with _ | p
  · rfl
  · dsimp only
    rcases t.get p with _ | _ | x
    · rfl
    · dsimp only
      rw [List.map_filterMap, List.map_filterMap]
      refine List.filterMap_congr fun e _ => ?_
      rcases e with ⟨q, _ | y⟩ <;> rfl
    · simp

theorem flatMap_zip_entries (t : FileTree α) (paths : List PurePath) :
    paths.flatMap (zip_entries pf t) = (found pf t paths).map fun e => (relativePosix [] e.1, e.2) := by
  rw [found, List.map_flatMap]
  exact List.flatMap_congr fun path _ => zip_entries_eq_found t path

theorem isComponent_foundAt {t : FileTree α} {path : PurePath} {e : Loc × α} (he : e ∈ foundAt pf t path) :
    ∀ c ∈ e.1, IsComponent c := by
  unfold foundAt at he
  rcases hloc : t.locate pf.cwd path with _ | p
  · rw [hloc] at he
    cases he
  · rw [hloc] at he
    obtain ⟨f, hf, rfl⟩ := List.mem_map.mp he
    have hnames := FileTree.isName_of_exists (FileTree.exists_iff.mpr ⟨_, (mem_listedFiles.mp hf).2⟩)
    intro c hc
    rcases List.mem_append.mp hc with hc | hc
    · exact path.tail_ok c (List.mem_of_mem_drop hc)
    · exact (hnames c (List.mem_of_mem_drop hc)).isComponent

theorem isComponent_found {t : FileTree α} {paths : List PurePath} : ∀ e ∈ found pf t paths, ∀ c ∈ e.1, IsComponent c := by
  intro e he
  obtain ⟨path, _, hmem⟩ := List.mem_flatMap.mp he
  exact isComponent_foundAt hmem

/-- What is found at a path is stored under the last component of the path. -/
theorem zip_entries_eq {path : PurePath} {init : Loc} {c : String} (htail : path.tail = init ++ [c]) (t : FileTree α) :
    zip_entries pf t path = (t.locate pf.cwd path).elim [] (storedUnder t c) := by
  have hlast : path.tail.drop (path.tail.length - 1) = [c] := by simp [htail]
  rw [zip_entries_eq_found, foundAt, hlast]
  rcases t.locate pf.cwd path with _ | p
  · rfl
  · simp [storedUnder]

theorem mem_zip_entries {t : FileTree α} {path : PurePath} {init : Loc} {c : String} (htail : path.tail = init ++ [c])
    {name : String} {x : α} : (name, x) ∈ zip_entries pf t path ↔
      ∃ rel, FoundBelow pf t path rel x ∧ name = relativePosix [] (c :: rel) := by
  rw [zip_entries_eq htail]
  unfold FoundBelow
  rcases t.locate pf.cwd path with _ | p
  · simp
  · simp only [Option.elim, Option.some.injEq, exists_eq_left']
    exact mem_storedUnder

/-- What should be stored of a selected location, under its own name. -/
theorem expected_entries_eq {t : FileTree α} {parent : Loc} {files : List Loc}
    (hparent : ∀ file ∈ files, file = parent ++ [file.name]) :
    expected_entries t parent files = files.flatMap fun file => storedUnder t file.name file := by
  unfold expected_entries storedUnder
  rw [List.flatMap_congr]
  intro file hfile
  refine List.map_congr_left fun f hf => ?_
  obtain ⟨rel, hrel⟩ := (mem_listedFiles.mp hf).1
  have hsplit : f.1 = parent ++ (file.name :: rel) := by
    calc f.1 = parent ++ [file.name] ++ rel := by rw [← hparent file hfile, hrel]
      _ = parent ++ (file.name :: rel) := by simp
  rw [← hrel, List.drop_left, hrel, hsplit, relativePosix_append]

/-! ## A path and what it denotes -/

/-- Following the path finds the same files as the location has, and none when the path ends with the parent component. -/
def WalksSame (pf : Platform α) (t : FileTree α) (path : PurePath) (file : Loc) : Prop :=
  (∀ rel x, FoundBelow pf t path rel x ↔ t.get (file ++ rel) = some (.file x)) ∧
    (path.name = ".." → ∀ rel x, ¬ FoundBelow pf t path rel x)

/-- The last component of a path that denotes an entry is the name of the entry, or the parent component. -/
theorem last_component {root file : Loc} {path : PurePath} (hroot : ∀ c ∈ root, c ≠ "..")
    (hsafe : safe_user_path root path = .ok file) (hne : file ≠ root) :
    ∃ init, path.tail = init ++ [path.name] ∧ IsComponent path.name ∧ (path.name ≠ ".." → file.name = path.name) := by
  obtain ⟨_, rfl, _⟩ := (safe_user_path_ok hroot).mp hsafe
  rcases Loc.eq_nil_or_concat path.tail with hnil | ⟨init, c, htail⟩
  · rw [hnil] at hne
    exact absurd rfl hne
  · have hname : path.name = c := by simp [PurePath.name, htail]
    refine ⟨init, by rw [hname, htail], hname ▸ path.tail_ok c (by simp [htail]), fun hdots => ?_⟩
    rw [hname] at hdots ⊢
    rw [htail, resolveFrom_append, resolveFrom_cons, resolveFrom_nil, resolveStep, if_neg hdots, Loc.name_concat]

/-- One path: what is stored for it is what should be. -/
theorem WalksSame.perm {t : FileTree α} {file init : Loc} {path : PurePath} (h : WalksSame pf t path file)
    (htail : path.tail = init ++ [path.name]) (hcomponent : IsComponent path.name)
    (hname : path.name ≠ ".." → file.name = path.name) :
    (zip_entries pf t path).Perm (storedUnder t file.name file) := by
  by_cases hdots : path.name = ".."
  · -- nothing is found and nothing is there
    have hnone := h.2 hdots
    have hstored : zip_entries pf t path = [] := List.eq_nil_iff_forall_not_mem.mpr fun ⟨name, x⟩ hmem => by
      obtain ⟨rel, hfound, _⟩ := (mem_zip_entries htail).mp hmem
      exact hnone rel x hfound
    have hempty : storedUnder t file.name file = [] := List.eq_nil_iff_forall_not_mem.mpr fun ⟨name, x⟩ hmem => by
      obtain ⟨rel, hget, _⟩ := mem_storedUnder.mp hmem
      exact hnone rel x ((h.1 rel x).mpr hget)
    rw [hstored, hempty]
  · have hname := hname hdots
    have hnodup : (zip_entries pf t path).Nodup := by
      rw [zip_entries_eq htail]
      rcases t.locate pf.cwd path with _ | p
      · exact List.nodup_nil
      · exact nodup_storedUnder t hcomponent p
    refine (List.perm_ext_iff_of_nodup hnodup (nodup_storedUnder t (hname ▸ hcomponent) file)).mpr fun ⟨name, x⟩ => ?_
    rw [mem_zip_entries htail, mem_storedUnder, hname]
    exact exists_congr fun rel => and_congr_left fun _ => h.1 rel x

section Selection

variable {root parent : Loc} {paths : List PurePath} {files : List Loc} {t : FileTree α}

/-- The archive has what it should exactly when every path walks the same files as it denotes. -/
theorem entries_perm_iff (hroot : ∀ c ∈ root, IsName c) (hsafe : safe_user_paths root paths = .ok files)
    (hnodup : files.Nodup) (hne : ∀ file ∈ files, file ≠ root) (hparent : ∀ file ∈ files, file.parent = parent) :
    (paths.flatMap (zip_entries pf t)).Perm (expected_entries t parent files) ↔
      ∀ path ∈ paths, ∀ file, safe_user_path root path = .ok file → WalksSame pf t path file := by
  have hdots : ∀ c ∈ root, c ≠ ".." := fun c hc => (hroot c hc).2.2.1
  have hfull : ∀ file ∈ files, file = parent ++ [file.name] := by
    intro file hfile
    have hin := safe_user_paths_below hdots hsafe file hfile
    have hnil : file ≠ [] := by
      rintro rfl
      exact hne [] hfile (List.prefix_nil.mp hin).symm
    rw [← hparent file hfile]
    exact (Loc.parent_append_name hnil).symm
  have hnames : ∀ path ∈ paths, ∀ file, safe_user_path root path = .ok file → file ∈ files ∧ IsName file.name ∧
      ∃ init, path.tail = init ++ [path.name] ∧ IsComponent path.name ∧ (path.name ≠ ".." → file.name = path.name) := by
    intro path hpath file hfile
    have hmem := (mem_safe_user_paths hsafe file).mpr ⟨path, hpath, hfile⟩
    refine ⟨hmem, ?_, last_component hdots hfile (hne file hmem)⟩
    have hall := safe_user_path_isName hroot hfile
    exact hall _ (by rw [hfull file hmem]; simp)
  -- one entry is selected once
  have hunique : ∀ path ∈ paths, ∀ path' ∈ paths, ∀ file, safe_user_path root path = .ok file →
      safe_user_path root path' = .ok file → path = path' := by
    intro path hpath path' hpath' file hfile hfile'
    rw [safe_user_paths_eq hdots hsafe] at hnodup
    refine List.inj_on_of_nodup_map hnodup hpath hpath' ?_
    rw [← ((safe_user_path_ok hdots).mp hfile).2.1, ← ((safe_user_path_ok hdots).mp hfile').2.1]
  rw [expected_entries_eq hfull]
  constructor
  · intro hperm path hpath file hfile
    obtain ⟨hmem, hisname, init, htail, hcomponent, hname⟩ := hnames path hpath file hfile
    have hfound : ∀ rel x, FoundBelow pf t path rel x →
        ∃ file' ∈ files, t.get (file' ++ rel) = some (.file x) ∧ path.name = file'.name := by
      intro rel x hrel
      have hstored := hperm.subset (List.mem_flatMap.mpr ⟨path, hpath, (mem_zip_entries htail).mpr ⟨rel, hrel, rfl⟩⟩)
      obtain ⟨file', hfile', hstored⟩ := List.mem_flatMap.mp hstored
      obtain ⟨rel', hget, heq⟩ := mem_storedUnder.mp hstored
      obtain ⟨p, _, hp⟩ := hrel
      obtain ⟨path', hpath', hsafe'⟩ := (mem_safe_user_paths hsafe file').mp hfile'
      have hcons := relativePosix_injective (isComponent_below hcomponent hp)
        (isComponent_below (hnames path' hpath' file' hsafe').2.1.isComponent hget) heq
      obtain ⟨hc, rfl⟩ := List.cons.inj hcons
      exact ⟨file', hfile', hget, hc⟩
    have hnotdots : ∀ file' ∈ files, file'.name ≠ ".." := fun file' hfile' => by
      obtain ⟨path', hpath', hsafe'⟩ := (mem_safe_user_paths hsafe file').mp hfile'
      exact (hnames path' hpath' file' hsafe').2.1.2.2.1
    refine ⟨fun rel x => ⟨fun hrel => ?_, fun hget => ?_⟩, fun hup rel x hrel => ?_⟩
    · obtain ⟨file', hfile', hget, hc⟩ := hfound rel x hrel
      have hsame : file.name = file'.name := (hname fun hup => hnotdots file' hfile' (hc ▸ hup)).trans hc
      rwa [hfull file hmem, hsame, ← hfull file' hfile']
    · have hstored := hperm.symm.subset
        (List.mem_flatMap.mpr ⟨file, hmem, mem_storedUnder.mpr ⟨rel, hget, rfl⟩⟩)
      obtain ⟨path', hpath', hstored⟩ := List.mem_flatMap.mp hstored
      obtain ⟨file', hfile'⟩ := safe_user_paths_accepts.mp ⟨files, hsafe⟩ path' hpath'
      obtain ⟨hmem', _, init', htail', hcomponent', hname'⟩ := hnames path' hpath' file' hfile'
      obtain ⟨rel', hrel', heq⟩ := (mem_zip_entries htail').mp hstored
      obtain ⟨p, hloc, hp⟩ := id hrel'
      have hcons := relativePosix_injective (isComponent_below hisname.isComponent hget) (isComponent_below hcomponent' hp) heq
      obtain ⟨hc, rfl⟩ := List.cons.inj hcons
      have hsame : file'.name = file.name := (hname' (hc ▸ hisname.2.2.1)).trans hc.symm
      have hfiles : file' = file := by rw [hfull file' hmem', hsame, ← hfull file hmem]
      rwa [hunique path hpath path' hpath' file hfile (hfiles ▸ hfile')]
    · obtain ⟨file', hfile', _, hc⟩ := hfound rel x hrel
      exact hnotdots file' hfile' (hc ▸ hup)
  · intro hall
    rw [safe_user_paths_eq hdots hsafe, List.flatMap_map]
    refine List.Perm.flatMap_left paths fun path hpath => ?_
    obtain ⟨file, hfile⟩ := safe_user_paths_accepts.mp ⟨files, hsafe⟩ path hpath
    obtain ⟨_, _, init, htail, hcomponent, hname⟩ := hnames path hpath file hfile
    rw [← ((safe_user_path_ok hdots).mp hfile).2.1]
    exact (hall path hpath file hfile).perm htail hcomponent hname

end Selection

/-! ## The archive -/

/-- What `zipstream` writes, `zipfile` reads. -/
def ReadsBack (pf : Platform α) : Prop :=
  ∀ entries, (∀ e ∈ entries, ArchiveName e.1) → ∃ members, pf.zipfile (pf.zipstream entries) = some members ∧
    members.map (fun m => (m.filename, m.data)) = entries ∧ ∀ m ∈ members, m.opens = true ∧ m.complete = true

/-- Archives of different entries are different. -/
theorem ReadsBack.injective (hzip : ReadsBack pf) {entries entries' : List (String × α)} (hnames : ∀ e ∈ entries, ArchiveName e.1)
    (hnames' : ∀ e ∈ entries', ArchiveName e.1) (h : pf.zipstream entries = pf.zipstream entries') : entries = entries' := by
  obtain ⟨members, hmembers, hentries, _⟩ := hzip entries hnames
  obtain ⟨members', hmembers', hentries', _⟩ := hzip entries' hnames'
  rw [h, hmembers'] at hmembers
  rw [← hentries, ← hentries', Option.some.inj hmembers]

/-- A path without a NUL gives names that an archive keeps. -/
theorem archiveName_of_tail {path : PurePath} {init : Loc} {c : String} (htail : path.tail = init ++ [c])
    (hnul : path.hasNul = false) (t : FileTree α) : ∀ e ∈ zip_entries pf t path, ArchiveName e.1 := by
  rintro ⟨name, x⟩ hmem
  obtain ⟨rel, ⟨p, _, hget⟩, rfl⟩ := (mem_zip_entries htail).mp hmem
  have hc : c ∈ path.tail := by simp [htail]
  refine ⟨c, rel, ?_, fun d hd => ?_, rfl⟩
  · by_cases hup : c = ".."
    · exact Or.inr hup
    · rw [PurePath.hasNul, List.any_eq_false] at hnul
      have hplain := hnul c hc
      have hcomponent := path.tail_ok c hc
      exact Or.inl ⟨hcomponent.1, hcomponent.2.1, hup, hcomponent.2.2, by simpa using hplain⟩
  · exact FileTree.isName_of_exists (FileTree.exists_iff.mpr ⟨_, hget⟩) d (List.mem_append_right p hd)

theorem archiveName_zip_entries {root file : Loc} {path : PurePath} (hroot : ∀ c ∈ root, c ≠ "..")
    (hsafe : safe_user_path root path = .ok file) (hne : file ≠ root) (t : FileTree α) :
    ∀ e ∈ zip_entries pf t path, ArchiveName e.1 := by
  obtain ⟨init, htail, _, _⟩ := last_component hroot hsafe hne
  exact archiveName_of_tail htail ((safe_user_path_ok hroot).mp hsafe).1 t

/-- At a path without components the process finds a directory. -/
theorem archiveName_of_tail_nil {path : PurePath} (htail : path.tail = []) {t : FileTree α} (hcwd : t.isDir pf.cwd = true) :
    ∀ e ∈ zip_entries pf t path, ArchiveName e.1 := by
  rintro ⟨name, x⟩ hmem
  have hdir : ∃ p, t.locate pf.cwd path = some p ∧ t.get p = some .dir := by
    unfold FileTree.locate
    rw [htail]
    cases path.root with
    | relative => exact ⟨_, rfl, FileTree.isDir_iff.mp hcwd⟩
    | slash => exact ⟨_, rfl, t.get_nil⟩
    | doubleSlash => exact ⟨_, rfl, t.get_nil⟩
  obtain ⟨p, hloc, hget⟩ := hdir
  unfold zip_entries at hmem
  rw [hloc] at hmem
  dsimp only at hmem
  rw [hget, htail] at hmem
  obtain ⟨⟨q, n⟩, hbelow, hentry⟩ := List.mem_filterMap.mp hmem
  obtain ⟨⟨rel, rfl⟩, hne⟩ : p <+: q ∧ q ≠ p := by simpa using (List.mem_filter.mp hbelow).2
  have hnames := FileTree.isName_of_exists (FileTree.exists_iff.mpr ⟨n, FileTree.get_eq_some.mpr (List.mem_filter.mp hbelow).1⟩)
  cases rel with
  | nil => exact absurd (List.append_nil p) hne
  | cons c rel =>
      refine ⟨c, rel, Or.inl (hnames c (by simp)), fun d hd => hnames d (by simp [hd]), ?_⟩
      cases n with
      | dir => cases hentry
      | file y =>
          dsimp only at hentry
          rw [List.drop_left] at hentry
          exact (Prod.mk.inj (Option.some.inj hentry)).1.symm

theorem archiveName_selected {root : Loc} {paths : List PurePath} {files : List Loc} (hroot : ∀ c ∈ root, c ≠ "..")
    (hsafe : safe_user_paths root paths = .ok files) {t : FileTree α} (hcwd : t.isDir pf.cwd = true) :
    ∀ e ∈ paths.flatMap (zip_entries pf t), ArchiveName e.1 := by
  intro e he
  obtain ⟨path, hpath, he⟩ := List.mem_flatMap.mp he
  obtain ⟨file, hfile⟩ := safe_user_paths_accepts.mp ⟨files, hsafe⟩ path hpath
  rcases Loc.eq_nil_or_concat path.tail with hnil | ⟨init, c, htail⟩
  · exact archiveName_of_tail_nil hnil hcwd e he
  · exact archiveName_of_tail htail ((safe_user_path_ok hroot).mp hfile).1 t e he

theorem isName_destination {files : List Loc} (hnames : ∀ file ∈ files, IsName file.name) : IsName (destination_name files) := by
  unfold destination_name
  split
  · obtain ⟨hne, hdot, hdots, hslash, hnul⟩ := hnames _ List.mem_cons_self
    rename_i file
    have hlong : 4 ≤ (file.name ++ ".zip").toList.length := by simp
    refine ⟨fun h => ?_, fun h => ?_, fun h => ?_, ?_, ?_⟩
    · rw [h] at hlong
      exact absurd hlong (by decide)
    · rw [h] at hlong
      exact absurd hlong (by decide)
    · rw [h] at hlong
      exact absurd hlong (by decide)
    · simpa using hslash
    · simpa using hnul
  · decide

theorem parents_eq {files : List Loc} {parent : Loc} (hne : files ≠ []) (hparent : ∀ file ∈ files, file.parent = parent) :
    (files.map Loc.parent).dedup = [parent] := by
  refine dedup_eq_singleton (by simpa using hne) fun p hp => ?_
  obtain ⟨file, hfile, rfl⟩ := List.mem_map.mp hp
  exact hparent file hfile

theorem isName_selected {id : Uuid4} {paths : List PurePath} {files : List Loc}
    (hsafe : safe_user_paths (miniverse_data_path pf id) paths = .ok files) : ∀ file ∈ files, IsName file.name := by
  intro file hfile
  obtain ⟨path, _, hpath⟩ := (mem_safe_user_paths hsafe file).mp hfile
  have hall := safe_user_path_isName (miniverse_data_path_isName id) hpath
  have hnil : file ≠ [] := by
    rintro rfl
    exact miniverse_data_path_ne_nil id (List.prefix_nil.mp (safe_user_path_below (miniverse_data_path_ne id) hpath))
  refine hall _ ?_
  rw [Loc.name, List.getLast?_eq_some_getLast hnil]
  exact List.getLast_mem hnil

/-- Where there is no directory, no archive is made. -/
theorem compress_fails {id : Uuid4} {paths : List PurePath} {files : List Loc} {parent : Loc} {d : Disk α}
    (hsafe : safe_user_paths (miniverse_data_path pf id) paths = .ok files) (hne : files ≠ [])
    (hparent : ∀ file ∈ files, file.parent = parent) (hdir : d.tree.isDir parent = false) :
    ∃ e, compress_miniverse_files pf id paths d = (.error (.os e), d) := by
  have hpar := change_path_name_parent d.tree (parent ++ [destination_name files])
  have hfree := (change_path_name_cases d.tree (parent ++ [destination_name files])).1
  rw [Loc.parent_concat] at hpar
  rw [compress_run d hsafe (parents_eq hne hparent)]
  exact ⟨_, Disk.write_fails_of_parent _ hfree (hpar.symm ▸ hdir)⟩

/-- The archive gets a free name next to the selected entries. -/
theorem archive_free {t : FileTree α} {files : List Loc} {parent : Loc} (hnames : ∀ file ∈ files, IsName file.name)
    (hdir : t.isDir parent = true) : ∃ archive, change_path_name_if_exists t (parent ++ [destination_name files]) = archive ∧
      archive.parent = parent ∧ t.exists archive = false ∧ IsName archive.name := by
  have hall : ∀ c ∈ parent ++ [destination_name files], IsName c := by
    intro c hc
    rcases List.mem_append.mp hc with hc | hc
    · exact FileTree.isName_of_exists (FileTree.exists_of_isDir hdir) c hc
    · exact List.mem_singleton.mp hc ▸ isName_destination hnames
  have hpar := change_path_name_parent t (parent ++ [destination_name files])
  have hfree := (change_path_name_cases t (parent ++ [destination_name files])).1
  have hname := change_path_name_isName (t := t) hall
  rw [Loc.parent_concat] at hpar
  generalize change_path_name_if_exists t (parent ++ [destination_name files]) = archive at *
  refine ⟨archive, rfl, hpar, hfree, ?_⟩
  have hnil : archive ≠ [] := by
    rintro rfl
    rw [FileTree.exists_eq_false, FileTree.get_nil] at hfree
    cases hfree
  rw [Loc.name, List.getLast?_eq_some_getLast hnil]
  exact hname _ (List.getLast_mem hnil)

/-- The archive is a new file next to the selected entries. -/
theorem compress_writes {id : Uuid4} {paths : List PurePath} {files : List Loc} {parent : Loc} {d : Disk α}
    (hsafe : safe_user_paths (miniverse_data_path pf id) paths = .ok files) (hne : files ≠ [])
    (hparent : ∀ file ∈ files, file.parent = parent) (hdir : d.tree.isDir parent = true) :
    ∃ d' archive, compress_miniverse_files pf id paths d = (.ok (), d') ∧ archive.parent = parent ∧
      d.tree.exists archive = false ∧ ∀ q, d'.tree.get q =
        if q = archive then some (.file (pf.zipstream (paths.flatMap (zip_entries pf d.tree)))) else d.tree.get q := by
  obtain ⟨archive, harchive, hpar, hfree, hname⟩ := archive_free (isName_selected hsafe) hdir
  rw [compress_run d hsafe (parents_eq hne hparent), harchive]
  obtain ⟨d', hrun, hget⟩ := Disk.write_new (ε := PyError) (pf.zipstream (paths.flatMap (zip_entries pf d.tree))) hfree
    (hpar ▸ hdir) hname
  exact ⟨d', archive, hrun, hpar, hfree, hget⟩

end Backend
