import Miniverse.Files.Lemmas.Archives
import Miniverse.Files.Theorems

/-!
# Archives that come back

What `compress_miniverse_files` stores is unpacked again by `extract_miniverse_archive`.
-/

namespace Backend

open Lib

variable {α : Type} (pf : Platform α)

/-! ## The new directory -/

/-- All locations have the same first component, and there are some. -/
def sharedHead : List Loc → Bool
  | [] => false
  | p :: ps => ps.all fun q => q.head? == p.head?

/-- Where a stored file comes back: a component that all files share names the directory itself. -/
def placeOf (entries : List (Loc × α)) (e : Loc × α) : Loc := if sharedHead (entries.map Prod.fst) then e.1.drop 1 else e.1

/-- The entries are in the new directory, with the directories that they need, and nothing else has changed. -/
structure BackIn (entries : List (Loc × α)) (container : Loc) (t t' : FileTree α) : Prop where
  free : t.exists container = false
  isDir : t'.isDir container = true
  outside : ∀ q, ¬ container <+: q → t'.get q = t.get q
  file : ∀ rel x, t'.get (container ++ rel) = some (.file x) ↔ ∃ e ∈ entries, placeOf entries e = rel ∧ e.2 = x
  dir : ∀ rel, rel ≠ [] → (t'.get (container ++ rel) = some .dir ↔
    ∃ e ∈ entries, rel <+: placeOf entries e ∧ rel ≠ placeOf entries e)

theorem sharedTop_eq {members : List (ZipMember α)} {entries : List (Loc × α)}
    (hread : members.map (fun m => (m.path, m.data)) = entries) : sharedTop members = sharedHead (entries.map Prod.fst) := by
  subst hread
  cases members with
  | nil => rfl
  | cons m ms => simp [sharedTop, sharedHead, List.all_map, Function.comp_def]

/-- Unpacked members are back. -/
theorem BackIn.of_unpacked {members : List (ZipMember α)} {entries : List (Loc × α)} {container : Loc} {t t' : FileTree α}
    (hread : members.map (fun m => (m.path, m.data)) = entries) (hfiles : ∀ m ∈ members, m.is_dir = false)
    (hfree : t.exists container = false) (h : Unpacked (sharedTop members) container members t t') :
    BackIn entries container t t' := by
  have hmember {P : Loc → α → Prop} : (∃ m ∈ members, m.is_dir = false ∧ P (m.target (sharedTop members)) m.data) ↔
      ∃ e ∈ entries, P (placeOf entries e) e.2 := by
    rw [sharedTop_eq hread]
    constructor
    · rintro ⟨m, hm, _, hp⟩
      exact ⟨(m.path, m.data), hread ▸ List.mem_map_of_mem hm, hp⟩
    · rintro ⟨e, he, hp⟩
      have hmap := he
      rw [← hread] at hmap
      obtain ⟨m, hm, rfl⟩ := List.mem_map.mp hmap
      exact ⟨m, hm, hfiles m hm, hp⟩
  refine ⟨hfree, h.isDir, h.outside, fun rel x => ?_, fun rel hrel => ⟨fun hdir => ?_, ?_⟩⟩
  · rw [h.file, ← hmember (P := fun p y => p = rel ∧ y = x)]
  · exact (hmember (P := fun p _ => rel <+: p ∧ rel ≠ p)).mp (h.dir rel hrel hdir)
  · rintro ⟨e, he, hle, hne⟩
    have hfile := (h.file _ _).mpr ((hmember (P := fun p y => p = placeOf entries e ∧ y = e.2)).mpr ⟨e, he, rfl, rfl⟩)
    refine FileTree.isDir_iff.mp (FileTree.isDir_above ((List.prefix_append_right_inj container).mpr hle) ?_
      (FileTree.exists_iff.mpr ⟨_, hfile⟩))
    exact fun heq => hne (List.append_cancel_left heq)

/-! ## Both ways -/

/-- The archive at the path is extracted to a new directory next to it. -/
def ComesBack (id : Uuid4) (path : PurePath) (parent : Loc) (entries : List (Loc × α)) (d : Disk α) : Prop :=
  ∃ d' container, extract_miniverse_archive pf id path d = (.ok (), d') ∧ container.parent = parent ∧
    BackIn entries container d.tree d'.tree

/-- An archive in a directory: it comes back exactly when its name is that of an archive and it is not one file at its top. -/
theorem comes_back_iff {id : Uuid4} {path : PurePath} {archive parent : Loc} {content : α} {members : List (ZipMember α)}
    {entries : List (Loc × α)} {d : Disk α} (hsafe : safe_user_path (miniverse_data_path pf id) path = .ok archive)
    (hpar : archive.parent = parent) (hget : d.tree.get archive = some (.file content)) (hmembers : pf.zipfile content = some members)
    (hwell : WellFormed members) (hfiles : ∀ m ∈ members, m.is_dir = false) (hread : members.map (fun m => (m.path, m.data)) = entries)
    (hstem : (suffix archive.name).toList.map Char.toLower = ".zip".toList → IsName (stem archive.name)) :
    ComesBack pf id path parent entries d ↔
      ¬ (∃ name x, entries = [([name], x)]) ∧ (suffix archive.name).toList.map Char.toLower = ".zip".toList := by
  have hfile : d.tree.isFile archive = true := FileTree.isFile_iff.mpr ⟨content, hget⟩
  have hex : d.tree.exists archive = true := FileTree.exists_of_isFile hfile
  have hdir : d.tree.isDir parent = true := hpar ▸ FileTree.isDir_parent hex
  have hnames := FileTree.isName_of_exists (FileTree.exists_of_isDir hdir)
  have hlone : (∃ m, members = [m] ∧ m.is_dir = false ∧ m.path.length = 1) ↔ ∃ name x, entries = [([name], x)] := by
    rw [← hread]
    constructor
    · rintro ⟨m, rfl, _, hlen⟩
      obtain ⟨name, hname⟩ := List.length_eq_one_iff.mp hlen
      exact ⟨name, m.data, by rw [List.map_singleton, hname]⟩
    · rintro ⟨name, x, hone⟩
      obtain ⟨m, rfl, heq⟩ := List.map_eq_singleton_iff.mp hone
      exact ⟨m, rfl, hfiles m (List.mem_singleton_self m), by rw [(Prod.mk.inj heq).1]; rfl⟩
  by_cases hzip : (suffix archive.name).toList.map Char.toLower = ".zip".toList
  case neg =>
    refine iff_of_false ?_ fun h => hzip h.2
    rintro ⟨d', container, hrun, _⟩
    rw [extract_unsupported hsafe hfile hzip] at hrun
    cases hrun
  rw [and_iff_left hzip, ← hlone]
  -- the directory is named by the shared component or by the archive
  have hname : IsName (container_name (get_zip_roots members) archive) := by
    obtain ⟨hshared, hother⟩ := hwell.container_name_cases archive
    cases hs : sharedTop members with
    | true => exact hshared hs
    | false => exact hother hs ▸ hstem hzip
  obtain ⟨container, hcontainer, hcases⟩ := safe_container (fun c hc => (hnames c hc).2.2.1) (Or.inl hname)
  obtain rfl : container = parent ++ [container_name (get_zip_roots members) archive] := by
    rcases hcases with heq | ⟨_, heq⟩
    · have htail : (PurePath.parse (container_name (get_zip_roots members) archive)).tail = [_] :=
        components_of_isComponent hname.isComponent
      rw [safe_user_path_append (fun c hc => (hnames c hc).2.2.1) (by simpa [htail] using hname), htail] at hcontainer
      exact (Except.ok.inj hcontainer).symm
    · exact heq
  have hcnames : ∀ c ∈ parent ++ [container_name (get_zip_roots members) archive], IsName c := by
    intro c hc
    rcases List.mem_append.mp hc with hc | hc
    · exact hnames c hc
    · exact List.mem_singleton.mp hc ▸ hname
  have hcdir : d.tree.isDir (Loc.parent (parent ++ [container_name (get_zip_roots members) archive])) = true := by
    rwa [Loc.parent_concat]
  have hrun : extract_miniverse_archive pf id path d =
      extract_members members (parent ++ [container_name (get_zip_roots members) archive]) d := by
    rw [extract_archive_eq hsafe hget hzip hmembers, hpar, hcontainer, Eff.ofExcept_ok_bind]
  constructor
  · rintro ⟨d', _, hok, _⟩ ⟨m, hone, hmfile, hmlone⟩
    obtain ⟨e, he⟩ := hwell.extract_lone_raises hone hmfile hmlone hcdir hcnames
    rw [hrun] at hok
    rw [hok] at he
    cases he
  · intro hnot
    obtain ⟨d', hok, hfree, hall⟩ := hwell.extract_members_run hnot hcdir hcnames
    refine ⟨d', _, hrun.trans hok, ?_, BackIn.of_unpacked hread hfiles hfree hall⟩
    rw [change_path_name_parent, Loc.parent_concat]

/-- What is found at the selected paths is archived, and the archive gives it back exactly when it is more than one file at the
top and no directory has the name of the archive. -/
theorem archive_comes_back_iff {id : Uuid4} {paths : List PurePath} {parent : Loc} {files : List Loc} {d : Disk α}
    (hzip : ReadsBack pf) (hsafe : safe_user_paths (miniverse_data_path pf id) paths = .ok files) (hfull : files ≠ [])
    (hnodup : files.Nodup) (hne : ∀ file ∈ files, file ≠ miniverse_data_path pf id)
    (hparent : ∀ file ∈ files, file.parent = parent) (hdir : d.tree.isDir parent = true)
    (hdots : ∀ path ∈ paths, path.name ≠ "..") :
    ∃ d' archive, compress_miniverse_files pf id paths d = (.ok (), d') ∧ d.tree.exists archive = false ∧
      (∃ path, safe_user_path (miniverse_data_path pf id) path = .ok archive) ∧
      ∀ path, safe_user_path (miniverse_data_path pf id) path = .ok archive →
        (ComesBack pf id path parent (found pf d.tree paths) d' ↔
          ¬ (∃ name x, found pf d.tree paths = [([name], x)]) ∧ d.tree.isDir (parent ++ [destination_name files]) = false) := by
  have hroot : ∀ c ∈ miniverse_data_path pf id, IsName c := miniverse_data_path_isName id
  have hup : ∀ c ∈ miniverse_data_path pf id, c ≠ ".." := miniverse_data_path_ne id
  have hbelow : miniverse_data_path pf id <+: parent := by
    obtain ⟨file, hfile⟩ := List.exists_mem_of_ne_nil files hfull
    exact hparent file hfile ▸ Loc.prefix_parent (safe_user_paths_below hup hsafe file hfile) (hne file hfile)
  have hwalk : Walkable paths := walkable_of_selected hroot hsafe hnodup hne hparent hdots
  have hselected := isName_selected hsafe
  obtain ⟨archive, harchive, hpar, hfree, hname⟩ := archive_free hselected hdir
  obtain ⟨members, hmembers, hwell, hfiles, hread⟩ := hwalk.read_back hzip d.tree
  obtain ⟨d', hwrite, hget⟩ := Disk.write_new (ε := PyError) (pf.zipstream (paths.flatMap (zip_entries pf d.tree))) hfree
    (hpar ▸ hdir) hname
  refine ⟨d', archive, ?_, hfree, ?_, fun path hpath => ?_⟩
  · rw [compress_run d hsafe (parents_eq hfull hparent), harchive]
    exact hwrite
  · -- the location of the archive below the data directory is a path of it
    have hnil : archive ≠ [] := by
      rintro rfl
      rw [FileTree.exists_eq_false, FileTree.get_nil] at hfree
      cases hfree
    obtain ⟨rel, hrel⟩ := hbelow
    have hloc : archive = miniverse_data_path pf id ++ (rel ++ [archive.name]) := by
      rw [← List.append_assoc, hrel, ← hpar, Loc.parent_append_name hnil]
    have hnames : ∀ c ∈ rel ++ [archive.name], IsName c := by
      intro c hc
      rcases List.mem_append.mp hc with hc | hc
      · exact FileTree.isName_of_exists (FileTree.exists_of_isDir hdir) c (hrel ▸ List.mem_append_right _ hc)
      · exact List.mem_singleton.mp hc ▸ hname
    exact ⟨.ofTail _ fun c hc => (hnames c hc).isComponent, (safe_user_path_append hup hnames).trans (congrArg _ hloc.symm)⟩
  · have hcontent : d'.tree.get archive = some (.file (pf.zipstream (paths.flatMap (zip_entries pf d.tree)))) := by
      rw [hget, if_pos rfl]
    cases hbusy : d.tree.isDir (parent ++ [destination_name files]) with
    | false =>
        obtain ⟨hsuffix, hstem⟩ := archive_is_zip hselected harchive hbusy
        rw [comes_back_iff pf hpath hpar hcontent hmembers hwell hfiles hread fun _ => hstem]
        exact and_congr_right fun _ => iff_of_true hsuffix rfl
    | true =>
        have hsuffix := archive_is_no_zip hselected harchive hbusy
        rw [comes_back_iff pf hpath hpar hcontent hmembers hwell hfiles hread fun h => absurd h hsuffix]
        exact and_congr_right fun _ => iff_of_false hsuffix (by decide)

theorem archive_comes_back_sample : ∃ d' archive path,
    compress_miniverse_files (sampleZips sampleData) sampleId [.parse "a"] ⟨sampleZipTree, []⟩ = (.ok (), d') ∧
      safe_user_path (miniverse_data_path (sampleZips sampleData) sampleId) path = .ok archive ∧
      ComesBack (sampleZips sampleData) sampleId path sampleData [(["a", "x"], .text "1")] d' := by
  have hfound : found (sampleZips sampleData) sampleZipTree [.parse "a"] = [(["a", "x"], .text "1")] := by decide
  obtain ⟨d', archive, hrun, _, ⟨path, hpath⟩, hback⟩ := @archive_comes_back_iff _ (sampleZips sampleData) sampleId [.parse "a"]
    sampleData [sampleData ++ ["a"]] ⟨sampleZipTree, []⟩ (sampleZips_readsBack sampleData) (by decide) (by decide) (by decide)
    (by decide) (by decide) (by decide) (by decide)
  rw [hfound] at hback
  refine ⟨d', archive, path, hrun, hpath, (hback path hpath).mpr ⟨?_, by decide⟩⟩
  rintro ⟨name, x, hone⟩
  cases hone

end Backend
