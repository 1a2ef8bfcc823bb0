import Miniverse.Files.Lemmas.Copies
import Miniverse.Files.Lemmas.Manifest
import Miniverse.Files.Lemmas.Members
import Miniverse.Files.Lemmas.Kept
import Miniverse.Files.Lemmas.Trees
import Miniverse.Files.Lemmas.Zips
import Miniverse.Files.Requests
import Miniverse.Lib.Runs

/-!
# Theorems about the file service
-/

namespace Backend

open Lib

/-! ## A server with one miniverse -/

def sampleData : Loc := miniverse_data_path samplePlatform sampleId

/-- The miniverse has an archive in its data directory. -/
def sampleTree : FileTree String where
  entries := [([], .dir), (["srv"], .dir), (["srv", "miniverses"], .dir), (get_miniverse_path samplePlatform sampleId, .dir),
    (sampleData, .dir), (sampleData ++ ["a.zip"], .file "zip")]
  nodup := by decide
  root_dir := by decide
  closed := by decide
  names := by decide

variable {α : Type} (pf : Platform α)

/-! ## Where requests write -/

/-- A request changes nothing outside the data directory exactly when it is none of those that escape. -/
theorem write_confined_iff (t : FileTree α) (id : Uuid4) (r : WriteRequest) :
    (∀ p ∈ (r.run pf id ⟨t, []⟩).2.touched, r.MayWrite pf id p) ↔ ¬ r.Escapes pf t id := by
  have hempty : Disk.Confined (miniverse_data_path pf id <+: ·) (⟨t, []⟩ : Disk α) := fun _ h => nomatch h
  cases r with
  | upload file_id filename destination => exact upload_confined_iff t file_id.ok destination
  | compress paths => exact compress_confined_iff t id paths
  | extract path => exact extract_confined_iff t id path
  | copy paths destination => exact iff_of_true (keeps_copy id paths destination _ hempty) not_false
  | rename path new_name => exact iff_of_true (keeps_rename id path new_name _ hempty) not_false
  | delete paths => exact iff_of_true (keeps_delete id paths _ hempty) not_false
  | setContent path content => exact iff_of_true (keeps_set_content id path content _ hempty) not_false

set_option maxRecDepth 10000 in
/-- Compressing `/` puts the archive next to the data directory. -/
theorem write_not_confined :
    ¬ ∀ p ∈ ((WriteRequest.compress [.parse "/"]).run samplePlatform sampleId ⟨sampleTree, []⟩).2.touched,
      (WriteRequest.compress [.parse "/"]).MayWrite samplePlatform sampleId p := by
  decide

/-- An extraction stays strictly inside the directory of the archive exactly when the container does not denote
that directory. -/
theorem extract_zip_confined_iff (t : FileTree α) (archive : Loc) :
    (∀ p ∈ (_extract_zip pf archive archive.parent ⟨t, []⟩).2.touched, archive.parent <+: p ∧ p ≠ archive.parent) ↔
      ¬ (archive.parent ≠ [] ∧ ∃ members, AsksFor pf t archive archive.parent members archive.parent) := by
  by_cases hfile : t.isFile archive = true
  · have hex := FileTree.exists_of_isFile hfile
    have hdir := FileTree.isDir_parent hex
    by_cases hcond : archive.parent ≠ [] ∧ ∃ members, AsksFor pf t archive archive.parent members archive.parent
    · obtain ⟨hne, members, hasks⟩ := hcond
      obtain ⟨c, hc, htouched⟩ := extract_zip_escapes (d := ⟨t, []⟩) hdir hasks
      refine iff_of_false (fun h => ?_) fun h => h ⟨hne, members, hasks⟩
      exact not_prefix_sibling hne hc (h _ htouched).1
    · refine iff_of_true ?_ hcond
      refine (inside_extract_zip (d := ⟨t, []⟩) ?_ (List.prefix_refl _) (fun q hq hne => ⟨hq, hne⟩)
        ⟨hdir, fun _ h => nomatch h⟩ (Or.inr ?_)).2
      · exact fun c hc => FileTree.isName_of_exists hex c ((List.dropLast_sublist _).subset hc)
      · by_cases hne : archive.parent = []
        · exact Or.inl hne
        · exact Or.inr fun h => hcond ⟨hne, h⟩
  · have hno : ∀ members container, ¬ AsksFor pf t archive archive.parent members container := by
      rintro members container ⟨content, hget, _⟩
      exact hfile (FileTree.isFile_iff.mpr ⟨content, hget⟩)
    rw [extract_zip_of_not_asksFor (d := ⟨t, []⟩) hno]
    exact iff_of_true (fun _ h => nomatch h) fun ⟨_, members, h⟩ => hno members _ h

set_option maxRecDepth 10000 in
/-- An archive with the one member `/x` is extracted next to its directory. -/
theorem extract_zip_not_confined :
    ¬ ∀ p ∈ (_extract_zip samplePlatform (sampleData ++ ["a.zip"]) sampleData ⟨sampleTree, []⟩).2.touched,
      sampleData <+: p ∧ p ≠ sampleData := by
  decide

/-! ## Extracting -/

/-- One file at the top, and a directory with two files. -/
def sampleLone : List (ZipMember String) := [⟨"x", true, "1", true⟩]

def sampleFolder : List (ZipMember String) := [⟨"w/", true, "", true⟩, ⟨"w/a/b", true, "2", true⟩, ⟨"w/c", true, "3", true⟩]

def sampleArchives : Platform String :=
  { samplePlatform with
    zipfile := fun text => if text = "lone" then some sampleLone else if text = "world" then some sampleFolder else none }

def sampleArchiveTree : FileTree String where
  entries := [([], .dir), (["srv"], .dir), (["srv", "miniverses"], .dir), (get_miniverse_path sampleArchives sampleId, .dir),
    (miniverse_data_path sampleArchives sampleId, .dir),
    (miniverse_data_path sampleArchives sampleId ++ ["l.zip"], .file "lone"),
    (miniverse_data_path sampleArchives sampleId ++ ["w.zip"], .file "world")]
  nodup := by decide
  root_dir := by decide
  closed := by decide
  names := by decide

/-- The extraction returns, and the files it adds are those of the archive, in one new directory. -/
def ExtractedWhole (id : Uuid4) (path : PurePath) (members : List (ZipMember α)) (d : Disk α) : Prop :=
  ∃ d' container, extract_miniverse_archive pf id path d = (.ok (), d') ∧ d.tree.exists container = false ∧
    d'.tree.isDir container = true ∧ d'.tree.files.Perm (d.tree.files ++ (members.filter fun m => !m.is_dir).map
      fun m => (container ++ m.target (sharedTop members), m.data))

/-- An archive is extracted whole exactly when it is not one file at its top, and when a stem `..` is not what names the
container. -/
theorem extraction_complete_iff {id : Uuid4} {path : PurePath} {archive : Loc} {content : α} {members : List (ZipMember α)}
    {d : Disk α} (hsafe : safe_user_path (miniverse_data_path pf id) path = .ok archive)
    (hget : d.tree.get archive = some (.file content)) (hzip : (suffix archive.name).toList.map Char.toLower = ".zip".toList)
    (hmembers : pf.zipfile content = some members) (hwell : WellFormed members) :
    ExtractedWhole pf id path members d ↔
      ¬ (∃ m, members = [m] ∧ m.is_dir = false ∧ m.path.length = 1) ∧
        ¬ (sharedTop members = false ∧ stem archive.name = "..") := by
  have hex : d.tree.exists archive = true := FileTree.exists_iff.mpr ⟨_, hget⟩
  have hdir := FileTree.isDir_parent hex
  have hnames := FileTree.isName_of_exists hex
  have hdirnames : ∀ c ∈ archive.parent, IsName c := fun c hc => hnames c ((List.dropLast_sublist _).subset hc)
  have hdots : ∀ c ∈ archive.parent, c ≠ ".." := fun c hc => (hdirnames c hc).2.2.1
  have hsuffix : suffix archive.name ≠ "" := by
    intro hempty
    rw [hempty] at hzip
    exact absurd hzip (by decide)
  have hne : archive.parent ≠ [] := by
    have hin := safe_user_path_below (miniverse_data_path_ne id) hsafe
    have hnot : archive ≠ miniverse_data_path pf id := by
      rintro rfl
      rw [show Loc.name (miniverse_data_path pf id) = "data" from Loc.name_concat _ _] at hsuffix
      exact hsuffix (by decide)
    intro hnil
    exact miniverse_data_path_ne_nil id (List.prefix_nil.mp (hnil ▸ Loc.prefix_parent hin hnot))
  have hrun : extract_miniverse_archive pf id path d = _ := extract_archive_eq hsafe hget hzip hmembers
  obtain ⟨hshared, hstem⟩ := hwell.container_name_cases archive
  -- a container that is accepted has its directory above it
  have hcontainer : ∀ {name container}, container = archive.parent ∨ IsName name ∧ container = archive.parent ++ [name] →
      d.tree.isDir (Loc.parent container) = true ∧ ∀ c ∈ container, IsName c := by
    rintro name container (rfl | ⟨hname, rfl⟩)
    · exact ⟨FileTree.isDir_parent (FileTree.exists_of_isDir hdir), hdirnames⟩
    · refine ⟨by rwa [Loc.parent_concat], fun c hc => ?_⟩
      rcases List.mem_append.mp hc with hc | hc
      · exact hdirnames c hc
      · exact List.mem_singleton.mp hc ▸ hname
  constructor
  · rintro ⟨d', container, hok, _, _, _⟩
    rw [hrun] at hok
    constructor
    · rintro ⟨m, rfl, hfile, hlone⟩
      obtain ⟨container, hsafe', hcases⟩ := safe_container hdots (Or.inl (hshared rfl))
      obtain ⟨hpar, hcnames⟩ := hcontainer hcases
      obtain ⟨e, he⟩ := hwell.extract_lone_raises rfl hfile hlone hpar hcnames
      rw [hsafe', Eff.ofExcept_ok_bind] at hok
      rw [hok] at he
      cases he
    · rintro ⟨hnot, hdotdot⟩
      obtain ⟨e, he⟩ := safe_container_parent hdots hne
      rw [hstem hnot, hdotdot, he, Eff.ofExcept_error_bind] at hok
      cases hok
  · rintro ⟨hlone, hdotdot⟩
    have hname : IsName (container_name (get_zip_roots members) archive) ∨
        container_name (get_zip_roots members) archive = "." := by
      cases hs : sharedTop members with
      | true => exact Or.inl (hshared hs)
      | false =>
          rw [hstem hs]
          by_cases hdot : stem archive.name = "."
          · exact Or.inr hdot
          · have hchars := name_chars_of_exists hex
            exact Or.inl ⟨stem_ne_empty hsuffix, hdot, fun h => hdotdot ⟨hs, h⟩, fun h => hchars.1 (mem_stem h),
              fun h => hchars.2 (mem_stem h)⟩
    obtain ⟨container, hsafe', hcases⟩ := safe_container hdots hname
    obtain ⟨hpar, hcnames⟩ := hcontainer hcases
    obtain ⟨d', hmembers', hfree, hall⟩ := hwell.extract_members_run hlone hpar hcnames
    refine ⟨d', _, ?_, hfree, hall.isDir, hwell.files_perm hfree hall⟩
    rw [hrun, hsafe', Eff.ofExcept_ok_bind]
    exact hmembers'

theorem extraction_complete_sample :
    ExtractedWhole sampleArchives sampleId (.parse "w.zip") sampleFolder ⟨sampleArchiveTree, []⟩ := by
  have hsafe : safe_user_path (miniverse_data_path sampleArchives sampleId) (.parse "w.zip") =
      .ok (miniverse_data_path sampleArchives sampleId ++ ["w.zip"]) := by decide
  have hget : sampleArchiveTree.get (miniverse_data_path sampleArchives sampleId ++ ["w.zip"]) = some (.file "world") := by
    decide
  have hwell : WellFormed sampleFolder := ⟨by decide, by decide, by decide, by decide⟩
  refine (extraction_complete_iff sampleArchives hsafe hget (by decide) rfl hwell).mpr ⟨?_, by decide⟩
  rintro ⟨m, hone, _⟩
  cases hone

/-- A file alone in its archive would have to be the container. -/
theorem lone_file_not_extracted : WellFormed sampleLone ∧
    ¬ ExtractedWhole sampleArchives sampleId (.parse "l.zip") sampleLone ⟨sampleArchiveTree, []⟩ := by
  refine ⟨⟨by decide, by decide, by decide, by decide⟩, ?_⟩
  rintro ⟨d', container, hrun, _⟩
  have hraises : (extract_miniverse_archive sampleArchives sampleId (.parse "l.zip") ⟨sampleArchiveTree, []⟩).1 =
      .error (.os .isADirectory) := by decide +kernel
  rw [hrun] at hraises
  cases hraises

/-! ## Deleting -/

/-- One of the paths denotes the location or one above it. -/
def Denoted (id : Uuid4) (paths : List PurePath) (q : Loc) : Prop :=
  ∃ p ∈ paths, ∃ f, safe_user_path (miniverse_data_path pf id) p = .ok f ∧ f <+: q

/-- Either a path is refused and nothing happens, or what the paths denote is removed, in whatever order and however often
they are given. -/
theorem delete_exact (id : Uuid4) (paths : List PurePath) (d : Disk α) :
    ((∃ p ∈ paths, ∃ e, safe_user_path (miniverse_data_path pf id) p = .error e) →
      ∃ e, delete_miniverse_files pf id paths d = (.error e, d)) ∧
    ((∀ p ∈ paths, ∃ f, safe_user_path (miniverse_data_path pf id) p = .ok f) →
      ∃ d', delete_miniverse_files pf id paths d = (.ok (), d') ∧
        (∀ e, e ∈ d'.tree.entries ↔ e ∈ d.tree.entries ∧ ¬ Denoted pf id paths e.1) ∧
        (∀ paths', paths' ⊆ paths → paths ⊆ paths' →
          ∃ d'', delete_miniverse_files pf id paths' d = (.ok (), d'') ∧ d''.tree = d'.tree) ∧
        ∃ d'', delete_miniverse_files pf id paths d' = (.ok (), d'') ∧ d''.tree = d'.tree) := by
  constructor
  · rintro ⟨p, hp, e, he⟩
    rcases hsafe : safe_user_paths (miniverse_data_path pf id) paths with e' | files
    · exact ⟨e', by rw [delete_miniverse_files, hsafe, Eff.ofExcept_error_bind]⟩
    · obtain ⟨f, hf⟩ := safe_user_paths_accepts.mp ⟨files, hsafe⟩ p hp
      rw [he] at hf
      cases hf
  · intro hall
    obtain ⟨files, hsafe⟩ := safe_user_paths_accepts.mpr hall
    obtain ⟨d', hrun, hpruned⟩ := delete_run hsafe d
    refine ⟨d', hrun, fun e => ?_, fun paths' hsub hsub' => ?_, ?_⟩
    · have hdenoted : Denoted pf id paths e.1 ↔ ∃ f ∈ files, f <+: e.1 := by
        simp only [Denoted, mem_safe_user_paths hsafe]
        exact ⟨fun ⟨p, hp, f, hf, hle⟩ => ⟨f, ⟨p, hp, hf⟩, hle⟩, fun ⟨f, ⟨p, hp, hf⟩, hle⟩ => ⟨p, hp, f, hf, hle⟩⟩
      rw [hpruned, List.mem_filter, hdenoted]
      simp
    · obtain ⟨files', hsafe'⟩ := safe_user_paths_accepts.mpr fun p hp => hall p (hsub hp)
      obtain ⟨d'', hrun', hpruned'⟩ := delete_run hsafe' d
      refine ⟨d'', hrun', hpruned'.unique hpruned (fun f hf => ?_) fun f hf => ?_⟩
      · obtain ⟨p, hp, hpf⟩ := (mem_safe_user_paths hsafe' f).mp hf
        exact (mem_safe_user_paths hsafe f).mpr ⟨p, hsub hp, hpf⟩
      · obtain ⟨p, hp, hpf⟩ := (mem_safe_user_paths hsafe f).mp hf
        exact (mem_safe_user_paths hsafe' f).mpr ⟨p, hsub' hp, hpf⟩
    · obtain ⟨d'', hrun', hpruned'⟩ := delete_run hsafe d'
      exact ⟨d'', hrun', hpruned.again hpruned'⟩

/-! ## Copying -/

/-- A directory with a directory in it. -/
def sampleNested : FileTree String where
  entries := [([], .dir), (["srv"], .dir), (["srv", "miniverses"], .dir), (get_miniverse_path samplePlatform sampleId, .dir),
    (sampleData, .dir), (sampleData ++ ["a"], .dir), (sampleData ++ ["a", "b"], .dir), (sampleData ++ ["a", "x"], .file "1")]
  nodup := by decide
  root_dir := by decide
  closed := by decide
  names := by decide

/-- The call returns, the sources are copied in turn, and nothing that was there has changed. -/
def CopiedExactly (id : Uuid4) (paths : List PurePath) (destination : PurePath) (dest : Loc) (sources : List Loc)
    (d : Disk α) : Prop :=
  ∃ d', copy_miniverse_files pf id paths destination d = (.ok (), d') ∧ CopiedInTurn pf dest sources d d' ∧
    ∀ q n, d.tree.get q = some n → d'.tree.get q = some n

/-- A copy ends and is exact exactly when no source is strictly above the destination, and none is deeper than the recursion
limit. -/
theorem copy_exact_iff {id : Uuid4} {paths : List PurePath} {destination : PurePath} {sources : List Loc} {dest : Loc}
    {d : Disk α} (hsources : safe_user_paths (miniverse_data_path pf id) paths = .ok sources)
    (hdest : safe_user_path (miniverse_data_path pf id) destination = .ok dest)
    (hexist : ∀ src ∈ sources, d.tree.exists src = true) (hdir : d.tree.isDir dest = true) :
    CopiedExactly pf id paths destination dest sources d ↔ (∀ src ∈ sources, ¬ (src <+: dest ∧ src ≠ dest)) ∧
      Fits pf.recursion_limit d.tree dest (d.tree.height dest) sources := by
  have hne : ∀ src ∈ sources, src ≠ [] := by
    rintro src hsrc rfl
    have hin := safe_user_paths_below (miniverse_data_path_ne id) hsources [] hsrc
    exact miniverse_data_path_ne_nil id (List.prefix_nil.mp hin)
  rw [← copied_in_turn_iff hne ⟨hdir, hexist, rfl, fun _ _ _ => rfl⟩]
  constructor
  · rintro ⟨d', _, hturn, _⟩
    exact ⟨d', hturn⟩
  · rintro ⟨d', hturn⟩
    obtain ⟨hrun, hkept⟩ := hturn.run
    refine ⟨d', ?_, hturn, hkept⟩
    rw [copy_miniverse_files, hsources, Eff.ofExcept_ok_bind, hdest, Eff.ofExcept_ok_bind]
    exact hrun

set_option maxRecDepth 10000 in
theorem copy_exact_sample : CopiedExactly samplePlatform sampleId [.parse "a"] (.parse ".") sampleData [sampleData ++ ["a"]]
    ⟨sampleNested, []⟩ :=
  (copy_exact_iff samplePlatform (by decide) (by decide) (by decide) (by decide)).mpr ⟨by decide, by decide, trivial⟩

/-- Copying `a` into `a/b` goes on until the recursion limit. -/
theorem copy_nested_fails : ¬ CopiedExactly samplePlatform sampleId [.parse "a"] (.parse "a/b") (sampleData ++ ["a", "b"])
    [sampleData ++ ["a"]] ⟨sampleNested, []⟩ := by
  rintro ⟨d', hrun, _⟩
  have hraises : (copy_miniverse_files samplePlatform sampleId [.parse "a"] (.parse "a/b") ⟨sampleNested, []⟩).1 =
      .error .recursionError := by decide +kernel
  rw [hrun] at hraises
  cases hraises

/-! ## Compressing -/

/-- The call returns and makes one new file in the parent; in the archive are the files at and below the selected entries. -/
def CompressedExactly (id : Uuid4) (paths : List PurePath) (parent : Loc) (files : List Loc) (d : Disk α) : Prop :=
  ∃ d' archive content members, compress_miniverse_files pf id paths d = (.ok (), d') ∧ archive.parent = parent ∧
    d.tree.exists archive = false ∧
    (∀ q, d'.tree.get q = if q = archive then some (.file content) else d.tree.get q) ∧
    pf.zipfile content = some members ∧ (∀ m ∈ members, m.opens = true ∧ m.complete = true) ∧
    (members.map fun m => (m.filename, m.data)).Perm (expected_entries d.tree parent files)

/-- The archive is exact exactly when the process finds at every path the files that the path denotes, and none at a path that
ends with the parent component. -/
theorem compress_exact_iff {id : Uuid4} {paths : List PurePath} {parent : Loc} {files : List Loc} {d : Disk α}
    (hzip : ReadsBack pf) (hsafe : safe_user_paths (miniverse_data_path pf id) paths = .ok files) (hfull : files ≠ [])
    (hnodup : files.Nodup) (hne : ∀ file ∈ files, file ≠ miniverse_data_path pf id)
    (hparent : ∀ file ∈ files, file.parent = parent) (hexist : ∀ file ∈ files, d.tree.exists file = true) :
    CompressedExactly pf id paths parent files d ↔ ∀ path ∈ paths, ∀ file,
      safe_user_path (miniverse_data_path pf id) path = .ok file → WalksSame pf d.tree path file := by
  have hroot : ∀ c ∈ miniverse_data_path pf id, IsName c := miniverse_data_path_isName id
  have hdots : ∀ c ∈ miniverse_data_path pf id, c ≠ ".." := miniverse_data_path_ne id
  rw [← entries_perm_iff hroot hsafe hnodup hne hparent]
  have harchive : ∀ e ∈ paths.flatMap (zip_entries pf d.tree), ArchiveName e.1 := by
    intro e he
    obtain ⟨path, hpath, he⟩ := List.mem_flatMap.mp he
    obtain ⟨file, hfile⟩ := safe_user_paths_accepts.mp ⟨files, hsafe⟩ path hpath
    exact archiveName_zip_entries hdots hfile (hne file ((mem_safe_user_paths hsafe file).mpr ⟨path, hpath, hfile⟩)) d.tree e he
  obtain ⟨members, hmembers, hentries, hreadable⟩ := hzip _ harchive
  have hdir : d.tree.isDir parent = true := by
    obtain ⟨file, hfile⟩ := List.exists_mem_of_ne_nil files hfull
    exact hparent file hfile ▸ FileTree.isDir_parent (hexist file hfile)
  obtain ⟨d', archive, hrun, hpar, hfree, hget⟩ := compress_writes hsafe hfull hparent hdir
  constructor
  · rintro ⟨d'', archive', content, members', hrun', _, hfree', hget', hmembers', _, hperm⟩
    rw [hrun] at hrun'
    obtain rfl : d' = d'' := (Prod.mk.inj hrun').2
    -- both are the one new file
    have hsame : archive' = archive := by
      by_contra hother
      have := hget' archive'
      rw [if_pos rfl, hget, if_neg hother, FileTree.exists_eq_false.mp hfree'] at this
      cases this
    have hcontent := hget' archive
    rw [hget, if_pos rfl, hsame, if_pos rfl, Option.some.injEq, Node.file.injEq] at hcontent
    rw [← hcontent, hmembers, Option.some.injEq] at hmembers'
    rwa [← hmembers', hentries] at hperm
  · intro hperm
    exact ⟨d', archive, _, members, hrun, hpar, hfree, hget, hmembers, hreadable, by rwa [hentries]⟩

/-- A text, or an archive. -/
inductive SampleContent where
  | text (s : String)
  | empty
  | entry (name : String) (data rest : SampleContent)
deriving DecidableEq

def SampleContent.write : List (String × SampleContent) → SampleContent
  | [] => .empty
  | (name, data) :: rest => .entry name data (write rest)

def SampleContent.read : SampleContent → Option (List (ZipMember SampleContent))
  | .text _ => none
  | .empty => some []
  | .entry name data rest => (read rest).map (⟨name, true, data, true⟩ :: ·)

/-- A process that works in `cwd`. -/
def sampleZips (cwd : Loc) : Platform SampleContent where
  DATA_PATH := ["srv"]
  data_path_ok := samplePlatform.data_path_ok
  cwd := cwd
  recursion_limit := 10
  encode text := (.text text, true)
  size _ := 0
  zipfile := SampleContent.read
  zipstream := SampleContent.write

theorem sampleZips_readsBack (cwd : Loc) : ReadsBack (sampleZips cwd) := by
  intro entries hnames
  clear hnames
  induction entries with
  | nil => exact ⟨[], rfl, rfl, fun _ hm => nomatch hm⟩
  | cons e entries ih =>
      obtain ⟨members, hmembers, hentries, hreadable⟩ := ih
      refine ⟨⟨e.1, true, e.2, true⟩ :: members, ?_, by rw [List.map_cons, hentries], ?_⟩
      · have hmembers : SampleContent.read (SampleContent.write entries) = some members := hmembers
        show (SampleContent.read (SampleContent.write entries)).map _ = _
        rw [hmembers]
        rfl
      · exact List.forall_mem_cons.mpr ⟨⟨rfl, rfl⟩, hreadable⟩

def sampleZipTree : FileTree SampleContent where
  entries := [([], .dir), (["srv"], .dir), (["srv", "miniverses"], .dir), (get_miniverse_path samplePlatform sampleId, .dir),
    (sampleData, .dir), (sampleData ++ ["a"], .dir), (sampleData ++ ["a", "x"], .file (.text "1"))]
  nodup := by decide
  root_dir := by decide
  closed := by decide
  names := by decide

theorem compress_exact_sample :
    CompressedExactly (sampleZips sampleData) sampleId [.parse "a"] sampleData [sampleData ++ ["a"]] ⟨sampleZipTree, []⟩ := by
  have hsafe : safe_user_path (miniverse_data_path (sampleZips sampleData) sampleId) (.parse "a") = .ok (sampleData ++ ["a"]) := by
    decide
  refine (compress_exact_iff (sampleZips sampleData) (sampleZips_readsBack sampleData) (by decide) (by decide) (by decide)
    (by decide) (by decide) (by decide)).mpr fun path hpath file hfile => ?_
  obtain rfl := List.mem_singleton.mp hpath
  rw [hsafe] at hfile
  cases hfile
  have hlocate : sampleZipTree.locate sampleData (.parse "a") = some (sampleData ++ ["a"]) := by decide
  refine ⟨fun rel x => ?_, fun hup => absurd hup (by decide)⟩
  constructor
  · rintro ⟨p, hp, hget⟩
    rw [show (sampleZips sampleData).cwd = sampleData from rfl] at hp
    rw [hlocate, Option.some.injEq] at hp
    rwa [hp]
  · exact fun hget => ⟨_, hlocate, hget⟩

/-- From another directory `a` is not found, and the archive is empty. -/
theorem compress_not_exact :
    ¬ CompressedExactly (sampleZips []) sampleId [.parse "a"] sampleData [sampleData ++ ["a"]] ⟨sampleZipTree, []⟩ := by
  rintro ⟨d', archive, content, members, hrun, _, _, hget, hmembers, _, hperm⟩
  have hwritten : (compress_miniverse_files (sampleZips []) sampleId [.parse "a"] ⟨sampleZipTree, []⟩).2.tree.get
      (sampleData ++ ["a.zip"]) = some (.file .empty) := by decide +kernel
  rw [hrun] at hwritten
  have hcontent := hget (sampleData ++ ["a.zip"])
  rw [hwritten] at hcontent
  split at hcontent
  · cases hcontent
    cases hmembers
    exact absurd hperm.length_eq (by decide +kernel)
  · exact absurd hcontent (by decide +kernel)

/-! ## Downloading -/

/-- A file has a percent sign in its name, and the name of a directory reads like the start of a line. -/
def sampleDownloads : FileTree String where
  entries := [([], .dir), (["srv"], .dir), (["srv", "miniverses"], .dir), (get_miniverse_path samplePlatform sampleId, .dir),
    (sampleData, .dir), (sampleData ++ ["x%41"], .file "x"), (sampleData ++ ["d\n- 1 "], .dir),
    (sampleData ++ ["d\n- 1 ", "internal"], .dir), (sampleData ++ ["d\n- 1 ", "internal", "y z"], .file "y")]
  nodup := by decide
  root_dir := by decide
  closed := by decide
  names := by decide

/-- The manifest of the selected paths is read back exactly when no listed name holds a newline, and some file is listed or
the reader passes over empty lines. -/
theorem manifest_reads_back_iff (t : FileTree α) (passes_empty : Bool) {paths : List Loc}
    (harchive : ∀ path, paths = [path] → t.isFile path = false) :
    readManifest passes_empty (download_files pf t paths).content = some (listedEntries pf t paths) ↔
      (passes_empty = true ∨ listedEntries pf t paths ≠ []) ∧ ∀ e ∈ listedEntries pf t paths, '\n' ∉ e.name := by
  have hresponse : download_files pf t paths = archive_response pf t paths := by
    unfold download_files
    split
    · rename_i path
      rw [harchive path rfl, if_neg Bool.false_ne_true]
    · rfl
  have hentries : ((manifest pf t paths).map String.toList).mapM readEntry = _ := mapM_readEntry_manifest t paths
  rw [hresponse]
  by_cases hnil : manifest pf t paths = []
  · -- the manifest is one empty line
    have hlisted : listedEntries pf t paths = [] := by
      rw [hnil] at hentries
      exact (Option.some.inj hentries).symm
    have hlines : readLines (archive_response pf t paths).content.toList = some [[]] := by
      rw [archive_content, hnil]
      exact readLines_newline
    rw [readManifest, hlines, hlisted]
    cases passes_empty with
    | true => simp
    | false => simp [readEntry, cutField]
  · have hlisted : listedEntries pf t paths ≠ [] := by
      intro h
      rw [h] at hentries
      cases hm : manifest pf t paths with
      | nil => exact hnil hm
      | cons line lines =>
          simp [hm, List.mapM_cons, Option.bind_eq_some_iff] at hentries
    constructor
    · exact fun h => ⟨Or.inr hlisted, newline_not_mem_readManifest h⟩
    · rintro ⟨-, hnames⟩
      have hplain : ∀ line ∈ (manifest pf t paths).map String.toList, '\n' ∉ line := by
        intro line hline
        obtain ⟨text, htext, rfl⟩ := List.mem_map.mp hline
        obtain ⟨path, hpath, hmem⟩ := List.mem_flatMap.mp htext
        obtain ⟨f, hf, rfl⟩ := List.mem_map.mp hmem
        rw [newline_mem_add_to_manifest]
        exact hnames _ (List.mem_flatMap.mpr ⟨path, hpath, List.mem_map.mpr ⟨f, hf, rfl⟩⟩)
      have hfull : ∀ line ∈ (manifest pf t paths).map String.toList, (!(passes_empty && line.isEmpty)) = true := by
        intro line hline
        obtain ⟨text, htext, rfl⟩ := List.mem_map.mp hline
        obtain ⟨path, -, hmem⟩ := List.mem_flatMap.mp htext
        obtain ⟨f, -, rfl⟩ := List.mem_map.mp hmem
        simp [add_to_manifest]
      have hlines := readLines_ended (by simpa using hnil) hplain
      rw [readManifest, archive_content, hlines, Option.bind_some, List.filter_eq_self.mpr hfull]
      exact hentries

theorem manifest_reads_back_sample :
    readManifest false (download_files samplePlatform sampleTree [sampleData]).content =
      some (listedEntries samplePlatform sampleTree [sampleData]) :=
  (manifest_reads_back_iff samplePlatform sampleTree false fun path h => by
    obtain rfl : sampleData = path := by simpa using h
    decide).mpr ⟨by decide, by decide⟩

/-- The one file listed is read as two, and the second is at a location of the user's choice. -/
theorem manifest_forged :
    readManifest false (download_files samplePlatform sampleDownloads [sampleData ++ ["d\n- 1 "]]).content ≠
      some (listedEntries samplePlatform sampleDownloads [sampleData ++ ["d\n- 1 "]]) :=
  fun h => absurd (newline_not_mem_readManifest h) (by decide +kernel)

/-- The two locations that nginx is given for one file both lead to it exactly when neither a percent sign nor a question mark
is on its path. -/
theorem same_file_iff {t : FileTree α} {path : Loc} {x : α} (hget : t.get path = some (.file x)) :
    (((download_files pf t [path]).headers.lookup "X-Accel-Redirect").map fun uri => decodedPath (utf8 uri.toList)) =
        some (utf8 ("/internal/" ++ relativePosix pf.DATA_PATH path).toList) ∧
      (∀ parent, (readEntry (add_to_manifest pf parent path (pf.size x)).toList).map ManifestEntry.location =
        some (utf8 ("/internal/" ++ relativePosix pf.DATA_PATH path).toList)) ↔
      '%' ∉ (relativePosix pf.DATA_PATH path).toList ∧ '?' ∉ (relativePosix pf.DATA_PATH path).toList := by
  have harchive : ∀ parent, (readEntry (add_to_manifest pf parent path (pf.size x)).toList).map ManifestEntry.location =
      some (utf8 ("/internal/" ++ relativePosix pf.DATA_PATH path).toList) := fun parent => by
    rw [readEntry_add_to_manifest parent (path, x)]
    rfl
  rw [and_iff_left harchive, single_location (FileTree.isFile_iff.mpr ⟨x, hget⟩), Option.map_some, Option.some.injEq]
  exact decodedPath_internal_path path

theorem same_file_sample :
    ((download_files samplePlatform sampleTree [sampleData ++ ["a.zip"]]).headers.lookup "X-Accel-Redirect").map
        (fun uri => decodedPath (utf8 uri.toList)) =
      some (utf8 ("/internal/" ++ relativePosix samplePlatform.DATA_PATH (sampleData ++ ["a.zip"])).toList) :=
  have hget : sampleTree.get (sampleData ++ ["a.zip"]) = some (.file "zip") := by decide
  ((same_file_iff samplePlatform hget).mpr (by decide)).1

/-- For `x%41` nginx looks for the file `xA`. -/
theorem not_same_file :
    ((download_files samplePlatform sampleDownloads [sampleData ++ ["x%41"]]).headers.lookup "X-Accel-Redirect").map
        (fun uri => decodedPath (utf8 uri.toList)) ≠
      some (utf8 ("/internal/" ++ relativePosix samplePlatform.DATA_PATH (sampleData ++ ["x%41"])).toList) := by
  rw [single_location (by decide), Option.map_some, ne_eq, Option.some.injEq, decodedPath_internal_path]
  decide

/-! ## What requests keep -/

/-- The request creates or moves files, and the identifier of an upload has no dot. -/
def WriteRequest.Creates : WriteRequest → Prop
  | upload file_id _ _ => '.' ∉ file_id.str.toList
  | compress _ | extract _ | copy _ _ | rename _ _ => True
  | delete _ | setContent _ _ => False

/-- What a request leaves of the files: a rename moves a tree, an upload may take its temporary files, and otherwise every
file keeps its content. -/
def WriteRequest.Preserves (id : Uuid4) (d d' : Disk α) : WriteRequest → Except PyError Unit → Prop
  | upload file_id _ _, _ => Disk.FilesKept (OwnUpload pf file_id.str) d d'
  | rename path new_name, .ok _ => ∃ a b new_path, path.withName new_name = some new_path ∧
      safe_user_path (miniverse_data_path pf id) path = .ok a ∧
      safe_user_path (miniverse_data_path pf id) new_path = .ok b ∧ Disk.Moved a b d d'
  | _, _ => Kept d d'

theorem request_preserves (id : Uuid4) {r : WriteRequest} (h : r.Creates) (d : Disk α) :
    r.Preserves pf id d (r.run pf id d).2 (r.run pf id d).1 := by
  cases r with
  | upload file_id filename destination => exact filesKept_upload file_id.ok h id filename destination d
  | compress paths => exact kept_compress id paths d
  | extract path => exact kept_extract id path d
  | copy paths destination => exact kept_copy id paths destination d
  | delete paths => exact h.elim
  | setContent path content => exact h.elim
  | rename path new_name =>
      rcases rename_moves pf id path new_name d with ⟨e, hrun⟩ | ⟨a, b, new_path, d', hrun, hpath, ha, hb, hmoved⟩
      · rw [WriteRequest.run, hrun]
        exact Std.Refl.refl (r := Kept) d
      · rw [WriteRequest.run, hrun]
        exact ⟨a, b, new_path, hpath, ha, hb, hmoved⟩

/-- Nothing that exists is overwritten, by no request of a run. -/
theorem files_not_overwritten {calls : List (Uuid4 × WriteRequest)} (hcreates : ∀ c ∈ calls, c.2.Creates) (d : Disk α) :
    Meets (fun c => c.2.run pf c.1) (fun d c => c.2.Preserves pf c.1 d (c.2.run pf c.1 d).2 (c.2.run pf c.1 d).1) calls d :=
  meets_of_mem (fun c hc d => request_preserves pf c.1 (hcreates c hc) d) d

/-- An archive is extracted, compressed, renamed and copied next to itself. -/
def sampleFileCalls : List (Uuid4 × WriteRequest) :=
  [(sampleId, .extract (.parse "a.zip")), (sampleId, .compress [.parse "a.zip"]), (sampleId, .rename (.parse "a.zip") "b.zip"),
    (sampleId, .copy [.parse "b.zip"] (.parse "."))]

theorem files_not_overwritten_sample :
    Meets (fun c => c.2.run samplePlatform c.1)
      (fun d c => c.2.Preserves samplePlatform c.1 d (c.2.run samplePlatform c.1 d).2 (c.2.run samplePlatform c.1 d).1)
      sampleFileCalls ⟨sampleTree, []⟩ := by
  refine files_not_overwritten samplePlatform (fun c hc => ?_) _
  simp only [sampleFileCalls, List.mem_cons, List.not_mem_nil, or_false] at hc
  rcases hc with rfl | rfl | rfl | rfl <;> trivial

end Backend
