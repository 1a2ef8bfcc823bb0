import Miniverse.Files.Shutil
import Miniverse.Lib.FreshName

/-!
# The file service

The functions of `files_service.py`. Every one gets paths from a user, confines them to the data directory of
a miniverse with `safe_user_path`, and then works on the tree.
-/

namespace Backend

open Lib

/-- A member of a zip file as `zipfile` shows it: whether it can be opened, what is read from it, and whether
the reading ends without an exception. -/
structure ZipMember (α : Type) where
  filename : String
  opens : Bool
  data : α
  complete : Bool

/-- `ZipInfo.is_dir()` -/
def ZipMember.is_dir {α : Type} (m : ZipMember α) : Bool := m.filename.toList.getLast? == some '/'

/-- What the service runs on: its settings, the process, and the encodings of file contents. -/
structure Platform (α : Type) where
  DATA_PATH : Loc
  data_path_ok : ∀ c ∈ DATA_PATH, IsName c
  /-- The working directory of the process. -/
  cwd : Loc
  recursion_limit : Nat
  /-- What writing a text as UTF-8 puts into a file, and whether it ends without an exception. -/
  encode : String → α × Bool
  size : α → Nat
  /-- The members of a zip file, if the content is one. -/
  zipfile : α → Option (List (ZipMember α))
  /-- The zip file that `zipstream` makes of archive names and contents. -/
  zipstream : List (String × α) → α

/-- A platform where contents are texts, and the text `zip` is an archive with the one member `/x`. -/
def samplePlatform : Platform String where
  DATA_PATH := ["srv"]
  data_path_ok := by decide
  cwd := []
  recursion_limit := 10
  encode text := (text, true)
  size text := text.length
  zipfile text := if text = "zip" then some [⟨"/x", true, "x", true⟩] else none
  zipstream _ := "archive"

variable {α : Type} (pf : Platform α)

/-! ## Paths -/

/-- `get_miniverse_path(miniverse_id)` -/
def get_miniverse_path (miniverse_id : Uuid4) : Loc := pf.DATA_PATH ++ ["miniverses", miniverse_id.str]

/-- `get_miniverse_path(miniverse_id) / "data"` -/
def miniverse_data_path (miniverse_id : Uuid4) : Loc := get_miniverse_path pf miniverse_id ++ ["data"]

theorem miniverse_data_path_isName {pf : Platform α} (id : Uuid4) : ∀ c ∈ miniverse_data_path pf id, IsName c := by
  intro c hc
  simp only [miniverse_data_path, get_miniverse_path, List.append_assoc, List.cons_append, List.nil_append,
    List.mem_append, List.mem_cons, List.not_mem_nil, or_false] at hc
  rcases hc with hc | rfl | rfl | rfl
  · exact pf.data_path_ok c hc
  · decide
  · exact id.isName
  · decide

def safe_user_path (root : Loc) (user_relative_path : PurePath) : Except PyError Loc :=
  let base := resolveFrom [] root
  let user_relative_path := PurePath.parse ("./" ++ user_relative_path.str)
  if user_relative_path.hasNul then .error (.valueError "lstat: embedded null character in path")
  else
    let target := resolveFrom [] (base ++ user_relative_path.tail)
    if base <+: target then .ok target
    else .error (.valueError "Specified path is invalid")

/-- The name tried for the number `i`: the path itself, then numbered names next to it. -/
def candidate (t : FileTree α) (path : Loc) (i : Nat) : Loc :=
  if i ≤ 1 then path
  else if t.isDir path then path.parent ++ [path.name ++ " (" ++ i.repr ++ ")"]
  else path.parent ++ [stem path.name ++ " (" ++ i.repr ++ ")" ++ suffix path.name]

theorem digits_injective {j k : Nat} (h : Nat.toDigits 10 j = Nat.toDigits 10 k) : j = k := by
  have := congrArg (Nat.ofDigitChars 10 · 0) h
  simpa [Nat.ofDigitChars_ten_toDigits] using this

theorem numbered_injective {a b : String} {j k : Nat} (h : a ++ " (" ++ j.repr ++ ")" ++ b = a ++ " (" ++ k.repr ++ ")" ++ b) :
    j = k :=
  digits_injective (by simpa [← String.toList_inj] using h)

theorem candidate_injective (t : FileTree α) (path : Loc) {j k : Nat} (hj : 2 ≤ j) (hk : 2 ≤ k)
    (h : candidate t path j = candidate t path k) : j = k := by
  have hj' : ¬ j ≤ 1 := by omega
  have hk' : ¬ k ≤ 1 := by omega
  unfold candidate at h
  rw [if_neg hj', if_neg hk'] at h
  split at h
  · have hname := List.singleton_inj.mp (List.append_cancel_left h)
    exact @numbered_injective path.name "" j k (by rw [hname])
  · exact numbered_injective (List.singleton_inj.mp (List.append_cancel_left h))

/-- The loop of `change_path_name_if_exists`, which starts with the number 1. -/
def freeName (t : FileTree α) (path : Loc) : Option Loc :=
  firstFree t.exists (candidate t path) (t.entries.length + 2) 1

/-- The loop ends: its candidates are distinct and the tree is finite. -/
theorem freeName_isSome (t : FileTree α) (path : Loc) : (freeName t path).isSome = true := by
  unfold freeName firstFree
  split
  · refine firstFree_isSome (l := t.entries.map Prod.fst) ?_ (fun j k hj hk h => candidate_injective t path hj hk h) ?_
    · intro j _ hp
      obtain ⟨n, hn⟩ := FileTree.exists_iff.mp hp
      exact List.mem_map.mpr ⟨_, FileTree.get_eq_some.mp hn, rfl⟩
    · simp
  · rfl

def change_path_name_if_exists (t : FileTree α) (path : Loc) : Loc := (freeName t path).get (freeName_isSome t path)

/-! ## Extraction -/

/-- `Path(filename).parts[0]` of every member that has one, each once. -/
def get_zip_roots (members : List (ZipMember α)) : List String :=
  ((members.filter fun info => decide (info.filename ≠ "")).filterMap
    fun info => (PurePath.parse info.filename).parts.head?).dedup

/-- `Path(*path.parts[1:])` -/
def dropFirstPart (path : PurePath) : PurePath :=
  match path.root with
  | .relative => .ofTail (path.tail.drop 1) fun c hc => path.tail_ok c (List.mem_of_mem_drop hc)
  | _ => .ofTail path.tail path.tail_ok

/-- The name of the directory to extract to, before it is confined. -/
def container_name (roots : List String) (archive_path : Loc) : String :=
  match roots with
  | [root] => root
  | _ => stem archive_path.name

/-- The body of the loop over the members. -/
def extract_member (single_root : Bool) (container_dir : Loc) (member : ZipMember α) : Fs α Unit := do
  if member.is_dir then return
  let member_path := PurePath.parse member.filename
  let member_path := if single_root then dropFirstPart member_path else member_path
  let target ← Eff.ofExcept (safe_user_path container_dir member_path)
  Disk.mkdirs target.parent
  Eff.raiseIf (!member.opens) .zipMember
  Disk.write target member.data
  Eff.raiseIf (!member.complete) .zipMember

/-- Extract the members to the container, or to a directory next to it when it exists. -/
def extract_members (members : List (ZipMember α)) (container : Loc) : Fs α Unit := do
  let container_dir ← Disk.look (change_path_name_if_exists · container)
  Disk.mkdirs container_dir
  members.forM (extract_member ((get_zip_roots members).length == 1) container_dir)

def _extract_zip (archive_path extract_dir : Loc) : Fs α Unit := do
  let content ← Disk.readFile archive_path
  let members ← Eff.getOr (pf.zipfile content) .badZipFile
  let name := container_name (get_zip_roots members) archive_path
  extract_members members (← Eff.ofExcept (safe_user_path extract_dir (.parse name)))

/-! ## Listing and reading -/

structure FileInfo where
  is_folder : Bool
  path : String
  name : String
  created : Int
  updated : Int
  size : Option Nat
deriving DecidableEq

/-- The times that the system keeps for a location. -/
structure Times where
  ctime : Int
  mtime : Int

def Node.size {α : Type} (pf : Platform α) : Node α → Option Nat
  | .dir => none
  | .file x => some (pf.size x)

/-- `path.relative_to(parent).as_posix()` of a location below `parent`. -/
def relativePosix (parent p : Loc) : String :=
  String.ofList (['/'].intercalate ((p.drop parent.length).map String.toList))

def list_miniverse_files (times : Loc → Times) (miniverse_id : Uuid4) (user_path : PurePath) :
    Fs α (Option (List FileInfo)) := do
  let data_path := miniverse_data_path pf miniverse_id
  let safe_path ← Eff.ofExcept (safe_user_path data_path user_path)
  Eff.raiseIf (!(← Disk.look (·.exists safe_path))) (.valueError ("Specified does not exist: " ++ user_path.str))
  if ← Disk.look (·.isFile safe_path) then return none
  else Disk.look fun t => some ((t.children safe_path).map fun n =>
    let path := safe_path ++ [n]
    { is_folder := t.isDir path
      path := relativePosix data_path path
      name := n
      created := (times path).ctime
      updated := (times path).mtime
      size := (t.get path).bind (Node.size pf) })

def get_file_content (miniverse_id : Uuid4) (path : PurePath) : Fs α α := do
  let file_to_read ← Eff.ofExcept (safe_user_path (miniverse_data_path pf miniverse_id) path)
  Eff.raiseIf (← Disk.look (·.isDir file_to_read)) (.valueError (file_to_read.str ++ " is a directory"))
  if ← Disk.look (·.isFile file_to_read) then
    let content ← Disk.readFile file_to_read
    Eff.raiseIf (15000000 ≤ pf.size content) (.http 480 "File too large")
    return content
  else Eff.raise (.valueError ("File " ++ file_to_read.str ++ " does not exist"))

/-- A list of user paths, all confined or none. -/
def safe_user_paths (root : Loc) (paths : List PurePath) : Except PyError (List Loc) :=
  paths.mapM (safe_user_path root)

/-! ## Changing -/

def delete_miniverse_files (miniverse_id : Uuid4) (paths : List PurePath) : Fs α Unit := do
  let safe_paths ← Eff.ofExcept (safe_user_paths (miniverse_data_path pf miniverse_id) paths)
  safe_paths.forM fun safe_path => do
    if ← Disk.look (·.exists safe_path) then
      if ← Disk.look (·.isDir safe_path) then Disk.rmtree safe_path
      else Disk.unlink safe_path

/-- The body of the loop over the sources. -/
def copy_source (safe_destination_path src : Loc) : Fs α Unit := do
  if ← Disk.look (·.exists src) then
    let dst ← Disk.look (change_path_name_if_exists · (safe_destination_path ++ [src.name]))
    if ← Disk.look (·.isDir src) then Fs.copytree pf.recursion_limit src dst
    else Fs.copy2 src dst

def copy_miniverse_files (miniverse_id : Uuid4) (paths : List PurePath) (destination_path : PurePath) : Fs α Unit := do
  let data_path := miniverse_data_path pf miniverse_id
  let safe_paths ← Eff.ofExcept (safe_user_paths data_path paths)
  let safe_destination_path ← Eff.ofExcept (safe_user_path data_path destination_path)
  safe_paths.forM (copy_source pf safe_destination_path)

/-- `settings.DATA_PATH / "uploads" / file_id` -/
def upload_path (file_id : String) : PurePath :=
  (PurePath.ofLoc (pf.DATA_PATH ++ ["uploads"]) (by
    intro c hc
    rcases List.mem_append.mp hc with hc | hc
    · exact pf.data_path_ok c hc
    · exact List.mem_singleton.mp hc ▸ by decide)).join (.parse file_id)

/-- Remove the metadata of the temporary file and move the file to the target. -/
def move_upload (file_id : String) (target : Loc) : Fs α Unit := do
  let tmp_path := upload_path pf file_id
  Fs.unlinkPath pf.cwd (← Eff.getOr (tmp_path.withSuffix ".info") (.valueError "Invalid name"))
  Fs.renamePath pf.cwd tmp_path target

def upload_miniverse_file (miniverse_id : Uuid4) (file_id filename : String) (destination : PurePath) : Fs α Unit := do
  let base_path := miniverse_data_path pf miniverse_id
  let dest_path ← Eff.ofExcept (safe_user_path base_path destination)
  Eff.raiseIf (← Disk.look (·.isFile dest_path)) (.valueError "Destination must be a directory")
  Disk.mkdirs dest_path
  let target ← Eff.ofExcept (safe_user_path dest_path (.parse filename))
  Disk.mkdirs target.parent
  let target ← Disk.look (change_path_name_if_exists · target)
  move_upload pf file_id target

def extract_miniverse_archive (miniverse_id : Uuid4) (path : PurePath) : Fs α Unit := do
  let file_to_extract ← Eff.ofExcept (safe_user_path (miniverse_data_path pf miniverse_id) path)
  Eff.raiseIf (!(← Disk.look (·.isFile file_to_extract)))
    (.valueError ("File " ++ file_to_extract.str ++ " does not exist"))
  let extract_dir := file_to_extract.parent
  if (suffix file_to_extract.name).toList.map Char.toLower = ".zip".toList then _extract_zip pf file_to_extract extract_dir
  else Eff.raise (.valueError "Unsupported archive format")

/-- The entries that the loop over the raw paths queues for one path: the file itself, or the files below the
directory, each with its name relative to the parent of the path. -/
def zip_entries (t : FileTree α) (path : PurePath) : List (String × α) :=
  let arcname (rel : Loc) : String := relativePosix [] (path.tail.drop (path.tail.length - 1) ++ rel)
  match t.locate pf.cwd path with
  | none => []
  | some p =>
      match t.get p with
      | none => []
      | some (.file x) => [(arcname [], x)]
      | some .dir => (t.below p).filterMap fun e =>
          match e.2 with
          | .dir => none
          | .file x => some (arcname (e.1.drop p.length), x)

/-- The name of the archive of the selected files. -/
def destination_name (files_to_compress : List Loc) : String :=
  match files_to_compress with
  | [file] => file.name ++ ".zip"
  | _ => "Archive.zip"

def compress_miniverse_files (miniverse_id : Uuid4) (paths : List PurePath) : Fs α Unit := do
  let files_to_compress ← Eff.ofExcept (safe_user_paths (miniverse_data_path pf miniverse_id) paths)
  let parents := (files_to_compress.map Loc.parent).dedup
  match parents with
  | [parent] =>
      let destination ← Disk.look
        (change_path_name_if_exists · (parent ++ [destination_name files_to_compress]))
      let entries ← Disk.look fun t => paths.flatMap (zip_entries pf t)
      Disk.write destination (pf.zipstream entries)
  | _ => Eff.raise (.valueError "Files to compress must have same parent")

def rename_file (miniverse_id : Uuid4) (path : PurePath) (new_name : String) : Fs α Unit := do
  let base_path := miniverse_data_path pf miniverse_id
  let file_to_rename ← Eff.ofExcept (safe_user_path base_path path)
  let new_path ← Eff.getOr (path.withName new_name) (.valueError "Invalid name")
  let new_path_safe ← Eff.ofExcept (safe_user_path base_path new_path)
  Eff.raiseIf (← Disk.look (·.exists new_path_safe)) (.valueError ("File " ++ new_path_safe.str ++ " already exists"))
  Disk.rename file_to_rename new_path_safe

/-- `content` is the value of a request field, `none` when it is no string. -/
def set_file_content (miniverse_id : Uuid4) (path : PurePath) (content : Option String) : Fs α Unit := do
  let file_to_write ← Eff.ofExcept (safe_user_path (miniverse_data_path pf miniverse_id) path)
  Eff.raiseIf (← Disk.look (·.isDir file_to_write)) (.valueError ("Directory " ++ file_to_write.str ++ " already exists"))
  if ← Disk.look (·.isFile file_to_write) then
    let text ← Eff.getOr content .typeError
    Disk.write file_to_write (pf.encode text).1
    Eff.raiseIf (!(pf.encode text).2) .unicodeEncodeError
  else Eff.raise (.valueError ("File " ++ file_to_write.str ++ " does not exist"))

end Backend
