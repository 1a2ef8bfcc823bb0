import Miniverse.Files.Reads

/-!
# Operations on entries

What the operations of the file service are for: they work on entries of the data directory. A user names an entry by the path
that a listing gives for it.
-/

namespace Backend

open Lib

variable {α : Type} (pf : Platform α)

/-- Something is at the location, and the location is strictly below the data directory. -/
structure IsEntry (id : Uuid4) (t : FileTree α) (entry : Loc) : Prop where
  below : miniverse_data_path pf id <+: entry
  inside : entry ≠ miniverse_data_path pf id
  present : t.exists entry = true

/-- The path of an entry in a listing. -/
def listed_path (id : Uuid4) (entry : Loc) : String := relativePosix (miniverse_data_path pf id) entry

/-- The path that a request gets from it. -/
def entry_path (id : Uuid4) (entry : Loc) : PurePath := .parse (listed_path pf id entry)

/-- The query parameter for several entries. -/
def entry_paths (id : Uuid4) (entries : List Loc) : String :=
  String.ofList ([','].intercalate (entries.map fun entry => (listed_path pf id entry).toList))

/-- The files at and below an entry, located from its name. -/
def entryFiles (t : FileTree α) (entry : Loc) : List (Loc × α) :=
  (listedFiles t entry).map fun f => (entry.name :: f.1.drop entry.length, f.2)

/-! ## One operation each -/

def list_entry (times : Loc → Times) (id : Uuid4) (entry : Loc) : Fs α (Option (List FileInfo)) := do
  if ← Disk.look (·.isFile entry) then return none
  else Disk.look fun t => some ((t.children entry).map fun n =>
    { is_folder := t.isDir (entry ++ [n])
      path := listed_path pf id (entry ++ [n])
      name := n
      created := (times (entry ++ [n])).ctime
      updated := (times (entry ++ [n])).mtime
      size := (t.get (entry ++ [n])).bind (Node.size pf) })

def entry_content (entry : Loc) : Fs α α := do
  Eff.raiseIf (← Disk.look (·.isDir entry)) (.valueError (entry.str ++ " is a directory"))
  if ← Disk.look (·.isFile entry) then
    let content ← Disk.readFile entry
    Eff.raiseIf (15000000 ≤ pf.size content) (.http 480 "File too large")
    return content
  else Eff.raise (.valueError ("File " ++ entry.str ++ " does not exist"))

def delete_entries (entries : List Loc) : Fs α Unit :=
  entries.forM fun entry => do
    if ← Disk.look (·.exists entry) then
      if ← Disk.look (·.isDir entry) then Disk.rmtree entry
      else Disk.unlink entry

def copy_entries (entries : List Loc) (destination : Loc) : Fs α Unit := entries.forM (copy_source pf destination)

def extract_entry (entry : Loc) : Fs α Unit := do
  Eff.raiseIf (!(← Disk.look (·.isFile entry))) (.valueError ("File " ++ entry.str ++ " does not exist"))
  if (suffix entry.name).toList.map Char.toLower = ".zip".toList then _extract_zip pf entry entry.parent
  else Eff.raise (.valueError "Unsupported archive format")

/-- The archive has the files of the entries. -/
def compress_entries (entries : List Loc) : Fs α Unit :=
  match (entries.map Loc.parent).dedup with
  | [parent] => do
      let destination ← Disk.look (change_path_name_if_exists · (parent ++ [destination_name entries]))
      let files ← Disk.look fun t => entries.flatMap (entryFiles t)
      Disk.write destination (pf.zipstream (files.map fun f => (relativePosix [] f.1, f.2)))
  | _ => Eff.raise (.valueError "Files to compress must have same parent")

/-- The new path is that of the entry with another name. -/
def rename_entry (id : Uuid4) (entry : Loc) (new_name : String) : Fs α Unit := do
  let new_path ← Eff.getOr ((entry_path pf id entry).withName new_name) (.valueError "Invalid name")
  let new_entry ← Eff.ofExcept (safe_user_path (miniverse_data_path pf id) new_path)
  Eff.raiseIf (← Disk.look (·.exists new_entry)) (.valueError ("File " ++ new_entry.str ++ " already exists"))
  Disk.rename entry new_entry

def set_entry_content (entry : Loc) (content : Option String) : Fs α Unit := do
  Eff.raiseIf (← Disk.look (·.isDir entry)) (.valueError ("Directory " ++ entry.str ++ " already exists"))
  if ← Disk.look (·.isFile entry) then
    let text ← Eff.getOr content .typeError
    Disk.write entry (pf.encode text).1
    Eff.raiseIf (!(pf.encode text).2) .unicodeEncodeError
  else Eff.raise (.valueError ("File " ++ entry.str ++ " does not exist"))

def upload_to_entry (file_id filename : String) (entry : Loc) : Fs α Unit := do
  Eff.raiseIf (← Disk.look (·.isFile entry)) (.valueError "Destination must be a directory")
  Disk.mkdirs entry
  let target ← Eff.ofExcept (safe_user_path entry (.parse filename))
  Disk.mkdirs target.parent
  let target ← Disk.look (change_path_name_if_exists · target)
  move_upload pf file_id target

/-! ## Requests -/

/-- A request that names entries. A download names at least one. -/
inductive EntryRequest where
  | list (entry : Loc)
  | content (entry : Loc)
  | download (entry : Loc) (more : List Loc)
  | delete (entries : List Loc)
  | copy (entries : List Loc) (destination : Loc)
  | extract (entry : Loc)
  | compress (entries : List Loc)
  | rename (entry : Loc) (new_name : String)
  | setContent (entry : Loc) (content : Option String)
  | upload (file_id filename : String) (destination : Loc)

namespace EntryRequest

def entries : EntryRequest → List Loc
  | list entry | content entry | extract entry | rename entry _ | setContent entry _ | upload _ _ entry => [entry]
  | download entry more => entry :: more
  | delete entries | compress entries => entries
  | copy entries destination => destination :: entries

/-- Given the listed paths, the operation works on the entries. For a download these are the locations that it selects. -/
def Denotes (times : Loc → Times) (id : Uuid4) (d : Disk α) : EntryRequest → Prop
  | list entry => list_miniverse_files pf times id (entry_path pf id entry) d = list_entry pf times id entry d
  | content entry => get_file_content pf id (entry_path pf id entry) d = entry_content pf entry d
  | download entry more =>
      transform_safe_miniverse_files pf id (selectedPaths (entry_paths pf id (entry :: more))) = .ok (entry :: more)
  | delete entries => delete_miniverse_files pf id (entries.map (entry_path pf id)) d = delete_entries entries d
  | copy entries destination =>
      copy_miniverse_files pf id (entries.map (entry_path pf id)) (entry_path pf id destination) d =
        copy_entries pf entries destination d
  | extract entry => extract_miniverse_archive pf id (entry_path pf id entry) d = extract_entry pf entry d
  | compress entries => compress_miniverse_files pf id (entries.map (entry_path pf id)) d = compress_entries pf entries d
  | rename entry new_name => rename_file pf id (entry_path pf id entry) new_name d = rename_entry pf id entry new_name d
  | setContent entry text => set_file_content pf id (entry_path pf id entry) text d = set_entry_content pf entry text d
  | upload file_id filename destination =>
      upload_miniverse_file pf id file_id filename (entry_path pf id destination) d =
        upload_to_entry pf file_id filename destination d

/-- The two kinds of requests that take a path otherwise: a download is asked for with paths between commas, and to compress
entries of one directory the process follows the paths from where it works. -/
def FindsEntries (id : Uuid4) (t : FileTree α) : EntryRequest → Prop
  | download entry more => ∀ e ∈ entry :: more, ',' ∉ (listed_path pf id e).toList
  | compress entries => (∃ parent, ∀ entry ∈ entries, entry.parent = parent) →
      found pf t (entries.map (entry_path pf id)) = entries.flatMap (entryFiles t)
  | _ => True

end EntryRequest

end Backend
