import Miniverse.Files.Lemmas.Manifest
import Miniverse.Lib.Agree

/-!
# Requests that read

The requests whose answers, copies and archives are made of files, and what a user gets of them.
-/

namespace Backend

open Lib

variable {α : Type}

/-- The content of a file. -/
def fileAt (t : FileTree α) (path : Loc) : Option α :=
  match t.get path with
  | some (.file x) => some x
  | _ => none

/-- The server in front of the backend: what it has at a location, and whether its archives pass over empty lines of a manifest.
Under `/internal/` it has the files of the data path that are of miniverses: no other directory of it is mounted. -/
structure Nginx (pf : Platform α) where
  serves : FileTree α → List UInt8 → Option α
  passes_empty : Bool
  internal : ∀ t path, pf.DATA_PATH ++ ["miniverses"] <+: path → (∀ c ∈ path, IsName c) →
    serves t (utf8 ("/internal/" ++ relativePosix pf.DATA_PATH path).toList) = fileAt t path

/-- The tree and the times that the system keeps. The process works in a directory. -/
structure FileSystem (pf : Platform α) where
  tree : FileTree α
  times : Loc → Times
  cwd_dir : tree.isDir pf.cwd = true

/-- The file systems are the same at and below a location. -/
structure FileSystem.Agree {pf : Platform α} (root : Loc) (f f' : FileSystem pf) : Prop where
  tree : f.tree.inside root = f'.tree.inside root
  times : ∀ path, root <+: path → f.times path = f'.times path

/-- What a user gets. A download is a list of files with their names, unless the server cannot make the archive. -/
inductive Answer (α : Type) where
  | listing (files : Option (List FileInfo))
  | content (content : α)
  | files (files : Option (List (List Char × Option α)))
  | done

variable {pf : Platform α}

/-- The files that the server sends for a response. -/
def received (nginx : Nginx pf) (t : FileTree α) (response : Response) : Option (List (List Char × Option α)) :=
  match response.headers.lookup "X-Accel-Redirect" with
  | some uri =>
      some [(((response.headers.lookup "Content-Disposition").getD "").toList, nginx.serves t (decodedPath (utf8 uri.toList)))]
  | none => (readManifest nginx.passes_empty response.content).map fun entries =>
      entries.map fun e => (e.name, nginx.serves t e.location)

inductive ReadRequest where
  | list (user_path : PurePath)
  | content (path : PurePath)
  | download (own : Role) (paths : String)
  | copy (paths : List PurePath) (destination_path : PurePath)
  | compress (paths : List PurePath)

namespace ReadRequest

def run (nginx : Nginx pf) (times : Loc → Times) (id : Uuid4) : ReadRequest → Fs α (Answer α)
  | list user_path => do return .listing (← list_miniverse_files pf times id user_path)
  | content path => do return .content (← get_file_content pf id path)
  | download own paths => do
      let response ← FilesController.download_files pf own id paths
      Disk.look fun t => .files (received nginx t response)
  | copy paths destination_path => do
      copy_miniverse_files pf id paths destination_path
      return .done
  | compress paths => do
      compress_miniverse_files pf id paths
      return .done

/-- The answer, and the tree that is left. -/
def outcome (nginx : Nginx pf) (id : Uuid4) (r : ReadRequest) (f : FileSystem pf) : Except PyError (Answer α) × FileTree α :=
  let (answer, d) := r.run nginx f.times id ⟨f.tree, []⟩
  (answer, d.tree)

end ReadRequest

/-! ## Two runs -/

/-- The answers are the same. Errors of the system are all answered alike. -/
def SameAnswer {β : Type} (a a' : Except PyError β) : Prop :=
  a = a' ∨ ∃ e e', a = .error (.os e) ∧ a' = .error (.os e')

/-- The content of a file that was not there before. -/
def Created (t t' : FileTree α) (x : α) : Prop := ∃ p, t.exists p = false ∧ t'.get p = some (.file x)

/-- The request leads to the same on both file systems: it is answered in the same way, leaves the same in the data directory, and
makes files with the same contents. -/
structure SameOutcome (nginx : Nginx pf) (id : Uuid4) (r : ReadRequest) (f f' : FileSystem pf) : Prop where
  answer : SameAnswer (r.outcome nginx id f).1 (r.outcome nginx id f').1
  inside : (r.outcome nginx id f).2.inside (miniverse_data_path pf id) = (r.outcome nginx id f').2.inside (miniverse_data_path pf id)
  created : ∀ x, Created f.tree (r.outcome nginx id f).2 x ↔ Created f'.tree (r.outcome nginx id f').2 x

/-! ## What else is read -/

/-- The line is one that a name with newlines adds to the manifest of the selected paths. -/
def ForgedLine (passes_empty : Bool) (t : FileTree α) (paths : List Loc) (line : List Char) : Prop :=
  ∃ path ∈ paths, ∃ f ∈ listedFiles t path,
    line ∈ ((relativePosix path.parent f.1).toList.splitOn '\n').tail ∧ (passes_empty && line.isEmpty) = false

/-- For a file by itself the server has the same at its unquoted location. For an archive whose added lines are all entries, it
has the same at the locations of these. -/
structure SameServed (nginx : Nginx pf) (t t' : FileTree α) (paths : List Loc) : Prop where
  single : ∀ path, paths = [path] → t.isFile path = true →
    nginx.serves t (decodedPath (utf8 (internal_path pf path).toList)) =
      nginx.serves t' (decodedPath (utf8 (internal_path pf path).toList))
  archive : (∀ path, paths = [path] → t.isFile path = false) →
    (∀ line, ForgedLine nginx.passes_empty t paths line → ∃ e, readEntry line = some e) →
    ∀ line e, ForgedLine nginx.passes_empty t paths line → readEntry line = some e →
      nginx.serves t e.location = nginx.serves t' e.location

/-- The files that the process finds at and below a path as it is given, located from the last component of the path. -/
def foundAt (pf : Platform α) (t : FileTree α) (path : PurePath) : List (Loc × α) :=
  match t.locate pf.cwd path with
  | none => []
  | some p => (listedFiles t p).map fun f => (path.tail.drop (path.tail.length - 1) ++ f.1.drop p.length, f.2)

def found (pf : Platform α) (t : FileTree α) (paths : List PurePath) : List (Loc × α) := paths.flatMap (foundAt pf t)

/-- The paths of a download. -/
def selectedPaths (paths : String) : List PurePath := (paths.toList.splitOn ',').map fun path => PurePath.parse (String.ofList path)

/-- What the request reads outside of the data directory is the same. -/
def ReadRequest.SameOutside (nginx : Nginx pf) (id : Uuid4) (t t' : FileTree α) : ReadRequest → Prop
  | list _ | content _ | copy _ _ => True
  | download own paths => ¬ own < .moderator → ∀ safe_paths,
      transform_safe_miniverse_files pf id (selectedPaths paths) = .ok safe_paths → SameServed nginx t t' safe_paths
  | compress paths => ∀ files parent, safe_user_paths (miniverse_data_path pf id) paths = .ok files →
      (∀ file ∈ files, file.parent = parent) → files ≠ [] →
      t.isDir parent = t'.isDir parent ∧ (t.isDir parent = true → found pf t paths = found pf t' paths)

end Backend
