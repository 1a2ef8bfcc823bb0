import Miniverse.Files.Service
import Miniverse.Lib.Uri

/-!
# Downloads

What the backend answers to a download: nginx is told to send one file, or to put several into an archive that it makes
from a manifest.
-/

namespace Backend

open Lib

/-- The body of an answer and the headers set on it. -/
structure Response where
  content : String
  headers : List (String × String)
deriving DecidableEq

variable {α : Type} (pf : Platform α)

/-- `/internal/` and the path relative to the data path, as it is. -/
def internal_path (path : Loc) : String := "/internal/" ++ relativePosix pf.DATA_PATH path

/-- `/internal/` and the path relative to the data path, quoted. -/
def quoted_path (path : Loc) : String :=
  "/internal/" ++ String.ofList (quote (relativePosix pf.DATA_PATH path).toList)

/-- The line that is appended to the manifest. -/
def add_to_manifest (parent path : Loc) (st_size : Nat) : String :=
  let crc := "-"
  crc ++ " " ++ st_size.repr ++ " " ++ quoted_path pf path ++ " " ++ relativePosix parent path

/-- The files that are listed for a path, with their contents: the file itself, or those below the directory. -/
def listedFiles (t : FileTree α) (path : Loc) : List (Loc × α) :=
  match t.get path with
  | none => []
  | some (.file x) => [(path, x)]
  | some .dir => (t.below path).filterMap fun e =>
      match e.2 with
      | .dir => none
      | .file x => some (e.1, x)

/-- The lines for the selected paths. -/
def manifest (t : FileTree α) (paths : List Loc) : List String :=
  paths.flatMap fun path => (listedFiles t path).map fun f => add_to_manifest pf path.parent f.1 (pf.size f.2)

def file_response (path : Loc) : Response where
  content := ""
  headers := [("X-Accel-Redirect", internal_path pf path), ("Content-Type", "application/octet-stream"),
    ("Content-Disposition", "attachment; filename=\"" ++ path.name ++ "\"")]

def archive_response (t : FileTree α) (paths : List Loc) : Response where
  content := "\n".intercalate (manifest pf t paths) ++ "\n"
  headers := [("X-Archive-Files", "zip"), ("Content-Type", "application/zip"),
    ("Content-Disposition", "attachment; filename=\"archive.zip\"")]

def download_files (t : FileTree α) (paths : List Loc) : Response :=
  match paths with
  | [path] => if t.isFile path then file_response pf path else archive_response pf t [path]
  | paths => archive_response pf t paths

def transform_safe_miniverse_files (miniverse_id : Uuid4) (paths : List PurePath) : Except PyError (List Loc) :=
  safe_user_paths (miniverse_data_path pf miniverse_id) paths

/-- The handler of the download route, for a user with the role `own` in the miniverse. -/
def FilesController.download_files (own : Role) (miniverse_id : Uuid4) (paths : String) : Fs α Response := do
  Eff.raiseIf (own < .moderator) (.notAuthorized "You are not authorized to view files in this miniverse")
  let paths := (paths.toList.splitOn ',').map fun path => PurePath.parse (String.ofList path)
  let safe_paths ← Eff.ofExcept (transform_safe_miniverse_files pf miniverse_id paths)
  Eff.raiseIf (safe_paths.length = 0) (.notFound "Dossier vide")
  Disk.look fun t => Backend.download_files pf t safe_paths

end Backend
