import Mathlib.Data.List.Sort
import Miniverse.Core.World

/-!
# Mods

The functions of `mods_service.py` that ask Modrinth for versions and install, update and remove mods.
-/

namespace Backend

open Lib

variable {α : Type} (env : Env α)

inductive ModUpdateStatus where
  | already_up_to_date
  | update_available
  | no_compatible_versions
  | error
deriving DecidableEq, Repr

structure ModUpdateInfo where
  update_status : ModUpdateStatus
  new_versions_ids : List String
  game_versions : List (List String)
deriving DecidableEq

/-! ## Modrinth -/

/-- An empty game version does not filter. -/
def list_project_versions (project_id : String) (loader : MiniverseType) (mc_version : Option String) :
    Act α (List ModrinthProjectVersion) :=
  ask fun n => env.list_project_versions n project_id (some loader) (mc_version.filter fun v => decide (v ≠ ""))

def get_project_details (project_id : String) : Act α ModrinthProject := ask (env.get_project_details · project_id)

def get_version_details (version_id : String) : Act α ModrinthProjectVersion :=
  ask (env.get_version_details · version_id)

/-- `sorted(versions, key=lambda v: v.date_published, reverse=True)` -/
def sortNewest (versions : List ModrinthProjectVersion) : Except PyError (List ModrinthProjectVersion) :=
  if versions.all fun v => (versions.head?.map fun u => u.date_published.aware) == some v.date_published.aware then
    .ok (versions.insertionSort fun u v => v.date_published.time ≤ u.date_published.time)
  else .error .typeError

/-! ## Files -/

def mods_path (miniverse_id : Uuid4) : Loc := miniverse_data_path env.toPlatform miniverse_id ++ ["mods"]

theorem mods_path_isName (miniverse_id : Uuid4) : ∀ c ∈ mods_path env miniverse_id, IsName c := by
  intro c hc
  rcases List.mem_append.mp hc with hc | hc
  · exact miniverse_data_path_isName miniverse_id c hc
  · exact List.mem_singleton.mp hc ▸ by decide

/-- `mods_path / file_name` -/
def mod_file_path (miniverse_id : Uuid4) (file_name : String) : PurePath :=
  (PurePath.ofLoc (mods_path env miniverse_id) (mods_path_isName env miniverse_id)).join (.parse file_name)

def mod_file_name (project : ModrinthProject) (version : ModrinthProjectVersion) (extension : String) : String :=
  project.slug ++ "-" ++ version.version_number ++ "-" ++ version.id ++ extension

def download_mod_file (project : ModrinthProject) (version : ModrinthProjectVersion) (miniverse_id : Uuid4) :
    Act α String := do
  let primary_file ← Eff.getOr (version.files.find? (·.primary))
    (.validation "No primary file found for this mod version")
  let extension := suffix (PurePath.parse primary_file.filename).name
  Eff.raiseIf (decide (extension ≠ ".jar")) (.validation ("Unsupported file type for mod installation: " ++ extension))
  let file_name := mod_file_name project version extension
  onDisk (Disk.mkdirs (mods_path env miniverse_id))
  let content ← ask (env.download · primary_file.url)
  onDisk (Fs.writePath env.cwd (mod_file_path env miniverse_id file_name) content)
  return file_name

def delete_mod_file (mod : Mod) : Act α Unit :=
  onDisk do
    let path := mod_file_path env mod.miniverse_id mod.file_name
    Eff.when (← Disk.look fun t => ((t.locate env.cwd path).map t.isFile).getD false) (Fs.unlinkPath env.cwd path)

/-! ## Installing and updating -/

def Mod.withVersion (mod : Mod) (project : ModrinthProject) (version : ModrinthProjectVersion) (file_name : String) :
    Mod :=
  { mod with
    version_id := some version.id
    project_id := some version.project_id
    title := project.title
    icon_url := project.icon_url
    version_name := some version.name
    version_number := some version.version_number
    file_name := file_name }

def update_mod (mod : Mod) (new_version_id : String) : Act α Mod := do
  let version ← get_version_details env new_version_id
  let project ← get_project_details env version.project_id
  delete_mod_file env mod
  let file_name ← download_mod_file env project version mod.miniverse_id
  let mod := mod.withVersion project version file_name
  commit env (·.saveMod mod)
  publish .updated mod.miniverse_id.str none
  return mod

/-- A new row, refused when its identifier is taken. -/
def addMod (mod : Mod) : Act α Unit := do
  Eff.raiseIf (← query fun db => db.mods.any fun r => decide (r.id = mod.id)) .integrityError
  commit env fun db => { db with mods := db.mods ++ [mod] }

/-- The part of `install_mod` for a project that the miniverse does not have. -/
def install_new_mod (project : ModrinthProject) (version : ModrinthProjectVersion) (miniverse_id : Uuid4) : Act α Mod := do
  let file_name ← download_mod_file env project version miniverse_id
  let id ← ask fun n => .ok (env.uuid4 n)
  let mod : Mod :=
    { id, slug := project.slug, version_id := some version.id, project_id := some version.project_id,
      title := project.title, icon_url := project.icon_url, version_name := some version.name,
      version_number := some version.version_number, file_name, miniverse_id }
  addMod env mod
  publish .updated miniverse_id.str none
  return mod

def install_mod (mod_version_id : String) (miniverse_id : Uuid4) : Act α Mod := do
  let version ← get_version_details env mod_version_id
  let project ← get_project_details env version.project_id
  let existing_mod ← query fun db => (db.modsOf miniverse_id).find? fun mod => decide (mod.project_id = some project.id)
  existing_mod.elim (install_new_mod env project version miniverse_id) fun existing_mod =>
    update_mod env existing_mod mod_version_id

def MiniverseType.str : MiniverseType → String
  | vanilla => "MiniverseType.VANILLA"
  | paper => "MiniverseType.PAPER"
  | fabric => "MiniverseType.FABRIC"
  | forge => "MiniverseType.FORGE"
  | neo_forge => "MiniverseType.NEO_FORGE"

/-- The versions to choose from: those for the game version, or with `retry_with_latest` all of them. -/
def installable_versions (mod_id : String) (miniverse : Miniverse) (retry_with_latest : Bool) :
    Act α (List ModrinthProjectVersion) := do
  let versions ← list_project_versions env mod_id miniverse.type (some miniverse.mc_version)
  if versions.isEmpty then
    let versions ← (if retry_with_latest then list_project_versions env mod_id miniverse.type none else pure versions : Act α _)
    Eff.raiseIf versions.isEmpty (.validation ("No compatible versions found for mod " ++ mod_id ++ " with loader " ++
      miniverse.type.str ++ " and game version " ++ miniverse.mc_version))
    return versions
  else return versions

def automatic_mod_install (mod_id : String) (miniverse : Miniverse) (prioritize_release retry_with_latest : Bool) :
    Act α Mod := do
  let versions ← installable_versions env mod_id miniverse retry_with_latest
  let releases := versions.filter fun v => decide (v.version_type = .release)
  let versions := if prioritize_release ∧ releases ≠ [] then releases else versions
  let latest_version ← Eff.getOr (← Eff.ofExcept (sortNewest versions)).head? .indexError
  install_mod env latest_version.id miniverse.id

def uninstall_mod (mod : Mod) : Act α Unit := do
  delete_mod_file env mod
  commit env fun db => { db with mods := db.mods.filter fun r => decide (r.id ≠ mod.id) }
  publish .updated mod.miniverse_id.str none

/-! ## Looking for updates -/

/-- The loop over the versions from the newest on, which stops at the first that lists the game version or is the
installed one. -/
def update_info (mod : Mod) (game_version : String) (versions : List ModrinthProjectVersion) : ModUpdateInfo :=
  match versions.find? fun v => decide (game_version ∈ v.game_versions ∨ some v.id = mod.version_id) with
  | some version =>
      if some version.id = mod.version_id then ⟨.already_up_to_date, [version.id], [version.game_versions]⟩
      else ⟨.update_available, [version.id], [version.game_versions]⟩
  | none => ⟨.no_compatible_versions, versions.map (·.id), versions.map (·.game_versions)⟩

/-- The body of the loop over the mods, without its `try`. -/
def check_mod (loader : MiniverseType) (game_version : String) (mod : Mod) : Act α ModUpdateInfo := do
  let project_id := mod.project_id.getD "None"
  let versions ← list_project_versions env project_id loader (some game_version)
  let versions ← (if versions.isEmpty then list_project_versions env project_id loader none else pure versions : Act α _)
  if versions.isEmpty then return ⟨.error, [], []⟩
  else return update_info mod game_version (← Eff.ofExcept (sortNewest versions))

def list_possible_mod_updates (miniverse : Miniverse) (game_version : String) : Act α (List (Uuid4 × ModUpdateInfo)) := do
  let mods ← query (·.modsOf miniverse.id)
  mods.mapM fun mod => do
    return (mod.id, ← (check_mod env miniverse.type game_version mod).attempt fun _ => pure ⟨.error, [], []⟩)

end Backend
