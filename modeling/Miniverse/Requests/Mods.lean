import Miniverse.Lib.Async
import Miniverse.Mods.Service

/-!
# Requests on mods that overlap

Installing and updating mods, as programs that give way wherever the code awaits. Each answer from outside is a step. Every
request has a database session of its own.
-/

namespace Backend

open Lib

variable {α β : Type} (env : Env α)

namespace Requests

abbrev Awaiting (α β : Type) := ExceptT PyError (Async (World α)) β

/-- What the code does between two places where it gives way. -/
def await (m : Act α β) : Awaiting α β := Async.lift m

def download_mod_file (project : ModrinthProject) (version : ModrinthProjectVersion) (miniverse_id : Uuid4) :
    Awaiting α String := do
  let (primary_file, file_name) ← await do
    let primary_file ← Eff.getOr (version.files.find? (·.primary))
      (.validation "No primary file found for this mod version")
    let extension := suffix (PurePath.parse primary_file.filename).name
    Eff.raiseIf (decide (extension ≠ ".jar")) (.validation ("Unsupported file type for mod installation: " ++ extension))
    onDisk (Disk.mkdirs (mods_path env miniverse_id))
    return (primary_file, mod_file_name project version extension)
  let content ← await (ask (env.download · primary_file.url))
  await (onDisk (Fs.writePath env.cwd (mod_file_path env miniverse_id file_name) content))
  return file_name

def update_mod (mod : Mod) (new_version_id : String) : Awaiting α Mod := do
  let version ← await (get_version_details env new_version_id)
  let project ← await (get_project_details env version.project_id)
  await (delete_mod_file env mod)
  let file_name ← download_mod_file env project version mod.miniverse_id
  let mod := mod.withVersion project version file_name
  await (commit env (·.saveMod mod))
  await (publish .updated mod.miniverse_id.str none)
  return mod

def install_new_mod (project : ModrinthProject) (version : ModrinthProjectVersion) (miniverse_id : Uuid4) :
    Awaiting α Mod := do
  let file_name ← download_mod_file env project version miniverse_id
  let id ← await (ask fun n => .ok (env.uuid4 n))
  let mod : Mod :=
    { id, slug := project.slug, version_id := some version.id, project_id := some version.project_id,
      title := project.title, icon_url := project.icon_url, version_name := some version.name,
      version_number := some version.version_number, file_name, miniverse_id }
  await (addMod env mod)
  await (publish .updated miniverse_id.str none)
  return mod

def install_mod (mod_version_id : String) (miniverse_id : Uuid4) : Awaiting α Mod := do
  let version ← await (get_version_details env mod_version_id)
  let project ← await (get_project_details env version.project_id)
  let existing_mod ← await (query fun db => (db.modsOf miniverse_id).find? fun mod => decide (mod.project_id = some project.id))
  existing_mod.elim (install_new_mod env project version miniverse_id) fun existing_mod =>
    update_mod env existing_mod mod_version_id

def installable_versions (mod_id : String) (miniverse : Miniverse) (retry_with_latest : Bool) :
    Awaiting α (List ModrinthProjectVersion) := do
  let versions ← await (list_project_versions env mod_id miniverse.type (some miniverse.mc_version))
  if versions.isEmpty then
    let versions ← await (if retry_with_latest then list_project_versions env mod_id miniverse.type none else pure versions)
    await (Eff.raiseIf versions.isEmpty (.validation ("No compatible versions found for mod " ++ mod_id ++ " with loader " ++
      miniverse.type.str ++ " and game version " ++ miniverse.mc_version)))
    return versions
  else return versions

def automatic_mod_install (mod_id : String) (miniverse : Miniverse) (prioritize_release retry_with_latest : Bool) :
    Awaiting α Mod := do
  let versions ← installable_versions env mod_id miniverse retry_with_latest
  let latest_version ← await do
    let releases := versions.filter fun v => decide (v.version_type = .release)
    let versions := if prioritize_release ∧ releases ≠ [] then releases else versions
    Eff.getOr (← Eff.ofExcept (sortNewest versions)).head? .indexError
  install_mod env latest_version.id miniverse.id

def uninstall_mod (mod : Mod) : Awaiting α Unit := do
  await (delete_mod_file env mod)
  await (commit env fun db => { db with mods := db.mods.filter fun r => decide (r.id ≠ mod.id) })
  await (publish .updated mod.miniverse_id.str none)

end Requests

/-- The requests that add and remove mods. -/
inductive ModRequest where
  | install_mod (mod_version_id : String) (miniverse_id : Uuid4)
  | automatic_mod_install (mod_id : String) (miniverse : Miniverse) (prioritize_release retry_with_latest : Bool)
  | uninstall_mod (mod : Mod)

open Requests in
def ModRequest.program : ModRequest → Awaiting α Unit
  | install_mod mod_version_id miniverse_id => do
      let _ ← Requests.install_mod env mod_version_id miniverse_id
  | automatic_mod_install mod_id miniverse prioritize_release retry_with_latest => do
      let _ ← Requests.automatic_mod_install env mod_id miniverse prioritize_release retry_with_latest
  | uninstall_mod mod => Requests.uninstall_mod env mod

/-- The requests as they arrive. -/
def ModRequests.programs {ι : Type} (request : ι → ModRequest) (i : ι) : Async (World α) (Except PyError Unit) :=
  ((request i).program env).run

end Backend
