import Miniverse.Manager.Service
import Miniverse.Mods.Service
import Miniverse.Proxy.Service

/-!
# Miniverses

The functions of `miniverse_service.py`, and the routine of `main.py` that registers the controllers.
-/

namespace Backend

open Lib

variable {α : Type} (env : Env α)

/-! ## Containers -/

def container_name_of (miniverse_id : Uuid4) : String := "miniverse-" ++ miniverse_id.str

/-- `miniverse.type.value.upper()` -/
def MiniverseType.upper : MiniverseType → String
  | vanilla => "VANILLA"
  | paper => "PAPER"
  | fabric => "FABRIC"
  | forge => "FORGE"
  | neo_forge => "NEOFORGE"

/-- A text that is missing or empty counts as false. -/
def truthy (text : Option String) : Option String := text.filter fun t => decide (t ≠ "")

def container_image (miniverse : Miniverse) : String :=
  "itzg/minecraft-server:" ++ (truthy miniverse.java_version).getD "latest"

def container_environment (miniverse : Miniverse) : List (String × String) :=
  [("EULA", "TRUE"),
    ("TYPE", miniverse.type.upper),
    ("VERSION", miniverse.mc_version),
    ("MOTD", "Welcome to " ++ miniverse.name ++ "!"),
    ("ONLINE_MODE", if miniverse.is_on_lite_proxy ∧ miniverse.online_mode then "TRUE" else "FALSE"),
    ("SERVER_PORT", "25565"),
    ("MAX_MEMORY", "90%"),
    ("MANAGEMENT_SERVER_ENABLED", "TRUE"),
    ("MANAGEMENT_SERVER_TLS_ENABLED", "FALSE"),
    ("MANAGEMENT_SERVER_HOST", "0.0.0.0"),
    ("MANAGEMENT_SERVER_PORT", "25585"),
    ("MANAGEMENT_SERVER_SECRET", miniverse.management_server_secret.getD "None")]

/-- The container, and the miniverse that points to it. -/
def create_miniverse_container (miniverse : Miniverse) : Act α (Miniverse × Container) := do
  let container ← create_container env (container_name_of miniverse.id) (container_image miniverse)
    (container_environment miniverse)
  let miniverse := { miniverse with container_id := some container.id }
  commit env (·.saveMiniverse miniverse)
  return (miniverse, container)

/-! ## Starting and stopping -/

/-- The mods and the configuration that a proxy needs. -/
def init_proxy_mods (miniverse : Miniverse) (prioritize_release : Bool) : Act α Unit := do
  let config_path := miniverse_data_path env.toPlatform miniverse.id ++ ["config"]
  onDisk (Disk.mkdirs config_path)
  match miniverse.type with
  | .fabric => do
      let _ ← automatic_mod_install env "P7dR8mSH" miniverse prioritize_release false
      let _ ← automatic_mod_install env "8dI2tmqs" miniverse prioritize_release true
      onDisk (Disk.write (config_path ++ ["FabricProxy-Lite.toml"]) env.fabric_proxy_config)
  | .neo_forge | .forge => do
      let _ ← automatic_mod_install env "vDyrHl8l" miniverse prioritize_release true
      onDisk (Disk.write (config_path ++ ["pcf-common.toml"]) env.forge_proxy_config)
  | .vanilla | .paper => pure ()

def init_data_path (miniverse : Miniverse) : Act α Unit := do
  let volume_data_path := miniverse_data_path env.toPlatform miniverse.id
  let _ ← Eff.ofExcept (parse_version miniverse.mc_version)
  -- the parsed version is compared with the text "release", and never equal to it
  let prioritize_release := false
  let icon_path := volume_data_path ++ ["server-icon.png"]
  onDisk do
    Eff.when (!(← Disk.look (·.exists icon_path))) (Disk.write icon_path env.server_icon)
  Eff.when (!miniverse.is_on_lite_proxy) (init_proxy_mods env miniverse prioritize_release)

/-- The running container, and the miniverse with its new state. -/
def start_miniverse (miniverse : Miniverse) : Act α (Miniverse × Container) := do
  init_data_path env miniverse
  let miniverse := { miniverse with started := true }
  commit env (·.saveMiniverse miniverse)
  match ← get_container_by_name env (container_name_of miniverse.id) with
  | some existing_container => do
      let miniverse := { miniverse with container_id := some existing_container.id }
      commit env (·.saveMiniverse miniverse)
      start_container env existing_container.id
      return (miniverse, existing_container)
  | none => do
      let (miniverse, container) ← create_miniverse_container env miniverse
      start_container env container.id
      startController miniverse.id
      publish .updated miniverse.id.str none
      return (miniverse, container)

/-- A container that is looked up by its name is not stopped. -/
def stop_miniverse_container (miniverse : Miniverse) : Act α Unit := do
  Eff.when miniverse.container_id.isNone do
    let _ ← get_container_by_name env (container_name_of miniverse.id)
  (truthy miniverse.container_id).elim (pure ()) fun container_id => ignoreNotFound (stop_container env container_id)

def stop_miniverse (miniverse : Miniverse) : Act α Miniverse := do
  stop_miniverse_container env miniverse
  stopController env miniverse.id
  let miniverse := { miniverse with started := false, container_id := none }
  commit env (·.saveMiniverse miniverse)
  publish .updated miniverse.id.str none
  return miniverse

def restart_miniverse (miniverse : Miniverse) : Act α (Miniverse × Container) := do
  let miniverse ← stop_miniverse env miniverse
  start_miniverse env miniverse

/-! ## Creating and deleting -/

structure MiniverseCreate where
  name : String
  type : MiniverseType
  description : Option String
  java_version : Option String
  mc_version : String
  subdomain : Option String
  online_mode : Bool

/-- A payload, and a user who may send it. -/
def sampleCreate (mc_version : String) : MiniverseCreate :=
  ⟨"Sample", .vanilla, none, none, mc_version, some "sample", true⟩

def sampleModerator : User := ⟨"moderator", true, "Moderator", .moderator⟩

/-- A new row, refused when its identifier is taken. -/
def addMiniverse (miniverse : Miniverse) : Act α Unit := do
  Eff.raiseIf (← query fun db => db.miniverses.any fun r => decide (r.id = miniverse.id)) .integrityError
  commit env fun db => { db with miniverses := db.miniverses ++ [miniverse] }

/-- The object for the payload. A subdomain must not be null. -/
def MiniverseCreate.toMiniverse (data : MiniverseCreate) (id : Uuid4) (subdomain secret : String) : Miniverse where
  id := id
  name := data.name
  type := data.type
  description := data.description
  container_id := none
  java_version := data.java_version
  mc_version := data.mc_version
  subdomain := subdomain
  online_mode := data.online_mode
  is_on_lite_proxy := true
  allow_bedrock := false
  started := false
  management_server_secret := some secret

/-- From the rows of a new miniverse on. -/
def set_up_miniverse (miniverse : Miniverse) : Act α Miniverse := do
  onDisk (Disk.mkdirs (miniverse_data_path env.toPlatform miniverse.id))
  add_miniverse env miniverse
  let (miniverse, _) ← start_miniverse env miniverse
  update_proxy_config env
  let users_roles ← query (·.rolesOf miniverse.id)
  publish .created miniverse.id.str (some (users_roles.map (·.user_id)))
  return miniverse

def create_miniverse (data : MiniverseCreate) (creator : User) : Act α Miniverse := do
  let id ← ask fun n => .ok (env.uuid4 n)
  let secret ← ask fun n => .ok (env.random_string n)
  let subdomain ← Eff.getOr data.subdomain .integrityError
  let miniverse := data.toMiniverse id subdomain secret
  addMiniverse env miniverse
  commit env fun db => { db with user_roles := db.user_roles ++ [⟨creator.id, id, .admin⟩] }
  set_up_miniverse env miniverse

/-- The files of a miniverse. -/
def remove_volume (miniverse_id : Uuid4) : Act α Unit :=
  onDisk do
    let volume_base_path := get_miniverse_path env.toPlatform miniverse_id
    Eff.when (← Disk.look (·.isDir volume_base_path)) (Disk.rmtree volume_base_path)

def delete_miniverse (miniverse : Miniverse) : Act α Unit := do
  remove_miniverse env miniverse.id
  (truthy miniverse.container_id).elim (pure ()) (remove_container env)
  remove_volume env miniverse.id
  let users_roles ← query (·.rolesOf miniverse.id)
  commit env (·.deleteMiniverse miniverse.id)
  ask (env.delete_miniverse_cache · miniverse.id)
  update_proxy_config env
  publish .deleted miniverse.id.str (some (users_roles.map (·.user_id)))

/-! ## Updating -/

/-- The body of the loop over the mods. -/
def apply_mod_update (possible_mod_updates : List (Uuid4 × ModUpdateInfo)) (mod : Mod) : Act α Unit := do
  let update_info ← Eff.getOr (possible_mod_updates.lookup mod.id) (.keyError mod.id.str)
  Eff.when (decide (update_info.update_status = .update_available)) do
    let new_version_id ← Eff.getOr update_info.new_versions_ids.head? .indexError
    let _ ← update_mod env mod new_version_id

/-- The checks on the mods, and the updates of those that have one. -/
def update_mods (miniverse : Miniverse) (new_mc_version : String) (force_update : Bool) : Act α Unit := do
  let possible_mod_updates ← list_possible_mod_updates env miniverse new_mc_version
  let safe_update := possible_mod_updates.all fun e =>
    decide (e.2.update_status ≠ .error ∧ e.2.update_status ≠ .no_compatible_versions)
  Eff.raiseIf (!safe_update && !force_update)
    (.validation "One or more mods cannot be updated to be compatible with the specified Minecraft version.")
  let mods ← query (·.modsOf miniverse.id)
  mods.forM (apply_mod_update env possible_mod_updates)

/-- What an upgrade does before it stops the server. -/
def prepare_game_version (miniverse : Miniverse) (new_mc_version : String) (force_update : Bool) : Act α Unit := do
  Eff.raiseIf (decide (miniverse.mc_version = new_mc_version))
    (.validation "The new Minecraft version is the same as the current one.")
  let version_comparison ← Eff.getOr (← compareVersions env miniverse.mc_version new_mc_version)
    (.validation "The specified Minecraft versions is invalid.")
  Eff.raiseIf (decide (version_comparison > 0)) (.validation "Downgrading Minecraft versions is not supported.")
  match miniverse.type with
  | .forge | .neo_forge | .fabric => update_mods env miniverse new_mc_version force_update
  | .vanilla | .paper => pure ()

def update_miniverse_game_version (miniverse : Miniverse) (new_mc_version : String) (force_update : Bool) :
    Act α Miniverse := do
  prepare_game_version env miniverse new_mc_version force_update
  let miniverse ← stop_miniverse env miniverse
  let miniverse := { miniverse with mc_version := new_mc_version }
  commit env (·.saveMiniverse miniverse)
  let (miniverse, _) ← start_miniverse env miniverse
  return miniverse

/-- The fields of a request, where they are given. -/
structure MiniverseUpdate where
  name : Option String
  description : Option String
  subdomain : Option String
  java_version : Option String
  allow_bedrock : Option Bool
  online_mode : Option Bool
  mc_version : Option String

/-- A new value of a unique field must not be in use. -/
def checkUnused (field : String) (column : Miniverse → String) (miniverse : Miniverse) (new_value : Option String) :
    Act α Unit := do
  match new_value with
  | none => pure ()
  | some new_value => do
      let used ← query fun db => db.miniverses.any fun r => decide (db.weight (column r) = db.weight new_value)
      Eff.raiseIf (decide (column miniverse ≠ new_value) && used)
        (.validation ("The specified " ++ field ++ " is already used: " ++ new_value ++ "."))

/-- The loop over the fields. -/
def MiniverseUpdate.apply (data : MiniverseUpdate) (miniverse : Miniverse) : Miniverse :=
  { miniverse with
    name := data.name.getD miniverse.name
    description := data.description.or miniverse.description
    subdomain := data.subdomain.getD miniverse.subdomain
    java_version := data.java_version.or miniverse.java_version
    allow_bedrock := data.allow_bedrock.getD miniverse.allow_bedrock
    online_mode := data.online_mode.getD miniverse.online_mode }

def update_miniverse (miniverse : Miniverse) (data : MiniverseUpdate) : Act α Miniverse := do
  checkUnused "name" (·.name) miniverse data.name
  checkUnused "subdomain" (·.subdomain) miniverse data.subdomain
  let updated := data.apply miniverse
  let has_changed := decide (updated ≠ miniverse)
  let routes_changed := decide (updated.subdomain ≠ miniverse.subdomain ∨ updated.allow_bedrock ≠ miniverse.allow_bedrock)
  let game_version := data.mc_version.filter fun v => decide (updated.mc_version ≠ v)
  -- the new Java version is compared after it was set
  let should_restart := data.java_version.isSome && decide (updated.java_version ≠ data.java_version)
  Eff.when has_changed (commit env (·.saveMiniverse updated))
  let miniverse ← game_version.elim (pure updated) fun v => update_miniverse_game_version env updated v false
  Eff.when should_restart do
    let _ ← restart_miniverse env miniverse
  Eff.when routes_changed (update_proxy_config env)
  Eff.when (has_changed || game_version.isSome) (publish .updated miniverse.id.str none)
  return miniverse

/-! ## Startup -/

def miniverse_controller_manager_startup : Act α Unit := do
  let miniverses ← query (·.miniverses)
  miniverses.forM fun miniverse => do
    add_miniverse env miniverse
    Eff.when miniverse.started (startController miniverse.id)

end Backend
