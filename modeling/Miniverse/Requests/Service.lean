import Miniverse.Miniverses.Service
import Miniverse.Requests.Mods

/-!
# Requests on servers that overlap

Starting, stopping and restarting a miniverse, as programs that give way wherever the code awaits.
-/

namespace Backend

open Lib

variable {α : Type} (env : Env α)

namespace Requests

/-! ## Files -/

def init_proxy_mods (miniverse : Miniverse) (prioritize_release : Bool) : Awaiting α Unit := do
  let config_path := miniverse_data_path env.toPlatform miniverse.id ++ ["config"]
  await (onDisk (Disk.mkdirs config_path))
  match miniverse.type with
  | .fabric => do
      let _ ← automatic_mod_install env "P7dR8mSH" miniverse prioritize_release false
      let _ ← automatic_mod_install env "8dI2tmqs" miniverse prioritize_release true
      await (onDisk (Disk.write (config_path ++ ["FabricProxy-Lite.toml"]) env.fabric_proxy_config))
  | .neo_forge | .forge => do
      let _ ← automatic_mod_install env "vDyrHl8l" miniverse prioritize_release true
      await (onDisk (Disk.write (config_path ++ ["pcf-common.toml"]) env.forge_proxy_config))
  | .vanilla | .paper => pure ()

def init_data_path (miniverse : Miniverse) : Awaiting α Unit := do
  await do
    let _ ← Eff.ofExcept (parse_version miniverse.mc_version)
    let icon_path := miniverse_data_path env.toPlatform miniverse.id ++ ["server-icon.png"]
    onDisk do
      Eff.when (!(← Disk.look (·.exists icon_path))) (Disk.write icon_path env.server_icon)
  if miniverse.is_on_lite_proxy then pure () else init_proxy_mods env miniverse false

/-! ## Objects of a session -/

/-- The row of a miniverse as the session has read or written it, and with the values that were set since. -/
structure Loaded where
  row : Miniverse
  value : Miniverse

namespace Loaded

/-- The row takes the values that were set where they differ from those that the session knows. -/
def flush (m : Loaded) (r : Miniverse) : Miniverse :=
  { r with
    started := if m.value.started = m.row.started then r.started else m.value.started
    container_id := if m.value.container_id = m.row.container_id then r.container_id else m.value.container_id }

/-- `db.commit()` -/
def commit (m : Loaded) : Awaiting α Loaded := do
  await (Backend.commit env fun db =>
    { db with miniverses := db.miniverses.map fun r => if r.id = m.value.id then m.flush r else r })
  return ⟨m.value, m.value⟩

/-- `db.refresh(miniverse)` -/
def refresh (m : Loaded) : Awaiting α Loaded := do
  let row ← await do
    Eff.getOr (← query (·.findMiniverse m.value.id.str)) .integrityError
  return ⟨row, row⟩

def set (m : Loaded) (started : Bool) (container_id : Option String) : Loaded :=
  { m with value := { m.value with started, container_id } }

end Loaded

def get_miniverse (miniverse_id : String) : Awaiting α Loaded := do
  let row ← await do
    Eff.getOr (← query (·.findMiniverse miniverse_id)) (.notFound "Miniverse not found")
  return ⟨row, row⟩

/-! ## Starting and stopping -/

def create_miniverse_container (miniverse : Loaded) : Awaiting α (Loaded × Container) := do
  let container ← await (create_container env (container_name_of miniverse.value.id) (container_image miniverse.value)
    (container_environment miniverse.value))
  let miniverse ← (miniverse.set miniverse.value.started (some container.id)).commit env
  let miniverse ← miniverse.refresh
  return (miniverse, container)

def start_miniverse (miniverse : Loaded) : Awaiting α Container := do
  init_data_path env miniverse.value
  let miniverse ← (miniverse.set true miniverse.value.container_id).commit env
  let miniverse ← miniverse.refresh
  match ← await (get_container_by_name env (container_name_of miniverse.value.id)) with
  | some existing_container => do
      let miniverse ← (miniverse.set miniverse.value.started (some existing_container.id)).commit env
      let _ ← miniverse.refresh
      await (start_container env existing_container.id)
      return existing_container
  | none => do
      let (miniverse, container) ← create_miniverse_container env miniverse
      await (start_container env container.id)
      await do
        startController miniverse.value.id
        publish .updated miniverse.value.id.str none
      return container

/-- `await get_miniverse_controller(miniverse_id).stop()` -/
def stopController (miniverse_id : Uuid4) : Awaiting α Unit := do
  let control ← await do
    Eff.getOr (← get_miniverse_controller miniverse_id.str) .attributeError
  let control ← await (control.stop env miniverse_id)
  await (Eff.modify (World.setController miniverse_id control))

def stop_miniverse (miniverse : Loaded) : Awaiting α Loaded := do
  await (stop_miniverse_container env miniverse.value)
  stopController env miniverse.value.id
  let miniverse ← (miniverse.set false none).commit env
  let miniverse ← miniverse.refresh
  await (publish .updated miniverse.value.id.str none)
  return miniverse

def restart_miniverse (miniverse : Loaded) : Awaiting α Container := do
  let miniverse ← stop_miniverse env miniverse
  start_miniverse env miniverse

end Requests

/-! ## Requests -/

inductive ServerRequest where
  | start
  | stop
  | restart
deriving DecidableEq

/-- What follows the check of the role. -/
def ServerRequest.program (miniverse_id : Uuid4) : ServerRequest → Requests.Awaiting α Unit
  | start => do
      let miniverse ← Requests.get_miniverse miniverse_id.str
      let _ ← Requests.start_miniverse env miniverse
  | stop => do
      let miniverse ← Requests.get_miniverse miniverse_id.str
      let _ ← Requests.stop_miniverse env miniverse
  | restart => do
      let miniverse ← Requests.get_miniverse miniverse_id.str
      let _ ← Requests.restart_miniverse env miniverse

end Backend
