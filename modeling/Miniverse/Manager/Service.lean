import Miniverse.Core.World

/-!
# The manager of the controllers

`ServerStatusManager.py` and the two kinds of controllers that it keeps in memory.
-/

namespace Backend

open Lib

variable {α : Type} (env : Env α)

/-! ## The registry -/

namespace World

/-- The controller registered under an identifier, with the identifier. -/
def service (w : World α) (miniverse_id : String) : Option (Uuid4 × Controller) :=
  w.controllers.find? fun c => decide (c.1.str = miniverse_id)

/-- `self._miniverse_control_services[id] = control`, where there was none. -/
def register (id : Uuid4) (control : Controller) (w : World α) : World α :=
  { w with controllers := w.controllers ++ [(id, control)] }

/-- The controller of an identifier changes its state. -/
def setController (id : Uuid4) (control : Controller) (w : World α) : World α :=
  { w with controllers := w.controllers.map fun c => if c.1 = id then (id, control) else c }

def unregister (miniverse_id : String) (w : World α) : World α :=
  { w with controllers := w.controllers.filter fun c => decide (c.1.str ≠ miniverse_id) }

end World

def get_miniverse_controller (miniverse_id : String) : Act α (Option Controller) :=
  Eff.read fun w => (w.service miniverse_id).map Prod.snd

/-! ## Controllers -/

/-- Read the players again and put them into the status store. -/
def get_msmp_player_list (miniverse_id : Uuid4) : Act α (List MSMPPlayer) := ask (env.player_list · miniverse_id)

def Controller.start : Controller → Controller
  | webSocket _ => webSocket true
  | mcRouter online_players => mcRouter online_players

/-- The state of a controller after `stop()`. -/
def Controller.stop (miniverse_id : Uuid4) : Controller → Act α Controller
  | webSocket _ => do
      let _ ← get_msmp_player_list env miniverse_id
      return webSocket false
  | mcRouter _ => return mcRouter []

/-- `get_miniverse_controller(miniverse_id).start()` -/
def startController (miniverse_id : Uuid4) : Act α Unit := do
  let control ← Eff.getOr (← get_miniverse_controller miniverse_id.str) .attributeError
  Eff.modify (World.setController miniverse_id control.start)

/-- `await get_miniverse_controller(miniverse_id).stop()` -/
def stopController (miniverse_id : Uuid4) : Act α Unit := do
  let control ← Eff.getOr (← get_miniverse_controller miniverse_id.str) .attributeError
  let control ← control.stop env miniverse_id
  Eff.modify (World.setController miniverse_id control)

/-! ## The manager -/

/-- `await compare_versions(v1, v2)` -/
def compareVersions (v1 v2 : String) : Act α (Option Int) :=
  ask fun n => compare_versions (env.get_minecraft_versions n) v1 v2

def add_miniverse (miniverse : Miniverse) : Act α Unit := do
  match ← get_miniverse_controller miniverse.id.str with
  | some existing_control => Eff.modify (World.setController miniverse.id existing_control.start)
  | none => do
      let support_websockets := (← compareVersions env miniverse.mc_version "1.21.9") = some 1
      let control := if support_websockets then Controller.webSocket false else .mcRouter []
      Eff.modify (World.register miniverse.id control)

def remove_miniverse (miniverse_id : Uuid4) : Act α Unit := do
  let control ← get_miniverse_controller miniverse_id.str
  Eff.modify (World.unregister miniverse_id.str)
  control.elim (pure ()) fun control => do
    let _ ← control.stop env miniverse_id

/-! ## Webhooks of the router -/

structure WebhookPlayer where
  uuid : Option String
  name : Option String

/-- The body of a webhook. A player without fields counts as none. -/
structure WebhookPayload where
  backend : Option String
  event : Option String
  status : Option String
  player : Option WebhookPlayer

/-- `s.lstrip(chars)` -/
def lstrip (chars s : List Char) : List Char := s.dropWhile (· ∈ chars)

/-- `str(payload.get("backend")).lstrip('miniverse-').split(':')[0]` -/
def WebhookPayload.target_id (payload : WebhookPayload) : String :=
  String.ofList ((lstrip "miniverse-".toList (payload.backend.getD "None").toList).takeWhile (· ≠ ':'))

/-- `self._online_players[player.id] = player` -/
def putPlayer (online_players : List MSMPPlayer) (player : MSMPPlayer) : List MSMPPlayer :=
  if online_players.any fun p => decide (p.id = player.id) then
    online_players.map fun p => if p.id = player.id then player else p
  else online_players ++ [player]

/-- The players after an event of the router. -/
def playersAfter (payload : WebhookPayload) (player : MSMPPlayer) (online_players : List MSMPPlayer) : List MSMPPlayer :=
  if payload.event = some "connect" ∧ payload.status = some "success" then putPlayer online_players player
  else if payload.event = some "disconnect" then online_players.filter fun p => decide (p.id ≠ player.id)
  else online_players

def process_webhook (miniverse_id : Uuid4) (online_players : List MSMPPlayer) (payload : WebhookPayload) :
    Act α Unit := do
  match payload.player with
  | none => pure ()
  | some player_data => do
      let p_id ← Eff.getOr player_data.uuid (.keyError "uuid")
      let p_name ← Eff.getOr player_data.name (.keyError "name")
      Eff.modify (World.setController miniverse_id (.mcRouter (playersAfter payload ⟨p_id, p_name⟩ online_players)))
      let _ ← get_msmp_player_list env miniverse_id

def handle_mc_router_webhook (payload : WebhookPayload) : Act α Unit := do
  match ← Eff.read (·.service payload.target_id) with
  | some (miniverse_id, .mcRouter online_players) => process_webhook env miniverse_id online_players payload
  | _ => pure ()

end Backend
