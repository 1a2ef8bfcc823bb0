import Miniverse.Lib.Dict
import Miniverse.Manager.Service
import Miniverse.Status.Service

/-!
# The players of a server

What the status store holds about players, and the webhooks of the router with the steps in which they are handled.
-/

namespace Backend

open Lib

/-- What is stored about players: the list of those who are online, or a dictionary of those seen by their identifiers. -/
inductive PlayerData where
  | list (players : List MSMPPlayer)
  | dict (players : Dict String MSMPPlayer)
deriving DecidableEq

namespace PlayerData

/-- The players that a loop over a list meets. -/
def players : PlayerData → List MSMPPlayer
  | list players => players
  | dict _ => []

/-- `(await server_status_store.get(...)) or {}`, where only dictionaries are stored. -/
def seen_or_empty : Option PlayerData → Dict String MSMPPlayer
  | some (dict players) => players
  | _ => []

/-- `{p["id"]: p for p in raw_player_list}` -/
def by_id (raw_player_list : PlayerData) : Dict String MSMPPlayer :=
  Dict.update [] (raw_player_list.players.map fun p => (p.id, p))

/-- `seen_player_dict |= {p["id"]: p for p in raw_player_list}` -/
def add_seen (seen_player_dict : Option PlayerData) (raw_player_list : PlayerData) : PlayerData :=
  dict ((seen_or_empty seen_player_dict).update raw_player_list.by_id)

end PlayerData

def playersJson (json : Json PlayerData) : MSMPJson PlayerData where
  toJson := json
  empty := .list []
  add_seen := PlayerData.add_seen
  seen_values seen_player_dict := .list (PlayerData.seen_or_empty seen_player_dict).values

/-- A source that answers with lists of players. -/
def playerSource (source : Nat → Except PyError (Option (List MSMPPlayer))) : Source PlayerData := fun tick _ =>
  (source tick).map (Option.map PlayerData.list)

/-! ## Webhooks of the router -/

/-- A controller that listens to the router, and the status store. -/
structure RouterWorld where
  status : StatusWorld PlayerData
  online_players : List MSMPPlayer

namespace RouterWorld

def setStatus (status : StatusWorld PlayerData) (w : RouterWorld) : RouterWorld := { w with status := status }

/-- The program does not touch the controller's memory. -/
def onStatus {β : Type} (p : Async (StatusWorld PlayerData) β) : Async RouterWorld β := p.zoom status setStatus

end RouterWorld

namespace MCRouterMiniverseService

/-- `_get_data_from_source`, which does not await. -/
def get_data_from_source (online_players : List MSMPPlayer) : Source PlayerData := fun _ method_name =>
  if method_name = "minecraft:players" then .ok (some (.list online_players)) else .ok none

/-- The list is taken in the step that changes the memory: the first await comes after `_get_data_from_source`. -/
def handle_player (json : Json PlayerData) (miniverse_id : String) (payload : WebhookPayload) (player : MSMPPlayer) :
    Async RouterWorld (Except PyError Unit) := do
  let online_players ← Async.step
    (fun w : RouterWorld => { w with online_players := playersAfter payload player w.online_players })
    fun w => .done (playersAfter payload player w.online_players)
  let players ← RouterWorld.onStatus (BaseMiniverseService.get_msmp_player_list (playersJson json)
    (get_data_from_source online_players) miniverse_id true)
  return players.map fun _ => ()

def process_webhook (json : Json PlayerData) (miniverse_id : String) (payload : WebhookPayload) :
    Async RouterWorld (Except PyError Unit) :=
  match payload.player with
  | none => .done (.ok ())
  | some player_data =>
      match player_data.uuid, player_data.name with
      | none, _ => .done (.error (.keyError "uuid"))
      | some _, none => .done (.error (.keyError "name"))
      | some p_id, some p_name => handle_player json miniverse_id payload ⟨p_id, p_name⟩

end MCRouterMiniverseService

end Backend
