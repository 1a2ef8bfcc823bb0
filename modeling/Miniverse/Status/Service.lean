import Miniverse.Core.World
import Miniverse.Lib.Async

/-!
# The status of the servers

`server_status_store.py` and the reads of `BaseMiniverseService.py`, as programs that give way wherever the code awaits:
each answer of Redis or of a management server is a step, and so is each publication.
-/

namespace Backend

open Lib

/-- Python's `json` for the values that are stored. What was dumped can be loaded again. -/
structure Json (V : Type) where
  dumps : V → String
  loads : String → V
  loads_dumps : ∀ v, loads (dumps v) = v

/-- The values of `EventType`. -/
def event_types : List String :=
  ["sync", "minecraft:players", "minecraft:operators", "minecraft:bans", "miniverse:created", "miniverse:deleted",
    "miniverse:updated"]

structure ControlEvent (V : Type) where
  miniverse_id : String
  type : String
  data : Option V
deriving DecidableEq

/-- What Redis holds under each key, and what was published. -/
structure StatusWorld (V : Type) where
  redis : String → Option String
  published : List (ControlEvent V)
  /-- How many answers of management servers were given so far. -/
  tick : Nat

variable {V : Type} (json : Json V)

/-! ## Redis -/

/-- What the client returns for a text. -/
structure Bytes where
  text : String

def redis_get (key : String) : Async (StatusWorld V) (Option Bytes) :=
  Async.look fun w => (w.redis key).map Bytes.mk

/-- `redis_store.set(key, json_value)`, or `redis_store.delete(key)` where there is no value. -/
def redis_put (key : String) (json_value : Option String) : Async (StatusWorld V) Unit :=
  Async.act fun w => { w with redis := Function.update w.redis key json_value }

/-! ## The store -/

def status_key (miniverse_id method_name : String) : String := miniverse_id ++ "." ++ method_name

/-- `old_json_value != json_value`, where bytes are never equal to a text. -/
def differs : Option Bytes → Option String → Bool
  | none, none => false
  | _, _ => true

def publish_miniverse_control_event (miniverse_id event_type : String) (data : Option V) : Async (StatusWorld V) Unit :=
  Async.act fun w => { w with published := w.published ++ [⟨miniverse_id, event_type, data⟩] }

/-- `EventType(method_name)` and the publication. -/
def publish_status (miniverse_id method_name : String) (value : Option V) :
    Async (StatusWorld V) (Except PyError Unit) :=
  if method_name ∈ event_types then do
    publish_miniverse_control_event miniverse_id method_name value
    return .ok ()
  else return .error (.valueError (method_name ++ " is not a valid EventType"))

def ServerStatusStore.set (miniverse_id method_name : String) (value : Option V) (publish : Bool) :
    Async (StatusWorld V) (Except PyError Unit) := do
  let key := status_key miniverse_id method_name
  let old_json_value ← redis_get key
  let json_value := value.map json.dumps
  if differs old_json_value json_value then do
    redis_put key json_value
    if publish then publish_status miniverse_id method_name value else return .ok ()
  else return .ok ()

def ServerStatusStore.get (miniverse_id method_name : String) : Async (StatusWorld V) (Option V) := do
  let str_data ← redis_get (status_key miniverse_id method_name)
  return str_data.map fun data => json.loads data.text

/-! ## Cached reads -/

/-- What the reads do with the values: the list without players, a dictionary of players with those of a list put into
it, and the players of a dictionary. -/
structure MSMPJson (V : Type) extends Json V where
  empty : V
  add_seen : Option V → V → V
  seen_values : Option V → V

/-- What a management server, or the players that a router has seen, answer at each time. -/
abbrev Source (V : Type) := Nat → String → Except PyError (Option V)

namespace BaseMiniverseService

def get_data_from_source (source : Source V) (method_name : String) :
    Async (StatusWorld V) (Except PyError (Option V)) :=
  Async.step (fun w => { w with tick := w.tick + 1 }) fun w => .done (source w.tick method_name)

/-- The data, and whether it was refreshed. -/
def get_data_cached (source : Source V) (miniverse_id method_name : String) (refresh_cache : Bool) :
    Async (StatusWorld V) (Except PyError (Option V × Bool)) := do
  let cached ← if refresh_cache then pure none else ServerStatusStore.get json miniverse_id method_name
  match cached with
  | some raw_data => return .ok (some raw_data, false)
  | none => do
      match ← get_data_from_source source method_name with
      | .error e => return .error e
      | .ok raw_data => do
          match ← ServerStatusStore.set json miniverse_id method_name raw_data true with
          | .error e => return .error e
          | .ok _ => return .ok (raw_data, true)

def get_msmp_player_list (msmp : MSMPJson V) (source : Source V) (miniverse_id : String) (refresh_cache : Bool) :
    Async (StatusWorld V) (Except PyError V) := do
  match ← get_data_cached msmp.toJson source miniverse_id "minecraft:players" refresh_cache with
  | .error e => return .error e
  | .ok (none, _) => return .ok msmp.empty
  | .ok (some raw_player_list, false) => return .ok raw_player_list
  | .ok (some raw_player_list, true) => do
      let seen_player_dict ← ServerStatusStore.get msmp.toJson miniverse_id "miniverse:seen_players"
      match ← ServerStatusStore.set msmp.toJson miniverse_id "miniverse:seen_players"
        (some (msmp.add_seen seen_player_dict raw_player_list)) false with
      | .error e => return .error e
      | .ok _ => return .ok raw_player_list

def get_msmp_seen_player_list (msmp : MSMPJson V) (miniverse_id : String) :
    Async (StatusWorld V) (Except PyError V) := do
  let seen_player_dict ← ServerStatusStore.get msmp.toJson miniverse_id "miniverse:seen_players"
  return .ok (msmp.seen_values seen_player_dict)

end BaseMiniverseService

namespace WebSocketMiniverseService

/-- `get_msmp_operator_list` and `get_msmp_banned_player_list` -/
def get_list_cached (msmp : MSMPJson V) (source : Source V) (miniverse_id method_name : String) (refresh_cache : Bool) :
    Async (StatusWorld V) (Except PyError V) := do
  match ← BaseMiniverseService.get_data_cached msmp.toJson source miniverse_id method_name refresh_cache with
  | .error e => return .error e
  | .ok (raw_data, _) => return .ok (raw_data.getD msmp.empty)

def get_msmp_operator_list (msmp : MSMPJson V) (source : Source V) (miniverse_id : String) (refresh_cache : Bool) :
    Async (StatusWorld V) (Except PyError V) :=
  get_list_cached msmp source miniverse_id "minecraft:operators" refresh_cache

def get_msmp_banned_player_list (msmp : MSMPJson V) (source : Source V) (miniverse_id : String) (refresh_cache : Bool) :
    Async (StatusWorld V) (Except PyError V) :=
  get_list_cached msmp source miniverse_id "minecraft:bans" refresh_cache

end WebSocketMiniverseService

end Backend
