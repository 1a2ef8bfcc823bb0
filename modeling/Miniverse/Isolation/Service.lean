import Miniverse.Api.Files
import Miniverse.Sessions.Live

/-!
# The service as a user sees it

The routes of the miniverses, the routes of the files with the hook of the upload server, and the two websockets, over one state.
-/

namespace Backend

open Lib

variable {α : Type}

/-- What the service runs next to: the server of the files, what the status store or a management server reports for a list, and
the lines that the console of a container has shown. -/
structure Surroundings (pf : Platform α) extends FilesServer pf where
  status_list : Nat → Uuid4 → StatusList → Except PyError (List MSMPPlayer)
  logs : Nat → String → List String

structure SyncEventItem where
  miniverse : Miniverse
  players : List MSMPPlayer
  seen_players : List MSMPPlayer
  operators : List MSMPPlayer
  banned_players : List MSMPPlayer

inductive ServiceReply (α : Type) where
  | miniverses (reply : Reply)
  | files (reply : FilesReply α)
  | sync (data : List SyncEventItem)
  | events (events : List MiniverseEvent)
  /-- The lines that were sent, and the exception that ended the session. -/
  | console (lines : List String) (error : Option PyError)
  | closed

/-- A session of the updates is opened, gets its next event, or is sent a text. A session of the logs sends the first lines of the
console and gets some inputs. -/
inductive ServiceRequest where
  | miniverses (route : MiniversesRoute)
  | files (route : FilesRoute)
  | open_updates
  | next_event (session : Nat)
  | receive_text (session : Nat)
  | open_logs (miniverse_id : String) (chunks : Nat) (inputs : List String)

variable {env : Env α} (sur : Surroundings env.toPlatform)

/-! ## Updates -/

/-- The lists of a miniverse. Behind the router there are no operators and no bans. -/
def sync_item (miniverse : Miniverse) : Act α SyncEventItem := do
  let controller ← Eff.getOr (← get_miniverse_controller miniverse.id.str) .assertionError
  let players ← ask (sur.status_list · miniverse.id .players)
  let seen_players ← ask (sur.status_list · miniverse.id .seen_players)
  if controller.isWebSocket then
    let operators ← ask (sur.status_list · miniverse.id .operators)
    let banned_players ← ask (sur.status_list · miniverse.id .banned_players)
    return { miniverse, players, seen_players, operators, banned_players }
  else return { miniverse, players, seen_players, operators := [], banned_players := [] }

def send_init_data : Option User → Act α (List SyncEventItem)
  | some user => do
      let miniverses ← visibleMiniverses user
      miniverses.mapM (sync_item sur)
  | none => do
      -- the first miniverse asks the missing user for a role
      Eff.raiseIf (← query fun db => !db.miniverses.isEmpty) .attributeError
      return []

/-- The part before the subscription. -/
def websocket_miniverse_updates_handler (user_id : String) : Act α (List SyncEventItem) := do
  send_init_data sur (← query (·.findUser user_id))

/-! ## Logs -/

/-- The loop over the inputs, which an empty one ends. -/
def send_inputs (env : Env α) (container_id : String) (inputs : List String) : Act α Unit :=
  (inputs.takeWhile fun input => decide (input ≠ "")).forM (send_command_to_container env container_id)

def websocket_miniverse_logs_handler (env : Env α) (logs : Nat → String → List String) (miniverse_id : String) (chunks : Nat)
    (inputs : List String) : Act α (ServiceReply α) := do
  let miniverse ← getMiniverse miniverse_id .attributeError
  -- the check of the role is commented out
  (truthy miniverse.container_id).elim (pure (.console [] none)) fun container_id => do
    let lines ← Eff.read fun w => (logs w.tick container_id).take chunks
    let error ← (do
      send_inputs env container_id inputs
      return none : Act α (Option PyError)).attempt fun e => pure (some e)
    return .console lines error

/-- The container whose console a session of the logs uses. -/
def Database.consoleOf (db : Database) (miniverse_id : String) : Option String :=
  (db.findMiniverse miniverse_id).bind fun m => truthy m.container_id

/-! ## All requests -/

/-- A computation on the world, next to the open sessions. -/
def onWorld {β : Type} (m : Act α β) : Eff (Live α) PyError β := m.zoom Live.world fun w l => { l with world := w }

namespace ServiceRequest

def handle (current_user : User) : ServiceRequest → Eff (Live α) PyError (ServiceReply α)
  | miniverses route => onWorld do
      return .miniverses (← route.handle env current_user)
  | files route => onWorld do
      return .files (← route.handle sur.toFilesServer current_user)
  | open_updates => do
      let data ← onWorld (websocket_miniverse_updates_handler sur current_user.id)
      Eff.modify fun l => { l with sessions := l.sessions ++ [Session.new l.world current_user.id] }
      return .sync data
  | next_event session => do
      Eff.modify (Live.turn env (.handle session))
      return .events (← Eff.read fun l => (l.sessions[session]?.map Session.sent).getD [])
  | receive_text session => do
      -- the text raises an exception that ends the session
      Eff.modify (Live.turn env (.disconnect session))
      return .closed
  | open_logs miniverse_id chunks inputs => onWorld (websocket_miniverse_logs_handler env sur.logs miniverse_id chunks inputs)

end ServiceRequest

end Backend
