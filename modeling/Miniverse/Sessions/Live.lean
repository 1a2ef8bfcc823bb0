import Miniverse.Api.Miniverses
import Miniverse.Calls.Service
import Miniverse.Sessions.Service
import Miniverse.Users.Service

/-!
# Open sessions

The update sessions that are open while calls change the roles. A session keeps its user as it was loaded, and loads it
again at each event that names the user.
-/

namespace Backend

open Lib

variable {α : Type} (env : Env α)

/-- The roles that are loaded along with a user. -/
def Database.rolesOfUser (db : Database) (user_id : String) : List MiniverseUserRole :=
  db.user_roles.filter fun r => decide (r.user_id = user_id)

/-- `event.updated_user_ids is not None and user_id in event.updated_user_ids` -/
def MiniverseEvent.names (event : MiniverseEvent) (user_id : String) : Bool :=
  event.updated_user_ids.any fun ids => decide (user_id ∈ ids)

/-! ## A session -/

/-- `handled` says how many of the published events the session has got or was opened too late for. An exception ends the
task that handles them. -/
structure Session where
  user_id : String
  miniverses_roles : List MiniverseUserRole
  handled : Nat
  failed : Bool
  sent : List MiniverseEvent

namespace Session

/-- `ctx.user.get_miniverse_role` -/
def get_miniverse_role (s : Session) (miniverse_id : String) : Role :=
  ((s.miniverses_roles.find? fun r => decide (r.miniverse_id.str = miniverse_id)).map MiniverseUserRole.role).getD .none

/-- `db.refresh(ctx.user)`, which raises when the row is gone. -/
def refresh (db : Database) (s : Session) : Option Session :=
  (db.findUser s.user_id).map fun _ => { s with miniverses_roles := db.rolesOfUser s.user_id }

def handle_miniverse_channel_message (db : Database) (event : MiniverseEvent) (s : Session) : Option Session := do
  let before_user_role := s.get_miniverse_role event.miniverse_id
  let s ← if event.names s.user_id then s.refresh db else some s
  let after_user_role := s.get_miniverse_role event.miniverse_id
  return if receives before_user_role after_user_role then { s with sent := s.sent ++ [event] } else s

/-- The next event. -/
def handle (w : World α) (s : Session) : Session :=
  match w.events[s.handled]? with
  | none => s
  | some event =>
      if s.failed then s
      else
        match s.handle_miniverse_channel_message w.db event with
        | none => { s with failed := true }
        | some s' => { s' with handled := s.handled + 1 }

/-- A new session of a user. -/
def new (w : World α) (user_id : String) : Session := ⟨user_id, w.db.rolesOfUser user_id, w.events.length, false, []⟩

end Session

/-! ## Calls and sessions -/

/-- The calls that change roles, by themselves or along with what they delete. -/
inductive RightsCall where
  | set_user_role (current_user : User) (miniverse_id user_id_or_name : String) (role : Role)
  | create_miniverse (data : MiniverseCreate) (creator : User)
  | delete_miniverse (miniverse_id : String)
  | delete_user (user_id : String)
  | reject_user_request (user_id : String)

def RightsCall.perform : RightsCall → Act α Unit
  | set_user_role current_user miniverse_id user_id_or_name role => do
      let _ ← (MiniversesRoute.set_user_role miniverse_id user_id_or_name role).handle env current_user
  | create_miniverse data creator => do
      let _ ← Backend.create_miniverse env data creator
  | delete_miniverse miniverse_id => withRow miniverse_id (Backend.delete_miniverse env)
  | delete_user user_id => Backend.delete_user env user_id
  | reject_user_request user_id => Backend.reject_user_request env user_id

structure Live (α : Type) where
  world : World α
  sessions : List Session

/-- What happens next. -/
inductive LiveTurn where
  | call (c : RightsCall)
  | connect (user_id : String)
  | disconnect (i : Nat)
  | handle (i : Nat)

namespace Live

def turn : LiveTurn → Live α → Live α
  | .call c, l => { l with world := (c.perform env l.world).2 }
  | .connect user_id, l =>
      (l.world.db.findUser user_id).elim l fun user => { l with sessions := l.sessions ++ [Session.new l.world user.id] }
  | .disconnect i, l => { l with sessions := l.sessions.eraseIdx i }
  | .handle i, l => { l with sessions := l.sessions.modify i (·.handle l.world) }

/-- A turn, as a request that is handled. -/
def take (t : LiveTurn) : Eff (Live α) Empty Unit := Eff.modify (turn env t)

end Live

end Backend
