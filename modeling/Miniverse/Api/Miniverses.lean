import Miniverse.Lib.Runs
import Miniverse.Miniverses.Service

/-!
# The routes of the miniverses

The handlers of `MiniversesController`. A handler gets the user that the token of the request stands for.
-/

namespace Backend

open Lib

variable {α : Type} (env : Env α)

/-- What a request answers. -/
inductive Reply where
  | empty
  | miniverse (m : Miniverse)
  | miniverses (ms : List Miniverse)
  | mod (m : Mod)
  | updates (us : List (Uuid4 × ModUpdateInfo))
  | users (us : List User)
  | players (ps : List (Uuid4 × List MSMPPlayer))

inductive MiniversesRoute where
  | list_miniverses
  | create_miniverse (data : MiniverseCreate)
  | delete_miniverse (miniverse_id : String)
  | start_miniverse (miniverse_id : String)
  | stop_miniverse (miniverse_id : String)
  | restart_miniverse (miniverse_id : String)
  | update_miniverse (miniverse_id : String) (data : MiniverseUpdate)
  | automatic_install_mod (miniverse_id mod_id : String)
  | install_mod (miniverse_id mod_version_id : String)
  | uninstall_mod (mod_id : String)
  | update_mod (mod_id new_version_id : String)
  | list_mod_updates (miniverse_id : String)
  | list_miniverse_users (miniverse_id : String)
  | set_user_role (miniverse_id user_id_or_name : String) (role : Role)
  | list_all_players
  | list_all_banned_players
  | set_operator (miniverse_id player_id : String) (value : Bool)
  | kick_player (miniverse_id player_id reason : String)
  | ban_player (miniverse_id player_id reason : String)
  | unban_player (miniverse_id player_id : String)

/-! ## Guards and look-ups -/

/-- `if current_user.get_miniverse_role(miniverse_id) < role: raise NotAuthorizedException(detail)` -/
def requireRole (current_user : User) (miniverse_id : String) (role : Role) (detail : String) : Act α Unit := do
  let own ← query (·.get_miniverse_role current_user.id miniverse_id)
  Eff.raiseIf (decide (own < role)) (.notAuthorized detail)

/-- The miniverse, or the exception of going on without one. -/
def getMiniverse (miniverse_id : String) (missing : PyError) : Act α Miniverse := do
  Eff.getOr (← query (·.findMiniverse miniverse_id)) missing

/-- The miniverses in which the user has a role. -/
def visibleMiniverses (current_user : User) : Act α (List Miniverse) :=
  query fun db => db.miniverses.filter fun m => decide (Role.user ≤ db.get_miniverse_role current_user.id m.id.str)

/-- A call to the management server, which only some controllers have. -/
def callManagement (miniverse_id detail : String) : Act α Unit := do
  let miniverse ← getMiniverse miniverse_id .attributeError
  match ← get_miniverse_controller miniverse.id.str with
  | some (.webSocket _) => do
      let result ← ask (env.rpc · miniverse.id)
      Eff.raiseIf (!result) (.notFound detail)
  | _ => Eff.raise .attributeError

/-- The players of each miniverse, none of a stopped one. -/
def listPlayers (banned : Bool) (miniverse : Miniverse) : Act α (Uuid4 × List MSMPPlayer) := do
  if !miniverse.started then return (miniverse.id, [])
  else
    match ← get_miniverse_controller miniverse.id.str with
    | some (.webSocket _) => do
        return (miniverse.id, ← get_msmp_player_list env miniverse.id)
    | some (.mcRouter _) => do
        Eff.raiseIf banned .attributeError
        return (miniverse.id, ← get_msmp_player_list env miniverse.id)
    | none => Eff.raise .attributeError

/-- `UUID4_REGEX.match(s)`, which ignores case and a newline at the end. -/
def matchesUuid4 (s : String) : Bool :=
  let cs := s.toList
  let cs := if cs.getLast? = some '\n' then cs.dropLast else cs
  isUuid4 (String.ofList (cs.map Char.toLower))

/-- The row of a role becomes the new one, and is removed for the role `none`. -/
def Database.setRole (db : Database) (role : MiniverseUserRole) : Database :=
  let other (r : MiniverseUserRole) : Bool := decide (¬ (r.user_id = role.user_id ∧ r.miniverse_id = role.miniverse_id))
  if role.role = .none then { db with user_roles := db.user_roles.filter other }
  else if db.user_roles.all other then { db with user_roles := db.user_roles ++ [role] }
  else { db with user_roles := db.user_roles.map fun r => if other r then r else role }

/-! ## Handlers -/

namespace MiniversesRoute

def handle (current_user : User) : MiniversesRoute → Act α Reply
  | list_miniverses => do
      return .miniverses (← visibleMiniverses current_user)
  | create_miniverse data => do
      Eff.raiseIf (decide (current_user.role < .moderator)) (.notAuthorized "You are not authorized to create miniverses")
      return .miniverse (← Backend.create_miniverse env data current_user)
  | delete_miniverse miniverse_id => do
      requireRole current_user miniverse_id .admin "You are not authorized to delete this miniverse"
      let miniverse ← getMiniverse miniverse_id .attributeError
      Backend.delete_miniverse env miniverse
      return .empty
  | start_miniverse miniverse_id => do
      requireRole current_user miniverse_id .user "You are not authorized to start this miniverse"
      let miniverse ← getMiniverse miniverse_id (.notFound "Miniverse not found")
      return .miniverse (← Backend.start_miniverse env miniverse).1
  | stop_miniverse miniverse_id => do
      requireRole current_user miniverse_id .user "You are not authorized to stop this miniverse"
      let miniverse ← getMiniverse miniverse_id (.notFound "Miniverse not found")
      return .miniverse (← Backend.stop_miniverse env miniverse)
  | restart_miniverse miniverse_id => do
      requireRole current_user miniverse_id .user "You are not authorized to restart this miniverse"
      let miniverse ← getMiniverse miniverse_id (.notFound "Miniverse not found")
      return .miniverse (← Backend.restart_miniverse env miniverse).1
  | update_miniverse miniverse_id data => do
      requireRole current_user miniverse_id .admin "You are not authorized to update this miniverse"
      let miniverse ← getMiniverse miniverse_id (.notFound "Miniverse not found")
      return .miniverse (← Backend.update_miniverse env miniverse data)
  | automatic_install_mod miniverse_id mod_id => do
      requireRole current_user miniverse_id .moderator "You are not authorized to install mods in this miniverse"
      let miniverse ← getMiniverse miniverse_id .attributeError
      return .mod (← automatic_mod_install env mod_id miniverse true true)
  | install_mod miniverse_id mod_version_id => do
      requireRole current_user miniverse_id .moderator "You are not authorized to install mods in this miniverse"
      let miniverse ← getMiniverse miniverse_id .attributeError
      return .mod (← Backend.install_mod env mod_version_id miniverse.id)
  | uninstall_mod mod_id => do
      let mod ← Eff.getOr (← query fun db => db.mods.find? fun r => decide (r.id.str = mod_id))
        (.notFound "Mod not found in this miniverse")
      requireRole current_user mod.miniverse_id.str .moderator "You are not authorized to uninstall mods in this miniverse"
      Backend.uninstall_mod env mod
      return .empty
  | update_mod _ _ =>
      -- `mod := get_mod(mod_id, db) is None` makes `mod` the value `False`
      Eff.raise .attributeError
  | list_mod_updates miniverse_id => do
      requireRole current_user miniverse_id .user "You are not authorized to view mod updates in this miniverse"
      let miniverse ← getMiniverse miniverse_id .attributeError
      return .updates (← list_possible_mod_updates env miniverse miniverse.mc_version)
  | list_miniverse_users miniverse_id => do
      requireRole current_user miniverse_id .moderator "You are not authorized to list users of this miniverse"
      let miniverse ← getMiniverse miniverse_id .attributeError
      let users ← query fun db => (db.rolesOf miniverse.id).filterMap fun r => db.findUser r.user_id
      return .users (users.map fun u => { u with role := .none })
  | set_user_role miniverse_id user_id_or_name role => do
      requireRole current_user miniverse_id .admin "You are not authorized to list users of this miniverse"
      let user ← Eff.getOr (← query fun db =>
        if matchesUuid4 user_id_or_name then db.findUser user_id_or_name
        else db.get_user_by_username user_id_or_name) (.notFound "User not found")
      let miniverse ← getMiniverse miniverse_id .integrityError
      commit env (·.setRole ⟨user.id, miniverse.id, role⟩)
      publish .updated miniverse_id (some [user.id])
      return .empty
  | list_all_players => do
      return .players (← (← visibleMiniverses current_user).mapM (listPlayers env false))
  | list_all_banned_players => do
      return .players (← (← visibleMiniverses current_user).mapM (listPlayers env true))
  | set_operator miniverse_id _ _ => do
      requireRole current_user miniverse_id .moderator "You are not authorized to set operators in this miniverse"
      callManagement env miniverse_id "Cannot set operator"
      return .empty
  | kick_player miniverse_id _ _ => do
      requireRole current_user miniverse_id .moderator "You are not authorized to kick players in this miniverse"
      callManagement env miniverse_id "Cannot kick player"
      return .empty
  | ban_player miniverse_id _ _ => do
      requireRole current_user miniverse_id .moderator "You are not authorized to ban players in this miniverse"
      callManagement env miniverse_id "Cannot ban player"
      return .empty
  | unban_player miniverse_id _ => do
      requireRole current_user miniverse_id .moderator "You are not authorized to unban players in this miniverse"
      callManagement env miniverse_id "Cannot pardon player"
      return .empty

end MiniversesRoute

/-- A request to the routes of the miniverses, with the user who sends it. -/
structure MiniversesRequest where
  current_user : User
  route : MiniversesRoute

def MiniversesRequest.handle (r : MiniversesRequest) : Act α Reply := r.route.handle env r.current_user

end Backend
