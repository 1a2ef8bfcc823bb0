import Miniverse.Requests.Mods
import Miniverse.Users.Service

/-!
# Requests of administrators that overlap

Leaving and changing the own role, as programs that give way wherever the code awaits.
-/

namespace Backend

open Lib

variable {α : Type} (env : Env α)

/-- The rows of a user take a role, and keep what else they have. -/
def Database.setUserRole (user_id : String) (role : Role) (db : Database) : Database :=
  { db with users := db.users.map fun u => if db.weight u.id = db.weight user_id then { u with role := role } else u }

namespace Requests

/-- Nobody sees the deletion before it is committed. -/
def delete_user (user_id : String) : Awaiting α Unit := do
  await (pure ())
  await (commit env (·.deleteUser user_id))

/-- A role that the user has already is not written. -/
def set_user_role (user_id : String) (role : Role) : Awaiting α Unit := do
  let user ← await do
    Eff.getOr (← query (·.findUser user_id)) .attributeError
  if user.role = role then await (commit env id) else await (commit env (·.setUserRole user_id role))

end Requests

/-- The requests by which an administrator may stop being one. -/
inductive AdminRequest where
  | delete_me (current_user : User)
  | set_own_role (current_user : User) (role : Role)

/-- The user that the request was authenticated for. -/
def AdminRequest.current_user : AdminRequest → User
  | delete_me current_user => current_user
  | set_own_role current_user _ => current_user

/-- The request takes the role of administrator away. -/
def AdminRequest.Demotes : AdminRequest → Prop
  | delete_me _ => True
  | set_own_role _ role => role ≠ .admin

open Requests in
/-- The handlers of `users.py`. -/
def AdminRequest.program : AdminRequest → Awaiting α Unit
  | delete_me current_user => do
      if current_user.role = .admin then
        await do Eff.raiseIf (decide ((← query count_admins) ≤ 1)) (.permissionDenied "You are the only remaining admin")
      Requests.delete_user env current_user.id
  | set_own_role current_user role => do
      await do
        admin_user_guard current_user
        Eff.raiseIf (decide ((← query count_admins) ≤ 1)) (.permissionDenied "You are the only remaining admin")
      Requests.set_user_role env current_user.id role

/-- The requests as they arrive. -/
def AdminRequests.programs {ι : Type} (request : ι → AdminRequest) (i : ι) : Async (World α) (Except PyError Unit) :=
  ((request i).program env).run

end Backend
