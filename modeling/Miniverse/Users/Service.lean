import Miniverse.Core.World
import Miniverse.Lib.Runs

/-!
# Users

`user_service.py`, the handler of `auth_service.py` that turns a token into a user, and the routes of `users.py` that
change users.
-/

namespace Backend

open Lib

variable {α : Type} (env : Env α)

/-! ## `user_service.py` -/

/-- Usernames are unique: a write that breaks it is refused by the database. -/
def saveUsername (user_id username : String) (f : Database → Database) : Act α Unit := do
  Eff.raiseIf (← query fun db =>
    db.users.any fun u => decide (db.weight u.username = db.weight username ∧ db.weight u.id ≠ db.weight user_id)) .integrityError
  commit env f

def create_user (userid username : String) : Act α User := do
  let is_users_empty ← query fun db => db.users.isEmpty
  let db_user : User :=
    if is_users_empty then { id := userid, is_active := true, username := username, role := .admin }
    else { id := userid, is_active := false, username := username, role := .user }
  saveUsername env userid username fun db => { db with users := db.users ++ [db_user] }
  return db_user

def count_admins (db : Database) : Nat := db.users.countP fun u => decide (u.role = .admin)

def delete_user (user_id : String) : Act α Unit := commit env (·.deleteUser user_id)

def set_user_role (user_id : String) (role : Role) : Act α Unit := do
  let user ← Eff.getOr (← query (·.findUser user_id)) .attributeError
  commit env (·.saveUser { user with role := role })

def accept_user_request (user_id : String) : Act α Unit := do
  let user ← Eff.getOr (← query (·.findUser user_id)) .attributeError
  commit env (·.saveUser { user with is_active := true })

def reject_user_request (user_id : String) : Act α Unit := delete_user env user_id

/-! ## Requests -/

/-- The subject and the name in the token of a request. -/
structure Token where
  sub : String
  preferred_username : String

def retrieve_user_handler (token : Token) : Act α User := do
  let user ← (← query (·.findUser token.sub)).elim (create_user env token.sub token.preferred_username) pure
  Eff.raiseIf (!user.is_active) (.permissionDenied "Inactive user")
  if user.username ≠ token.preferred_username then
    let user := { user with username := token.preferred_username }
    saveUsername env user.id user.username (·.saveUser user)
    return user
  else return user

def admin_user_guard (user : User) : Act α Unit :=
  Eff.raiseIf (decide (¬ Role.admin ≤ user.role)) (.notAuthorized "Unauthorized")

inductive UsersRoute where
  | get_me
  | delete_me
  | delete_user (user_id : String)
  | set_user_role (user_id : String) (role : Role)
  | accept_user_request (user_id : String)
  | reject_user_request (user_id : String)

def UsersRoute.handle (current_user : User) : UsersRoute → Act α Unit
  | get_me => pure ()
  | delete_me => do
      Eff.raiseIf (decide (current_user.role = .admin ∧ (← query count_admins) ≤ 1))
        (.permissionDenied "You are the only remaining admin")
      Backend.delete_user env current_user.id
  | delete_user user_id => do
      admin_user_guard current_user
      Eff.raiseIf (decide (current_user.id = user_id)) (.permissionDenied "You cannot delete yourself")
      Backend.delete_user env user_id
  | set_user_role user_id role => do
      admin_user_guard current_user
      Eff.raiseIf (decide (current_user.id = user_id ∧ (← query count_admins) ≤ 1))
        (.permissionDenied "You are the only remaining admin")
      Backend.set_user_role env user_id role
  | accept_user_request user_id => do
      admin_user_guard current_user
      Backend.accept_user_request env user_id
  | reject_user_request user_id => do
      admin_user_guard current_user
      Backend.reject_user_request env user_id

/-- A request to the routes of the users, with the token it carries. -/
structure UsersRequest where
  token : Token
  route : UsersRoute

def UsersRequest.handle (r : UsersRequest) : Act α Unit := do
  let current_user ← retrieve_user_handler env r.token
  r.route.handle env current_user

end Backend
