import Miniverse.Api.Miniverses
import Miniverse.Calls.Service
import Miniverse.Users.Service

/-!
# Roles as a map

The calls that change the roles in miniverses, next to a map that says what the roles are meant to be.
-/

namespace Backend

open Lib

variable {α : Type} (env : Env α)

/-! ## The map -/

/-- The role of each user in each miniverse. -/
def RoleMap : Type := String → String → Role

namespace RoleMap

def empty : RoleMap := fun _ _ => .none

def set (user_id miniverse_id : String) (role : Role) (roles : RoleMap) : RoleMap := fun u m =>
  if u = user_id ∧ m = miniverse_id then role else roles u m

/-- Whichever way the identifier is spelled. -/
def forgetUser (weight : String → String) (user_id : String) (roles : RoleMap) : RoleMap := fun u m =>
  if weight u = weight user_id then .none else roles u m

def forgetMiniverse (miniverse_id : String) (roles : RoleMap) : RoleMap := fun u m =>
  if m = miniverse_id then .none else roles u m

end RoleMap

/-! ## Calls -/

/-- A request to set a role names its target by the identifier or by the name. -/
inductive RoleCall where
  | set_user_role (current_user : User) (miniverse_id : String) (target : User) (by_name : Bool) (role : Role)
  | create_miniverse (data : MiniverseCreate) (creator : User)
  | delete_miniverse (miniverse_id : String)
  | delete_user (user_id : String)

namespace RoleCall

/-- A creation returns its miniverse. -/
def perform : RoleCall → Act α (Option Miniverse)
  | set_user_role current_user miniverse_id target by_name role => do
      let user_id_or_name := if by_name then target.username else target.id
      let _ ← (MiniversesRoute.set_user_role miniverse_id user_id_or_name role).handle env current_user
      return none
  | create_miniverse data creator => do
      return some (← Backend.create_miniverse env data creator)
  | delete_miniverse miniverse_id => do
      withRow miniverse_id (Backend.delete_miniverse env)
      return none
  | delete_user user_id => do
      Backend.delete_user env user_id
      return none

/-- What a call that returns does to the map. -/
def apply (weight : String → String) (created : Option Miniverse) : RoleCall → RoleMap → RoleMap
  | set_user_role _ miniverse_id target _ role => RoleMap.set target.id miniverse_id role
  | create_miniverse _ creator => created.elim id fun m => RoleMap.set creator.id m.id.str .admin
  | delete_miniverse miniverse_id => RoleMap.forgetMiniverse miniverse_id
  | delete_user user_id => RoleMap.forgetUser weight user_id

/-- The target is a user, with an identifier that is a UUID4 or a name that does not look like one. -/
def Addressed (db : Database) : RoleCall → Prop
  | set_user_role _ _ target by_name _ =>
      target ∈ db.users ∧ matchesUuid4 (if by_name then target.username else target.id) = !by_name
  | _ => True

end RoleCall

/-- The backend, and the map. -/
structure TrackedRoles (α : Type) where
  world : World α
  roles : RoleMap

namespace TrackedRoles

def turn (c : RoleCall) (t : TrackedRoles α) : TrackedRoles α :=
  match c.perform env t.world with
  | (.ok created, w) => ⟨w, c.apply t.world.db.weight created t.roles⟩
  | (.error _, w) => ⟨w, t.roles⟩

/-- A turn, as a request that is handled. -/
def take (c : RoleCall) : Eff (TrackedRoles α) Empty Unit := Eff.modify (turn env c)

end TrackedRoles

end Backend
