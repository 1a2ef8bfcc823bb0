import Miniverse.Access.Service
import Miniverse.Policy.Model
import Miniverse.Users.Lemmas.Admins

/-!
# Rights of the service

The rights that the tables say, and the actions that a request asks for.
-/

namespace Backend

open Lib

variable {α : Type} {env : Env α}

/-- The names are what the collation makes of them. -/
def User.account (weight : String → String) (u : User) : Account := ⟨weight u.username, u.is_active, u.role⟩

/-- The row of a user, who is what the collation makes of the identifier. -/
def Database.userOf (db : Database) (user : String) : Option User := db.users.find? fun u => decide (db.weight u.id = user)

def Database.roleOf (db : Database) (id : Uuid4) (u : User) : Role := db.get_miniverse_role u.id id.str

def Database.rights (db : Database) : Rights String Uuid4 where
  accounts user := (db.userOf user).map (User.account db.weight)
  miniverses := { id | id ∈ db.miniverses.map Miniverse.id }
  roles user id := ((db.userOf user).map (db.roleOf id)).getD .none

section Weight

variable (weight : String → String)

/-- The action that a route is for. -/
def UsersRoute.action : UsersRoute → Option (Action String Uuid4)
  | get_me => none
  | delete_me => some .leave
  | delete_user user_id => some (.expel (weight user_id))
  | set_user_role user_id role => some (.promote (weight user_id) role)
  | accept_user_request user_id => some (.accept (weight user_id))
  | reject_user_request user_id => some (.reject (weight user_id))

/-- What is like an identifier names the user with it, and else the user with the name. -/
def Rights.Names (r : Rights String Uuid4) (user_id_or_name user : String) : Prop :=
  if matchesUuid4 user_id_or_name then user = weight user_id_or_name
  else ∃ a, r.accounts user = some a ∧ a.username = weight user_id_or_name

/-- A user and an action that a request of this user is for. Every request is for what its login does. -/
inductive Arrival.Asks : Arrival → String × Action String Uuid4 → Prop
  | join {a : Arrival} {token : Token} : a.token = some token →
      Asks a (weight token.sub, .join (weight token.preferred_username))
  | settle {a : Arrival} {token : Token} : a.token = some token →
      Asks a (weight token.sub, .settle (weight token.preferred_username))
  | rename {a : Arrival} {token : Token} : a.token = some token →
      Asks a (weight token.sub, .rename (weight token.preferred_username))
  | users {route : UsersRoute} {action : Action String Uuid4} (token : Token) : route.action weight = some action →
      Asks (.users token route) (weight token.sub, action)
  | found (token : Token) (data : MiniverseCreate) (id : Uuid4) (role : Role) :
      Asks (.miniverses token (.create_miniverse data)) (weight token.sub, .found id role)
  | close (token : Token) (id : Uuid4) : Asks (.miniverses token (.delete_miniverse id.str)) (weight token.sub, .close id)
  | grant {user_id_or_name user : String} (token : Token) (id : Uuid4) (role : Role) :
      (matchesUuid4 user_id_or_name = true → user = weight user_id_or_name) →
      Asks (.miniverses token (.set_user_role id.str user_id_or_name role)) (weight token.sub, .grant user id role)

/-- The requests about users and roles, and when the policy grants them. -/
inductive Arrival.GrantedWhen : Arrival → (Rights String Uuid4 → Prop) → Prop
  | users (token : Token) (route : UsersRoute) : GrantedWhen (.users token route) fun r =>
      ∃ r', r.Admits (weight token.sub) (weight token.preferred_username) r' ∧
        ∀ action, route.action weight = some action → r'.Permits (weight token.sub) action
  | set_user_role (token : Token) (miniverse_id user_id_or_name : String) (role : Role) :
      GrantedWhen (.miniverses token (.set_user_role miniverse_id user_id_or_name role)) fun r =>
        ∃ r', r.Admits (weight token.sub) (weight token.preferred_username) r' ∧ ∃ user id, id.str = miniverse_id ∧
          r'.Names weight user_id_or_name user ∧ r'.Permits (weight token.sub) (.grant user id role)

end Weight

/-- A request that deletes its own user, or gives it a role, spells the identifier as the row does: the checks of the routes compare
texts, and the database does not. -/
def Arrival.SpellsOwn (db : Database) : Arrival → Prop
  | .users token (.delete_user user_id) => db.weight user_id = db.weight token.sub → user_id = db.ownId token
  | .users token (.set_user_role user_id _) => db.weight user_id = db.weight token.sub → user_id = db.ownId token
  | _ => True

/-- The actions that the requests were for explain the rights after each of them: they were allowed, and led there. -/
structure Explains (sur : Surroundings env.toPlatform) (arrivals : List Arrival) (l : Live α)
    (logs : List (List (String × Action String Uuid4))) : Prop where
  asked : List.Forall₂ (fun a log => ∀ x ∈ log, a.Asks l.world.db.weight x) arrivals logs
  allowed : Meets Rights.take Rights.Allows logs.flatten l.world.db.rights
  rights : ∀ k, runs Rights.take (logs.take k).flatten l.world.db.rights =
    (runs (Arrival.handle sur) (arrivals.take k) l).world.db.rights

end Backend
