import Miniverse.Files.Service
import Miniverse.Versions.Service

/-!
# The state of the backend

The rows of the database, the files, the controllers in memory and the containers of the Docker daemon. What is
outside the repository (Modrinth, Docker, the management servers, the database connection) answers each call through
an environment, as it likes: it may fail at every call, and answer two equal calls differently.
-/

namespace Backend

open Lib

/-! ## Rows -/

inductive MiniverseType where
  | vanilla
  | paper
  | fabric
  | forge
  | neo_forge
deriving DecidableEq, Repr

structure Miniverse where
  id : Uuid4
  name : String
  type : MiniverseType
  description : Option String
  container_id : Option String
  java_version : Option String
  mc_version : String
  subdomain : String
  online_mode : Bool
  is_on_lite_proxy : Bool
  allow_bedrock : Bool
  started : Bool
  management_server_secret : Option String
deriving DecidableEq

structure Mod where
  id : Uuid4
  slug : String
  version_id : Option String
  project_id : Option String
  title : String
  icon_url : Option String
  version_name : Option String
  version_number : Option String
  file_name : String
  miniverse_id : Uuid4
deriving DecidableEq

structure User where
  id : String
  is_active : Bool
  username : String
  role : Role
deriving DecidableEq

structure MiniverseUserRole where
  user_id : String
  miniverse_id : Uuid4
  role : Role
deriving DecidableEq

structure Database where
  users : List User
  miniverses : List Miniverse
  user_roles : List MiniverseUserRole
  mods : List Mod
  /-- What the collation makes of a text. The database takes two texts of one weight for the same. -/
  weight : String → String

/-! ## Processes -/

structure MSMPPlayer where
  id : String
  name : String
deriving DecidableEq

/-- A controller in memory: `task` says whether a connect loop was started, `online_players` who is online. -/
inductive Controller where
  | webSocket (task : Bool)
  | mcRouter (online_players : List MSMPPlayer)
deriving DecidableEq

structure Container where
  id : String
  name : String
  image : String
  environment : List (String × String)
  running : Bool
deriving DecidableEq

inductive EventType where
  | created
  | deleted
  | updated
deriving DecidableEq

structure MiniverseEvent where
  type : EventType
  miniverse_id : String
  updated_user_ids : Option (List String)
deriving DecidableEq

structure World (α : Type) where
  db : Database
  disk : Disk α
  controllers : List (Uuid4 × Controller)
  containers : List Container
  /-- What was sent to the consoles: the container and the text. -/
  commands : List (String × String)
  events : List MiniverseEvent
  /-- How many answers were given so far. -/
  tick : Nat

/-! ## Answers from outside -/

inductive ModVersionType where
  | release
  | beta
  | alpha
deriving DecidableEq

structure ModrinthProjectFile where
  url : String
  filename : String
  primary : Bool
deriving DecidableEq

structure ModrinthProjectVersion where
  id : String
  project_id : String
  date_published : DateTime
  name : String
  version_number : String
  game_versions : List String
  version_type : ModVersionType
  files : List ModrinthProjectFile
deriving DecidableEq

structure ModrinthProject where
  id : String
  slug : String
  title : String
  icon_url : Option String
deriving DecidableEq

/-- The platform, and the answer to the call made at each tick. -/
structure Env (α : Type) extends Platform α where
  DOMAIN_NAME : String
  server_icon : α
  /-- The text that `json.dump`, `toml.dump` write. -/
  routes_json : List (String × String) → α
  fabric_proxy_config : α
  forge_proxy_config : α
  uuid4 : Nat → Uuid4
  random_string : Nat → String
  commit : Nat → Except PyError Unit
  get_minecraft_versions : Nat → Except PyError (List MinecraftVersion)
  list_project_versions : Nat → String → Option MiniverseType → Option String →
    Except PyError (List ModrinthProjectVersion)
  get_project_details : Nat → String → Except PyError ModrinthProject
  get_version_details : Nat → String → Except PyError ModrinthProjectVersion
  download : Nat → String → Except PyError α
  docker : Nat → Except PyError Unit
  container_id : Nat → String
  /-- The players that the management server or the status store reports. -/
  player_list : Nat → Uuid4 → Except PyError (List MSMPPlayer)
  /-- Whether a management server carries out a call. -/
  rpc : Nat → Uuid4 → Except PyError Bool
  delete_miniverse_cache : Nat → Uuid4 → Except PyError Unit

/-- An environment where every call succeeds. -/
def sampleEnv : Env String where
  toPlatform := samplePlatform
  DOMAIN_NAME := "example.org"
  server_icon := "icon"
  routes_json routes := String.join (routes.map fun r => r.1 ++ " " ++ r.2 ++ "\n")
  fabric_proxy_config := "fabric"
  forge_proxy_config := "forge"
  uuid4 _ := sampleId
  random_string _ := "secret"
  commit _ := .ok ()
  get_minecraft_versions _ := .ok []
  list_project_versions _ _ _ _ := .ok []
  get_project_details _ id := .ok ⟨id, id, id, none⟩
  get_version_details _ id := .ok ⟨id, id, ⟨0, true⟩, id, id, [], .release, [⟨id, id, true⟩]⟩
  download _ url := .ok url
  docker _ := .ok ()
  container_id n := n.repr
  player_list _ _ := .ok []
  rpc _ _ := .ok true
  delete_miniverse_cache _ _ := .ok ()

/-- A collation that does not tell upper and lower case apart. -/
def sampleWeight (s : String) : String := String.ofList (s.toList.map Char.toLower)

/-- The state before the first request. -/
def sampleWorld : World String where
  db := ⟨[], [], [], [], sampleWeight⟩
  disk := ⟨⟨[([], .dir)], by decide, by decide, by decide, by decide⟩, []⟩
  controllers := []
  containers := []
  commands := []
  events := []
  tick := 0

/-- A computation of the backend. -/
abbrev Act (α β : Type) := Eff (World α) PyError β

variable {α β : Type}

/-- The state after an answer. -/
def World.next (w : World α) : World α := { w with tick := w.tick + 1 }

@[simp] theorem World.next_disk (w : World α) : w.next.disk = w.disk := rfl

@[simp] theorem World.next_controllers (w : World α) : w.next.controllers = w.controllers := rfl

@[simp] theorem World.next_containers (w : World α) : w.next.containers = w.containers := rfl

@[simp] theorem World.next_tick (w : World α) : w.next.tick = w.tick + 1 := rfl

/-- A call answered from outside. -/
def ask (answer : Nat → Except PyError β) : Act α β := fun w => (answer w.tick, w.next)

/-- A computation on the files. -/
def onDisk (m : Fs α β) : Act α β := m.zoom World.disk fun d w => { w with disk := d }

/-- Write pending changes to the database, all or none. -/
def commit (env : Env α) (f : Database → Database) : Act α Unit := do
  ask env.commit
  Eff.modify fun w => { w with db := f w.db }

def query (f : Database → β) : Act α β := Eff.read fun w => f w.db

def publish (type : EventType) (miniverse_id : String) (updated_user_ids : Option (List String)) : Act α Unit :=
  Eff.modify fun w => { w with events := w.events ++ [⟨type, miniverse_id, updated_user_ids⟩] }

/-! ## Tables -/

namespace Database

def findMiniverse (db : Database) (miniverse_id : String) : Option Miniverse :=
  db.miniverses.find? fun m => decide (m.id.str = miniverse_id)

/-- The row of a miniverse takes the values of the object. -/
def saveMiniverse (m : Miniverse) (db : Database) : Database :=
  { db with miniverses := db.miniverses.map fun r => if r.id = m.id then m else r }

/-- With its roles and its mods. -/
def deleteMiniverse (id : Uuid4) (db : Database) : Database :=
  { db with
    miniverses := db.miniverses.filter fun r => decide (r.id ≠ id)
    user_roles := db.user_roles.filter fun r => decide (r.miniverse_id ≠ id)
    mods := db.mods.filter fun r => decide (r.miniverse_id ≠ id) }

def modsOf (db : Database) (id : Uuid4) : List Mod := db.mods.filter fun r => decide (r.miniverse_id = id)

def rolesOf (db : Database) (id : Uuid4) : List MiniverseUserRole :=
  db.user_roles.filter fun r => decide (r.miniverse_id = id)

def saveMod (m : Mod) (db : Database) : Database :=
  { db with mods := db.mods.map fun r => if r.id = m.id then m else r }

def findUser (db : Database) (user_id : String) : Option User :=
  db.users.find? fun u => decide (db.weight u.id = db.weight user_id)

def get_user_by_username (db : Database) (username : String) : Option User :=
  db.users.find? fun u => decide (db.weight u.username = db.weight username)

def saveUser (u : User) (db : Database) : Database :=
  { db with users := db.users.map fun r => if db.weight r.id = db.weight u.id then u else r }

/-- With the roles of the user. -/
def deleteUser (user_id : String) (db : Database) : Database :=
  { db with
    users := db.users.filter fun u => decide (db.weight u.id ≠ db.weight user_id)
    user_roles := db.user_roles.filter fun r => decide (db.weight r.user_id ≠ db.weight user_id) }

/-- `User.get_miniverse_role` -/
def get_miniverse_role (db : Database) (user_id miniverse_id : String) : Role :=
  ((db.user_roles.find? fun r => decide (r.user_id = user_id ∧ r.miniverse_id.str = miniverse_id)).map
    MiniverseUserRole.role).getD .none

end Database

/-! ## What the calls do -/

theorem onDisk_run {m : Fs α β} {w : World α} {r : Except PyError β} {d : Disk α} (h : m w.disk = (r, d)) :
    onDisk m w = (r, { w with disk := d }) := by
  unfold onDisk Eff.zoom
  dsimp only
  rw [h]

theorem onDisk_ok {m : Fs α β} {w w' : World α} {b : β} (h : onDisk m w = (.ok b, w')) :
    m w.disk = (.ok b, w'.disk) ∧ w' = { w with disk := w'.disk } := by
  obtain ⟨hresult, rfl⟩ := Prod.mk.inj h
  exact ⟨Prod.ext hresult rfl, rfl⟩

theorem ask_ok {answer : Nat → Except PyError β} {w : World α} {b : β} (h : answer w.tick = .ok b) :
    ask answer w = (.ok b, w.next) := by
  rw [ask, h]

theorem ask_error {answer : Nat → Except PyError β} {w : World α} {e : PyError} (h : answer w.tick = .error e) :
    ask answer w = (.error e, w.next) := by
  rw [ask, h]

theorem ask_cases (answer : Nat → Except PyError β) (w : World α) :
    (∃ e, answer w.tick = .error e ∧ ask answer w = (.error e, w.next)) ∨
      ∃ b, answer w.tick = .ok b ∧ ask answer w = (.ok b, w.next) := by
  cases h : answer w.tick with
  | error e => exact Or.inl ⟨e, rfl, ask_error h⟩
  | ok b => exact Or.inr ⟨b, rfl, ask_ok h⟩

theorem commit_ok {env : Env α} (f : Database → Database) {w : World α} (h : env.commit w.tick = .ok ()) :
    commit env f w = (.ok (), { w.next with db := f w.db }) := by
  rw [commit, Eff.bind_run_ok (ask_ok h)]
  rfl

/-- A refused commit changes nothing. -/
theorem commit_error {env : Env α} (f : Database → Database) {w : World α} {e : PyError} (h : env.commit w.tick = .error e) :
    commit env f w = (.error e, w.next) := by
  rw [commit, Eff.bind_run_error (ask_error h)]

theorem commit_cases (env : Env α) (f : Database → Database) (w : World α) :
    (∃ e, commit env f w = (.error e, w.next)) ∨
      commit env f w = (.ok (), { w.next with db := f w.db }) := by
  cases h : env.commit w.tick with
  | error e => exact Or.inl ⟨e, commit_error f h⟩
  | ok a => exact Or.inr (commit_ok f h)

/-- Only what a commit makes of the tables as they are matters. -/
theorem commit_congr (env : Env α) {f g : Database → Database} {w : World α} (h : f w.db = g w.db) :
    commit env f w = commit env g w := by
  cases hcommit : env.commit w.tick with
  | error e => rw [commit_error f hcommit, commit_error g hcommit]
  | ok a => rw [commit_ok f hcommit, commit_ok g hcommit, h]

end Backend
