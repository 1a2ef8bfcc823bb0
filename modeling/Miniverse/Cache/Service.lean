import Mathlib.Algebra.Order.Ring.Rat
import Miniverse.Status.Service

/-!
# The cache of the version list

`get_minecraft_versions` with the Redis store behind it, in which a value is kept until it expires.
-/

namespace Backend

open Lib

/-! ## The store -/

/-- A value with the time at which it expires, in seconds. -/
structure Expiring where
  value : String
  expires_at : ℚ

/-- The keys of the namespace `minecraft`. -/
abbrev CacheStore : Type := String → Option Expiring

namespace CacheStore

def empty : CacheStore := fun _ => none

def get (now : ℚ) (key : String) (store : CacheStore) : Option String :=
  ((store key).filter fun e => decide (now < e.expires_at)).map Expiring.value

def set (now : ℚ) (key value : String) (expires_in : ℚ) (store : CacheStore) : CacheStore :=
  Function.update store key (some ⟨value, now + expires_in⟩)

theorem get_set_ne {key key' : String} (h : key' ≠ key) (now time : ℚ) (value : String) (expires_in : ℚ) (store : CacheStore) :
    (store.set now key value expires_in).get time key' = store.get time key' := by
  simp [get, set, Function.update_of_ne h]

end CacheStore

/-! ## The list -/

/-- What Modrinth says of a version. -/
structure VersionData where
  version : String
  version_type : String
  date : String
  major : Bool
deriving DecidableEq

/-- The values of `MinecraftVersionType`. -/
def version_types : List String := ["release", "snapshot", "alpha", "beta"]

/-- `data["date"].replace("Z", "+00:00")` -/
def replaceZ (date : String) : String :=
  String.ofList (date.toList.flatMap fun c => if c = 'Z' then "+00:00".toList else [c])

/-- `datetime.fromisoformat` is Python's. -/
def MinecraftVersion.from_dict (fromisoformat : String → Except PyError DateTime) (data : VersionData) :
    Except PyError MinecraftVersion := do
  if data.version_type ∈ version_types then
    let date ← fromisoformat (replaceZ data.date)
    return ⟨data.version, date⟩
  else throw (.valueError (data.version_type ++ " is not a valid MinecraftVersionType"))

/-- The store, and how many requests were made to Modrinth. -/
structure VersionCache where
  store : CacheStore
  requests : Nat

/-- A call made at a time, with what Modrinth answers if it is asked. -/
structure VersionsCall where
  time : ℚ
  answer : List VersionData

variable (json : Json (List VersionData)) (fromisoformat : String → Except PyError DateTime)

def get_minecraft_versions (c : VersionsCall) : Eff VersionCache PyError (List MinecraftVersion) := do
  let cached ← Eff.read fun w => w.store.get c.time "versions"
  match cached.filter fun text => decide (text ≠ "") with
  | some cached => Eff.ofExcept ((json.loads cached).mapM (MinecraftVersion.from_dict fromisoformat))
  | none => do
      Eff.modify fun w => { w with requests := w.requests + 1 }
      let data := c.answer
      -- `timedelta(minutes=10).seconds`
      Eff.modify fun w => { w with store := w.store.set c.time "minecraft_versions" (json.dumps data) 600 }
      Eff.ofExcept (data.mapM (MinecraftVersion.from_dict fromisoformat))

/-! ## Runs -/

/-- A call that has ended, and whether it asked Modrinth. -/
structure VersionsReply where
  time : ℚ
  fetched : Bool
  result : Except PyError (List MinecraftVersion)

/-- The replies to calls that are made one after the other. -/
def versionsReplies : List VersionsCall → VersionCache → List VersionsReply
  | [], _ => []
  | c :: cs, w =>
      let (result, w') := get_minecraft_versions json fromisoformat c w
      ⟨c.time, decide (w.requests < w'.requests), result⟩ :: versionsReplies cs w'

end Backend
