import Miniverse.Lib.Dict
import Miniverse.Lib.Glob
import Miniverse.Status.Service

/-!
# The keys of Redis

Where the status store keeps its values, and how the cache of a miniverse is deleted. The store puts its namespace before
every key; a scan sees the keys as Redis has them, and yields bytes.
-/

namespace Backend

open Lib

/-- All keys of the Redis database, with their texts. -/
abbrev Keyspace : Type := Dict String String

/-- What a caller hands to the store as a key. -/
inductive StoreKey where
  | text (key : String)
  | bytes (key : Bytes)

namespace RedisStore

variable (ns : String)

/-- `prefix + key`: bytes do not go behind a text. -/
def make_key : StoreKey → Except PyError String
  | .text key => .ok (ns ++ ":" ++ key)
  | .bytes _ => .error .typeError

def get (key : StoreKey) : Eff Keyspace PyError (Option Bytes) := do
  let key ← Eff.ofExcept (make_key ns key)
  Eff.read fun redis => (Dict.get redis key).map Bytes.mk

def set (key : StoreKey) (value : String) : Eff Keyspace PyError Unit := do
  let key ← Eff.ofExcept (make_key ns key)
  Eff.modify fun redis => Dict.put redis key value

def delete (key : StoreKey) : Eff Keyspace PyError Unit := do
  let key ← Eff.ofExcept (make_key ns key)
  Eff.modify fun redis => Dict.erase redis key

end RedisStore

/-- The keys that match a pattern. The client decodes nothing. -/
def scan_iter (pattern : String) (redis : Keyspace) : List Bytes :=
  (redis.keys.filter fun key => glob pattern.toList key.toList).map Bytes.mk

namespace ServerStatusStore

/-- `ServerStatusStore.get`, where `loads` is `json.loads`. -/
def lookup {V : Type} (loads : String → Except PyError (Option V)) (ns miniverse_id method_id : String) :
    Eff Keyspace PyError (Option V) := do
  let str_data ← RedisStore.get ns (.text (status_key miniverse_id method_id))
  str_data.elim (pure none) fun data => Eff.ofExcept (loads data.text)

def delete_miniverse_cache (ns miniverse_id : String) : Eff Keyspace PyError Unit := do
  (← Eff.read (scan_iter (miniverse_id ++ ".*"))).forM fun r => RedisStore.delete ns (.bytes r)

end ServerStatusStore

end Backend
