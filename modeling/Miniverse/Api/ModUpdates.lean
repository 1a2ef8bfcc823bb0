import Miniverse.Api.Miniverses

/-!
# The route for updates of mods

The handler of an update with what its name `mod` is bound to, which is no row.
-/

namespace Backend

open Lib

variable {α : Type} (env : Env α)

/-- What a name in a handler may stand for. -/
inductive PyObject where
  | none
  | bool (b : Bool)
  | coroutine
  | mod (row : Mod)

namespace PyObject

def is_none : PyObject → Bool
  | none => true
  | _ => false

def truthy : PyObject → Bool
  | none => false
  | bool b => b
  | _ => true

/-- The object as a row, which is the only one with these attributes. -/
def row : PyObject → Except PyError Mod
  | mod row => .ok row
  | _ => .error .attributeError

end PyObject

/-- What `get_mod` returns when it is awaited. -/
def get_mod (mod_id : String) : Act α PyObject :=
  query fun db => (db.mods.find? fun r => decide (r.id.str = mod_id)).elim .none .mod

namespace MiniversesRoute

/-- The handler behind its first test. -/
def update_found_mod (current_user : User) (mod : PyObject) (new_version_id : String) : Act α Reply := do
  let mod ← Eff.ofExcept mod.row
  requireRole current_user mod.miniverse_id.str .moderator "You are not authorized to update mods in this miniverse"
  return .mod (← Backend.update_mod env mod new_version_id)

/-- `if mod := get_mod(mod_id, db) is None`, where nothing is awaited. -/
def update_mod_handler (current_user : User) (new_version_id : String) : Act α Reply := do
  let mod := PyObject.bool PyObject.coroutine.is_none
  Eff.raiseIf mod.truthy (.notFound "Mod not found in this miniverse")
  update_found_mod env current_user mod new_version_id

/-- The handler with the test of its sibling: `if (mod := await get_mod(mod_id, db)) is None`. -/
def update_mod_awaited (current_user : User) (mod_id new_version_id : String) : Act α Reply := do
  let mod ← get_mod mod_id
  Eff.raiseIf mod.is_none (.notFound "Mod not found in this miniverse")
  update_found_mod env current_user mod new_version_id

theorem handle_update_mod (current_user : User) (mod_id new_version_id : String) :
    handle env current_user (.update_mod mod_id new_version_id) = update_mod_handler env current_user new_version_id := rfl

end MiniversesRoute

end Backend
