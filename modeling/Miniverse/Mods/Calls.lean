import Miniverse.Calls.Service

/-!
# Calls on the mods of a miniverse

The functions of `mods_service.py` as they are called, one at a time, for one miniverse.
-/

namespace Backend

open Lib

variable {α : Type} (env : Env α) (miniverse_id : Uuid4)

inductive ModCall where
  | install_mod (mod_version_id : String)
  | automatic_mod_install (mod_id : String) (prioritize_release retry_with_latest : Bool)
  | update_mod (mod_id new_version_id : String)
  | uninstall_mod (mod_id : String)

/-- The mod of the miniverse with the identifier. -/
def Database.modOf (db : Database) (miniverse_id : Uuid4) (mod_id : String) : Option Mod :=
  (db.modsOf miniverse_id).find? fun r => decide (r.id.str = mod_id)

/-- Without a row nothing is called. -/
def withMod (mod_id : String) (call : Mod → Act α Unit) : Act α Unit := do
  (← query (·.modOf miniverse_id mod_id)).elim (pure ()) call

theorem withMod_found {miniverse_id : Uuid4} {mod_id : String} {mod : Mod} {w : World α}
    (hfind : w.db.modOf miniverse_id mod_id = some mod) (call : Mod → Act α Unit) :
    withMod miniverse_id mod_id call w = call mod w := by
  rw [withMod, query, Eff.read_bind_run, hfind]
  rfl

namespace ModCall

def perform : ModCall → Act α Unit
  | install_mod mod_version_id => do
      let _ ← Backend.install_mod env mod_version_id miniverse_id
  | automatic_mod_install mod_id prioritize_release retry_with_latest => withRow miniverse_id.str fun miniverse => do
      let _ ← Backend.automatic_mod_install env mod_id miniverse prioritize_release retry_with_latest
  | update_mod mod_id new_version_id => withMod miniverse_id mod_id fun mod => do
      let _ ← Backend.update_mod env mod new_version_id
  | uninstall_mod mod_id => withMod miniverse_id mod_id (Backend.uninstall_mod env)

end ModCall

end Backend
