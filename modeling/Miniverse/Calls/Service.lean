import Miniverse.Lib.Runs
import Miniverse.Miniverses.Service

/-!
# Calls on miniverses

The functions of `miniverse_service.py` as they are called, one at a time, with the row of a miniverse.
-/

namespace Backend

open Lib

variable {α : Type} (env : Env α)

inductive MiniverseCall where
  | create_miniverse (data : MiniverseCreate) (creator : User)
  | update_miniverse (miniverse_id : String) (data : MiniverseUpdate)
  | start_miniverse (miniverse_id : String)
  | stop_miniverse (miniverse_id : String)
  | restart_miniverse (miniverse_id : String)
  | delete_miniverse (miniverse_id : String)

/-- Without a row nothing is called. -/
def withRow (miniverse_id : String) (call : Miniverse → Act α Unit) : Act α Unit := do
  (← query (·.findMiniverse miniverse_id)).elim (pure ()) call

theorem withRow_found {miniverse_id : String} {miniverse : Miniverse} {w : World α}
    (hfind : w.db.findMiniverse miniverse_id = some miniverse) (call : Miniverse → Act α Unit) :
    withRow miniverse_id call w = call miniverse w := by
  rw [withRow, query, Eff.read_bind_run, hfind]
  rfl

namespace MiniverseCall

def perform : MiniverseCall → Act α Unit
  | create_miniverse data creator => do
      let _ ← Backend.create_miniverse env data creator
  | update_miniverse miniverse_id data => withRow miniverse_id fun miniverse => do
      let _ ← Backend.update_miniverse env miniverse data
  | start_miniverse miniverse_id => withRow miniverse_id fun miniverse => do
      let _ ← Backend.start_miniverse env miniverse
  | stop_miniverse miniverse_id => withRow miniverse_id fun miniverse => do
      let _ ← Backend.stop_miniverse env miniverse
  | restart_miniverse miniverse_id => withRow miniverse_id fun miniverse => do
      let _ ← Backend.restart_miniverse env miniverse
  | delete_miniverse miniverse_id => withRow miniverse_id (Backend.delete_miniverse env)

end MiniverseCall

/-- The call returns. -/
def Succeeds {β : Type} (m : Act α β) (w : World α) : Prop := ∃ b w', m w = (.ok b, w')

end Backend
