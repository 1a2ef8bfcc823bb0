import Mathlib.Data.List.Infix
import Miniverse.Core.World

/-!
# Containers

The functions of `docker_service.py`. A container that was created here removes itself when it stops.
-/

namespace Backend

open Lib

variable {α : Type} (env : Env α)

/-- `containers.get(container_id)` -/
def getContainer (container_id : String) : Act α Container := do
  ask env.docker
  Eff.getOr (← Eff.read fun w => w.containers.find? fun c => decide (c.id = container_id)) .dockerNotFound

/-- The first container whose name holds the text, `none` also when the daemon does not answer. -/
def get_container_by_name (name : String) : Act α (Option Container) :=
  (do ask env.docker
      Eff.read fun w => w.containers.find? fun c => decide (name.toList <:+: c.name.toList) : Act α _).attempt
    fun _ => pure none

def create_container (name image : String) (environment : List (String × String)) : Act α Container := do
  ask env.docker
  Eff.raiseIf (← Eff.read fun w => w.containers.any fun c => decide (c.name = name)) .docker
  let id ← ask fun n => .ok (env.container_id n)
  let container : Container := { id, name, image, environment, running := false }
  Eff.modify fun w => { w with containers := container :: w.containers }
  return container

def start_container (container_id : String) : Act α Unit := do
  let container ← getContainer env container_id
  ask env.docker
  Eff.modify fun w => { w with containers := w.containers.map fun c =>
    if c.id = container.id then { c with running := true } else c }

/-- A container that was not started stays. -/
def stop_container (container_id : String) : Act α Unit := do
  let container ← getContainer env container_id
  ask env.docker
  Eff.modify fun w =>
    { w with containers := w.containers.filter fun c => decide (c.id ≠ container.id ∨ c.running = false) }

/-- Run `m`; a container that is not there is no error. -/
def ignoreNotFound (m : Act α Unit) : Act α Unit :=
  m.attempt fun e => if e = .dockerNotFound then pure () else Eff.raise e

def remove_container (container_id : String) : Act α Unit :=
  ignoreNotFound do
    let container ← getContainer env container_id
    ask env.docker
    Eff.modify fun w => { w with containers := w.containers.filter fun c => decide (c.id ≠ container.id) }

def kill_container (container_id : String) : Act α Unit :=
  ignoreNotFound do
    let _ ← getContainer env container_id
    ask env.docker

def send_command_to_container (container_id command : String) : Act α Unit := do
  let container ← getContainer env container_id
  ask env.docker
  Eff.modify fun w => { w with commands := w.commands ++ [(container.id, command ++ "\n")] }

end Backend
