import Miniverse.Access.Service

/-!
# The startup of the service

The routines of `on_startup` in `main.py`, and the part of `proxy_service.py` that brings up the router.
-/

namespace Backend

open Lib

variable {α : Type} (env : Env α)

/-- `containers.get(name).start()` -/
def start_container_by_name (name : String) : Act α Unit := do
  ask env.docker
  let container ← Eff.getOr (← Eff.read fun w => w.containers.find? fun c => decide (c.name = name)) .dockerNotFound
  ask env.docker
  Eff.modify fun w => { w with containers := w.containers.map fun c =>
    if c.id = container.id then { c with running := true } else c }

/-- A router that is found is left as it is, running or not. -/
def start_proxy_containers : Act α Unit := do
  match ← get_container_by_name env "miniverse-router" with
  | some _ => pure ()
  | none => do
      let _ ← create_container env "miniverse-router" "itzg/mc-router:latest" []
      start_container_by_name env "miniverse-router"

def proxy_startup : Act α Unit := update_proxy_config env

def docker_startup : Act α Unit := do
  start_proxy_containers env
  let miniverses ← query (·.miniverses)
  miniverses.forM fun miniverse => Eff.when miniverse.started do
    let _ ← start_miniverse env miniverse

/-- `on_startup` -/
def startup : Act α Unit := do
  proxy_startup env
  miniverse_controller_manager_startup env
  docker_startup env

/-! ## Restarts -/

/-- What is left of the state when the process ends: the tables, the files and the containers. -/
def Live.ended (l : Live α) : Live α := ⟨{ l.world with controllers := [], events := [] }, []⟩

/-- Something arrives, or the process ends between two arrivals and is started again. -/
inductive ServiceTurn where
  | arrives (arrival : Arrival)
  | restarts

def ServiceTurn.handle {env : Env α} (sur : Surroundings env.toPlatform) : ServiceTurn → Eff (Live α) PyError Unit
  | arrives arrival => do
      let _ ← arrival.handle sur
  | restarts => do
      Eff.modify Live.ended
      onWorld (startup env)

end Backend
