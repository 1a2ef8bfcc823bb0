import Miniverse.Lib.Outcome
import Miniverse.Miniverses.Service

/-!
# Updates with a log

`update_miniverse` and what it calls, with an entry for each time that the server was stopped or started or the routes were
written. Without the log they are the functions of `Miniverses`.
-/

namespace Backend

open Lib

variable {α β : Type} (env : Env α)

inductive UpdateStep where
  | stop_miniverse
  | start_miniverse
  | update_proxy_config
deriving DecidableEq, Repr

/-- A computation of the backend with a log. -/
abbrev LoggedAct (α β : Type) := Eff (World α × List UpdateStep) PyError β

/-- An entry when the computation has returned. -/
def logged (step : UpdateStep) (m : Act α β) : LoggedAct α β := do
  let b ← Eff.silent m
  Eff.log step
  return b

def restart_miniverse_logged (miniverse : Miniverse) : LoggedAct α (Miniverse × Container) := do
  let miniverse ← logged .stop_miniverse (stop_miniverse env miniverse)
  logged .start_miniverse (start_miniverse env miniverse)

def update_miniverse_game_version_logged (miniverse : Miniverse) (new_mc_version : String) (force_update : Bool) :
    LoggedAct α Miniverse := do
  Eff.silent (prepare_game_version env miniverse new_mc_version force_update)
  let miniverse ← logged .stop_miniverse (stop_miniverse env miniverse)
  let miniverse := { miniverse with mc_version := new_mc_version }
  Eff.silent (commit env (·.saveMiniverse miniverse))
  let (miniverse, _) ← logged .start_miniverse (start_miniverse env miniverse)
  return miniverse

def update_miniverse_logged (miniverse : Miniverse) (data : MiniverseUpdate) : LoggedAct α Miniverse := do
  Eff.silent (checkUnused "name" (·.name) miniverse data.name)
  Eff.silent (checkUnused "subdomain" (·.subdomain) miniverse data.subdomain)
  let updated := data.apply miniverse
  let has_changed := decide (updated ≠ miniverse)
  let routes_changed := decide (updated.subdomain ≠ miniverse.subdomain ∨ updated.allow_bedrock ≠ miniverse.allow_bedrock)
  let game_version := data.mc_version.filter fun v => decide (updated.mc_version ≠ v)
  let should_restart := data.java_version.isSome && decide (updated.java_version ≠ data.java_version)
  Eff.when has_changed (Eff.silent (commit env (·.saveMiniverse updated)))
  let miniverse ← game_version.elim (pure updated) fun v => update_miniverse_game_version_logged env updated v false
  Eff.when should_restart do
    let _ ← restart_miniverse_logged env miniverse
  Eff.when routes_changed (logged .update_proxy_config (update_proxy_config env))
  Eff.when (has_changed || game_version.isSome) (Eff.silent (publish .updated miniverse.id.str none))
  return miniverse

/-! ## Without the log -/

theorem erases_logged (step : UpdateStep) (m : Act α β) : Eff.Erases (logged step m) m :=
  (Eff.erases_silent m).log_returned step

theorem erases_restart_miniverse (miniverse : Miniverse) :
    Eff.Erases (restart_miniverse_logged env miniverse) (restart_miniverse env miniverse) :=
  (erases_logged _ _).bind fun _ => erases_logged _ _

theorem erases_update_miniverse_game_version (miniverse : Miniverse) (new_mc_version : String) (force_update : Bool) :
    Eff.Erases (update_miniverse_game_version_logged env miniverse new_mc_version force_update)
      (update_miniverse_game_version env miniverse new_mc_version force_update) :=
  (Eff.erases_silent _).bind fun _ => (erases_logged _ _).bind fun _ => (Eff.erases_silent _).bind fun _ =>
    (erases_logged _ _).bind fun _ => Eff.erases_pure _

theorem erases_update_miniverse (miniverse : Miniverse) (data : MiniverseUpdate) :
    Eff.Erases (update_miniverse_logged env miniverse data) (update_miniverse env miniverse data) := by
  refine (Eff.erases_silent _).bind fun _ => (Eff.erases_silent _).bind fun _ => ?_
  refine (Eff.Erases.when (Eff.erases_silent _)).bind fun _ => ?_
  refine Eff.Erases.bind (Eff.Erases.elim (Eff.erases_pure _) fun v => erases_update_miniverse_game_version env _ v _) fun _ => ?_
  refine Eff.Erases.bind (Eff.Erases.when ((erases_restart_miniverse env _).bind fun _ => Eff.erases_pure _)) fun _ => ?_
  refine (Eff.Erases.when (erases_logged _ _)).bind fun _ => (Eff.Erases.when (Eff.erases_silent _)).bind fun _ => ?_
  exact Eff.erases_pure _

/-- What an update writes down. -/
def updateLog (miniverse : Miniverse) (data : MiniverseUpdate) (w : World α) : List UpdateStep :=
  (update_miniverse_logged env miniverse data (w, [])).2.2

end Backend
