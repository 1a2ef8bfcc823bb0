import Miniverse.Connexion.Lemmas.Loops
import Miniverse.Lib.Layers
import Miniverse.Miniverses.Lemmas.Rules

/-!
# Stopping a controller with its connection

The functions that stop a controller, with what its task goes through. Without the connection they are the functions of the
backend.
-/

namespace Backend

open Lib

variable {α β : Type}

/-- The backend, and what is behind one of its controllers. -/
structure Connected (α : Type) where
  world : World α
  connexion : Connexion

namespace Connected

def onWorld (m : Act α β) : Eff (Connected α) PyError β := m.zoom world fun w l => { l with world := w }

def onConnexion (m : Eff Connexion PyError β) : Eff (Connected α) PyError β := m.zoom connexion fun s l => { l with connexion := s }

variable (env : Env α) (meanwhile : List ConnexionEvent)

/-- `await control.stop()`. Until the management server answers, things happen on the connection. -/
def stop (miniverse_id : Uuid4) : Controller → Eff (Connected α) PyError Controller
  | .webSocket _ => do
      let answer ← onWorld (ask fun n => .ok (env.player_list n miniverse_id))
      onConnexion (Eff.modify (runs ConnexionEvent.handle meanwhile))
      onConnexion (Connexion.stop answer)
      return .webSocket false
  | .mcRouter online_players => onWorld (Controller.stop env miniverse_id (.mcRouter online_players))

def stopController (miniverse_id : Uuid4) : Eff (Connected α) PyError Unit := do
  let control ← onWorld do Eff.getOr (← get_miniverse_controller miniverse_id.str) .attributeError
  let control ← stop env meanwhile miniverse_id control
  onWorld (Eff.modify (World.setController miniverse_id control))

def stop_miniverse (miniverse : Miniverse) : Eff (Connected α) PyError Miniverse := do
  onWorld (stop_miniverse_container env miniverse)
  stopController env meanwhile miniverse.id
  onWorld do
    let miniverse := { miniverse with started := false, container_id := none }
    commit env (·.saveMiniverse miniverse)
    publish .updated miniverse.id.str none
    return miniverse

def remove_miniverse (miniverse_id : Uuid4) : Eff (Connected α) PyError Unit := do
  let control ← onWorld (get_miniverse_controller miniverse_id.str)
  onWorld (Eff.modify (World.unregister miniverse_id.str))
  control.elim (pure ()) fun control => do
    let _ ← stop env meanwhile miniverse_id control

def delete_miniverse (miniverse : Miniverse) : Eff (Connected α) PyError Unit := do
  remove_miniverse env meanwhile miniverse.id
  onWorld do
    (truthy miniverse.container_id).elim (pure ()) (remove_container env)
    remove_volume env miniverse.id
    let users_roles ← query (·.rolesOf miniverse.id)
    commit env (·.deleteMiniverse miniverse.id)
    ask (env.delete_miniverse_cache · miniverse.id)
    update_proxy_config env
    publish .deleted miniverse.id.str (some (users_roles.map (·.user_id)))

/-! ## Without the connection -/

theorem projects_onWorld (m : Act α β) : (onWorld m).Projects world m := Eff.Projects.zoom (fun _ _ => rfl) m

/-- What a stop does to the connection depends on the answer alone. -/
theorem stop_webSocket (miniverse_id : Uuid4) (task : Bool) (l : Connected α) :
    stop env meanwhile miniverse_id (.webSocket task) l =
      ((env.player_list l.world.tick miniverse_id).map fun _ => .webSocket false,
        ⟨l.world.next, (Connexion.stop (env.player_list l.world.tick miniverse_id)
          (runs ConnexionEvent.handle meanwhile l.connexion)).2⟩) := by
  have hask : onWorld (ask fun n => .ok (env.player_list n miniverse_id)) l =
      (.ok (env.player_list l.world.tick miniverse_id), ⟨l.world.next, l.connexion⟩) := rfl
  rw [stop, Eff.bind_run_ok hask]
  cases env.player_list l.world.tick miniverse_id <;> rfl

theorem projects_stop (miniverse_id : Uuid4) (control : Controller) :
    (stop env meanwhile miniverse_id control).Projects world (control.stop env miniverse_id) := by
  cases control with
  | mcRouter online_players => exact projects_onWorld _
  | webSocket task =>
      intro l
      rw [stop_webSocket, Controller.stop, get_msmp_player_list]
      rcases ask_cases (env.player_list · miniverse_id) l.world with ⟨e, hanswer, hask⟩ | ⟨players, hanswer, hask⟩
      · rw [Eff.bind_run_error hask, hanswer]
        rfl
      · rw [Eff.bind_run_ok hask, hanswer]
        rfl

theorem projects_stopController (miniverse_id : Uuid4) :
    (stopController env meanwhile miniverse_id).Projects world (Backend.stopController env miniverse_id) :=
  (projects_onWorld _).bind fun _ => (projects_stop env meanwhile miniverse_id _).bind fun _ => projects_onWorld _

theorem projects_stop_miniverse (miniverse : Miniverse) :
    (stop_miniverse env meanwhile miniverse).Projects world (Backend.stop_miniverse env miniverse) :=
  (projects_onWorld _).bind fun _ => (projects_stopController env meanwhile _).bind fun _ => projects_onWorld _

theorem projects_remove_miniverse (miniverse_id : Uuid4) :
    (remove_miniverse env meanwhile miniverse_id).Projects world (Backend.remove_miniverse env miniverse_id) :=
  (projects_onWorld _).bind fun _ => (projects_onWorld _).bind fun _ =>
    (Eff.Projects.pure ()).elim fun _ => (projects_stop env meanwhile miniverse_id _).bind fun _ => Eff.Projects.pure ()

theorem projects_delete_miniverse (miniverse : Miniverse) :
    (delete_miniverse env meanwhile miniverse).Projects world (Backend.delete_miniverse env miniverse) :=
  (projects_remove_miniverse env meanwhile _).bind fun _ => projects_onWorld _

/-! ## With the connection -/

variable {env meanwhile}

theorem bind_onWorld_connexion (p : Eff (Connected α) PyError β) {γ : Type} (k : β → Act α γ) (l : Connected α) :
    ((p >>= fun b => onWorld (k b)) l).2.connexion = (p l).2.connexion := by
  rcases hp : p l with ⟨e | b, l'⟩
  · rw [Eff.bind_run_error hp]
  · rw [Eff.bind_run_ok hp]
    rfl

/-- A registered controller is stopped. -/
theorem stopController_connexion {miniverse_id : Uuid4} {task : Bool} {l : Connected α}
    (hregistered : (l.world.service miniverse_id.str).map Prod.snd = some (.webSocket task)) :
    (stopController env meanwhile miniverse_id l).2.connexion =
      (Connexion.stop (env.player_list l.world.tick miniverse_id) (runs ConnexionEvent.handle meanwhile l.connexion)).2 := by
  have hcontrol : onWorld (do Eff.getOr (← get_miniverse_controller miniverse_id.str) .attributeError) l =
      (.ok (.webSocket task), l) := by
    have hget : get_miniverse_controller miniverse_id.str l.world = (.ok (some (.webSocket task)), l.world) :=
      congrArg (fun c => (Except.ok c, l.world)) hregistered
    rw [onWorld, Eff.zoom, Eff.bind_run_ok hget]
    rfl
  rw [stopController, Eff.bind_run_ok hcontrol, bind_onWorld_connexion, stop_webSocket]

theorem remove_miniverse_connexion {miniverse_id : Uuid4} {task : Bool} {l : Connected α}
    (hregistered : (l.world.service miniverse_id.str).map Prod.snd = some (.webSocket task)) :
    (remove_miniverse env meanwhile miniverse_id l).2.connexion =
      (Connexion.stop (env.player_list l.world.tick miniverse_id) (runs ConnexionEvent.handle meanwhile l.connexion)).2 := by
  have hcontrol : onWorld (get_miniverse_controller miniverse_id.str) l = (.ok (some (.webSocket task)), l) :=
    congrArg (fun c => (Except.ok c, l)) hregistered
  have hunregister : onWorld (Eff.modify (World.unregister miniverse_id.str)) l =
      (.ok (), ⟨l.world.unregister miniverse_id.str, l.connexion⟩) := rfl
  rw [remove_miniverse, Eff.bind_run_ok hcontrol, Eff.bind_run_ok hunregister, Option.elim_some]
  exact (bind_onWorld_connexion _ (fun _ => pure ()) _).trans (by rw [stop_webSocket]; rfl)

theorem delete_miniverse_connexion {miniverse : Miniverse} {task : Bool} {l : Connected α}
    (hregistered : (l.world.service miniverse.id.str).map Prod.snd = some (.webSocket task)) :
    (delete_miniverse env meanwhile miniverse l).2.connexion =
      (Connexion.stop (env.player_list l.world.tick miniverse.id) (runs ConnexionEvent.handle meanwhile l.connexion)).2 := by
  rw [delete_miniverse, bind_onWorld_connexion, remove_miniverse_connexion hregistered]

/-- The controllers are as they were. -/
def SameControllers (w w' : World α) : Prop := w'.controllers = w.controllers

instance : Calm (SameControllers (α := α)) where
  refl _ := rfl
  trans _ _ _ h₁ h₂ := h₂.trans h₁
  tick _ _ := rfl
  events _ _ := rfl
  containers _ _ := rfl

/-- When the container has stopped, the controller is still registered. -/
theorem stop_miniverse_connexion {miniverse : Miniverse} {task : Bool} {l : Connected α} {w : World α}
    (hregistered : (l.world.service miniverse.id.str).map Prod.snd = some (.webSocket task))
    (hcontainer : stop_miniverse_container env miniverse l.world = (.ok (), w)) :
    (stop_miniverse env meanwhile miniverse l).2.connexion =
      (Connexion.stop (env.player_list w.tick miniverse.id) (runs ConnexionEvent.handle meanwhile l.connexion)).2 := by
  have hsame : w.controllers = l.world.controllers := Eff.Within.of_run (R := SameControllers) hcontainer
    (within_stop_miniverse_container miniverse)
  have hstill : (w.service miniverse.id.str).map Prod.snd = some (.webSocket task) := by
    rw [World.service, hsame]
    exact hregistered
  have hconnected : onWorld (stop_miniverse_container env miniverse) l = (.ok (), ⟨w, l.connexion⟩) := by
    rw [onWorld, Eff.zoom, hcontainer]
  rw [stop_miniverse, Eff.bind_run_ok hconnected, bind_onWorld_connexion, @stopController_connexion _ _ _ _ task ⟨w, l.connexion⟩ hstill]

end Connected

end Backend
