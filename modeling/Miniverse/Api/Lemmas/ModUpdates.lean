import Miniverse.Api.ModUpdates

/-!
# Updates at two times

Where the answers from outside do not depend on the time, neither does what an update does.
-/

namespace Backend

open Lib

variable {α β : Type} {env : Env α}

/-- The answers that an update needs are the same at every time. -/
structure Steady (env : Env α) : Prop where
  commit : ∀ m n, env.commit m = env.commit n
  get_version_details : ∀ m n version_id, env.get_version_details m version_id = env.get_version_details n version_id
  get_project_details : ∀ m n project_id, env.get_project_details m project_id = env.get_project_details n project_id
  download : ∀ m n url, env.download m url = env.download n url

/-- The states are the same, at two times. -/
def SameButTime (w w' : World α) : Prop := { w with tick := w'.tick } = w'

section Alike

variable {w w' : World α}

theorem SameButTime.db (h : SameButTime w w') : w.db = w'.db := by
  rw [← h]

theorem SameButTime.disk (h : SameButTime w w') : w.disk = w'.disk := by
  rw [← h]

theorem alike_ask {answer : Nat → Except PyError β} (h : ∀ m n, answer m = answer n) :
    (ask answer : Act α β).Alike SameButTime := by
  intro w w' hsame
  refine ⟨h w.tick w'.tick, ?_⟩
  have hworld : w' = { w with tick := w'.tick } := hsame.symm
  rw [hworld]
  rfl

theorem alike_onDisk (m : Fs α β) : (onDisk m : Act α β).Alike SameButTime := by
  intro w w' hsame
  have hworld : w' = { w with tick := w'.tick } := hsame.symm
  rw [hworld]
  exact ⟨rfl, rfl⟩

theorem alike_modify {f : World α → World α} (h : ∀ w n, { f w with tick := n } = f { w with tick := n }) :
    (Eff.modify f : Act α Unit).Alike SameButTime := by
  intro w w' hsame
  have hworld : w' = { w with tick := w'.tick } := hsame.symm
  refine ⟨rfl, ?_⟩
  show { f w with tick := (f w').tick } = f w'
  have htick : (f w').tick = w'.tick := by
    rw [hworld, ← h]
  rw [htick, h, hsame]

theorem alike_update_mod (hsteady : Steady env) (mod : Mod) (new_version_id : String) :
    (update_mod env mod new_version_id).Alike SameButTime := by
  refine (alike_ask fun m n => hsteady.get_version_details m n _).bind fun version => ?_
  refine (alike_ask fun m n => hsteady.get_project_details m n _).bind fun project => ?_
  refine (alike_onDisk _).bind fun _ => ?_
  have hdownload : (download_mod_file env project version mod.miniverse_id).Alike SameButTime :=
    (Eff.Alike.getOr _ _).bind fun primary_file => (Eff.Alike.raiseIf _ _).bind fun _ => (alike_onDisk _).bind fun _ =>
      (alike_ask fun m n => hsteady.download m n _).bind fun _ => (alike_onDisk _).bind fun _ => Eff.Alike.pure _
  refine hdownload.bind fun file_name => ?_
  have hcommit : (commit env (·.saveMod (mod.withVersion project version file_name)) : Act α Unit).Alike SameButTime :=
    (alike_ask fun m n => hsteady.commit m n).bind fun _ => alike_modify fun _ _ => rfl
  exact hcommit.bind fun _ => (alike_modify fun _ _ => rfl).bind fun _ => Eff.Alike.pure _

end Alike

/-- An installation of a version of a project that is there is an update, two answers later. -/
theorem install_mod_found {w : World α} {mod : Mod} {new_version_id : String} {project : ModrinthProject}
    {version : ModrinthProjectVersion} (hversion : env.get_version_details w.tick new_version_id = .ok version)
    (hproject : env.get_project_details (w.tick + 1) version.project_id = .ok project)
    (hfound : ((w.db.modsOf mod.miniverse_id).find? fun r => decide (r.project_id = some project.id)) = some mod) :
    install_mod env new_version_id mod.miniverse_id w = update_mod env mod new_version_id w.next.next := by
  have hasked : get_version_details env new_version_id w = (.ok version, w.next) := ask_ok hversion
  have hthen : get_project_details env version.project_id w.next = (.ok project, w.next.next) := ask_ok hproject
  have hquery : (query fun db => (db.modsOf mod.miniverse_id).find? fun r => decide (r.project_id = some project.id) :
      Act α (Option Mod)) w.next.next = (.ok (some mod), w.next.next) := congrArg (fun o => (Except.ok o, w.next.next)) hfound
  rw [install_mod, Eff.bind_run_ok hasked, Eff.bind_run_ok hthen, Eff.bind_run_ok hquery]
  rfl

/-! ## Guards -/

theorem requireRole_refused {w : World α} {current_user : User} {miniverse_id detail : String} {role : Role}
    (h : w.db.get_miniverse_role current_user.id miniverse_id < role) :
    requireRole current_user miniverse_id role detail w = (.error (.notAuthorized detail), w) := by
  rw [requireRole, query, Eff.read_bind_run, decide_eq_true h]
  rfl

theorem requireRole_passed {w : World α} {current_user : User} {miniverse_id detail : String} {role : Role}
    (h : ¬ w.db.get_miniverse_role current_user.id miniverse_id < role) :
    requireRole current_user miniverse_id role detail w = (.ok (), w) := by
  rw [requireRole, query, Eff.read_bind_run, decide_eq_false h]
  rfl

end Backend
