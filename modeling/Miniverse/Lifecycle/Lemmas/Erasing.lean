import Miniverse.Calls.Lemmas.RoutesFile
import Miniverse.Miniverses.Lemmas.Servers

/-!
# What a deletion that returns has done
-/

namespace Backend

open Lib

variable {α β : Type} {env : Env α} {w w' : World α} {m : Miniverse} {id : Uuid4}

/-! ## Answers -/

/-- Only answers were given. -/
def Ticked (w w' : World α) : Prop := w' = { w with tick := w'.tick }

instance : Std.Refl (Ticked (α := α)) := ⟨fun _ => rfl⟩

instance : IsTrans (World α) Ticked where
  trans _ _ _ h₁ h₂ := by
    unfold Ticked at h₁ h₂ ⊢
    rw [h₂, h₁]

theorem ticked_ask (answer : Nat → Except PyError β) : (ask answer : Act α β).Within Ticked := fun _ => rfl

theorem ticked_getContainer (container_id : String) : (getContainer env container_id).Within Ticked :=
  (ticked_ask _).bind fun _ => (Eff.Within.read _).bind fun _ => Eff.Within.getOr _ _

theorem ticked_get_container_by_name (name : String) : (get_container_by_name env name).Within Ticked :=
  ((ticked_ask _).bind fun _ => Eff.Within.read _).attempt fun _ => Eff.Within.pure _

theorem ticked_kill_container (container_id : String) : (kill_container env container_id).Within Ticked :=
  ((ticked_getContainer _).bind fun _ => ticked_ask _).attempt fun _ => (Eff.Within.pure _).ite (Eff.Within.raise _)

theorem ticked_controller_stop (c : Controller) : (c.stop env id).Within Ticked := by
  cases c with
  | webSocket task => exact (ticked_ask _).bind fun _ => Eff.Within.pure _
  | mcRouter online_players => exact Eff.Within.pure _

/-! ## The parts of a deletion -/

theorem remove_miniverse_returned {a : Unit} (h : remove_miniverse env id w = (.ok a, w')) :
    Ticked (w.unregister id.str) w' := by
  rw [remove_miniverse, get_miniverse_controller, Eff.read_bind_run, Eff.modify_bind_run] at h
  have hstop (control : Option Controller) : (control.elim (pure ()) fun control => do
      let _ ← control.stop env id : Act α Unit).Within Ticked :=
    Eff.Within.elim (Eff.Within.pure _) fun c _ => (ticked_controller_stop c).bind fun _ => Eff.Within.pure _
  exact Eff.Within.of_run h (hstop _)

/-- The containers without that of the miniverse. -/
def withoutServer (m : Miniverse) (containers : List Container) : List Container :=
  (truthy m.container_id).elim containers fun container_id => containers.filter fun c => decide (c.id ≠ container_id)

theorem remove_server_returned (hdocker : TruthfulDocker env) {a : Unit}
    (h : (truthy m.container_id).elim (pure ()) (remove_container env) w = (.ok a, w')) :
    w' = { w with containers := withoutServer m w.containers, tick := w'.tick } := by
  unfold withoutServer
  cases hserver : truthy m.container_id with
  | none =>
      rw [hserver] at h
      cases h
      rfl
  | some container_id =>
      rw [hserver] at h
      rcases container_call_returned hdocker h with ⟨c, _, rfl, rfl⟩ | ⟨hno, rfl⟩
      · rfl
      · have hall : w.containers.filter (fun c => decide (c.id ≠ container_id)) = w.containers :=
          List.filter_eq_self.mpr fun c hc => decide_eq_true (hno c hc)
        rw [Option.elim_some, hall]
        rfl

/-- The files are gone, where there was a directory for them. -/
theorem remove_volume_returned {a : Unit} (h : remove_volume env id w = (.ok a, w')) :
    w' = { w with disk := w'.disk } ∧ ∀ q, w'.disk.tree.get q =
      if get_miniverse_path env.toPlatform id <+: q ∧ w.disk.tree.isDir (get_miniverse_path env.toPlatform id) = true then none
      else w.disk.tree.get q := by
  obtain ⟨h, hw'⟩ := onDisk_ok h
  refine ⟨hw', fun q => ?_⟩
  dsimp only at h
  rw [Disk.look, Eff.read_bind_run] at h
  cases hdir : w.disk.tree.isDir (get_miniverse_path env.toPlatform id) with
  | false =>
      rw [hdir, Eff.when_false] at h
      have hsame : w.disk = w'.disk := congrArg Prod.snd h
      rw [← hsame, if_neg fun hq => Bool.false_ne_true hq.2]
  | true =>
      rw [hdir, Eff.when_true, Disk.rmtree, Disk.call] at h
      split at h
      · rename_i t hrm
        have htree : t = w'.disk.tree := congrArg (fun r => r.2.tree) h
        rw [← htree, (FileTree.rmtree_ok hrm).2]
        simp only [and_true]
      · cases h

/-- The routes are written, in the directory that they need. -/
theorem update_proxy_config_wrote {a : Unit} (h : update_proxy_config env w = (.ok a, w')) :
    w' = { w with disk := w'.disk, tick := w'.tick } ∧ InStep env w' ∧
      ∀ q, ¬ q <+: routes_path env → w'.disk.tree.get q = w.disk.tree.get q := by
  unfold update_proxy_config query at h
  rw [Eff.read_bind_run] at h
  obtain ⟨_, w₁, hmkdirs, h⟩ := Eff.bind_ok h
  obtain ⟨hmkdirs, hw₁⟩ := onDisk_ok hmkdirs
  obtain ⟨_, w₂, hwrite, h⟩ := Eff.bind_ok h
  obtain ⟨hwrite, hw₂⟩ := onDisk_ok hwrite
  have hrest : w' = { w₂ with tick := w'.tick } := Eff.Within.of_run (R := Ticked) h <|
    (ticked_get_container_by_name _).bind fun _ => Eff.Within.elim (Eff.Within.pure _) fun _ _ => ticked_kill_container _
  have hdisk : w'.disk = w₂.disk := by rw [hrest]
  refine ⟨?_, ?_, fun q hq => ?_⟩
  · rw [hdisk, hrest, hw₂, hw₁]
  · have hdb : w'.db = w.db := by rw [hrest, hw₂, hw₁]
    rw [InStep, hdisk, hdb]
    exact Disk.write_returned hwrite
  · have hmade : Disk.SameOff (· <+: routes_path env) w.disk w₁.disk := Eff.Within.of_run hmkdirs <|
      Disk.sameOff_mkdirs fun p hp => hp.trans (routes_path_parent env).1
    have hwritten : Disk.SameOff (· <+: routes_path env) w₁.disk w₂.disk := Eff.Within.of_run hwrite <|
      Disk.sameOff_write (List.prefix_refl _)
    rw [hdisk, hwritten q hq, hmade q hq]

/-! ## The whole deletion -/

/-- The state without a miniverse, and nothing else changed but the file of the routes. -/
structure Erased (env : Env α) (m : Miniverse) (w w' : World α) : Prop where
  rows : w'.db = w.db.deleteMiniverse m.id
  controllers : w'.controllers = (w.unregister m.id.str).controllers
  containers : w'.containers = withoutServer m w.containers
  files : ∀ q, ¬ q <+: routes_path env → w'.disk.tree.get q =
    if get_miniverse_path env.toPlatform m.id <+: q ∧ w.disk.tree.isDir (get_miniverse_path env.toPlatform m.id) = true then none
    else w.disk.tree.get q
  routes : InStep env w'
  events : w'.events = w.events ++ [⟨.deleted, m.id.str, some ((w.db.rolesOf m.id).map (·.user_id))⟩]
  commands : w'.commands = w.commands

theorem delete_miniverse_returned (hdocker : TruthfulDocker env) {a : Unit}
    (h : delete_miniverse env m w = (.ok a, w')) : Erased env m w w' := by
  obtain ⟨_, w₁, hunregister, h⟩ := Eff.bind_ok h
  have hw₁ : w₁ = { w.unregister m.id.str with tick := w₁.tick } := remove_miniverse_returned hunregister
  obtain ⟨_, w₂, hserver, h⟩ := Eff.bind_ok h
  have hw₂ := remove_server_returned hdocker hserver
  obtain ⟨_, w₃, hvolume, h⟩ := Eff.bind_ok h
  obtain ⟨hw₃, hfiles⟩ := remove_volume_returned hvolume
  rw [query, Eff.read_bind_run] at h
  obtain ⟨_, w₄, hcommit, h⟩ := Eff.bind_ok h
  obtain rfl : { w₃.next with db := w₃.db.deleteMiniverse m.id } = w₄ := by
    rcases commit_cases env (·.deleteMiniverse m.id) w₃ with ⟨e, hrun⟩ | hrun
    · rw [hrun] at hcommit
      cases hcommit
    · rw [hrun] at hcommit
      exact congrArg Prod.snd hcommit
  obtain ⟨_, w₅, hcache, h⟩ := Eff.bind_ok h
  have hw₅ : { w₃.next.next with db := w₃.db.deleteMiniverse m.id } = w₅ := congrArg Prod.snd hcache
  obtain ⟨_, w₆, hroutes, h⟩ := Eff.bind_ok h
  obtain ⟨hw₆, hstep, hkept⟩ := update_proxy_config_wrote hroutes
  obtain rfl : { w₆ with events := w₆.events ++ [_] } = w' := congrArg Prod.snd h
  have hdisk₂ : w₂.disk = w.disk := by rw [hw₂, hw₁]; rfl
  have hdisk₅ : w₅.disk = w₃.disk := by rw [← hw₅]; rfl
  have hdb₃ : w₃.db = w.db := by rw [hw₃, hw₂, hw₁]; rfl
  have hdb₆ : w₆.db = w.db.deleteMiniverse m.id := by rw [hw₆, ← hw₅, hdb₃]
  exact {
    rows := hdb₆
    controllers := by rw [hw₆, ← hw₅, hw₃, hw₂, hw₁]; rfl
    containers := by rw [hw₆, ← hw₅, hw₃, hw₂, hw₁]; rfl
    files := fun q hq => by
      show w₆.disk.tree.get q = _
      rw [hkept q hq, hdisk₅, hfiles, hdisk₂]
    routes := hstep
    events := by rw [hw₆, ← hw₅, hdb₃, hw₃, hw₂, hw₁]; rfl
    commands := by rw [hw₆, ← hw₅, hw₃, hw₂, hw₁]; rfl }

end Backend
