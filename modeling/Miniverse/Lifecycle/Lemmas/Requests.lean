import Miniverse.Lifecycle.Lemmas.Elsewhere

/-!
# Requests about one miniverse
-/

namespace Backend

open Lib

variable {α β : Type} {env : Env α} {id : Uuid4} {u : User} {w : World α}

/-! ## Requests about one miniverse -/

/-- The route is about one miniverse or about none, and neither creates nor deletes one. -/
def MiniversesRoute.About (id : Uuid4) (db : Database) : MiniversesRoute → Prop
  | create_miniverse _ | delete_miniverse _ => False
  | list_miniverses | list_all_players | list_all_banned_players | update_mod _ _ => True
  | uninstall_mod mod_id => ∀ mod ∈ db.mods, mod.id.str = mod_id → mod.miniverse_id = id
  | start_miniverse miniverse_id | stop_miniverse miniverse_id | restart_miniverse miniverse_id | update_miniverse miniverse_id _
  | automatic_install_mod miniverse_id _ | install_mod miniverse_id _ | list_mod_updates miniverse_id
  | list_miniverse_users miniverse_id | set_user_role miniverse_id _ _ | set_operator miniverse_id _ _
  | kick_player miniverse_id _ _ | ban_player miniverse_id _ _ | unban_player miniverse_id _ => miniverse_id = id.str

/-- The end of an upload takes files from elsewhere. -/
def FilesRoute.About (id : Uuid4) : FilesRoute → Prop
  | confirm_upload _ => False
  | list_miniverse_files miniverse_id _ | delete_miniverse_files miniverse_id _ | copy_miniverse_files miniverse_id _ _
  | download_files miniverse_id _ | extract_miniverse_archive miniverse_id _ | compress_miniverse_files miniverse_id _
  | rename_miniverse_file miniverse_id _ _ | get_file_content miniverse_id _ | set_file_content miniverse_id _ _ =>
      miniverse_id = id.str

def ServiceRequest.About (id : Uuid4) (db : Database) : ServiceRequest → Prop
  | miniverses route => route.About id db
  | files route => route.About id
  | open_logs miniverse_id _ _ => miniverse_id = id.str
  | open_updates | next_event _ | receive_text _ => True

/-! ## Routes -/

theorem elsewhere_found {miniverse_id : String} (hid : miniverse_id = id.str) {missing : PyError} {k : Miniverse → Act α β}
    (hk : ∀ m, m.id = id → (k m).Within (Elsewhere env id)) : (getMiniverse miniverse_id missing >>= k).Within (Elsewhere env id) := by
  refine Eff.Within.bind_returns ((within_query _).bind fun _ => Eff.Within.getOr _ _) ?_ hk
  intro w m w' h
  unfold getMiniverse query at h
  rw [Eff.read_bind_run] at h
  exact Uuid4.eq_of_str ((findMiniverse_some (Eff.getOr_ok h).1).2.trans hid)

/-- Behind a guard there is the miniverse, or none. -/
theorem elsewhere_guarded {miniverse_id detail : String} {role : Role} (hid : miniverse_id = id.str) {missing : PyError}
    {k : Miniverse → Act α β} (hk : ∀ m, m.id = id → (k m).Within (Elsewhere env id)) :
    (do requireRole u miniverse_id role detail
        let m ← getMiniverse miniverse_id missing
        k m : Act α β).Within (Elsewhere env id) :=
  (within_requireRole _ _ _).bind fun _ => elsewhere_found hid hk

theorem elsewhere_uninstall (hplain : PlainAnswers env) {mod_id : String}
    (habout : ∀ mod ∈ w.db.mods, mod.id.str = mod_id → mod.miniverse_id = id) :
    Elsewhere env id w ((MiniversesRoute.uninstall_mod mod_id).handle env u w).2 := by
  rw [MiniversesRoute.handle, query, Eff.read_bind_run]
  cases hmod : w.db.mods.find? fun r => decide (r.id.str = mod_id) with
  | none => exact Std.Refl.refl w
  | some mod =>
      have hmem := List.mem_of_find?_eq_some hmod
      have hin := habout mod hmem (of_decide_eq_true (List.find?_some hmod :))
      have hallows := elsewhere_allows hplain id
      rw [Eff.getOr_some_bind, requireRole, bind_assoc, query, Eff.read_bind_run]
      cases decide (w.db.get_miniverse_role u.id mod.miniverse_id.str < .moderator) with
      | true =>
          rw [Eff.raiseIf_true_bind]
          exact Std.Refl.refl w
      | false =>
          rw [Eff.raiseIf_false_bind, Eff.bind_pure_state]
          refine hallows.rows fun hsafe => ?_
          exact uninstall_mod_at hallows.toAllowsModFiles hin (hsafe mod hmem) fun w₁ hw₁ => hallows.remove_mod (hw₁ ▸ hmem) hin

theorem elsewhere_route (hplain : PlainAnswers env) (u : User) {route : MiniversesRoute} (habout : route.About id w.db) :
    Elsewhere env id w (route.handle env u w).2 := by
  have hallows {m : Miniverse} (hm : m.id = id) : AllowsMiniverse env (Elsewhere env id) m.id IsName fun _ => True :=
    hm ▸ elsewhere_allows hplain id
  cases route with
  | create_miniverse data => exact habout.elim
  | delete_miniverse miniverse_id => exact habout.elim
  | uninstall_mod mod_id => exact elsewhere_uninstall hplain habout
  | update_mod mod_id new_version_id => exact Std.Refl.refl w
  | list_miniverses => exact within_visibleMiniverses.bind (fun _ => Eff.Within.pure _) w
  | list_all_players =>
      exact within_visibleMiniverses.bind (fun _ =>
        (Eff.Within.mapM fun m _ => within_listPlayers _ m).bind fun _ => Eff.Within.pure _) w
  | list_all_banned_players =>
      exact within_visibleMiniverses.bind (fun _ =>
        (Eff.Within.mapM fun m _ => within_listPlayers _ m).bind fun _ => Eff.Within.pure _) w
  | start_miniverse miniverse_id =>
      exact elsewhere_guarded habout (fun m hm => (within_start_miniverse (hallows hm) trivial).bind fun _ => Eff.Within.pure _) w
  | stop_miniverse miniverse_id =>
      exact elsewhere_guarded habout (fun m hm =>
        (within_stop_object (hallows hm).toAllowsRow.toObject trivial).bind fun _ => Eff.Within.pure _) w
  | restart_miniverse miniverse_id =>
      exact elsewhere_guarded habout (fun m hm => (within_restart_object (hallows hm).toAllowsRow.toObject
        (within_init_data_path (hallows hm).toData) trivial).bind fun _ => Eff.Within.pure _) w
  | update_miniverse miniverse_id data =>
      exact elsewhere_guarded habout (fun m hm =>
        (within_update_miniverse (hallows hm) trivial data).bind fun _ => Eff.Within.pure _) w
  | automatic_install_mod miniverse_id mod_id =>
      exact elsewhere_guarded habout (fun m hm =>
        (within_automatic_mod_install (hallows hm).toAllowsMods _ _ _).bind fun _ => Eff.Within.pure _) w
  | install_mod miniverse_id mod_version_id =>
      exact elsewhere_guarded habout (fun m hm =>
        (within_install_mod (hallows hm).toAllowsMods _).bind fun _ => Eff.Within.pure _) w
  | list_mod_updates miniverse_id =>
      exact elsewhere_guarded habout (fun m _ => (within_list_possible_mod_updates _ _).bind fun _ => Eff.Within.pure _) w
  | list_miniverse_users miniverse_id =>
      exact elsewhere_guarded habout (fun m _ => (within_query _).bind fun _ => Eff.Within.pure _) w
  | set_user_role miniverse_id user_id_or_name role =>
      refine (within_requireRole _ _ _).bind (fun _ => (within_query _).bind fun _ => (Eff.Within.getOr _ _).bind fun user => ?_) w
      refine elsewhere_found habout fun m hm => Eff.Within.bind (within_commit fun w => ?_) fun _ => ?_
      · exact elsewhere_rows (delete_setRole hm w.db) (setRole_mods w.db _)
      · exact (within_publish _ _ _).bind fun _ => Eff.Within.pure _
  | set_operator miniverse_id player_id value => exact within_management _ _ _ w
  | kick_player miniverse_id player_id reason => exact within_management _ _ _ w
  | ban_player miniverse_id player_id reason => exact within_management _ _ _ w
  | unban_player miniverse_id player_id => exact within_management _ _ _ w

/-! ## Files -/

theorem elsewhere_service {γ : Type} {service : Uuid4 → Fs α β} {answer : β → γ}
    (hservice : ∀ i, i = id → (service i).Within (Disk.SameOff (TouchedPlace env id))) {miniverse_id : String}
    (hid : miniverse_id = id.str) (action : String) : (withFiles u miniverse_id action fun id => do
      return answer (← onDisk (service id))).Within (Elsewhere env id) :=
  elsewhere_guarded hid fun m hm => (elsewhere_onDisk (hservice m.id hm)).bind fun _ => Eff.Within.pure _

theorem elsewhere_files (server : FilesServer env.toPlatform) (u : User) {route : FilesRoute} (habout : route.About id) :
    (route.handle server u).Within (Elsewhere env id) := by
  have hplace (q : Loc) (hq : get_miniverse_path env.toPlatform id <+: q ∨ q <+: get_miniverse_path env.toPlatform id) :
      TouchedPlace env id q := hq.imp_right Or.inl
  cases route with
  | confirm_upload data => exact habout.elim
  | list_miniverse_files miniverse_id path =>
      rw [FilesRoute.handle]
      exact elsewhere_guarded habout fun m _ => (Eff.Within.read _).bind fun times =>
        (elsewhere_onDisk (within_list times m.id path)).bind fun _ => Eff.Within.pure _
  | delete_miniverse_files miniverse_id paths =>
      rw [FilesRoute.handle]
      exact elsewhere_service (fun i hi => sameOff_delete (hi ▸ hplace) paths) habout _
  | copy_miniverse_files miniverse_id paths destination =>
      rw [FilesRoute.handle]
      exact elsewhere_service (fun i hi => sameOff_copy (hi ▸ hplace) paths destination) habout _
  | download_files miniverse_id paths =>
      rw [FilesRoute.handle]
      exact elsewhere_service (fun i _ => (within_download _ i paths).bind fun _ => Disk.within_look _) habout _
  | extract_miniverse_archive miniverse_id path =>
      rw [FilesRoute.handle]
      exact elsewhere_service (fun i hi => sameOff_extract (hi ▸ hplace) path) habout _
  | compress_miniverse_files miniverse_id paths =>
      rw [FilesRoute.handle]
      exact elsewhere_service (fun i hi => sameOff_compress (hi ▸ hplace) paths) habout _
  | rename_miniverse_file miniverse_id path new_name =>
      rw [FilesRoute.handle]
      exact elsewhere_service (fun i hi => sameOff_rename_file (hi ▸ hplace) path new_name) habout _
  | get_file_content miniverse_id path =>
      rw [FilesRoute.handle]
      exact elsewhere_service (fun i _ => within_content i path) habout _
  | set_file_content miniverse_id path data =>
      rcases hdata : readContent data with e | content
      · rw [set_content_refused server u miniverse_id path hdata]
        exact (within_requireRole _ _ _).bind fun _ => (within_query _).bind fun _ => Eff.Within.raise _
      · rw [set_content_behind_guard server u miniverse_id path hdata]
        exact elsewhere_service (fun i hi => sameOff_set_content (hi ▸ hplace) path content) habout _

/-! ## All requests -/

/-- A request about the miniverse, next to the open sessions. -/
theorem elsewhere_request (hplain : PlainAnswers env) (sur : Surroundings env.toPlatform) (u : User) {r : ServiceRequest} {l : Live α}
    (habout : r.About id l.world.db) : Elsewhere env id l.world (r.handle sur u l).2.world := by
  cases r with
  | miniverses route =>
      show Elsewhere env id l.world ((_ >>= fun reply => pure (ServiceReply.miniverses reply) : Act α _) l.world).2
      rw [Eff.bind_pure_state]
      exact elsewhere_route hplain u habout
  | files route =>
      show Elsewhere env id l.world ((_ >>= fun reply => pure (ServiceReply.files reply) : Act α _) l.world).2
      rw [Eff.bind_pure_state]
      exact elsewhere_files sur.toFilesServer u habout l.world
  | open_updates =>
      refine ((within_updates_handler (R := Elsewhere env id) sur u.id).zoom (Q := fun l l' : Live α => Elsewhere env id l.world l'.world)
        fun _ _ h => h).bind (fun data => ?_) l
      exact Eff.Within.bind (Eff.Within.modify fun l => Std.Refl.refl l.world) fun _ => Eff.Within.pure _
  | next_event session => exact Std.Refl.refl l.world
  | receive_text session => exact Std.Refl.refl l.world
  | open_logs miniverse_id chunks inputs =>
      exact within_logs (R := Elsewhere env id) (fun _ _ h => ⟨h, rfl, rfl, fun _ _ => rfl⟩) sur.logs miniverse_id chunks inputs l.world

end Backend
