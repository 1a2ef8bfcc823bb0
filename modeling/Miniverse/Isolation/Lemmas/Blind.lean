import Miniverse.Files.Lemmas.Veil
import Miniverse.Isolation.Lemmas.Frame

/-!
# What is done without looking at contents

The functions on miniverses and mods make files and look which there are. On two states that differ only in contents they do the
same.
-/

namespace Backend

open Lib

variable {α β : Type} {env : Env α} {root : Loc}

/-- The states differ only in the contents of files at and below a location. -/
def World.Veiled (root : Loc) (w w' : World α) : Prop :=
  w' = { w with disk := w'.disk } ∧ Disk.Veiled root w.disk w'.disk

/-- The computation gives the same, and leaves such states, whatever the contents are. -/
abbrev Blind (root : Loc) (m : Act α β) : Prop := m.Alike (World.Veiled root)

/-! ## Steps -/

theorem blind_read {f : World α → β} (hf : ∀ w d, f { w with disk := d } = f w) : Blind root (Eff.read f) :=
  Eff.Alike.read fun w w' h => (hf w w'.disk).symm.trans (congrArg f h.1.symm)

theorem blind_modify {f : World α → World α} (hf : ∀ w d, f { w with disk := d } = { f w with disk := d }) :
    Blind root (Eff.modify f) := by
  have hdisk (w : World α) : (f w).disk = w.disk := by
    have h := congrArg World.disk (hf w w.disk)
    exact h
  refine Eff.Alike.modify fun w w' h => ⟨?_, ?_⟩
  · have heq : f w' = { f w with disk := w'.disk } := (congrArg f h.1).trans (hf w w'.disk)
    rw [heq]
  · rw [hdisk, hdisk]
    exact h.2

theorem blind_ask (answer : Nat → Except PyError β) : Blind root (ask answer : Act α β) := by
  rintro w w' ⟨heq, hdisk⟩
  rw [heq]
  exact ⟨rfl, rfl, hdisk⟩

theorem blind_query (f : Database → β) : Blind root (query f : Act α β) := blind_read fun _ _ => rfl

theorem blind_onDisk {m : Fs α β} (h : m.Alike (Disk.Veiled root)) : Blind root (onDisk m) := by
  refine Eff.Alike.zoom h (fun _ _ h => h.2) fun w w' d d' hw hd => ⟨?_, hd⟩
  rw [hw.1]

theorem blind_commit (f : Database → Database) : Blind root (commit env f) :=
  (blind_ask _).bind fun _ => blind_modify fun _ _ => rfl

theorem blind_publish (type : EventType) (miniverse_id : String) (ids : Option (List String)) :
    Blind root (publish type miniverse_id ids : Act α Unit) := blind_modify fun _ _ => rfl

/-! ## Containers -/

theorem blind_getContainer (container_id : String) : Blind root (getContainer env container_id) :=
  (blind_ask _).bind fun _ => (blind_read fun _ _ => rfl).bind fun _ => Eff.Alike.getOr _ _

theorem blind_get_container_by_name (name : String) : Blind root (get_container_by_name env name) :=
  ((blind_ask _).bind fun _ => blind_read fun _ _ => rfl).attempt fun _ => Eff.Alike.pure _

theorem blind_create_container (name image : String) (environment : List (String × String)) :
    Blind root (create_container env name image environment) := by
  refine (blind_ask _).bind fun _ => (blind_read fun _ _ => rfl).bind fun _ => (Eff.Alike.raiseIf _ _).bind fun _ => ?_
  exact (blind_ask _).bind fun _ => (blind_modify fun _ _ => rfl).bind fun _ => Eff.Alike.pure _

/-- A call about one container, and what it changes besides the files. -/
theorem blind_container_call {change : Container → World α → World α}
    (h : ∀ c w d, change c { w with disk := d } = { change c w with disk := d }) (container_id : String) :
    Blind root (do
      let container ← getContainer env container_id
      ask env.docker
      Eff.modify (change container) : Act α Unit) :=
  (blind_getContainer _).bind fun c => (blind_ask _).bind fun _ => blind_modify (h c)

theorem blind_start_container (container_id : String) : Blind root (start_container env container_id) :=
  blind_container_call (fun _ _ _ => rfl) container_id

theorem blind_stop_container (container_id : String) : Blind root (stop_container env container_id) :=
  blind_container_call (fun _ _ _ => rfl) container_id

theorem blind_send_command (container_id command : String) : Blind root (send_command_to_container env container_id command) :=
  blind_container_call (fun _ _ _ => rfl) container_id

theorem blind_ignoreNotFound {m : Act α Unit} (h : Blind root m) : Blind root (ignoreNotFound m) :=
  h.attempt fun _ => (Eff.Alike.pure _).ite (Eff.Alike.raise _)

theorem blind_remove_container (container_id : String) : Blind root (remove_container env container_id) :=
  blind_ignoreNotFound (blind_container_call (fun _ _ _ => rfl) container_id)

theorem blind_kill_container (container_id : String) : Blind root (kill_container env container_id) :=
  blind_ignoreNotFound ((blind_getContainer _).bind fun _ => blind_ask _)

theorem blind_update_proxy_config : Blind root (update_proxy_config env) := by
  refine (blind_query _).bind fun _ => (blind_onDisk (Disk.veiled_mkdirs _)).bind fun _ => ?_
  refine (blind_onDisk (Disk.veiled_write _ _)).bind fun _ => (blind_get_container_by_name _).bind fun _ => ?_
  exact (Eff.Alike.pure _).elim fun _ => blind_kill_container _

/-! ## Controllers -/

theorem blind_get_miniverse_controller (miniverse_id : String) :
    Blind root (get_miniverse_controller miniverse_id : Act α (Option Controller)) := blind_read fun _ _ => rfl

theorem blind_setController (id : Uuid4) (c : Controller) : Blind root (Eff.modify (World.setController id c) : Act α Unit) :=
  blind_modify fun _ _ => rfl

theorem blind_controller_stop (id : Uuid4) (c : Controller) : Blind root (c.stop env id) := by
  cases c with
  | webSocket => exact (blind_ask _).bind fun _ => Eff.Alike.pure _
  | mcRouter => exact Eff.Alike.pure _

theorem blind_startController (id : Uuid4) : Blind root (startController id : Act α Unit) :=
  (blind_get_miniverse_controller _).bind fun _ => (Eff.Alike.getOr _ _).bind fun _ => blind_setController _ _

theorem blind_stopController (id : Uuid4) : Blind root (stopController env id) :=
  (blind_get_miniverse_controller _).bind fun _ => (Eff.Alike.getOr _ _).bind fun c =>
    (blind_controller_stop id c).bind fun _ => blind_setController _ _

theorem blind_add_miniverse (m : Miniverse) : Blind root (add_miniverse env m) := by
  refine (blind_get_miniverse_controller _).bind fun existing => ?_
  cases existing with
  | some c => exact blind_setController _ _
  | none => exact (blind_ask _).bind fun _ => blind_modify fun _ _ => rfl

theorem blind_remove_miniverse (id : Uuid4) : Blind root (remove_miniverse env id) := by
  refine (blind_get_miniverse_controller _).bind fun control => Eff.Alike.bind (blind_modify fun _ _ => rfl) fun _ => ?_
  exact (Eff.Alike.pure _).elim fun c => (blind_controller_stop id c).bind fun _ => Eff.Alike.pure _

/-! ## Mods -/

theorem blind_download_mod_file (project : ModrinthProject) (version : ModrinthProjectVersion) (id : Uuid4) :
    Blind root (download_mod_file env project version id) := by
  refine (Eff.Alike.getOr _ _).bind fun file => (Eff.Alike.raiseIf _ _).bind fun _ => ?_
  refine (blind_onDisk (Disk.veiled_mkdirs _)).bind fun _ => (blind_ask _).bind fun content => ?_
  exact (blind_onDisk (Fs.veiled_writePath _ _ _)).bind fun _ => Eff.Alike.pure _

theorem blind_delete_mod_file (mod : Mod) : Blind root (delete_mod_file env mod) := by
  refine blind_onDisk ((Disk.veiled_look fun t t' h => ?_).bind fun _ => (Fs.veiled_unlinkPath _ _).when)
  rw [FileTree.locate_veiled h, show t.isFile = t'.isFile from funext fun p => FileTree.isFile_veiled h p]

theorem blind_update_mod (mod : Mod) (new_version_id : String) : Blind root (update_mod env mod new_version_id) := by
  refine (blind_ask _).bind fun version => (blind_ask _).bind fun project => (blind_delete_mod_file mod).bind fun _ => ?_
  refine (blind_download_mod_file project version _).bind fun name => (blind_commit _).bind fun _ => ?_
  exact (blind_publish _ _ _).bind fun _ => Eff.Alike.pure _

theorem blind_addMod (mod : Mod) : Blind root (addMod env mod) :=
  (blind_query _).bind fun _ => (Eff.Alike.raiseIf _ _).bind fun _ => blind_commit _

theorem blind_install_new_mod (project : ModrinthProject) (version : ModrinthProjectVersion) (id : Uuid4) :
    Blind root (install_new_mod env project version id) :=
  (blind_download_mod_file project version id).bind fun _ => (blind_ask _).bind fun _ => (blind_addMod _).bind fun _ =>
    (blind_publish _ _ _).bind fun _ => Eff.Alike.pure _

theorem blind_install_mod (mod_version_id : String) (id : Uuid4) : Blind root (install_mod env mod_version_id id) :=
  (blind_ask _).bind fun version => (blind_ask _).bind fun project => (blind_query _).bind fun _ =>
    (blind_install_new_mod project version id).elim fun mod => blind_update_mod mod mod_version_id

theorem blind_list_project_versions (project_id : String) (loader : MiniverseType) (mc_version : Option String) :
    Blind root (list_project_versions env project_id loader mc_version) := blind_ask _

theorem blind_installable_versions (mod_id : String) (m : Miniverse) (retry_with_latest : Bool) :
    Blind root (installable_versions env mod_id m retry_with_latest) := by
  refine (blind_list_project_versions _ _ _).bind fun versions => Eff.Alike.ite ?_ (Eff.Alike.pure _)
  refine Eff.Alike.bind ((blind_list_project_versions _ _ _).ite (Eff.Alike.pure _)) fun _ => ?_
  exact (Eff.Alike.raiseIf _ _).bind fun _ => Eff.Alike.pure _

theorem blind_automatic_mod_install (mod_id : String) (m : Miniverse) (prioritize_release retry_with_latest : Bool) :
    Blind root (automatic_mod_install env mod_id m prioritize_release retry_with_latest) :=
  (blind_installable_versions _ _ _).bind fun _ => (Eff.Alike.ofExcept _).bind fun _ => (Eff.Alike.getOr _ _).bind fun _ =>
    blind_install_mod _ _

theorem blind_uninstall_mod (mod : Mod) : Blind root (uninstall_mod env mod) :=
  (blind_delete_mod_file mod).bind fun _ => (blind_commit _).bind fun _ => blind_publish _ _ _

theorem blind_check_mod (loader : MiniverseType) (game_version : String) (mod : Mod) :
    Blind root (check_mod env loader game_version mod) := by
  refine (blind_list_project_versions _ _ _).bind fun versions => ?_
  refine Eff.Alike.bind ((blind_list_project_versions _ _ _).ite (Eff.Alike.pure _)) fun versions => ?_
  exact (Eff.Alike.pure _).ite ((Eff.Alike.ofExcept _).bind fun _ => Eff.Alike.pure _)

theorem blind_list_possible_mod_updates (m : Miniverse) (game_version : String) :
    Blind root (list_possible_mod_updates env m game_version) := by
  refine (blind_query _).bind fun mods => Eff.Alike.mapM fun mod _ => ?_
  exact ((blind_check_mod _ _ _).attempt fun _ => Eff.Alike.pure _).bind fun _ => Eff.Alike.pure _

/-! ## Miniverses -/

theorem blind_create_miniverse_container (m : Miniverse) : Blind root (create_miniverse_container env m) :=
  (blind_create_container _ _ _).bind fun _ => (blind_commit _).bind fun _ => Eff.Alike.pure _

theorem blind_init_proxy_mods (m : Miniverse) (prioritize_release : Bool) : Blind root (init_proxy_mods env m prioritize_release) := by
  have hinstall := @blind_automatic_mod_install α env root
  refine (blind_onDisk (Disk.veiled_mkdirs _)).bind fun _ => ?_
  cases m.type with
  | fabric =>
      exact (hinstall _ _ _ _).bind fun _ => (hinstall _ _ _ _).bind fun _ => blind_onDisk (Disk.veiled_write _ _)
  | neo_forge => exact (hinstall _ _ _ _).bind fun _ => blind_onDisk (Disk.veiled_write _ _)
  | forge => exact (hinstall _ _ _ _).bind fun _ => blind_onDisk (Disk.veiled_write _ _)
  | vanilla => exact Eff.Alike.pure _
  | paper => exact Eff.Alike.pure _

theorem blind_init_data_path (m : Miniverse) : Blind root (init_data_path env m) := by
  refine (Eff.Alike.ofExcept _).bind fun _ => Eff.Alike.bind (blind_onDisk ?_) fun _ => (blind_init_proxy_mods m _).when
  exact (Disk.veiled_look fun _ _ h => FileTree.exists_veiled h _).bind fun _ => (Disk.veiled_write _ _).when

theorem blind_start_miniverse (m : Miniverse) : Blind root (start_miniverse env m) := by
  refine (blind_init_data_path m).bind fun _ => (blind_commit _).bind fun _ => (blind_get_container_by_name _).bind fun existing => ?_
  cases existing with
  | some c => exact (blind_commit _).bind fun _ => (blind_start_container _).bind fun _ => Eff.Alike.pure _
  | none =>
      refine (blind_create_miniverse_container _).bind fun r => (blind_start_container _).bind fun _ => ?_
      exact (blind_startController _).bind fun _ => (blind_publish _ _ _).bind fun _ => Eff.Alike.pure _

theorem blind_stop_miniverse (m : Miniverse) : Blind root (stop_miniverse env m) := by
  refine Eff.Alike.bind (Eff.Alike.bind ?_ fun _ => ?_) fun _ => (blind_stopController _).bind fun _ => ?_
  · exact ((blind_get_container_by_name _).bind fun _ => Eff.Alike.pure _).when
  · exact (Eff.Alike.pure _).elim fun _ => blind_ignoreNotFound (blind_stop_container _)
  · exact (blind_commit _).bind fun _ => (blind_publish _ _ _).bind fun _ => Eff.Alike.pure _

theorem blind_restart_miniverse (m : Miniverse) : Blind root (restart_miniverse env m) :=
  (blind_stop_miniverse m).bind fun m => blind_start_miniverse m

theorem blind_create_miniverse (data : MiniverseCreate) (creator : User) : Blind root (create_miniverse env data creator) := by
  refine (blind_ask _).bind fun id => (blind_ask _).bind fun secret => (Eff.Alike.getOr _ _).bind fun subdomain => ?_
  refine Eff.Alike.bind ((blind_query _).bind fun _ => (Eff.Alike.raiseIf _ _).bind fun _ => blind_commit _) fun _ => ?_
  refine (blind_commit _).bind fun _ => (blind_onDisk (Disk.veiled_mkdirs _)).bind fun _ => (blind_add_miniverse _).bind fun _ => ?_
  refine (blind_start_miniverse _).bind fun r => blind_update_proxy_config.bind fun _ => (blind_query _).bind fun _ => ?_
  exact (blind_publish _ _ _).bind fun _ => Eff.Alike.pure _

theorem blind_remove_volume (id : Uuid4) : Blind root (remove_volume env id) :=
  blind_onDisk ((Disk.veiled_look fun _ _ h => FileTree.isDir_veiled h _).bind fun _ => (Disk.veiled_rmtree _).when)

theorem blind_delete_miniverse (m : Miniverse) : Blind root (delete_miniverse env m) := by
  refine (blind_remove_miniverse _).bind fun _ => ((Eff.Alike.pure _).elim fun _ => blind_remove_container _).bind fun _ => ?_
  refine (blind_remove_volume _).bind fun _ => (blind_query _).bind fun _ => (blind_commit _).bind fun _ => ?_
  exact (blind_ask _).bind fun _ => blind_update_proxy_config.bind fun _ => blind_publish _ _ _

/-! ## Updates -/

theorem blind_apply_mod_update (updates : List (Uuid4 × ModUpdateInfo)) (mod : Mod) :
    Blind root (apply_mod_update env updates mod) := by
  refine (Eff.Alike.getOr _ _).bind fun _ => Eff.Alike.when ((Eff.Alike.getOr _ _).bind fun _ => ?_)
  exact (blind_update_mod _ _).bind fun _ => Eff.Alike.pure _

theorem blind_prepare_game_version (m : Miniverse) (new_mc_version : String) (force_update : Bool) :
    Blind root (prepare_game_version env m new_mc_version force_update) := by
  have hmods : Blind root (update_mods env m new_mc_version force_update) := by
    refine (blind_list_possible_mod_updates _ _).bind fun updates => (Eff.Alike.raiseIf _ _).bind fun _ => ?_
    exact (blind_query _).bind fun mods => Eff.Alike.forM fun mod _ => blind_apply_mod_update updates mod
  refine (Eff.Alike.raiseIf _ _).bind fun _ => (blind_ask _).bind fun _ => (Eff.Alike.getOr _ _).bind fun _ => ?_
  refine (Eff.Alike.raiseIf _ _).bind fun _ => ?_
  cases m.type with
  | vanilla => exact Eff.Alike.pure _
  | paper => exact Eff.Alike.pure _
  | fabric => exact hmods
  | forge => exact hmods
  | neo_forge => exact hmods

theorem blind_update_miniverse_game_version (m : Miniverse) (new_mc_version : String) (force_update : Bool) :
    Blind root (update_miniverse_game_version env m new_mc_version force_update) :=
  (blind_prepare_game_version _ _ _).bind fun _ => (blind_stop_miniverse _).bind fun _ => (blind_commit _).bind fun _ =>
    (blind_start_miniverse _).bind fun _ => Eff.Alike.pure _

theorem blind_checkUnused (field : String) (column : Miniverse → String) (m : Miniverse) (new_value : Option String) :
    Blind root (checkUnused field column m new_value : Act α Unit) := by
  cases new_value with
  | none => exact Eff.Alike.pure _
  | some v => exact (blind_query _).bind fun _ => Eff.Alike.raiseIf _ _

theorem blind_update_miniverse (m : Miniverse) (data : MiniverseUpdate) : Blind root (update_miniverse env m data) := by
  refine (blind_checkUnused _ _ _ _).bind fun _ => (blind_checkUnused _ _ _ _).bind fun _ => (blind_commit _).when.bind fun _ => ?_
  refine ((Eff.Alike.pure _).elim fun v => blind_update_miniverse_game_version _ _ _).bind fun m' => ?_
  refine ((blind_restart_miniverse _).bind fun _ => Eff.Alike.pure _).when.bind fun _ => ?_
  exact blind_update_proxy_config.when.bind fun _ => (blind_publish _ _ _).when.bind fun _ => Eff.Alike.pure _

/-! ## Routes -/

variable {u : User}

theorem blind_requireRole (miniverse_id : String) (role : Role) (detail : String) :
    Blind root (requireRole u miniverse_id role detail : Act α Unit) := (blind_query _).bind fun _ => Eff.Alike.raiseIf _ _

theorem blind_getMiniverse (miniverse_id : String) (missing : PyError) :
    Blind root (getMiniverse miniverse_id missing : Act α Miniverse) := (blind_query _).bind fun _ => Eff.Alike.getOr _ _

/-- Behind a guard and a look-up. -/
theorem blind_guarded {k : Miniverse → Act α β} (hk : ∀ m, Blind root (k m)) (miniverse_id : String) (role : Role) (detail : String)
    (missing : PyError) :
    Blind root (do
      requireRole u miniverse_id role detail
      let m ← getMiniverse miniverse_id missing
      k m : Act α β) :=
  (blind_requireRole _ _ _).bind fun _ => (blind_getMiniverse _ _).bind hk

theorem blind_visibleMiniverses : Blind root (visibleMiniverses u : Act α (List Miniverse)) := blind_query _

theorem blind_listPlayers (banned : Bool) (m : Miniverse) : Blind root (listPlayers env banned m) := by
  refine (Eff.Alike.pure _).ite ((blind_get_miniverse_controller _).bind fun c => ?_)
  rcases c with _ | _ | _
  · exact Eff.Alike.raise _
  · exact (blind_ask _).bind fun _ => Eff.Alike.pure _
  · exact (Eff.Alike.raiseIf _ _).bind fun _ => (blind_ask _).bind fun _ => Eff.Alike.pure _

theorem blind_all_players (banned : Bool) : Blind root (do
    return .players (← (← visibleMiniverses u).mapM (listPlayers env banned)) : Act α Reply) :=
  blind_visibleMiniverses.bind fun _ => (Eff.Alike.mapM fun m _ => blind_listPlayers banned m).bind fun _ => Eff.Alike.pure _

theorem blind_management (miniverse_id detail detail' : String) : Blind root (do
    requireRole u miniverse_id .moderator detail
    callManagement env miniverse_id detail'
    return .empty : Act α Reply) := by
  refine (blind_requireRole _ _ _).bind fun _ => Eff.Alike.bind ?_ fun _ => Eff.Alike.pure _
  refine (blind_getMiniverse _ _).bind fun m => (blind_get_miniverse_controller _).bind fun c => ?_
  rcases c with _ | _ | _
  · exact Eff.Alike.raise _
  · exact (blind_ask _).bind fun _ => Eff.Alike.raiseIf _ _
  · exact Eff.Alike.raise _

/-- The routes of the miniverses do the same whatever the contents of files are. -/
theorem blind_route (u : User) (route : MiniversesRoute) : Blind root (route.handle env u) := by
  cases route with
  | list_miniverses => exact blind_visibleMiniverses.bind fun _ => Eff.Alike.pure _
  | create_miniverse data => exact (Eff.Alike.raiseIf _ _).bind fun _ => (blind_create_miniverse _ _).bind fun _ => Eff.Alike.pure _
  | delete_miniverse miniverse_id =>
      exact blind_guarded (fun m => (blind_delete_miniverse m).bind fun _ => Eff.Alike.pure _) _ _ _ _
  | start_miniverse miniverse_id => exact blind_guarded (fun m => (blind_start_miniverse m).bind fun _ => Eff.Alike.pure _) _ _ _ _
  | stop_miniverse miniverse_id => exact blind_guarded (fun m => (blind_stop_miniverse m).bind fun _ => Eff.Alike.pure _) _ _ _ _
  | restart_miniverse miniverse_id =>
      exact blind_guarded (fun m => (blind_restart_miniverse m).bind fun _ => Eff.Alike.pure _) _ _ _ _
  | update_miniverse miniverse_id data =>
      exact blind_guarded (fun m => (blind_update_miniverse m data).bind fun _ => Eff.Alike.pure _) _ _ _ _
  | automatic_install_mod miniverse_id mod_id =>
      exact blind_guarded (fun m => (blind_automatic_mod_install _ _ _ _).bind fun _ => Eff.Alike.pure _) _ _ _ _
  | install_mod miniverse_id mod_version_id =>
      exact blind_guarded (fun m => (blind_install_mod _ _).bind fun _ => Eff.Alike.pure _) _ _ _ _
  | uninstall_mod mod_id =>
      refine (blind_query _).bind fun _ => (Eff.Alike.getOr _ _).bind fun mod => (blind_requireRole _ _ _).bind fun _ => ?_
      exact (blind_uninstall_mod mod).bind fun _ => Eff.Alike.pure _
  | update_mod mod_id new_version_id => exact Eff.Alike.raise _
  | list_mod_updates miniverse_id =>
      exact blind_guarded (fun m => (blind_list_possible_mod_updates _ _).bind fun _ => Eff.Alike.pure _) _ _ _ _
  | list_miniverse_users miniverse_id =>
      exact blind_guarded (fun m => (blind_query _).bind fun _ => Eff.Alike.pure _) _ _ _ _
  | set_user_role miniverse_id user_id_or_name role =>
      refine (blind_requireRole _ _ _).bind fun _ => (blind_query _).bind fun _ => (Eff.Alike.getOr _ _).bind fun user => ?_
      refine (blind_getMiniverse _ _).bind fun m => (blind_commit _).bind fun _ => (blind_publish _ _ _).bind fun _ => ?_
      exact Eff.Alike.pure _
  | list_all_players => exact blind_all_players false
  | list_all_banned_players => exact blind_all_players true
  | set_operator miniverse_id player_id value => exact blind_management _ _ _
  | kick_player miniverse_id player_id reason => exact blind_management _ _ _
  | ban_player miniverse_id player_id reason => exact blind_management _ _ _
  | unban_player miniverse_id player_id => exact blind_management _ _ _

end Backend
