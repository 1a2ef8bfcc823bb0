import Miniverse.Api.Lemmas.ModUpdates
import Miniverse.Api.Lemmas.Overviews
import Miniverse.Api.Lemmas.Registry
import Miniverse.Calls.Service

/-!
# Theorems about runs of requests
-/

namespace Backend

open Lib

variable {α : Type} {env : Env α}

/-! ## The registry -/

/-- After a run without an interrupted request every row has a controller, and the startup gives every row one. -/
theorem registry_covers_rows (hversions : VersionsAnswered env) {w : World α} (hempty : w.db.miniverses = [])
    {rs : List MiniversesRequest} (hmeets : Meets (MiniversesRequest.handle env) (Uninterrupted env) rs w) :
    (∀ m ∈ (runs (MiniversesRequest.handle env) rs w).db.miniverses,
        ∃ c, (runs (MiniversesRequest.handle env) rs w).service m.id.str = some (m.id, c)) ∧
      ∀ n, ∃ w', miniverse_controller_manager_startup env
          { runs (MiniversesRequest.handle env) rs w with controllers := [], tick := n } = (.ok (), w') ∧
        ∀ m ∈ (runs (MiniversesRequest.handle env) rs w).db.miniverses, ∃ c, w'.service m.id.str = some (m.id, c) := by
  have hstart : Covered w := ⟨by simp [hempty], by simp [hempty]⟩
  have hcov : Covered (runs (MiniversesRequest.handle env) rs w) :=
    runs_invariant (I := Covered) (fun _ _ h hcov => request_covered hversions hcov h) hmeets hstart
  refine ⟨fun m hm => service_of_registered (hcov.registered m hm), fun n => ?_⟩
  obtain ⟨w', hrun, hall⟩ := startup_registers hversions
    (w := { runs (MiniversesRequest.handle env) rs w with controllers := [], tick := n }) hcov.parses
  exact ⟨w', hrun, fun m hm => service_of_registered (hall m hm)⟩

/-- A moderator creates a miniverse with a version that can be compared. -/
theorem registry_covers_sample :
    (∀ m ∈ (runs (MiniversesRequest.handle sampleEnv) [⟨sampleModerator, .create_miniverse (sampleCreate "1.21.8")⟩]
          sampleWorld).db.miniverses,
        ∃ c, (runs (MiniversesRequest.handle sampleEnv) [⟨sampleModerator, .create_miniverse (sampleCreate "1.21.8")⟩]
          sampleWorld).service m.id.str = some (m.id, c)) ∧
      ∀ n, ∃ w', miniverse_controller_manager_startup sampleEnv
          { runs (MiniversesRequest.handle sampleEnv) [⟨sampleModerator, .create_miniverse (sampleCreate "1.21.8")⟩]
              sampleWorld with controllers := [], tick := n } = (.ok (), w') ∧
        ∀ m ∈ (runs (MiniversesRequest.handle sampleEnv) [⟨sampleModerator, .create_miniverse (sampleCreate "1.21.8")⟩]
          sampleWorld).db.miniverses, ∃ c, w'.service m.id.str = some (m.id, c) := by
  refine registry_covers_rows (fun n => ⟨[], rfl, fun v hv => nomatch hv⟩) rfl ⟨fun _ _ => ⟨rfl, ?_, ?_⟩, trivial⟩
  · intro q hq
    have hfiles : ∀ q, sampleWorld.disk.tree.isFile q = false := by
      intro q
      by_contra h
      obtain ⟨x, hx⟩ := FileTree.isFile_iff.mp (by simpa using h)
      have := FileTree.get_eq_some.mp hx
      simp [sampleWorld] at this
    exact hfiles q
  · exact ⟨⟨"1.21.8", .release, .old, 1, 21, 8, .number 0, none⟩, by decide⟩

set_option maxRecDepth 10000 in
/-- A version that the parser does not accept: the row is written before the controller fails. -/
theorem registry_misses_row :
    ∃ m ∈ (runs (MiniversesRequest.handle sampleEnv) [⟨sampleModerator, .create_miniverse (sampleCreate "newest")⟩]
        sampleWorld).db.miniverses,
      (runs (MiniversesRequest.handle sampleEnv) [⟨sampleModerator, .create_miniverse (sampleCreate "newest")⟩]
        sampleWorld).service m.id.str = none := by
  decide

/-! ## Overviews -/

/-- The miniverses in which the user has a role. -/
def World.visible (w : World α) (current_user : User) : List Miniverse :=
  w.db.miniverses.filter fun m => decide (Role.user ≤ w.db.get_miniverse_role current_user.id m.id.str)

/-- The route ends normally, with one entry for each miniverse in which the user has a role. -/
def CoversVisible (env : Env α) (w : World α) (current_user : User) (route : MiniversesRoute) : Prop :=
  ∃ entries w', route.handle env current_user w = (.ok (.players entries), w') ∧
    List.Forall₂ (fun (m : Miniverse) (e : Uuid4 × List MSMPPlayer) => e.1 = m.id) (w.visible current_user) entries

/-- What a route with a list answers is what its loop collects. -/
theorem coversVisible_iff {w : World α} {current_user : User} {route : MiniversesRoute} {banned : Bool}
    (hroute : route.handle env current_user =
      (do return .players (← (← visibleMiniverses current_user).mapM (listPlayers env banned)))) :
    CoversVisible env w current_user route ↔ ∃ es w', (w.visible current_user).mapM (listPlayers env banned) w = (.ok es, w') ∧
      List.Forall₂ (fun m e => e.1 = m.id) (w.visible current_user) es := by
  have hvisible : visibleMiniverses current_user w = (.ok (w.visible current_user), w) := rfl
  rw [CoversVisible, hroute, Eff.bind_run_ok hvisible]
  constructor
  · rintro ⟨es, w', h, hall⟩
    obtain ⟨es', w'', hloop, hlast⟩ := Eff.bind_ok h
    cases hlast
    exact ⟨es, w', hloop, hall⟩
  · rintro ⟨es, w', hloop, hall⟩
    exact ⟨es, w', by rw [Eff.bind_run_ok hloop]; rfl, hall⟩

/-- Both overviews cover what the user sees exactly when the router is not in charge of a started miniverse of these. -/
theorem overviews_cover_iff {w : World α} {current_user : User} (hplayers : ∀ n id, ∃ players, env.player_list n id = .ok players)
    (hregistered : ∀ m ∈ w.db.miniverses, ∃ c, (w.service m.id.str).map Prod.snd = some c) :
    CoversVisible env w current_user .list_all_players ∧ CoversVisible env w current_user .list_all_banned_players ↔
      ∀ m ∈ w.visible current_user, m.started = true → ∀ online_players,
        (w.service m.id.str).map Prod.snd ≠ some (.mcRouter online_players) := by
  have hvisible : ∀ m ∈ w.visible current_user, ∃ c, (w.service m.id.str).map Prod.snd = some c := fun m hm =>
    hregistered m (List.mem_of_mem_filter hm)
  rw [coversVisible_iff rfl, coversVisible_iff rfl, listPlayers_all_iff hplayers hvisible, listPlayers_all_iff hplayers hvisible]
  constructor
  · exact fun h m hm hstarted => h.2 m hm hstarted rfl
  · exact fun h => ⟨fun _ _ _ hbanned => absurd hbanned Bool.false_ne_true, fun m hm hstarted _ => h m hm hstarted⟩

/-- A started miniverse of the moderator, with a controller of the router. -/
def sampleOverview : World String :=
  { sampleWorld with
    db := ⟨[sampleModerator], [{ (sampleCreate "1.8").toMiniverse sampleId "sample" "secret" with started := true }],
      [⟨"moderator", sampleId, .admin⟩], [], sampleWeight⟩
    controllers := [(sampleId, .mcRouter [])] }

theorem overviews_cover_sample :
    CoversVisible sampleEnv sampleOverview sampleModerator .list_all_players ∧
        CoversVisible sampleEnv sampleOverview sampleModerator .list_all_banned_players ↔
      ∀ m ∈ sampleOverview.visible sampleModerator, m.started = true → ∀ online_players,
        (sampleOverview.service m.id.str).map Prod.snd ≠ some (.mcRouter online_players) := by
  refine overviews_cover_iff (fun _ _ => ⟨[], rfl⟩) fun m hm => ⟨.mcRouter [], ?_⟩
  rw [List.mem_singleton.mp hm]
  decide

/-- The router's controller has no list of bans. -/
theorem overview_fails :
    ¬ ∀ (env : Env String) (w : World String) (current_user : User), (∀ n id, ∃ players, env.player_list n id = .ok players) →
      (∀ m ∈ w.db.miniverses, ∃ c, (w.service m.id.str).map Prod.snd = some c) →
      CoversVisible env w current_user .list_all_players ∧ CoversVisible env w current_user .list_all_banned_players := by
  intro h
  have hregistered : ∀ m ∈ sampleOverview.db.miniverses, ∃ c, (sampleOverview.service m.id.str).map Prod.snd = some c := by
    intro m hm
    rw [List.mem_singleton.mp hm]
    exact ⟨.mcRouter [], by decide⟩
  obtain ⟨_, _, hrun, _⟩ := (h sampleEnv sampleOverview sampleModerator (fun _ _ => ⟨[], rfl⟩) hregistered).2
  have herror : (MiniversesRoute.list_all_banned_players.handle sampleEnv sampleModerator sampleOverview).1.isOk = false := by
    decide
  rw [hrun] at herror
  cases herror

/-! ## Updating a mod -/

def Database.modWithId (db : Database) (mod_id : String) : Option Mod := db.mods.find? fun r => decide (r.id.str = mod_id)

/-- A handler of updates answers as the route that installs a version does. -/
structure UpdateAgrees (env : Env α) (w : World α) (current_user : User) (mod_id new_version_id : String)
    (update : Act α Reply) : Prop where
  missing : (∃ detail, (update w).1 = .error (.notFound detail)) ↔ w.db.modWithId mod_id = none
  refused : ∀ mod, w.db.modWithId mod_id = some mod → ((∃ detail, (update w).1 = .error (.notAuthorized detail)) ↔
    w.db.get_miniverse_role current_user.id mod.miniverse_id.str < .moderator)
  updated : ∀ mod, w.db.modWithId mod_id = some mod →
    ¬ w.db.get_miniverse_role current_user.id mod.miniverse_id.str < .moderator → ∃ row w₁ w₂,
      update w = (.ok (.mod row), w₁) ∧
      (MiniversesRoute.install_mod mod.miniverse_id.str new_version_id).handle env current_user w = (.ok (.mod row), w₂) ∧
      w₁.db.mods = w₂.db.mods ∧
      ∀ q, mods_path env mod.miniverse_id <+: q → w₁.disk.tree.get q = w₂.disk.tree.get q

/-- The version is one of the mod's own project, of which the miniverse has one row, and everything that an update asks for
is answered. -/
structure UpdateAnswered (env : Env α) (w : World α) (mod : Mod) (new_version_id : String) : Prop where
  project : ∃ version project, env.get_version_details w.tick new_version_id = .ok version ∧
    env.get_project_details (w.tick + 1) version.project_id = .ok project ∧
    ((w.db.modsOf mod.miniverse_id).find? fun r => decide (r.project_id = some project.id)) = some mod
  miniverse : ∃ m, w.db.findMiniverse mod.miniverse_id.str = some m ∧ m.id = mod.miniverse_id
  succeeds : Succeeds (update_mod env mod new_version_id) w

/-- The route never does what the other one does: what it has for a mod is no row. -/
theorem update_never_agrees (env : Env α) (w : World α) (current_user : User) (mod_id new_version_id : String) :
    ¬ UpdateAgrees env w current_user mod_id new_version_id
      ((MiniversesRoute.update_mod mod_id new_version_id).handle env current_user) := by
  intro h
  have hraises : (MiniversesRoute.update_mod mod_id new_version_id).handle env current_user w = (.error .attributeError, w) := rfl
  cases hmod : w.db.modWithId mod_id with
  | none =>
      obtain ⟨detail, herror⟩ := h.missing.mpr hmod
      rw [hraises] at herror
      cases herror
  | some mod =>
      by_cases hrole : w.db.get_miniverse_role current_user.id mod.miniverse_id.str < .moderator
      · obtain ⟨detail, herror⟩ := (h.refused mod hmod).mpr hrole
        rw [hraises] at herror
        cases herror
      · obtain ⟨row, w₁, _, hrun, _⟩ := h.updated mod hmod hrole
        rw [hraises] at hrun
        cases hrun

/-- There is no such mod, and the answer is an internal error. -/
theorem update_disagrees :
    ¬ ∀ (env : Env String) (w : World String) (current_user : User) (mod_id new_version_id : String), Steady env →
      (∀ mod, w.db.modWithId mod_id = some mod → UpdateAnswered env w mod new_version_id) →
      UpdateAgrees env w current_user mod_id new_version_id
        ((MiniversesRoute.update_mod mod_id new_version_id).handle env current_user) := by
  intro h
  have hsteady : Steady sampleEnv := ⟨fun _ _ => rfl, fun _ _ _ => rfl, fun _ _ _ => rfl, fun _ _ _ => rfl⟩
  have hnone : sampleWorld.db.modWithId "mod" = none := rfl
  have hagrees := h sampleEnv sampleWorld sampleModerator "mod" "version" hsteady fun mod hmod => by
    rw [hnone] at hmod
    cases hmod
  obtain ⟨detail, herror⟩ := hagrees.missing.mpr hnone
  cases herror

/-- With an awaited look-up, as for an uninstallation, the routes agree. -/
theorem update_agrees_awaited {w : World α} {current_user : User} {mod_id new_version_id : String} (hsteady : Steady env)
    (hanswered : ∀ mod, w.db.modWithId mod_id = some mod → UpdateAnswered env w mod new_version_id) :
    UpdateAgrees env w current_user mod_id new_version_id
      (MiniversesRoute.update_mod_awaited env current_user mod_id new_version_id) := by
  have hget : get_mod mod_id w = (.ok ((w.db.modWithId mod_id).elim .none .mod), w) := rfl
  cases hmod : w.db.modWithId mod_id with
  | none =>
      have hrun : (MiniversesRoute.update_mod_awaited env current_user mod_id new_version_id w).1 =
          .error (.notFound "Mod not found in this miniverse") := by
        rw [MiniversesRoute.update_mod_awaited, Eff.bind_run_ok hget, hmod]
        rfl
      refine ⟨iff_of_true ⟨_, hrun⟩ hmod, fun mod hsome => ?_, fun mod hsome => ?_⟩ <;> rw [hmod] at hsome <;> cases hsome
  | some mod =>
      have hrun : MiniversesRoute.update_mod_awaited env current_user mod_id new_version_id w =
          (requireRole current_user mod.miniverse_id.str .moderator "You are not authorized to update mods in this miniverse" >>=
            fun _ => update_mod env mod new_version_id >>= fun row => pure (.mod row)) w := by
        rw [MiniversesRoute.update_mod_awaited, Eff.bind_run_ok hget, hmod]
        rfl
      have hfound : w.db.modWithId mod_id ≠ none := hmod ▸ Option.some_ne_none mod
      by_cases hrole : w.db.get_miniverse_role current_user.id mod.miniverse_id.str < .moderator
      · rw [Eff.bind_run_error (requireRole_refused hrole)] at hrun
        refine ⟨iff_of_false ?_ hfound, fun mod' hmod' => ?_, fun mod' hmod' hpassed => ?_⟩
        · rintro ⟨_, herror⟩
          rw [hrun] at herror
          cases herror
        · obtain rfl := Option.some.inj (hmod.symm.trans hmod')
          exact iff_of_true ⟨_, congrArg Prod.fst hrun⟩ hrole
        · obtain rfl := Option.some.inj (hmod.symm.trans hmod')
          exact absurd hrole hpassed
      · obtain ⟨⟨version, project, hversion, hproject, hown⟩, ⟨m, hm, hid⟩, row, w₁, hupdate⟩ := hanswered mod hmod
        rw [Eff.bind_run_ok (requireRole_passed hrole), Eff.bind_run_ok hupdate] at hrun
        refine ⟨iff_of_false ?_ hfound, fun mod' hmod' => ?_, fun mod' hmod' _ => ?_⟩
        · rintro ⟨_, herror⟩
          rw [hrun] at herror
          cases herror
        · obtain rfl := Option.some.inj (hmod.symm.trans hmod')
          refine iff_of_false ?_ hrole
          rintro ⟨_, herror⟩
          rw [hrun] at herror
          cases herror
        · obtain rfl := Option.some.inj (hmod.symm.trans hmod')
          obtain ⟨hrow, hsame⟩ := alike_update_mod hsteady mod new_version_id w w.next.next rfl
          rw [hupdate] at hrow hsame
          have hinstall : install_mod env new_version_id m.id w =
              (.ok row, (update_mod env mod new_version_id w.next.next).2) := by
            rw [hid, install_mod_found hversion hproject hown]
            exact Prod.ext hrow.symm rfl
          have hlook : getMiniverse mod.miniverse_id.str .attributeError w = (.ok m, w) := by
            rw [getMiniverse, query, Eff.read_bind_run, hm]
            rfl
          refine ⟨row, w₁, _, hrun, ?_, congrArg Database.mods hsame.db, fun q _ => ?_⟩
          · rw [MiniversesRoute.handle, Eff.bind_run_ok (requireRole_passed hrole), Eff.bind_run_ok hlook, Eff.bind_run_ok hinstall]
            rfl
          · rw [hsame.disk]

end Backend
