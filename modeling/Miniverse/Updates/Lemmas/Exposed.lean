import Miniverse.Updates.Lemmas.Refusals

/-!
# Runs of updates that are refused after a commit

Outside the code everything is answered, with a given list of the versions, and Modrinth has no version of any mod.
-/

namespace Backend

open Lib

variable {α : Type} [Inhabited α] {m : Miniverse} {v : String} {w : World α} {data : MiniverseUpdate}
  {all_versions : List MinecraftVersion}

def bareEnv (α : Type) [Inhabited α] (all_versions : List MinecraftVersion) : Env α where
  DATA_PATH := ["srv"]
  data_path_ok := samplePlatform.data_path_ok
  cwd := []
  recursion_limit := 10
  encode _ := (default, true)
  size _ := 0
  zipfile _ := none
  zipstream _ := default
  DOMAIN_NAME := "example.org"
  server_icon := default
  routes_json _ := default
  fabric_proxy_config := default
  forge_proxy_config := default
  uuid4 _ := sampleId
  random_string _ := "secret"
  commit _ := .ok ()
  get_minecraft_versions _ := .ok all_versions
  list_project_versions _ _ _ _ := .ok []
  get_project_details _ _ := .error .httpx
  get_version_details _ _ := .error .httpx
  download _ _ := .error .httpx
  docker _ := .ok ()
  container_id n := n.repr
  player_list _ _ := .ok []
  rpc _ _ := .ok true
  delete_miniverse_cache _ _ := .ok ()

theorem foreign_bareEnv (all_versions : List MinecraftVersion) : Foreign (bareEnv α all_versions) where
  commit _ := .ok _
  get_minecraft_versions _ := .ok _
  list_project_versions _ _ _ _ := .ok _
  get_project_details _ _ := .error nofun
  get_version_details _ _ := .error nofun
  download _ _ := .error nofun
  docker _ := .ok _
  player_list _ _ := .ok _

/-! ## Up to the game version -/

omit [Inhabited α] in
theorem checkUnused_run {field : String} {column : Miniverse → String} {new_value : Option String}
    (h : ∀ v, new_value = some v → column m ≠ v → ∀ r ∈ w.db.miniverses, w.db.weight (column r) ≠ w.db.weight v) :
    (checkUnused field column m new_value : Act α Unit) w = (.ok (), w) := by
  cases new_value with
  | none => rfl
  | some v =>
      rw [checkUnused, query, Eff.read_bind_run]
      have hfree : (decide (column m ≠ v) &&
          w.db.miniverses.any fun r => decide (w.db.weight (column r) = w.db.weight v)) = false := by
        by_cases hne : column m ≠ v
        · rw [Bool.and_eq_false_iff]
          exact Or.inr (List.any_eq_false.mpr fun r hr => by simpa using h v rfl hne r hr)
        · rw [decide_eq_false hne, Bool.false_and]
      rw [hfree]
      rfl

omit [Inhabited α] in
/-- An update with unused names goes on with the new fields in the row. -/
theorem update_goes_on {env : Env α} (hunused : Unused w.db.weight w.db.miniverses m data)
    (hcommit : data.apply m ≠ m → env.commit w.tick = .ok ()) :
    update_miniverse env m data w = finish_update env m data
      (if data.apply m = m then w else { w.next with db := w.db.saveMiniverse (data.apply m) }) := by
  rw [update_miniverse_eq, Eff.bind_run_ok (checkUnused_run hunused.name), Eff.bind_run_ok (checkUnused_run hunused.subdomain)]
  by_cases hsame : data.apply m = m
  · rw [decide_eq_false (not_not_intro hsame), if_pos hsame]
    rfl
  · rw [decide_eq_true hsame, if_neg hsame, Eff.when_true, Eff.bind_run_ok (commit_ok _ (hcommit hsame))]

omit [Inhabited α] in
theorem unused_of_same {weight : String → String} {rows : List Miniverse} (hsame : data.apply m = m) :
    Unused weight rows m data where
  name v hv hne := by
    have hname : (data.apply m).name = v := by simp [MiniverseUpdate.apply, hv]
    exact absurd (hsame ▸ hname) hne
  subdomain v hv hne := by
    have hsubdomain : (data.apply m).subdomain = v := by simp [MiniverseUpdate.apply, hv]
    exact absurd (hsame ▸ hsubdomain) hne

omit [Inhabited α] in
theorem finish_update_raised {env : Env α} {e : PyError} {w' : World α} (hv : data.mc_version = some v)
    (hne : m.mc_version ≠ v) (h : update_miniverse_game_version env (data.apply m) v false w = (.error e, w')) :
    finish_update env m data w = (.error e, w') := by
  have hversion : (data.mc_version.filter fun v => decide ((data.apply m).mc_version ≠ v)) = some v := by
    have hne' : (data.apply m).mc_version ≠ v := hne
    rw [hv, Option.filter_some, if_pos (decide_eq_true hne')]
  unfold finish_update
  rw [hversion, Option.elim_some]
  exact Eff.bind_run_error h _

/-! ## Refused before the new version is written -/

theorem prepare_fails (hne : m.mc_version ≠ v)
    (h : compare_versions (.ok all_versions) m.mc_version v = .ok none ∨
      ∃ c, compare_versions (.ok all_versions) m.mc_version v = .ok (some c) ∧ 0 < c) :
    ∃ detail w', prepare_game_version (bareEnv α all_versions) m v false w = (.error (.validation detail), w') ∧
      w'.rows = w.rows := by
  rw [prepare_game_version, decide_eq_false hne, Eff.raiseIf_false_bind]
  rcases h with h | ⟨c, h, hc⟩
  · have hrun : compareVersions (bareEnv α all_versions) m.mc_version v w = (.ok none, w.next) := ask_ok h
    rw [Eff.bind_run_ok hrun]
    exact ⟨_, _, rfl, rfl⟩
  · have hrun : compareVersions (bareEnv α all_versions) m.mc_version v w = (.ok (some c), w.next) := ask_ok h
    rw [Eff.bind_run_ok hrun, Eff.getOr_some_bind, decide_eq_true hc]
    exact ⟨_, _, rfl, rfl⟩

/-- A change that passes goes on with the mods. -/
theorem prepare_mods (hne : m.mc_version ≠ v) (hpass : Passes all_versions m.mc_version v) (hmods : TakesMods m) :
    prepare_game_version (bareEnv α all_versions) m v false w = update_mods (bareEnv α all_versions) m v false w.next := by
  obtain ⟨c, hcompare, hc⟩ := hpass
  have hrun : compareVersions (bareEnv α all_versions) m.mc_version v w = (.ok (some c), w.next) := ask_ok hcompare
  rw [prepare_game_version, decide_eq_false hne, Eff.raiseIf_false_bind, Eff.bind_run_ok hrun, Eff.getOr_some_bind,
    decide_eq_false (Int.not_lt.mpr hc), Eff.raiseIf_false_bind]
  unfold TakesMods at hmods
  cases htype : m.type with
  | forge => rfl
  | neo_forge => rfl
  | fabric => rfl
  | vanilla => exact absurd (htype ▸ hmods) (by decide)
  | paper => exact absurd (htype ▸ hmods) (by decide)

/-- A mod without versions. -/
def orphan (miniverse_id : Uuid4) : Mod := ⟨miniverse_id, "mod", none, none, "Mod", none, none, none, "mod.jar", miniverse_id⟩

variable (v all_versions) in
theorem update_mods_fails (hmods : w.db.mods = [orphan m.id]) :
    ∃ detail w', update_mods (bareEnv α all_versions) m v false w = (.error (.validation detail), w') ∧ w'.rows = w.rows := by
  have hof : w.db.modsOf m.id = [orphan m.id] := by simp [Database.modsOf, hmods, orphan]
  have hchecked : list_possible_mod_updates (bareEnv α all_versions) m v w =
      (.ok [(m.id, ⟨.error, [], []⟩)], w.next.next) := by
    rw [list_possible_mod_updates, query, Eff.read_bind_run, hof]
    rfl
  rw [update_mods, Eff.bind_run_ok hchecked]
  exact ⟨_, _, rfl, rfl⟩

theorem update_mods_passes (hmods : w.db.mods = []) : update_mods (bareEnv α all_versions) m v false w = (.ok (), w) := by
  have hof : w.db.modsOf m.id = [] := by simp [Database.modsOf, hmods]
  have hchecked : list_possible_mod_updates (bareEnv α all_versions) m v w = (.ok [], w) := by
    rw [list_possible_mod_updates, query, Eff.read_bind_run, hof]
    rfl
  rw [update_mods, Eff.bind_run_ok hchecked, List.all_nil, Bool.not_true, Bool.false_and, Eff.raiseIf_false_bind, query,
    Eff.read_bind_run, hof]
  rfl

/-! ## Refused after the new version was written -/

variable (all_versions) in
theorem stop_miniverse_run (hcontainers : w.containers = []) {players : List MSMPPlayer}
    (hservice : w.service m.id.str = some (m.id, .mcRouter players)) :
    ∃ w', stop_miniverse (bareEnv α all_versions) m w = (.ok { m with started := false, container_id := none }, w') ∧
      w'.disk = w.disk := by
  have hstop (container_id : Option String) : ∃ n, (container_id.elim (pure ()) fun container_id =>
      ignoreNotFound (stop_container (bareEnv α all_versions) container_id) : Act α Unit) w = (.ok (), { w with tick := n }) := by
    cases container_id with
    | none => exact ⟨w.tick, rfl⟩
    | some container_id =>
        refine ⟨w.tick + 1, ignoreNotFound_missing (Eff.bind_run_error (getContainer_missing rfl ?_) _)⟩
        rw [hcontainers]
        nofun
  obtain ⟨n, hcontainer⟩ : ∃ n, stop_miniverse_container (bareEnv α all_versions) m w = (.ok (), { w with tick := n }) := by
    unfold stop_miniverse_container
    cases hid : m.container_id with
    | none =>
        have hnone : ∀ c ∈ w.containers, ¬ (container_name_of m.id).toList <:+: c.name.toList := by
          rw [hcontainers]
          nofun
        have hlook := get_container_by_name_none (bareEnv α all_versions) fun _ => hnone
        refine ⟨w.tick + 1, ?_⟩
        rw [Option.isNone_none, Eff.when_true, bind_assoc, Eff.bind_run_ok hlook]
        rfl
    | some container_id => exact hstop (truthy (some container_id))
  have hservice' : ({ w with tick := n } : World α).service m.id.str = some (m.id, .mcRouter players) := hservice
  have hstopped : stopController (bareEnv α all_versions) m.id { w with tick := n } =
      (.ok (), ({ w with tick := n } : World α).setController m.id (.mcRouter [])) := by
    rw [stopController, get_miniverse_controller, Eff.read_bind_run, hservice', Option.map_some, Eff.getOr_some_bind]
    rfl
  rw [stop_miniverse, Eff.bind_run_ok hcontainer, Eff.bind_run_ok hstopped]
  exact ⟨_, rfl, rfl⟩

variable (all_versions) in
/-- The mods of the proxy are asked for in vain. -/
theorem start_refused (hproxy : m.is_on_lite_proxy = false) (hmods : TakesMods m) (hparses : Parses m.mc_version)
    (hdir : w.disk.tree.isDir (miniverse_data_path (bareEnv α all_versions).toPlatform m.id ++ ["config"]) = true) :
    ∃ detail w', start_miniverse (bareEnv α all_versions) m w = (.error (.validation detail), w') ∧ w'.rows = w.rows := by
  obtain ⟨p, hp⟩ := hparses
  have habove : w.disk.tree.isDir (miniverse_data_path (bareEnv α all_versions).toPlatform m.id) = true :=
    FileTree.isDir_above (List.prefix_append _ _) (by simp) (FileTree.exists_of_isDir hdir)
  obtain ⟨d, hicon, hkept⟩ := server_icon_run (bareEnv α all_versions).server_icon habove
  have hconfig := Disk.mkdirs_of_isDir (ε := PyError) (hkept _ hdir)
  obtain ⟨detail, w', hinstall, hrows⟩ : ∃ detail w', init_proxy_mods (bareEnv α all_versions) m false { w with disk := d } =
      (.error (.validation detail), w') ∧ w'.rows = w.rows := by
    rw [init_proxy_mods, Eff.bind_run_ok (onDisk_run hconfig)]
    unfold TakesMods at hmods
    cases htype : m.type with
    | fabric => exact ⟨_, _, rfl, rfl⟩
    | forge => exact ⟨_, _, rfl, rfl⟩
    | neo_forge => exact ⟨_, _, rfl, rfl⟩
    | vanilla => exact absurd (htype ▸ hmods) (by decide)
    | paper => exact absurd (htype ▸ hmods) (by decide)
  have hinit : init_data_path (bareEnv α all_versions) m w = (.error (.validation detail), w') := by
    unfold init_data_path
    rw [hp, Eff.ofExcept_ok_bind, Eff.bind_run_ok (onDisk_run hicon), hproxy, Bool.not_false, Eff.when_true]
    exact hinstall
  refine ⟨detail, w', ?_, hrows⟩
  rw [start_miniverse, Eff.bind_run_error hinit]

/-! ## The changes of the game version -/

theorem upgrade_fails (hne : m.mc_version ≠ v) (h : CanFail m.mc_version v) :
    ∃ all_versions detail w', update_miniverse_game_version (bareEnv α all_versions) m v false w =
      (.error (.validation detail), w') ∧ w'.rows = w.rows := by
  obtain ⟨all_versions, hcompare⟩ := h
  obtain ⟨detail, w', hrun, hrows⟩ := prepare_fails (w := w) hne hcompare
  exact ⟨all_versions, detail, w', Eff.bind_run_error hrun _, hrows⟩

theorem upgrade_fails_on_mods (hne : m.mc_version ≠ v) (hpass : CanPass m.mc_version v) (htakes : TakesMods m)
    (hmods : w.db.mods = [orphan m.id]) :
    ∃ all_versions detail w', update_miniverse_game_version (bareEnv α all_versions) m v false w =
      (.error (.validation detail), w') ∧ w'.rows = w.rows := by
  obtain ⟨all_versions, hpass⟩ := hpass
  obtain ⟨detail, w', hrun, hrows⟩ := update_mods_fails v all_versions (w := w.next) hmods
  exact ⟨all_versions, detail, w', Eff.bind_run_error ((prepare_mods hne hpass htakes).trans hrun) _, hrows⟩

theorem upgrade_fails_at_start (hne : m.mc_version ≠ v) (hlast : RefusedLast m v) (hmods : w.db.mods = [])
    (hcontainers : w.containers = []) {players : List MSMPPlayer}
    (hservice : w.service m.id.str = some (m.id, .mcRouter players))
    (hdir : w.disk.tree.isDir (miniverse_data_path (bareEnv α []).toPlatform m.id ++ ["config"]) = true) :
    ∃ all_versions detail w', ∃ db : Database,
      update_miniverse_game_version (bareEnv α all_versions) m v false w = (.error (.validation detail), w') ∧
      w'.rows = (db.saveMiniverse { m with started := false, container_id := none, mc_version := v }).miniverses := by
  obtain ⟨⟨all_versions, hpass⟩, htakes, hproxy⟩ := hlast
  have hprepared : prepare_game_version (bareEnv α all_versions) m v false w = (.ok (), w.next) :=
    (prepare_mods hne hpass htakes).trans (update_mods_passes hmods)
  obtain ⟨w₁, hstopped, hdisk⟩ := stop_miniverse_run all_versions (w := w.next) hcontainers hservice
  let m' : Miniverse := { m with started := false, container_id := none, mc_version := v }
  let w₂ : World α := { w₁.next with db := w₁.db.saveMiniverse m' }
  have hsaved : commit (bareEnv α all_versions) (·.saveMiniverse m') w₁ = (.ok (), w₂) := commit_ok _ rfl
  obtain ⟨c, hcompare, _⟩ := hpass
  obtain ⟨detail, w', hstart, hrows⟩ := start_refused all_versions (m := m') (w := w₂) hproxy htakes
    (compare_versions_parsed hne hcompare) (hdisk ▸ hdir)
  refine ⟨all_versions, detail, w', w₁.db, ?_, hrows⟩
  rw [update_miniverse_game_version, Eff.bind_run_ok hprepared, Eff.bind_run_ok hstopped]
  exact (Eff.bind_run_ok hsaved _).trans (Eff.bind_run_error hstart _)

end Backend
