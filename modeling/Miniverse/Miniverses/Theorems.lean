import Miniverse.Miniverses.Lemmas.Servers
import Miniverse.Miniverses.Lemmas.Upgrade
import Miniverse.Versions.Lemmas.Chain

/-!
# Upgrades of the game version
-/

namespace Backend

open Lib

variable {α : Type} {env : Env α} {m : Miniverse} {new_mc_version : String} {force_update : Bool} {w w' : World α}

/-! ## What an upgrade leads to -/

variable {catalog : String → List String}

instance : Calm (Same fun w : World α => w.db.mods) where
  refl _ := rfl
  trans _ _ _ h₁ h₂ := h₂.trans h₁
  tick _ _ := rfl
  events _ _ := rfl
  containers _ _ := rfl

def sampleFabric : Miniverse :=
  ⟨sampleId, "Sample", .fabric, none, none, none, "1.20", "sample", true, true, false, false, none⟩

def sampleMod (id : Uuid4) : Mod :=
  ⟨id, "mod", some "old.jar", some "mod", "Mod", none, none, none, "mod-old.jar", sampleId⟩

def sampleModId : Uuid4 := ⟨"00000000-0000-4000-8000-000000000001", by decide⟩

def sampleModded : World String :=
  { sampleWorld with
    db := ⟨[], [sampleFabric], [], [sampleMod sampleId, sampleMod sampleModId], sampleWeight⟩
    disk := ⟨⟨[([], .dir), (["srv"], .dir), (["srv", "miniverses"], .dir), (["srv", "miniverses", sampleId.str], .dir),
      (["srv", "miniverses", sampleId.str, "data"], .dir)], by decide, by decide, by decide, by decide⟩, []⟩
    controllers := [(sampleId, .mcRouter [])] }

def sampleVersion (id game_version : String) : ModrinthProjectVersion :=
  ⟨id, "mod", ⟨0, true⟩, id, id, [game_version], .release, []⟩

def sampleModrinth (version : ModrinthProjectVersion) : Env String :=
  { sampleEnv with
    list_project_versions := fun _ _ _ game_version =>
      .ok (if game_version.all fun v => decide (v ∈ version.game_versions) then [version] else []) }

variable {e : PyError}

/-- The updates of the mods are the only part of an upgrade before the server stops that changes rows or files. -/
theorem prepare_raised (h : prepare_game_version env m new_mc_version force_update w = (.error e, w')) :
    w'.store = w.store ∨
      ∃ w₁, w₁.store = w.store ∧ update_mods env m new_mc_version force_update w₁ = (.error e, w') := by
  unfold prepare_game_version at h
  rcases Eff.Within.bind_error (R := Same World.store) (Eff.Within.raiseIf _ _) h with h | ⟨_, w₁, hw₁, _, h⟩
  · exact Or.inl h
  rcases Eff.Within.bind_error (R := Same World.store) (within_ask _) h with h | ⟨c, w₂, hw₂, _, h⟩
  · exact Or.inl (h.trans hw₁)
  rcases Eff.Within.bind_error (R := Same World.store) (Eff.Within.getOr _ _) h with h | ⟨c, w₃, hw₃, _, h⟩
  · exact Or.inl (h.trans (hw₂.trans hw₁))
  rcases Eff.Within.bind_error (R := Same World.store) (Eff.Within.raiseIf _ _) h with h | ⟨_, w₄, hw₄, _, h⟩
  · exact Or.inl (h.trans (hw₃.trans (hw₂.trans hw₁)))
  have hstore : w₄.store = w.store := hw₄.trans (hw₃.trans (hw₂.trans hw₁))
  cases htype : m.type with
  | vanilla =>
      rw [htype] at h
      cases h
  | paper =>
      rw [htype] at h
      cases h
  | fabric =>
      rw [htype] at h
      exact Or.inr ⟨w₄, hstore, h⟩
  | forge =>
      rw [htype] at h
      exact Or.inr ⟨w₄, hstore, h⟩
  | neo_forge =>
      rw [htype] at h
      exact Or.inr ⟨w₄, hstore, h⟩

/-- So do the checks before the loop. -/
theorem update_mods_raised (h : update_mods env m new_mc_version force_update w = (.error e, w')) :
    w'.store = w.store ∨ ∃ updates w₁, w₁.store = w.store ∧
      (w.db.modsOf m.id).forM (apply_mod_update env updates) w₁ = (.error e, w') := by
  unfold update_mods at h
  rcases Eff.Within.bind_error (R := Same World.store) (within_list_possible_mod_updates _ _) h with h | ⟨updates, w₁, hw₁, _, h⟩
  · exact Or.inl h
  rcases Eff.Within.bind_error (R := Same World.store) (Eff.Within.raiseIf _ _) h with h | ⟨_, w₂, hw₂, _, h⟩
  · exact Or.inl (h.trans hw₁)
  have hstore : w₂.store = w.store := hw₂.trans hw₁
  have hdb : w₂.db = w.db := congrArg Prod.fst hstore
  rw [query, Eff.read_bind_run, hdb] at h
  exact Or.inr ⟨updates, w₂, hstore, h⟩

/-- The row of a mod is the one before, or it holds a version that Modrinth answered with. -/
def Upgraded (env : Env α) (mod r : Mod) : Prop :=
  r = mod ∨ ∃ version_id project version, Answered env version_id project version ∧ r = mod.toVersion project version

theorem upgraded_of_turn {updates : List (Uuid4 × ModUpdateInfo)} {mod r : Mod} (h : Turn env updates mod r) :
    Upgraded env mod r := by
  obtain ⟨_, _, ⟨_, hr⟩ | ⟨_, version_id, project, version, _, hanswer, hr⟩⟩ := h
  · exact Or.inl hr
  · exact Or.inr ⟨version_id, project, version, hanswer, hr⟩

/-- The mods in `done` are upgraded, the one that is `current` is the one whose turn failed, and the others are as they
were: their rows, and all files but those that the upgrades of the mods that had their turn may change. -/
def PartlyUpgraded (env : Env α) (id : Uuid4) (w w' : World α) : Prop :=
  ∃ (done : List Mod) (current : Option Mod) (rest : List Mod),
    w.db.modsOf id = done ++ (current.toList ++ rest) ∧ (current = none → done = []) ∧
    Progress (Upgraded env) w.db done w'.db ∧
    ∀ q, (∀ mod ∈ done ++ current.toList, ¬ UpdateLocs env mod q) → w'.disk.tree.get q = w.disk.tree.get q

theorem partlyUpgraded_of_same {id : Uuid4} (h : w'.store = w.store) : PartlyUpgraded env id w w' := by
  have hdb : w'.db = w.db := congrArg Prod.fst h
  have hdisk : w'.disk = w.disk := congrArg Prod.snd h
  refine ⟨[], none, w.db.modsOf id, rfl, fun _ => rfl, ?_, fun q _ => ?_⟩
  · rw [hdb]
    exact .start _ _
  · rw [hdisk]

/-- A failed loop over the mods. -/
theorem partlyUpgraded_of_loop {id : Uuid4} {updates : List (Uuid4 × ModUpdateInfo)} (hkeys : w.db.ModKeys)
    (h : (w.db.modsOf id).forM (apply_mod_update env updates) w = (.error e, w')) : PartlyUpgraded env id w w' := by
  obtain ⟨done, mod, rest, w₁, hmods, hdone, hmod⟩ := Eff.forM_raised h
  have hprogress := progress_loop hkeys hmods hdone
  rw [← same_of_turn_raised hmod] at hprogress
  refine ⟨done, some mod, rest, hmods, by simp, hprogress.mono fun _ _ _ => upgraded_of_turn, fun q hq => ?_⟩
  have hloop := Eff.Within.forM (R := FilesOff fun q => ∃ x ∈ done ++ [mod], UpdateLocs env x q)
    (fun x hx => filesOff_turn updates fun q hq => ⟨x, List.mem_append_left _ hx, hq⟩) w
  have hlast := filesOff_turn (S := fun q => ∃ x ∈ done ++ [mod], UpdateLocs env x q) updates
    (fun q hq => ⟨mod, List.mem_append_right _ List.mem_cons_self, hq⟩) w₁
  rw [hdone] at hloop
  rw [hmod] at hlast
  have hq' : ¬ ∃ x ∈ done ++ [mod], UpdateLocs env x q := fun ⟨x, hx, hxq⟩ => hq x hx hxq
  rw [hlast q hq', hloop q hq']

/-- The changes counted from an earlier state with the same rows and files. -/
theorem PartlyUpgraded.of_same {id : Uuid4} {w₁ : World α} (h : PartlyUpgraded env id w₁ w') (hstore : w₁.store = w.store) :
    PartlyUpgraded env id w w' := by
  have hdb : w₁.db = w.db := congrArg Prod.fst hstore
  have hdisk : w₁.disk = w.disk := congrArg Prod.snd hstore
  unfold PartlyUpgraded at h ⊢
  rwa [hdb, hdisk] at h

/-- An upgrade that raises before it stops the server leaves the miniverses as they were, but not always the mods. -/
theorem upgrade_fails_between_mods (hkeys : w.db.ModKeys)
    (h : prepare_game_version env m new_mc_version force_update w = (.error e, w')) :
    update_miniverse_game_version env m new_mc_version force_update w = (.error e, w') ∧
      w'.db.miniverses = w.db.miniverses ∧ PartlyUpgraded env m.id w w' := by
  have hpart : PartlyUpgraded env m.id w w' := by
    rcases prepare_raised h with hstore | ⟨w₁, hw₁, h⟩
    · exact partlyUpgraded_of_same hstore
    rcases update_mods_raised h with hstore | ⟨updates, w₂, hw₂, h⟩
    · exact partlyUpgraded_of_same (hstore.trans hw₁)
    have hdb : w₂.db = w₁.db := congrArg Prod.fst hw₂
    have hdb₁ : w₁.db = w.db := congrArg Prod.fst hw₁
    rw [← hdb] at h
    exact (partlyUpgraded_of_loop (hdb ▸ hdb₁ ▸ hkeys) h).of_same (hw₂.trans hw₁)
  obtain ⟨_, _, _, _, _, hprogress, _⟩ := id hpart
  refine ⟨Eff.bind_run_error h _, ?_, hpart⟩
  rw [hprogress.rest]

/-- From the tenth call on no download succeeds. -/
def sampleBreaking : Env String :=
  { sampleModrinth (sampleVersion "new.jar" "1.21") with download := fun n url => if n < 9 then .ok url else .error .httpx }

set_option maxRecDepth 10000 in
theorem upgrade_fails_between_sample_mods :
    update_miniverse_game_version sampleBreaking sampleFabric "1.21" false sampleModded =
        (.error .httpx, (prepare_game_version sampleBreaking sampleFabric "1.21" false sampleModded).2) ∧
      (prepare_game_version sampleBreaking sampleFabric "1.21" false sampleModded).2.db.miniverses = [sampleFabric] ∧
      PartlyUpgraded sampleBreaking sampleId sampleModded
        (prepare_game_version sampleBreaking sampleFabric "1.21" false sampleModded).2 := by
  have hraised : (prepare_game_version sampleBreaking sampleFabric "1.21" false sampleModded).1 = .error .httpx := by decide
  have hkeys : sampleModded.db.ModKeys := by
    unfold Database.ModKeys
    decide
  exact upgrade_fails_between_mods hkeys (Prod.ext hraised rfl)

set_option maxRecDepth 10000 in
/-- The download for the second mod fails after the first mod was updated. -/
theorem upgrade_not_atomic :
    ¬ ∀ (env : Env String) (m : Miniverse) (new_mc_version : String) (force_update : Bool) (w : World String) (e : PyError)
      (w' : World String), prepare_game_version env m new_mc_version force_update w = (.error e, w') →
        w'.db.mods = w.db.mods ∧ (∀ q, mods_path env m.id <+: q → w'.disk.tree.get q = w.disk.tree.get q) ∧
          w'.db.miniverses = w.db.miniverses := by
  intro h
  have hraised : (prepare_game_version sampleBreaking sampleFabric "1.21" false sampleModded).1 = .error .httpx := by decide
  have hmods := (h _ _ _ _ _ _ _ (Prod.ext hraised rfl)).1
  exact absurd hmods (by decide)

/-! ## Stopped servers -/

/-- A stop and a deletion that return leave no server running, exactly when the identifier of the container is stored or
no server was running. -/
theorem server_stopped_iff (hdocker : TruthfulDocker env) (hids : ∀ c ∈ w.containers, c.id ≠ "") (hpoints : PointsToServer w m) :
    (∀ m' w', stop_miniverse env m w = (.ok m', w') →
      (¬ ServerRunning w' m.id ↔ m.container_id ≠ none ∨ ¬ ServerRunning w m.id)) ∧
    (∀ w', delete_miniverse env m w = (.ok (), w') →
      (¬ ServerRunning w' m.id ↔ m.container_id ≠ none ∨ ¬ ServerRunning w m.id)) := by
  refine ⟨fun m' w' h => ?_, fun w' h => ?_⟩
  · rw [stop_miniverse_server hdocker hids hpoints h, not_and_or]
  · rw [delete_miniverse_server hdocker hids hpoints h, not_and_or]

/-- A started miniverse whose server runs; the identifier of its container may be missing. -/
def sampleStarted (container_id : Option String) : Miniverse :=
  { (sampleCreate "1.21.8").toMiniverse sampleId "sample" "secret" with started := true, container_id := container_id }

def sampleRunning (container_id : Option String) : World String :=
  { sampleWorld with
    db := { sampleWorld.db with miniverses := [sampleStarted container_id] }
    controllers := [(sampleId, .mcRouter [])]
    containers := [⟨"7", container_name_of sampleId, "itzg/minecraft-server:latest", [], true⟩] }

theorem points_sampleRunning (container_id : Option String) (h : ∀ id, container_id = some id → id = "7") :
    PointsToServer (sampleRunning container_id) (sampleStarted container_id) := by
  intro id hid c hc _
  rw [List.mem_singleton.mp hc, h id hid]

theorem ids_sampleRunning (container_id : Option String) : ∀ c ∈ (sampleRunning container_id).containers, c.id ≠ "" := by
  intro c hc
  rw [List.mem_singleton.mp hc]
  decide

theorem server_stopped_sample :
    (∀ m' w', stop_miniverse sampleEnv (sampleStarted (some "7")) (sampleRunning (some "7")) = (.ok m', w') →
      (¬ ServerRunning w' sampleId ↔ (some "7" : Option String) ≠ none ∨ ¬ ServerRunning (sampleRunning (some "7")) sampleId)) ∧
    (∀ w', delete_miniverse sampleEnv (sampleStarted (some "7")) (sampleRunning (some "7")) = (.ok (), w') →
      (¬ ServerRunning w' sampleId ↔
        (some "7" : Option String) ≠ none ∨ ¬ ServerRunning (sampleRunning (some "7")) sampleId)) :=
  server_stopped_iff (m := sampleStarted (some "7")) nofun (ids_sampleRunning _)
    (points_sampleRunning _ fun _ h => (Option.some.inj h).symm)

set_option maxRecDepth 10000 in
/-- A server whose identifier is not stored is looked up and left running. -/
theorem server_left_running :
    ¬ ∀ (env : Env String) (m : Miniverse) (w : World String), TruthfulDocker env → (∀ c ∈ w.containers, c.id ≠ "") →
      PointsToServer w m → ∀ m' w', stop_miniverse env m w = (.ok m', w') → ¬ ServerRunning w' m.id := by
  intro h
  have hstopped := h sampleEnv (sampleStarted none) (sampleRunning none) nofun (ids_sampleRunning _)
    (points_sampleRunning _ nofun) { sampleStarted none with started := false } _ (Prod.ext (by decide) rfl)
  refine hstopped ⟨⟨"7", container_name_of sampleId, "itzg/minecraft-server:latest", [], true⟩, ?_, rfl, rfl⟩
  decide

/-! ## Versions that are not accepted -/

/-- The answer to an upgrade to a version that cannot be compared. -/
def invalidVersions : PyError := .validation "The specified Minecraft versions is invalid."

theorem prepare_game_version_compared (hne : m.mc_version ≠ new_mc_version) :
    (compare_versions (env.get_minecraft_versions w.tick) m.mc_version new_mc_version = .ok none →
        prepare_game_version env m new_mc_version force_update w = (.error invalidVersions, w.next)) ∧
      ∀ e, compare_versions (env.get_minecraft_versions w.tick) m.mc_version new_mc_version = .error e →
        prepare_game_version env m new_mc_version force_update w = (.error e, w.next) := by
  unfold prepare_game_version
  rw [decide_eq_false hne, Eff.raiseIf_false_bind]
  refine ⟨fun hcompared => ?_, fun e hcompared => ?_⟩
  · have hrun : compareVersions env m.mc_version new_mc_version w = (.ok none, w.next) := ask_ok hcompared
    rw [Eff.bind_run_ok hrun, Eff.getOr_none_bind]
    rfl
  · have hrun : compareVersions env m.mc_version new_mc_version w = (.error e, w.next) := ask_error hcompared
    rw [Eff.bind_run_error hrun]

/-- Two versions of which one is not accepted are reported, by the comparison and by the upgrade, exactly when the second is
the one that has no format. -/
theorem invalid_versions_reported_iff {v1 v2 : String} (hne : v1 ≠ v2) (hinvalid : ¬ Accepted v1 ∨ ¬ Accepted v2) :
    (∀ all_versions, compare_versions (.ok all_versions) v1 v2 = .ok none ↔ Reported v1 v2) ∧
      ∀ (env : Env α) (m : Miniverse) (force_update : Bool) (w : World α), m.mc_version = v1 →
        ((update_miniverse_game_version env m v2 force_update w).1 = .error invalidVersions ↔ Reported v1 v2) := by
  refine ⟨fun all_versions => ?_, fun env m force_update w hv => ?_⟩
  · rcases compare_versions_invalid (.ok all_versions) hne hinvalid with ⟨hnone, hreported⟩ | ⟨⟨e, herror, _⟩, hnot⟩
    · exact iff_of_true hnone hreported
    · rw [herror]
      exact iff_of_false (fun h => nomatch h) hnot
  · subst hv
    unfold update_miniverse_game_version
    rcases compare_versions_invalid (env.get_minecraft_versions w.tick) hne hinvalid with
      ⟨hnone, hreported⟩ | ⟨⟨e, herror, hkind⟩, hnot⟩
    · rw [Eff.bind_run_error ((prepare_game_version_compared hne).1 hnone)]
      exact iff_of_true rfl hreported
    · rw [Eff.bind_run_error ((prepare_game_version_compared hne).2 e herror)]
      refine iff_of_false (fun h => ?_) hnot
      rcases hkind with rfl | ⟨message, rfl⟩
      · cases h
      · cases h

set_option maxRecDepth 10000 in
theorem invalid_versions_reported_sample :
    (∀ all_versions, compare_versions (.ok all_versions) "1.21" "latest" = .ok none ↔ Reported "1.21" "latest") ∧
      ∀ (env : Env String) (m : Miniverse) (force_update : Bool) (w : World String), m.mc_version = "1.21" →
        ((update_miniverse_game_version env m "latest" force_update w).1 = .error invalidVersions ↔ Reported "1.21" "latest") := by
  have hlatest : parse_version "latest" = .ok none := by decide
  refine invalid_versions_reported_iff (by decide) (Or.inr fun ⟨p, hp⟩ => ?_)
  rw [hlatest] at hp
  cases hp

set_option maxRecDepth 10000 in
/-- The check looks at the second version twice. -/
theorem invalid_version_raises :
    ¬ ∀ (v1 v2 : String) (all_versions : List MinecraftVersion), v1 ≠ v2 → ¬ Accepted v1 ∨ ¬ Accepted v2 →
      compare_versions (.ok all_versions) v1 v2 = .ok none := by
  intro h
  have hlatest : parse_version "latest" = .ok none := by decide
  have hnone := h "latest" "1.21" [] (by decide) (Or.inl fun ⟨p, hp⟩ => by rw [hlatest] at hp; cases hp)
  revert hnone
  decide

end Backend
