import Miniverse.Mods.Lemmas.Listings

/-!
# Theorems about mods
-/

namespace Backend

open Lib

variable {α : Type} {env : Env α} {id : Uuid4}

/-! ## The files -/

/-- Metadata as Modrinth gives them: slugs and version numbers are plain names, and an identifier is of one version. -/
structure PlainMetadata (env : Env α) : Prop where
  slugs : ∀ {n project_id project}, env.get_project_details n project_id = .ok project → IsName project.slug
  version_numbers : ∀ {n version_id version}, env.get_version_details n version_id = .ok version →
    IsName version.version_number
  unique : ∀ {m n version_id version_id' version version'}, env.get_version_details m version_id = .ok version →
    env.get_version_details n version_id' = .ok version' → version.id = version'.id → version = version'

/-- The first version of a project, and a second one with these files. -/
def sampleCdn (files : List ModrinthProjectFile) : Env String :=
  { sampleEnv with
    get_project_details := fun _ id => if id = "p" then .ok ⟨"p", "mod", "Mod", none⟩ else .error .httpx
    get_version_details := fun _ id =>
      if id = "v1" then .ok ⟨"v1", "p", ⟨0, true⟩, "Mod 1", "1", [], .release, [⟨"url1", "mod.jar", true⟩]⟩
      else if id = "v2" then .ok ⟨"v2", "p", ⟨1, true⟩, "Mod 2", "2", [], .release, files⟩
      else .error .httpx }

/-- The versions that Modrinth answers with. -/
theorem answered_sampleCdn {files : List ModrinthProjectFile} {n : Nat} {version_id : String}
    {version : ModrinthProjectVersion} (h : (sampleCdn files).get_version_details n version_id = .ok version) :
    version = ⟨"v1", "p", ⟨0, true⟩, "Mod 1", "1", [], .release, [⟨"url1", "mod.jar", true⟩]⟩ ∨
      version = ⟨"v2", "p", ⟨1, true⟩, "Mod 2", "2", [], .release, files⟩ := by
  unfold sampleCdn at h
  dsimp only at h
  split at h
  · cases h
    exact Or.inl rfl
  · split at h
    · cases h
      exact Or.inr rfl
    · cases h

theorem plainMetadata_sampleCdn (files : List ModrinthProjectFile) : PlainMetadata (sampleCdn files) where
  slugs h := by
    unfold sampleCdn at h
    dsimp only at h
    split at h
    · cases h
      decide
    · cases h
  version_numbers h := by
    have hname : IsName "1" ∧ IsName "2" := by decide
    rcases answered_sampleCdn h with rfl | rfl
    · exact hname.1
    · exact hname.2
  unique h h' hid := by
    have hne : "v1" ≠ "v2" := by decide
    rcases answered_sampleCdn h with rfl | rfl <;> rcases answered_sampleCdn h' with rfl | rfl
    · rfl
    · exact absurd hid hne
    · exact absurd hid hne.symm
    · rfl

/-- The row of the mod with a version. -/
def sampleInstalled (version_id version_name version_number : String) : Mod :=
  ⟨sampleId, "mod", some version_id, some "p", "Mod", none, some version_name, some version_number,
    "mod-" ++ version_number ++ "-" ++ version_id ++ ".jar", sampleId⟩

/-- With the installed version in the listing, the entry names one that is no older, and the installed one only when no
compatible version is newer. -/
def NeverBehind (game_version : String) (mod : Mod) (listing : Except PyError (List ModrinthProjectVersion))
    (info : ModUpdateInfo) : Prop :=
  ∀ versions, listing = .ok versions → ∀ installed ∈ versions, some installed.id = mod.version_id →
    ∃ version ∈ versions, info.new_versions_ids = [version.id] ∧ Newer version installed ∧
      (info.update_status = .already_up_to_date →
        some version.id = mod.version_id ∧ ∀ v ∈ versions, game_version ∈ v.game_versions → Newer version v)

theorem Analysed.neverBehind {game_version : String} {mod : Mod} {listing : Except PyError (List ModrinthProjectVersion)}
    {info : ModUpdateInfo} (h : Analysed game_version mod listing info) : NeverBehind game_version mod listing info := by
  intro versions hlisting installed hmem hid
  have hstops : Stops game_version mod installed := Or.inr hid
  have herror : info.update_status ≠ .error := fun herror =>
    List.ne_nil_of_mem hmem (h.error.mp herror versions hlisting)
  have hcompatible : info.update_status ≠ .no_compatible_versions := fun hnone => by
    obtain ⟨versions', hlisting', _, hnot⟩ := h.no_compatible_versions.mp hnone
    cases hlisting.symm.trans hlisting'
    exact hnot installed hmem hstops
  obtain ⟨versions', version, hlisting', hversion, _, hlatest, hids, _, hup⟩ := h.latest herror hcompatible
  cases hlisting.symm.trans hlisting'
  exact ⟨version, hversion, hids, hlatest installed hmem hstops, fun hstatus =>
    ⟨hup.mp hstatus, fun v hv hlists => hlatest v hv (Or.inl hlists)⟩⟩

/-- Every mod has exactly one entry, and it says what the consulted listing says. -/
theorem updates_analysed (hdated : DatesAware env) (m : Miniverse) (game_version : String) (w : World α)
    (hids : ((w.db.modsOf m.id).map (·.id)).Nodup) :
    ∃ updates n, list_possible_mod_updates env m game_version w = (.ok updates, { w with tick := n }) ∧
      updates.map Prod.fst = (w.db.modsOf m.id).map (·.id) ∧
      ∀ p ∈ consultedTicks env m.type game_version (w.db.modsOf m.id) w.tick, ∃ info,
        (∀ info', (p.1.id, info') ∈ updates ↔ info' = info) ∧
        Analysed game_version p.1 (consulted env m.type game_version p.1 p.2) info ∧
        NeverBehind game_version p.1 (consulted env m.type game_version p.1 p.2) info := by
  obtain ⟨updates, n, hrun, hentries⟩ := tryChecks_analysed hdated m.type game_version (w.db.modsOf m.id) w
  have hkeys : updates.map Prod.fst = (w.db.modsOf m.id).map (·.id) := by
    rw [keys_of_analysed hentries, consultedTicks_fst]
  have hnodup : (updates.map Prod.fst).Nodup := hkeys ▸ hids
  refine ⟨updates, n, hrun, hkeys, fun p hp => ?_⟩
  obtain ⟨u, hu, hid, hanalysed⟩ := entry_of_analysed hentries hp
  refine ⟨u.2, fun info' => ⟨fun h => ?_, fun h => ?_⟩, hanalysed, hanalysed.neverBehind⟩
  · exact congrArg Prod.snd (List.inj_on_of_nodup_map hnodup h hu hid.symm)
  · rw [h, ← hid]
    exact hu

/-- The versions of one project, none for a game version; the other projects cannot be listed. -/
def sampleListings (versions : List ModrinthProjectVersion) : Env String :=
  { sampleEnv with
    list_project_versions := fun _ id _ game_version =>
      if id = "p" then .ok (if game_version = none then versions else []) else .error .httpx }

def sampleModVersion (id : String) (time : Int) (version_type : ModVersionType) : ModrinthProjectVersion :=
  ⟨id, "p", ⟨time, true⟩, id, id, ["1.21"], version_type, []⟩

theorem datesAware_sampleListings {versions : List ModrinthProjectVersion} (h : ∀ v ∈ versions, v.date_published.aware = true) :
    DatesAware (sampleListings versions) := by
  intro n project_id loader game_version listing hlisting v hv
  unfold sampleListings at hlisting
  dsimp only at hlisting
  split at hlisting
  · split at hlisting
    · cases hlisting
      exact h v hv
    · cases hlisting
      cases hv
  · cases hlisting

/-- A miniverse, with one mod that has a newer version. -/
def sampleFabricRow : Miniverse :=
  ⟨sampleId, "Fabric", .fabric, none, none, none, "1.21", "fabric", true, true, false, false, none⟩

def sampleOutdated : World String :=
  { sampleWorld with db := { sampleWorld.db with miniverses := [sampleFabricRow], mods := [sampleInstalled "v1" "Mod 1" "1"] } }

theorem updates_analysed_sample :
    ∃ updates n, list_possible_mod_updates (sampleListings [sampleModVersion "v1" 0 .release, sampleModVersion "v2" 1 .beta])
        sampleFabricRow "1.21" sampleOutdated = (.ok updates, { sampleOutdated with tick := n }) ∧
      updates.map Prod.fst = (sampleOutdated.db.modsOf sampleId).map (·.id) ∧
      ∀ p ∈ consultedTicks (sampleListings [sampleModVersion "v1" 0 .release, sampleModVersion "v2" 1 .beta]) .fabric "1.21"
          (sampleOutdated.db.modsOf sampleId) 0, ∃ info,
        (∀ info', (p.1.id, info') ∈ updates ↔ info' = info) ∧
        Analysed "1.21" p.1 (consulted (sampleListings [sampleModVersion "v1" 0 .release, sampleModVersion "v2" 1 .beta]) .fabric
          "1.21" p.1 p.2) info ∧
        NeverBehind "1.21" p.1 (consulted (sampleListings [sampleModVersion "v1" 0 .release, sampleModVersion "v2" 1 .beta]) .fabric
          "1.21" p.1 p.2) info :=
  updates_analysed (datesAware_sampleListings (by decide)) sampleFabricRow "1.21" sampleOutdated (by decide)

/-! ## Installing -/

/-- Without versions to choose from nothing is installed, and otherwise exactly one installation is left, of a preferred
version. -/
theorem automatic_install_chooses (hdated : DatesAware env) (mod_id : String) (m : Miniverse)
    (prioritize_release retry_with_latest : Bool) (w : World α) {filtered full : List ModrinthProjectVersion}
    (hfiltered : env.list_project_versions w.tick mod_id (some m.type) ((some m.mc_version).filter fun v => decide (v ≠ "")) =
      .ok filtered)
    (hfull : filtered = [] → retry_with_latest = true →
      env.list_project_versions (w.tick + 1) mod_id (some m.type) none = .ok full) :
    if filtered = [] ∧ (retry_with_latest = false ∨ full = []) then
      automatic_mod_install env mod_id m prioritize_release retry_with_latest w =
        (.error (noCompatibleVersions mod_id m), { w with tick := if retry_with_latest then w.tick + 2 else w.tick + 1 })
    else ∃ version, Preferred prioritize_release (if filtered = [] then full else filtered) version ∧
      automatic_mod_install env mod_id m prioritize_release retry_with_latest w =
        install_mod env version.id m.id { w with tick := if filtered = [] then w.tick + 2 else w.tick + 1 } := by
  have hask : (list_project_versions env mod_id m.type (some m.mc_version)) w = (.ok filtered, w.next) := ask_ok hfiltered
  cases filtered with
  | cons v vs =>
      simp only [List.cons_ne_nil, false_and, if_false]
      refine automatic_mod_install_of_listing ?_ (List.cons_ne_nil v vs) (hdated hfiltered)
      rw [installable_versions, Eff.bind_run_ok hask]
      rfl
  | nil =>
      simp only [true_and, if_true]
      cases retry_with_latest with
      | false =>
          have hrefused : installable_versions env mod_id m false w = (.error (noCompatibleVersions mod_id m), w.next) := by
            rw [installable_versions, Eff.bind_run_ok hask]
            rfl
          rw [if_pos (Or.inl rfl)]
          exact Eff.bind_run_error hrefused _
      | true =>
          have hask' : (list_project_versions env mod_id m.type none) w.next = (.ok full, w.next.next) :=
            ask_ok (hfull rfl rfl)
          cases full with
          | nil =>
              have hrefused : installable_versions env mod_id m true w =
                  (.error (noCompatibleVersions mod_id m), w.next.next) := by
                rw [installable_versions, Eff.bind_run_ok hask, List.isEmpty_nil, if_pos rfl, if_pos rfl,
                  Eff.bind_run_ok hask']
                rfl
              rw [if_pos (Or.inr rfl)]
              exact Eff.bind_run_error hrefused _
          | cons v vs =>
              have hlisted : installable_versions env mod_id m true w = (.ok (v :: vs), w.next.next) := by
                rw [installable_versions, Eff.bind_run_ok hask, List.isEmpty_nil, if_pos rfl, if_pos rfl,
                  Eff.bind_run_ok hask']
                rfl
              rw [if_neg (by simp)]
              exact automatic_mod_install_of_listing hlisted (List.cons_ne_nil v vs) (hdated (hfull rfl rfl))

/-- The beta is newer, but the release is preferred. -/
theorem automatic_install_chooses_sample :
    ∃ version, Preferred true [sampleModVersion "v1" 0 .release, sampleModVersion "v2" 1 .beta] version ∧
      automatic_mod_install (sampleListings [sampleModVersion "v1" 0 .release, sampleModVersion "v2" 1 .beta]) "p" sampleFabricRow
          true true sampleOutdated =
        install_mod (sampleListings [sampleModVersion "v1" 0 .release, sampleModVersion "v2" 1 .beta]) version.id sampleId
          { sampleOutdated with tick := 2 } := by
  have hdated : DatesAware (sampleListings [sampleModVersion "v1" 0 .release, sampleModVersion "v2" 1 .beta]) :=
    datesAware_sampleListings (by decide)
  have hfiltered : (sampleListings [sampleModVersion "v1" 0 .release, sampleModVersion "v2" 1 .beta]).list_project_versions 0 "p"
      (some .fabric) (some "1.21") = .ok [] := rfl
  have hfull : (sampleListings [sampleModVersion "v1" 0 .release, sampleModVersion "v2" 1 .beta]).list_project_versions 1 "p"
      (some .fabric) none = .ok [sampleModVersion "v1" 0 .release, sampleModVersion "v2" 1 .beta] := rfl
  exact automatic_install_chooses hdated "p" sampleFabricRow true true sampleOutdated hfiltered fun _ _ => hfull

end Backend
