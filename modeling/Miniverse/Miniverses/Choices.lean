import Miniverse.Lib.Outcome
import Miniverse.Miniverses.Service
import Miniverse.Mods.Lemmas.Listings

/-!
# The versions of the proxy mods

`init_data_path` and what it calls, with an entry for each proxy mod that was installed. Without the log they are the
functions of `Miniverses`.
-/

namespace Backend

open Lib

variable {α β : Type} (env : Env α)

/-- What Modrinth listed, and the version that was chosen and installed. -/
structure Choice where
  listing : List ModrinthProjectVersion
  version : ModrinthProjectVersion

/-- A computation of the backend with a log of the choices. -/
abbrev ChoosingAct (α β : Type) := Eff (World α × List Choice) PyError β

def automatic_mod_install_logged (mod_id : String) (miniverse : Miniverse) (prioritize_release retry_with_latest : Bool) :
    ChoosingAct α Mod := do
  let listing ← Eff.silent (installable_versions env mod_id miniverse retry_with_latest)
  let releases := listing.filter fun v => decide (v.version_type = .release)
  let versions := if prioritize_release ∧ releases ≠ [] then releases else listing
  let sorted ← Eff.silent (Eff.ofExcept (sortNewest versions))
  let latest_version ← Eff.silent (Eff.getOr sorted.head? .indexError)
  let mod ← Eff.silent (install_mod env latest_version.id miniverse.id)
  Eff.log (⟨listing, latest_version⟩ : Choice)
  return mod

def init_proxy_mods_logged (miniverse : Miniverse) (prioritize_release : Bool) : ChoosingAct α Unit := do
  let config_path := miniverse_data_path env.toPlatform miniverse.id ++ ["config"]
  Eff.silent (onDisk (Disk.mkdirs config_path))
  match miniverse.type with
  | .fabric => do
      let _ ← automatic_mod_install_logged env "P7dR8mSH" miniverse prioritize_release false
      let _ ← automatic_mod_install_logged env "8dI2tmqs" miniverse prioritize_release true
      Eff.silent (onDisk (Disk.write (config_path ++ ["FabricProxy-Lite.toml"]) env.fabric_proxy_config))
  | .neo_forge | .forge => do
      let _ ← automatic_mod_install_logged env "vDyrHl8l" miniverse prioritize_release true
      Eff.silent (onDisk (Disk.write (config_path ++ ["pcf-common.toml"]) env.forge_proxy_config))
  | .vanilla | .paper => pure ()

def init_data_path_logged (miniverse : Miniverse) : ChoosingAct α Unit := do
  let volume_data_path := miniverse_data_path env.toPlatform miniverse.id
  let _ ← Eff.silent (Eff.ofExcept (parse_version miniverse.mc_version))
  let prioritize_release := false
  let icon_path := volume_data_path ++ ["server-icon.png"]
  Eff.silent (onDisk do
    Eff.when (!(← Disk.look (·.exists icon_path))) (Disk.write icon_path env.server_icon))
  Eff.when (!miniverse.is_on_lite_proxy) (init_proxy_mods_logged env miniverse prioritize_release)

/-! ## Without the log -/

theorem erases_automatic_mod_install (mod_id : String) (miniverse : Miniverse) (prioritize_release retry_with_latest : Bool) :
    Eff.Erases (automatic_mod_install_logged env mod_id miniverse prioritize_release retry_with_latest)
      (automatic_mod_install env mod_id miniverse prioritize_release retry_with_latest) :=
  (Eff.erases_silent _).bind fun _ => (Eff.erases_silent _).bind fun _ => (Eff.erases_silent _).bind fun _ =>
    (Eff.erases_silent _).log_returned _

theorem erases_init_proxy_mods (miniverse : Miniverse) (prioritize_release : Bool) :
    Eff.Erases (init_proxy_mods_logged env miniverse prioritize_release) (init_proxy_mods env miniverse prioritize_release) := by
  have hinstall (mod_id : String) (retry_with_latest : Bool) :=
    erases_automatic_mod_install env mod_id miniverse prioritize_release retry_with_latest
  refine (Eff.erases_silent _).bind fun _ => ?_
  cases miniverse.type with
  | fabric => exact (hinstall _ _).bind fun _ => (hinstall _ _).bind fun _ => Eff.erases_silent _
  | forge => exact (hinstall _ _).bind fun _ => Eff.erases_silent _
  | neo_forge => exact (hinstall _ _).bind fun _ => Eff.erases_silent _
  | vanilla => exact fun _ => rfl
  | paper => exact fun _ => rfl

theorem erases_init_data_path (miniverse : Miniverse) :
    Eff.Erases (init_data_path_logged env miniverse) (init_data_path env miniverse) :=
  (Eff.erases_silent _).bind fun _ => (Eff.erases_silent _).bind fun _ => Eff.Erases.when (erases_init_proxy_mods env _ _)

/-- The proxy mods that are installed, whether the function returns or raises. -/
def choices (miniverse : Miniverse) (w : World α) : List Choice := (init_data_path_logged env miniverse (w, [])).2.2

/-- What Modrinth listed for these. -/
def listings (miniverse : Miniverse) (w : World α) : List (List ModrinthProjectVersion) :=
  (choices env miniverse w).map Choice.listing

/-! ## What is chosen -/

/-- The first of the versions, sorted from the newest on. -/
def newest (listing : List ModrinthProjectVersion) : Option ModrinthProjectVersion := (listing.insertionSort Newer).head?

/-- The listing is an answer of Modrinth, and its newest version was chosen. -/
structure Newest (env : Env α) (c : Choice) : Prop where
  answered : ∃ n project_id loader game_version, env.list_project_versions n project_id loader game_version = .ok c.listing
  chosen : newest c.listing = some c.version

variable {env}

theorem answered_installable_versions (mod_id : String) (miniverse : Miniverse) (retry_with_latest : Bool) :
    (installable_versions env mod_id miniverse retry_with_latest).Returns fun listing =>
      ∃ n project_id loader game_version, env.list_project_versions n project_id loader game_version = .ok listing := by
  have hlist (game_version : Option String) : (list_project_versions env mod_id miniverse.type game_version).Returns fun listing =>
      ∃ n project_id loader game_version, env.list_project_versions n project_id loader game_version = .ok listing := by
    intro w listing w' h
    obtain ⟨n, hn⟩ := returns_ask _ _ _ _ h
    exact ⟨n, _, _, _, hn⟩
  intro w listing w' h
  obtain ⟨filtered, w₁, hfiltered, h⟩ := Eff.bind_ok h
  split at h
  · obtain ⟨full, w₂, hfull, h⟩ := Eff.bind_ok h
    obtain ⟨_, w₃, _, h⟩ := Eff.bind_ok h
    cases h
    cases retry_with_latest with
    | true => exact hlist _ _ _ _ hfull
    | false =>
        cases hfull
        exact hlist _ _ _ _ hfiltered
  · cases h
    exact hlist _ _ _ _ hfiltered

theorem sortNewest_ok {versions sorted : List ModrinthProjectVersion} (h : sortNewest versions = .ok sorted) :
    sorted = versions.insertionSort Newer := by
  unfold sortNewest at h
  split at h
  · cases h
    rfl
  · cases h

/-- The flag is never set, so nothing is filtered. -/
theorem newest_automatic_mod_install (mod_id : String) (miniverse : Miniverse) (retry_with_latest : Bool) :
    (automatic_mod_install_logged env mod_id miniverse false retry_with_latest).Keeps (Eff.Entries (Newest env)) := by
  refine Eff.Within.bind_returns (Eff.entries_silent _ _)
    (answered_installable_versions mod_id miniverse retry_with_latest).silent fun listing hanswered => ?_
  refine Eff.Within.bind_returns (Eff.entries_silent _ _) (Eff.returns_ofExcept _).silent fun sorted hsorted => ?_
  refine Eff.Within.bind_returns (Eff.entries_silent _ _) (Eff.returns_getOr _ _).silent fun version hversion => ?_
  refine (Eff.entries_silent _ _).bind fun _ => Eff.Within.bind (Eff.entries_log ⟨hanswered, ?_⟩) fun _ => Eff.Within.pure _
  rw [if_neg (fun h => Bool.false_ne_true h.1)] at hsorted
  rw [newest, ← sortNewest_ok hsorted]
  exact hversion

theorem newest_choices (miniverse : Miniverse) (w : World α) : ∀ c ∈ choices env miniverse w, Newest env c := by
  have hinstall := fun mod_id retry_with_latest => @newest_automatic_mod_install α env mod_id miniverse retry_with_latest
  have hproxy : (init_proxy_mods_logged env miniverse false).Keeps (Eff.Entries (Newest env)) := by
    refine (Eff.entries_silent _ _).bind fun _ => ?_
    cases miniverse.type with
    | fabric => exact (hinstall _ _).bind fun _ => (hinstall _ _).bind fun _ => Eff.entries_silent _ _
    | forge => exact (hinstall _ _).bind fun _ => Eff.entries_silent _ _
    | neo_forge => exact (hinstall _ _).bind fun _ => Eff.entries_silent _ _
    | vanilla => exact Eff.Within.pure _
    | paper => exact Eff.Within.pure _
  have hinit : (init_data_path_logged env miniverse).Keeps (Eff.Entries (Newest env)) :=
    (Eff.entries_silent _ _).bind fun _ => (Eff.entries_silent _ _).bind fun _ => Eff.Within.when fun _ => hproxy
  exact hinit (w, []) fun _ hc => absurd hc List.not_mem_nil

/-! ## Releases -/

def HasRelease (listing : List ModrinthProjectVersion) : Prop := ∃ v ∈ listing, v.version_type = .release

/-- A release is installed wherever one is listed. -/
def FollowsStability (env : Env α) (miniverse : Miniverse) (w : World α) : Prop :=
  ∀ c ∈ choices env miniverse w, HasRelease c.listing → c.version.version_type = .release

/-- Releases are installed exactly where the newest version is one. -/
theorem follows_stability_iff (env : Env α) (miniverse : Miniverse) (w : World α) : FollowsStability env miniverse w ↔
    ∀ listing ∈ listings env miniverse w, HasRelease listing → ∃ v, newest listing = some v ∧ v.version_type = .release := by
  have hchosen := fun c hc => (@newest_choices α env miniverse w c hc).chosen
  constructor
  · intro h listing hlisting hrelease
    obtain ⟨c, hc, rfl⟩ := List.mem_map.mp hlisting
    exact ⟨c.version, hchosen c hc, h c hc hrelease⟩
  · intro h c hc hrelease
    obtain ⟨v, hv, htype⟩ := h c.listing (List.mem_map_of_mem hc) hrelease
    exact Option.some.inj ((hchosen c hc).symm.trans hv) ▸ htype

/-- A release, and a newer beta. -/
def sampleListed : List ModrinthProjectVersion :=
  [⟨"a.jar", "p", ⟨0, true⟩, "A", "1", [], .release, []⟩, ⟨"b.jar", "p", ⟨1, true⟩, "B", "2", [], .beta, []⟩]

def sampleForge : Miniverse :=
  { (sampleCreate "1.21").toMiniverse sampleId "sample" "secret" with type := .forge, is_on_lite_proxy := false }

def sampleListing : Env String := { sampleEnv with list_project_versions := fun _ _ _ _ => .ok sampleListed }

/-- The directory of the miniverse is there. -/
def sampleForgeWorld : World String :=
  (onDisk (Disk.mkdirs (miniverse_data_path sampleEnv.toPlatform sampleId)) sampleWorld : Except PyError Unit × World String).2

set_option maxRecDepth 10000 in
/-- The beta is installed for a released game. -/
theorem beta_installed :
    ¬ ∀ (env : Env String) (miniverse : Miniverse) (w : World String), miniverse.type ∈ [MiniverseType.fabric, .forge, .neo_forge] →
      miniverse.is_on_lite_proxy = false →
      (∃ parsed, parse_version miniverse.mc_version = .ok (some parsed) ∧ parsed.type = .release) →
      FollowsStability env miniverse w := by
  intro h
  have hfollows := h sampleListing sampleForge sampleForgeWorld (by decide) rfl ⟨_, rfl, rfl⟩
  have hbeta : ∃ c ∈ choices sampleListing sampleForge sampleForgeWorld,
      (∃ v ∈ c.listing, v.version_type = .release) ∧ c.version.version_type ≠ .release := by decide
  obtain ⟨c, hc, hlisted, hbeta⟩ := hbeta
  exact hbeta (hfollows c hc hlisted)

end Backend
