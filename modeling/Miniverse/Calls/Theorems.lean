import Miniverse.Calls.Lemmas.Controllers
import Miniverse.Calls.Lemmas.RoutesFile
import Miniverse.Proxy.Theorems

/-!
# Theorems about runs of calls
-/

namespace Backend

open Lib

variable {α : Type} {env : Env α}

/-! ## Routes -/

/-- A creation asks for a subdomain that no row has. -/
def UnusedSubdomain (w : World α) (c : MiniverseCall) : Prop :=
  ∀ s, c.created = some s → ∀ r ∈ w.db.miniverses, r.subdomain ≠ s

/-- After a run whose creations ask for unused subdomains, every miniverse has its own route. -/
theorem miniverses_routed {w : World α} (hstart : Distinct w.db.addresses) {calls : List MiniverseCall}
    (hmeets : Meets (MiniverseCall.perform env) UnusedSubdomain calls w) :
    ((runs (MiniverseCall.perform env) calls w).db.miniverses.map (·.subdomain)).Nodup ∧
      generate_router_routes env (runs (MiniverseCall.perform env) calls w).db.miniverses =
        (runs (MiniverseCall.perform env) calls w).db.miniverses.map fun m =>
          (m.subdomain ++ "." ++ env.DOMAIN_NAME, router_address m) := by
  have hdistinct : Distinct (runs (MiniverseCall.perform env) calls w).db.addresses := by
    refine runs_invariant (I := fun w => Distinct w.db.addresses) (fun w c hunused h => ?_) hmeets hstart
    refine h.step (call_addresses h.ids c) fun s hs hmem => ?_
    rw [subdomains_addresses] at hmem
    obtain ⟨r, hr, heq⟩ := List.mem_map.mp hmem
    exact hunused s hs r hr heq
  have hsubdomains := hdistinct.subdomains
  rw [subdomains_addresses] at hsubdomains
  exact ⟨hsubdomains, generate_router_routes_distinct hsubdomains⟩

/-- The first miniverse gets the least identifier, the next one another. -/
def sampleIdsEnv : Env String := { sampleEnv with uuid4 := fun n => if n = 0 then sampleId else sampleIdE }

def sampleCreations (first second : String) : List MiniverseCall :=
  [.create_miniverse { sampleCreate "1.21.8" with subdomain := some first } sampleModerator,
    .create_miniverse { sampleCreate "1.21.8" with subdomain := some second } sampleModerator]

theorem distinct_sampleWorld : Distinct sampleWorld.db.addresses := ⟨List.nodup_nil, List.nodup_nil⟩

set_option maxRecDepth 10000 in
theorem miniverses_routed_sample :
    ((runs (MiniverseCall.perform sampleIdsEnv) (sampleCreations "a" "b") sampleWorld).db.miniverses.map
        (·.subdomain)).Nodup ∧
      generate_router_routes sampleIdsEnv
          (runs (MiniverseCall.perform sampleIdsEnv) (sampleCreations "a" "b") sampleWorld).db.miniverses =
        (runs (MiniverseCall.perform sampleIdsEnv) (sampleCreations "a" "b") sampleWorld).db.miniverses.map fun m =>
          (m.subdomain ++ "." ++ sampleIdsEnv.DOMAIN_NAME, router_address m) := by
  refine miniverses_routed distinct_sampleWorld ⟨fun s _ r hr => ?_, fun s hs r hr => ?_, trivial⟩
  · cases hr
  · obtain rfl : "b" = s := Option.some.inj hs
    have hother : ∀ r ∈ ((MiniverseCall.create_miniverse { sampleCreate "1.21.8" with subdomain := some "a" }
        sampleModerator).perform sampleIdsEnv sampleWorld).2.db.miniverses, r.subdomain ≠ "b" := by decide
    exact hother r hr

set_option maxRecDepth 10000 in
/-- Two creations with one subdomain both return. -/
theorem miniverses_share_route :
    ¬ ∀ (env : Env String) (w : World String) (calls : List MiniverseCall), w.db.miniverses = [] →
      Meets (MiniverseCall.perform env) (fun w c => Succeeds (c.perform env) w) calls w →
      ((runs (MiniverseCall.perform env) calls w).db.miniverses.map (·.subdomain)).Nodup := by
  intro h
  have hsecond := h sampleIdsEnv sampleWorld (sampleCreations "a" "a") rfl
    ⟨⟨(), _, Prod.ext (by decide) rfl⟩, ⟨(), _, Prod.ext (by decide) rfl⟩, trivial⟩
  revert hsecond
  decide

/-! ## The file of the routes -/

/-- In a run whose calls get to the routes after they changed the addresses, the file always holds the routes of the
rows. -/
theorem routes_file_follows_rows {w : World α} (hids : (w.db.addresses.map Prod.fst).Nodup)
    (hjars : ∀ r ∈ w.db.mods, IsJar r.file_name) (hstart : InStep env w) {calls : List MiniverseCall}
    (hmeets : Meets (MiniverseCall.perform env) (RoutesWritten env) calls w) :
    InStep env (runs (MiniverseCall.perform env) calls w) := by
  have hinv := runs_invariant (I := fun w => (w.db.addresses.map Prod.fst).Nodup ∧ Routed env w)
    (fun w c hwritten h => ⟨(call_addresses h.1 c).ids h.1, call_routed h.1 h.2 hwritten⟩) hmeets ⟨hids, hjars, hstart⟩
  exact hinv.2.inStep

/-- A state with a file of the routes, without routes. -/
def sampleRouted : World String :=
  { sampleWorld with
    disk := ⟨⟨[([], .dir), (["srv"], .dir), (["srv", "proxy"], .dir), (["srv", "proxy", "routes.json"], .file "")],
      by decide, by decide, by decide, by decide⟩, []⟩ }

set_option maxRecDepth 10000 in
theorem routes_file_follows_sample :
    InStep sampleEnv (runs (MiniverseCall.perform sampleEnv)
      [.create_miniverse (sampleCreate "1.21.8") sampleModerator] sampleRouted) := by
  refine @routes_file_follows_rows _ sampleEnv sampleRouted List.nodup_nil (fun r hr => absurd hr List.not_mem_nil) rfl _
    ⟨fun _ => ⟨⟨rfl, fun q hq => ?_, ?_⟩, 5, .new List.not_mem_nil (c := some (-1)) (by decide), ?_⟩, trivial⟩
  · by_contra hfile
    obtain ⟨x, hx⟩ := FileTree.isFile_iff.mp (by simpa using hfile)
    have hentry := FileTree.get_eq_some.mp hx
    have hroutes : q = ["srv", "proxy", "routes.json"] := by
      simp [sampleRouted] at hentry
      exact hentry.1
    rw [hroutes] at hq
    exact absurd hq (by decide)
  · exact ⟨⟨"1.21.8", .release, .old, 1, 21, 8, .number 0, none⟩, by decide⟩
  · exact .new rfl (fun _ c hc => absurd hc List.not_mem_nil) rfl (fun c hc => absurd hc List.not_mem_nil) rfl rfl rfl

/-- From the seventh answer on the Docker daemon fails. -/
def sampleDockerless : Env String := { sampleEnv with docker := fun n => if n < 6 then .ok () else .error .docker }

set_option maxRecDepth 10000 in
/-- The container of a new miniverse cannot be created: the row stays, without a route. -/
theorem routes_file_misses_row :
    ¬ ∀ (env : Env String) (w : World String) (calls : List MiniverseCall), (∀ n, env.commit n = .ok ()) → InStep env w →
      InStep env (runs (MiniverseCall.perform env) calls w) := by
  intro h
  have hmissed := h sampleDockerless sampleRouted [.create_miniverse (sampleCreate "1.21.8") sampleModerator]
    (fun _ => rfl) rfl
  unfold InStep at hmissed
  revert hmissed
  decide

/-! ## The classes of the controllers -/

/-- In a run of calls that return, whose updates leave each version on its side of the threshold, the controllers are of
the classes that a new process would choose. -/
theorem controllers_follow_versions {all_versions : List MinecraftVersion}
    (hversions : ∀ n, env.get_minecraft_versions n = .ok all_versions) {w : World α}
    (hids : (w.db.addresses.map Prod.fst).Nodup) (hstart : Fitting all_versions w) {calls : List MiniverseCall}
    (hmeets : Meets (MiniverseCall.perform env)
      (fun w c => Succeeds (c.perform env) w ∧ SameSide all_versions w c) calls w) :
    ∀ r ∈ (runs (MiniverseCall.perform env) calls w).db.miniverses,
      ∃ b, registeredClass (runs (MiniverseCall.perform env) calls w) r = some b ∧
        ∀ b', chosenClass env (runs (MiniverseCall.perform env) calls w) r = some b' → b' = b := by
  have hinv := runs_invariant (I := fun w => (w.db.addresses.map Prod.fst).Nodup ∧ Fitting all_versions w)
    (fun w c hc h => ⟨(call_addresses h.1 c).ids h.1, call_fitting hversions h.1 h.2 hc.1 hc.2⟩) hmeets ⟨hids, hstart⟩
  intro r hr
  obtain ⟨b, hb, hfits⟩ := hinv.2.registeredClass hr
  refine ⟨b, hb, fun b' hb' => ?_⟩
  rw [Bool.eq_iff_iff, hfits]
  exact chosenClass_fits hversions hb'

/-- A new miniverse that then gets another version. -/
def sampleVersions (first second : String) : List MiniverseCall :=
  [.create_miniverse (sampleCreate first) sampleModerator,
    .update_miniverse sampleId.str ⟨none, none, none, none, none, none, some second⟩]

theorem fitting_sampleWorld : Fitting [] sampleWorld where
  registered _ hr := nomatch hr
  owned _ he := nomatch he
  fits _ hr := nomatch hr

set_option maxRecDepth 10000 in
theorem controllers_follow_sample :
    ∃ r ∈ (runs (MiniverseCall.perform sampleEnv) (sampleVersions "1.21.7" "1.21.8") sampleWorld).db.miniverses,
      ∃ b, registeredClass (runs (MiniverseCall.perform sampleEnv) (sampleVersions "1.21.7" "1.21.8") sampleWorld) r =
          some b ∧
        ∀ b', chosenClass sampleEnv
          (runs (MiniverseCall.perform sampleEnv) (sampleVersions "1.21.7" "1.21.8") sampleWorld) r = some b' → b' = b := by
  obtain ⟨r, hr⟩ := List.exists_mem_of_ne_nil (runs (MiniverseCall.perform sampleEnv) (sampleVersions "1.21.7" "1.21.8")
    sampleWorld).db.miniverses (List.ne_nil_of_length_pos (by decide))
  refine ⟨r, hr, ?_⟩
  revert r
  refine controllers_follow_versions (fun _ => rfl) distinct_sampleWorld.ids fitting_sampleWorld
    ⟨⟨⟨(), _, Prod.ext (by decide) rfl⟩, trivial⟩, ⟨⟨(), _, Prod.ext (by decide) rfl⟩, fun m hm v hv => ?_⟩, trivial⟩
  have hrow : (((MiniverseCall.create_miniverse (sampleCreate "1.21.7") sampleModerator).perform sampleEnv
      sampleWorld).2.db.findMiniverse sampleId.str).map (·.mc_version) = some "1.21.7" := by decide
  rw [hm, Option.map_some, Option.some.injEq] at hrow
  obtain rfl : "1.21.8" = v := Option.some.inj hv
  rw [hrow]
  unfold SupportsWebSockets
  decide

set_option maxRecDepth 10000 in
/-- An update across the threshold keeps the controller of the old version. -/
theorem controllers_keep_old_class :
    ¬ ∀ (env : Env String) (all_versions : List MinecraftVersion) (w : World String) (calls : List MiniverseCall),
      (∀ n, env.get_minecraft_versions n = .ok all_versions) → w.db.miniverses = [] → w.controllers = [] →
      Meets (MiniverseCall.perform env) (fun w c => Succeeds (c.perform env) w) calls w →
      ∀ r ∈ (runs (MiniverseCall.perform env) calls w).db.miniverses,
        ∃ b, registeredClass (runs (MiniverseCall.perform env) calls w) r = some b ∧
          ∀ b', chosenClass env (runs (MiniverseCall.perform env) calls w) r = some b' → b' = b := by
  intro h
  have hclasses := h sampleEnv [] sampleWorld (sampleVersions "1.21.8" "1.21.10") (fun _ => rfl) rfl rfl
    ⟨⟨(), _, Prod.ext (by decide) rfl⟩, ⟨(), _, Prod.ext (by decide) rfl⟩, trivial⟩
  generalize hw : runs (MiniverseCall.perform sampleEnv) (sampleVersions "1.21.8" "1.21.10") sampleWorld = w at hclasses
  have hdiffer : w.db.miniverses.map (fun r => (registeredClass w r, chosenClass sampleEnv w r)) =
      [(some false, some true)] := by
    rw [← hw]
    decide
  obtain ⟨r, hr, heq⟩ := List.mem_map.mp (hdiffer ▸ List.mem_singleton_self (some false, some true))
  obtain ⟨hregistered, hchosen⟩ := Prod.mk.injEq .. ▸ heq
  obtain ⟨b, hb, hall⟩ := hclasses r hr
  rw [hregistered] at hb
  cases hb
  cases hall true hchosen

end Backend
