import Mathlib.Data.List.Sort
import Miniverse.Mods.Lemmas.Check
import Miniverse.Mods.Lemmas.Files

/-!
# The listings that are consulted, and the newest of their versions
-/

namespace Backend

open Lib

variable {α : Type} {env : Env α} {loader : MiniverseType} {game_version : String} {mod : Mod} {w : World α}

/-- Modrinth gives every date with its time zone. -/
def DatesAware (env : Env α) : Prop :=
  ∀ {n project_id loader game_version versions}, env.list_project_versions n project_id loader game_version = .ok versions →
    ∀ v ∈ versions, v.date_published.aware = true

/-! ## Sorting -/

/-- The first is published no earlier. -/
abbrev Newer (u v : ModrinthProjectVersion) : Prop := v.date_published.time ≤ u.date_published.time

instance : Std.Total Newer := ⟨fun u v => Int.le_total v.date_published.time u.date_published.time⟩

instance : IsTrans ModrinthProjectVersion Newer := ⟨fun _ _ _ h₁ h₂ => Int.le_trans h₂ h₁⟩

theorem sortNewest_aware {versions : List ModrinthProjectVersion} (h : ∀ v ∈ versions, v.date_published.aware = true) :
    ∃ sorted, sortNewest versions = .ok sorted ∧ sorted.Perm versions ∧ sorted.Pairwise Newer := by
  refine ⟨versions.insertionSort Newer, ?_, List.perm_insertionSort _ _, List.pairwise_insertionSort _ _⟩
  refine if_pos (List.all_eq_true.mpr fun v hv => ?_)
  cases versions with
  | nil => cases hv
  | cons u us => simp [h v hv, h u List.mem_cons_self]

/-- Nothing that is looked for is newer than what is found first. -/
theorem newest_of_find {p : ModrinthProjectVersion → Bool} {sorted : List ModrinthProjectVersion} {v : ModrinthProjectVersion}
    (hsorted : sorted.Pairwise Newer) (hfind : sorted.find? p = some v) : ∀ u ∈ sorted, p u = true → Newer v u := by
  induction hsorted with
  | nil => cases hfind
  | @cons a l ha _ ih =>
      rw [List.find?_cons] at hfind
      cases hp : p a with
      | true =>
          simp only [hp, Option.some.injEq] at hfind
          subst hfind
          intro u hu _
          rcases List.mem_cons.mp hu with rfl | hu
          · exact Int.le_refl _
          · exact ha u hu
      | false =>
          simp only [hp] at hfind
          intro u hu hpu
          rcases List.mem_cons.mp hu with rfl | hu
          · rw [hp] at hpu
            cases hpu
          · exact ih hfind u hu hpu

/-! ## The check of one mod -/

/-- The answer to the first request about a mod, which is for the game version. -/
def firstListing (env : Env α) (loader : MiniverseType) (game_version : String) (mod : Mod) (n : Nat) :
    Except PyError (List ModrinthProjectVersion) :=
  env.list_project_versions n (mod.project_id.getD "None") (some loader)
    ((some game_version).filter fun v => decide (v ≠ ""))

/-- The listing that a check works on: the first one, and the full one when the first is empty. -/
def consulted (env : Env α) (loader : MiniverseType) (game_version : String) (mod : Mod) (n : Nat) :
    Except PyError (List ModrinthProjectVersion) :=
  if firstListing env loader game_version mod n = .ok [] then fullListing env loader mod (n + 1)
  else firstListing env loader game_version mod n

/-- The tick after a check. -/
def consultedTick (env : Env α) (loader : MiniverseType) (game_version : String) (mod : Mod) (n : Nat) : Nat :=
  if firstListing env loader game_version mod n = .ok [] then n + 2 else n + 1

/-- What an entry has to say about a mod, from the listing that was consulted or the failure of a request. -/
structure Analysed (game_version : String) (mod : Mod) (listing : Except PyError (List ModrinthProjectVersion))
    (info : ModUpdateInfo) : Prop where
  error : info.update_status = .error ↔ ∀ versions, listing = .ok versions → versions = []
  no_compatible_versions : info.update_status = .no_compatible_versions ↔
    ∃ versions, listing = .ok versions ∧ versions ≠ [] ∧ ∀ v ∈ versions, ¬ Stops game_version mod v
  /-- Without a compatible version, all are given from the newest on. -/
  newest_first : info.update_status = .no_compatible_versions → ∃ versions, ∃ sorted : List ModrinthProjectVersion,
    listing = .ok versions ∧ sorted.Perm versions ∧ sorted.Pairwise Newer ∧
    info.new_versions_ids = sorted.map (·.id) ∧ info.game_versions = sorted.map (·.game_versions)
  /-- Otherwise the entry names a latest one of those that list the game version or are installed. -/
  latest : info.update_status ≠ .error → info.update_status ≠ .no_compatible_versions →
    ∃ versions version, listing = .ok versions ∧ version ∈ versions ∧ Stops game_version mod version ∧
      (∀ v ∈ versions, Stops game_version mod v → Newer version v) ∧
      info.new_versions_ids = [version.id] ∧ info.game_versions = [version.game_versions] ∧
      (info.update_status = .already_up_to_date ↔ some version.id = mod.version_id)

theorem analysed_error {listing : Except PyError (List ModrinthProjectVersion)}
    (h : ∀ versions, listing = .ok versions → versions = []) : Analysed game_version mod listing ⟨.error, [], []⟩ where
  error := ⟨fun _ => h, fun _ => rfl⟩
  no_compatible_versions := ⟨nofun, fun ⟨versions, hlisting, hne, _⟩ => absurd (h versions hlisting) hne⟩
  newest_first := nofun
  latest hne := absurd rfl hne

theorem update_info_stops (sorted : List ModrinthProjectVersion) : update_info mod game_version sorted =
    ((sorted.find? fun v => decide (Stops game_version mod v)).elim
      ⟨.no_compatible_versions, sorted.map (·.id), sorted.map (·.game_versions)⟩ fun version =>
        if some version.id = mod.version_id then ⟨.already_up_to_date, [version.id], [version.game_versions]⟩
        else ⟨.update_available, [version.id], [version.game_versions]⟩) := by
  have hstops : (fun v : ModrinthProjectVersion => decide (game_version ∈ v.game_versions ∨ some v.id = mod.version_id)) =
      fun v => decide (Stops game_version mod v) := rfl
  rw [update_info, hstops]
  cases sorted.find? fun v => decide (Stops game_version mod v) with
  | none => rfl
  | some version => rfl

theorem analysed_update_info {versions sorted : List ModrinthProjectVersion} (hne : versions ≠ [])
    (hperm : sorted.Perm versions) (hsorted : sorted.Pairwise Newer) :
    Analysed game_version mod (.ok versions) (update_info mod game_version sorted) := by
  have hfound : ¬ ∀ vs, Except.ok (ε := PyError) versions = .ok vs → vs = [] := fun h => hne (h versions rfl)
  rw [update_info_stops]
  cases hfind : sorted.find? fun v => decide (Stops game_version mod v) with
  | none =>
      have hnone : ∀ v ∈ versions, ¬ Stops game_version mod v := fun v hv => by
        simpa using List.find?_eq_none.mp hfind v (hperm.mem_iff.mpr hv)
      rw [Option.elim_none]
      exact
        { error := iff_of_false (by simp) hfound
          no_compatible_versions := iff_of_true rfl ⟨versions, rfl, hne, hnone⟩
          newest_first := fun _ => ⟨versions, sorted, rfl, hperm, hsorted, rfl, rfl⟩
          latest := fun _ h => absurd rfl h }
  | some version =>
      have hmem : version ∈ versions := hperm.mem_iff.mp (List.mem_of_find?_eq_some hfind)
      have hstop : Stops game_version mod version := by simpa using List.find?_some hfind
      have hnewest : ∀ v ∈ versions, Stops game_version mod v → Newer version v := fun v hv hstop =>
        newest_of_find hsorted hfind v (hperm.mem_iff.mpr hv) (by simpa using hstop)
      have hsome : ¬ ∃ vs, Except.ok (ε := PyError) versions = .ok vs ∧ vs ≠ [] ∧ ∀ v ∈ vs, ¬ Stops game_version mod v := by
        rintro ⟨vs, hvs, _, hnone⟩
        cases hvs
        exact hnone version hmem hstop
      rw [Option.elim_some]
      by_cases hid : some version.id = mod.version_id
      · rw [if_pos hid]
        exact
          { error := iff_of_false (by simp) hfound
            no_compatible_versions := iff_of_false (by simp) hsome
            newest_first := fun h => absurd h (by simp)
            latest := fun _ _ => ⟨versions, version, rfl, hmem, hstop, hnewest, rfl, rfl, iff_of_true rfl hid⟩ }
      · rw [if_neg hid]
        exact
          { error := iff_of_false (by simp) hfound
            no_compatible_versions := iff_of_false (by simp) hsome
            newest_first := fun h => absurd h (by simp)
            latest := fun _ _ => ⟨versions, version, rfl, hmem, hstop, hnewest, rfl, rfl, iff_of_false (by simp) hid⟩ }

variable (game_version mod) in
theorem analysed_sorted (hdated : DatesAware env) {n : Nat} {project_id : String} {filter : Option String}
    {versions : List ModrinthProjectVersion}
    (h : env.list_project_versions n project_id (some loader) filter = .ok versions) (hne : versions ≠ []) :
    ∃ sorted, sortNewest versions = .ok sorted ∧ Analysed game_version mod (.ok versions) (update_info mod game_version sorted) := by
  obtain ⟨sorted, hsort, hperm, hsorted⟩ := sortNewest_aware (hdated h)
  exact ⟨sorted, hsort, analysed_update_info hne hperm hsorted⟩

/-- The check of a mod ends with an entry, whatever the answers are. -/
theorem tryCheck_analysed (hdated : DatesAware env) (loader : MiniverseType) (game_version : String) (mod : Mod) (w : World α) :
    ∃ info, tryCheck env loader game_version mod w =
        (.ok info, { w with tick := consultedTick env loader game_version mod w.tick }) ∧
      Analysed game_version mod (consulted env loader game_version mod w.tick) info := by
  have hlist (w : World α) : list_project_versions env (mod.project_id.getD "None") loader (some game_version) w =
      ask (firstListing env loader game_version mod) w := rfl
  cases hfirst : firstListing env loader game_version mod w.tick with
  | error e =>
      rw [consultedTick, consulted, hfirst, if_neg nofun, if_neg nofun]
      refine ⟨_, Eff.attempt_error (Eff.bind_run_error ((hlist w).trans (ask_error hfirst)) _) _, analysed_error nofun⟩
  | ok versions =>
      have hask := (hlist w).trans (ask_ok hfirst)
      cases versions with
      | cons v vs =>
          rw [consultedTick, consulted, hfirst, if_neg nofun, if_neg nofun]
          obtain ⟨sorted, hsort, hanalysed⟩ := analysed_sorted game_version mod hdated hfirst
            (List.cons_ne_nil v vs)
          refine ⟨_, Eff.attempt_ok ?_ _, hanalysed⟩
          rw [check_mod, Eff.bind_run_ok hask, if_neg nofun, Eff.pure_bind_run, if_neg nofun, hsort]
          rfl
      | nil =>
          rw [consultedTick, consulted, hfirst, if_pos rfl, if_pos rfl]
          have hrest : check_mod env loader game_version mod w = (do
              let versions ← list_project_versions env (mod.project_id.getD "None") loader none
              if versions.isEmpty then return ⟨.error, [], []⟩
              else return update_info mod game_version (← Eff.ofExcept (sortNewest versions)) : Act α ModUpdateInfo) w.next := by
            rw [check_mod, Eff.bind_run_ok hask]
            rfl
          cases hfull : fullListing env loader mod (w.tick + 1) with
          | error e =>
              have hask' : (list_project_versions env (mod.project_id.getD "None") loader none) w.next =
                  (.error e, w.next.next) := ask_error hfull
              exact ⟨_, Eff.attempt_error (hrest.trans (Eff.bind_run_error hask' _)) _, analysed_error nofun⟩
          | ok versions =>
              have hask' : (list_project_versions env (mod.project_id.getD "None") loader none) w.next =
                  (.ok versions, w.next.next) := ask_ok hfull
              cases versions with
              | nil =>
                  refine ⟨_, Eff.attempt_ok (hrest.trans ?_) _, analysed_error fun vs h => (Except.ok.inj h).symm⟩
                  rw [Eff.bind_run_ok hask']
                  rfl
              | cons v vs =>
                  obtain ⟨sorted, hsort, hanalysed⟩ := analysed_sorted game_version mod hdated hfull
                    (List.cons_ne_nil v vs)
                  refine ⟨_, Eff.attempt_ok (hrest.trans ?_) _, hanalysed⟩
                  rw [Eff.bind_run_ok hask', if_neg nofun, hsort]
                  rfl

/-! ## All mods -/

/-- The mods with the ticks of their checks. -/
def consultedTicks (env : Env α) (loader : MiniverseType) (game_version : String) : List Mod → Nat → List (Mod × Nat)
  | [], _ => []
  | mod :: mods, n => (mod, n) :: consultedTicks env loader game_version mods (consultedTick env loader game_version mod n)

theorem consultedTicks_fst (env : Env α) (loader : MiniverseType) (game_version : String) (mods : List Mod) (n : Nat) :
    (consultedTicks env loader game_version mods n).map Prod.fst = mods := by
  induction mods generalizing n with
  | nil => rfl
  | cons mod mods ih => rw [consultedTicks, List.map_cons, ih]

/-- The entry for a mod whose check starts at a tick. -/
def AnalysedEntry (env : Env α) (loader : MiniverseType) (game_version : String) (p : Mod × Nat) (u : Uuid4 × ModUpdateInfo) :
    Prop :=
  u.1 = p.1.id ∧ Analysed game_version p.1 (consulted env loader game_version p.1 p.2) u.2

theorem keys_of_analysed {ps : List (Mod × Nat)} {updates : List (Uuid4 × ModUpdateInfo)}
    (h : List.Forall₂ (AnalysedEntry env loader game_version) ps updates) :
    updates.map Prod.fst = (ps.map Prod.fst).map (·.id) := by
  induction h with
  | nil => rfl
  | cons hentry _ ih => rw [List.map_cons, List.map_cons, List.map_cons, ih, hentry.1]

theorem entry_of_analysed {ps : List (Mod × Nat)} {updates : List (Uuid4 × ModUpdateInfo)}
    (h : List.Forall₂ (AnalysedEntry env loader game_version) ps updates) {p : Mod × Nat} (hp : p ∈ ps) :
    ∃ u ∈ updates, AnalysedEntry env loader game_version p u := by
  induction h with
  | nil => cases hp
  | cons hentry _ ih =>
      rcases List.mem_cons.mp hp with rfl | hp
      · exact ⟨_, List.mem_cons_self, hentry⟩
      · obtain ⟨u, hu, hentry⟩ := ih hp
        exact ⟨u, List.mem_cons_of_mem _ hu, hentry⟩

theorem tryChecks_analysed (hdated : DatesAware env) (loader : MiniverseType) (game_version : String) (mods : List Mod)
    (w : World α) : ∃ updates n, (mods.mapM fun mod => do return (mod.id, ← tryCheck env loader game_version mod) :
        Act α (List (Uuid4 × ModUpdateInfo))) w = (.ok updates, { w with tick := n }) ∧
      List.Forall₂ (AnalysedEntry env loader game_version) (consultedTicks env loader game_version mods w.tick) updates := by
  induction mods generalizing w with
  | nil => exact ⟨[], w.tick, rfl, .nil⟩
  | cons mod mods ih =>
      obtain ⟨info, hrun, hanalysed⟩ := tryCheck_analysed hdated loader game_version mod w
      obtain ⟨updates, n, hrest, hentries⟩ := ih { w with tick := consultedTick env loader game_version mod w.tick }
      refine ⟨(mod.id, info) :: updates, n, ?_, .cons ⟨rfl, hanalysed⟩ hentries⟩
      rw [List.mapM_cons, bind_assoc, Eff.bind_run_ok hrun, Eff.pure_bind_run, Eff.bind_run_ok hrest]
      rfl

/-! ## The version that is installed -/

/-- The error of an installation without versions to choose from. -/
def noCompatibleVersions (mod_id : String) (miniverse : Miniverse) : PyError :=
  .validation ("No compatible versions found for mod " ++ mod_id ++ " with loader " ++ miniverse.type.str ++
    " and game version " ++ miniverse.mc_version)

/-- A latest version of the listing, or with `prioritize_release` a latest of its releases if it has some. -/
def Preferred (prioritize_release : Bool) (listing : List ModrinthProjectVersion) (version : ModrinthProjectVersion) : Prop :=
  version ∈ listing ∧
    if prioritize_release = true ∧ ∃ v ∈ listing, v.version_type = .release then
      version.version_type = .release ∧ ∀ v ∈ listing, v.version_type = .release → Newer version v
    else ∀ v ∈ listing, Newer version v

theorem head_newest {sorted : List ModrinthProjectVersion} (hsorted : sorted.Pairwise Newer) (hne : sorted ≠ []) :
    ∃ version, sorted.head? = some version ∧ version ∈ sorted ∧ ∀ v ∈ sorted, Newer version v := by
  cases hsorted with
  | nil => exact absurd rfl hne
  | @cons version rest hnewer _ =>
      refine ⟨version, rfl, List.mem_cons_self, fun v hv => ?_⟩
      rcases List.mem_cons.mp hv with rfl | hv
      · exact Int.le_refl _
      · exact hnewer v hv

/-- The filter for releases falls back to the listing, and the first of the sorted versions is taken. -/
theorem preferred_of_sorted {listing : List ModrinthProjectVersion} (hne : listing ≠ [])
    (haware : ∀ v ∈ listing, v.date_published.aware = true) (prioritize_release : Bool) :
    ∃ sorted version,
      sortNewest (if prioritize_release = true ∧ (listing.filter fun v => decide (v.version_type = .release)) ≠ [] then
        listing.filter fun v => decide (v.version_type = .release) else listing) = .ok sorted ∧
      sorted.head? = some version ∧ Preferred prioritize_release listing version := by
  have hreleases : (listing.filter fun v => decide (v.version_type = .release)) ≠ [] ↔
      ∃ v ∈ listing, v.version_type = .release := by
    rw [Ne, List.filter_eq_nil_iff]
    simp
  by_cases hcond : prioritize_release = true ∧ ∃ v ∈ listing, v.version_type = .release
  · have hsome := hreleases.mpr hcond.2
    rw [if_pos ⟨hcond.1, hsome⟩]
    obtain ⟨sorted, hsort, hperm, hsorted⟩ := sortNewest_aware fun v hv => haware v (List.mem_filter.mp hv).1
    obtain ⟨version, hhead, hmem, hnewest⟩ := head_newest hsorted fun h => hsome (List.perm_nil.mp (h ▸ hperm.symm))
    have hrelease := List.mem_filter.mp (hperm.mem_iff.mp hmem)
    refine ⟨sorted, version, hsort, hhead, hrelease.1, ?_⟩
    rw [if_pos hcond]
    refine ⟨by simpa using hrelease.2, fun v hv hrelease => ?_⟩
    exact hnewest v (hperm.mem_iff.mpr (List.mem_filter.mpr ⟨hv, by simpa using hrelease⟩))
  · rw [if_neg fun h => hcond ⟨h.1, hreleases.mp h.2⟩]
    obtain ⟨sorted, hsort, hperm, hsorted⟩ := sortNewest_aware haware
    obtain ⟨version, hhead, hmem, hnewest⟩ := head_newest hsorted fun h => hne (List.perm_nil.mp (h ▸ hperm.symm))
    refine ⟨sorted, version, hsort, hhead, hperm.mem_iff.mp hmem, ?_⟩
    rw [if_neg hcond]
    exact fun v hv => hnewest v (hperm.mem_iff.mpr hv)

/-- With a listing to choose from, what is left is the installation of the preferred version. -/
theorem automatic_mod_install_of_listing {mod_id : String} {miniverse : Miniverse} {prioritize_release retry_with_latest : Bool}
    {listing : List ModrinthProjectVersion} {w' : World α}
    (hrun : installable_versions env mod_id miniverse retry_with_latest w = (.ok listing, w')) (hne : listing ≠ [])
    (haware : ∀ v ∈ listing, v.date_published.aware = true) :
    ∃ version, Preferred prioritize_release listing version ∧
      automatic_mod_install env mod_id miniverse prioritize_release retry_with_latest w =
        install_mod env version.id miniverse.id w' := by
  obtain ⟨sorted, version, hsort, hhead, hpreferred⟩ := preferred_of_sorted hne haware prioritize_release
  refine ⟨version, hpreferred, ?_⟩
  unfold automatic_mod_install
  rw [Eff.bind_run_ok hrun, hsort, Eff.ofExcept_ok_bind, hhead, Eff.getOr_some_bind]

end Backend
