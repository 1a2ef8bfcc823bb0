import Miniverse.Miniverses.Service
import Miniverse.Mods.Lemmas.Rules

/-!
# What the functions on miniverses do

The functions that start, stop and update a miniverse stay within every calm relation that allows what they do to its
row, its controller and its files. `Good` are the versions for which the relation allows a row.
-/

namespace Backend

open Lib

variable {α β : Type} {env : Env α} {R : World α → World α → Prop} {id : Uuid4} {Safe : String → Prop}
  {Good : String → Prop}

def Controller.isWebSocket : Controller → Bool
  | webSocket _ => true
  | mcRouter _ => false

theorem Controller.isWebSocket_start (c : Controller) : c.start.isWebSocket = c.isWebSocket := by
  cases c <;> rfl

/-- What starting and stopping do to the row and the controller, which keeps its class, for objects that satisfy
`Keep`. -/
structure AllowsObject (R : World α → World α → Prop) (id : Uuid4) (Keep : Miniverse → Prop) : Prop where
  save : ∀ {w : World α} {m : Miniverse}, m.id = id → Keep m → R w { w with db := w.db.saveMiniverse m }
  control : ∀ {w : World α} {c c' : Controller}, (w.service id.str).map Prod.snd = some c →
    c'.isWebSocket = c.isWebSocket → R w (w.setController id c')
  state : ∀ {m : Miniverse} (started : Bool) (container_id : Option String), Keep m →
    Keep { m with started := started, container_id := container_id }

/-- What starting does to the files and the mods. -/
structure AllowsData (env : Env α) (R : World α → World α → Prop) (id : Uuid4) (Safe : String → Prop) : Prop
    extends AllowsMods env R id Safe where
  mkdirs_below : ∀ p, miniverse_data_path env.toPlatform id <+: p → (onDisk (Disk.mkdirs p) : Act α Unit).Within R
  write_below : ∀ p x, miniverse_data_path env.toPlatform id <+: p → (onDisk (Disk.write p x) : Act α Unit).Within R

/-- What starting and stopping do, for rows with some versions. -/
structure AllowsRow (R : World α → World α → Prop) (id : Uuid4) (Good : String → Prop) : Prop where
  save_row : ∀ {w : World α} {m : Miniverse}, m.id = id → Good m.mc_version →
    R w { w with db := w.db.saveMiniverse m }
  control : ∀ (w : World α) (c : Controller), R w (w.setController id c)

structure AllowsMiniverse (env : Env α) (R : World α → World α → Prop) (id : Uuid4) (Safe Good : String → Prop) : Prop
    extends AllowsMods env R id Safe, AllowsRow R id Good where
  found : ∀ {w w' : World α} {m : Miniverse}, m ∈ w.db.miniverses → m.id = id → (Good m.mc_version → R w w') → R w w'
  remove_mod : ∀ {w : World α} {mod : Mod}, mod ∈ w.db.mods → mod.miniverse_id = id →
    R w { w with db := { w.db with mods := w.db.mods.filter fun r => decide (r.id ≠ mod.id) } }
  compared : ∀ {n v₁ v₂ c}, compare_versions (env.get_minecraft_versions n) v₁ v₂ = .ok (some c) → v₁ ≠ v₂ → Good v₂
  mkdirs_below : ∀ p, miniverse_data_path env.toPlatform id <+: p → (onDisk (Disk.mkdirs p) : Act α Unit).Within R
  write_below : ∀ p x, miniverse_data_path env.toPlatform id <+: p → (onDisk (Disk.write p x) : Act α Unit).Within R
  routes : (update_proxy_config env).Within R

theorem AllowsRow.toObject (h : AllowsRow R id Good) : AllowsObject R id fun m => Good m.mc_version where
  save hid hgood := h.save_row hid hgood
  control _ _ := h.control _ _
  state _ _ hgood := hgood

theorem AllowsMiniverse.toData (h : AllowsMiniverse env R id Safe Good) : AllowsData env R id Safe where
  toAllowsMods := h.toAllowsMods
  mkdirs_below := h.mkdirs_below
  write_below := h.write_below

/-! ## The mods of an upgrade -/

theorem hasMod_saveMod {w : World α} {mod mod' : Mod} (hid : mod'.miniverse_id = id) (h : HasMod id mod w) :
    HasMod id mod { w with db := w.db.saveMod mod' } := by
  obtain ⟨r, hr, hrid, hrin⟩ := h
  refine ⟨if r.id = mod'.id then mod' else r, List.mem_map.mpr ⟨r, hr, rfl⟩, ?_⟩
  split
  · rename_i heq
    exact ⟨heq.symm.trans hrid, hid⟩
  · exact ⟨hrid, hrin⟩

instance (mods : List Mod) : Calm (Eff.Keeping fun w : World α => ∀ mod ∈ mods, HasMod id mod w) where
  tick _ _ h := h
  events _ _ h := h
  containers _ _ h := h

/-- No update takes a row away. -/
theorem allowsMods_hasMod (env : Env α) (mods : List Mod) :
    AllowsMods env (Eff.Keeping fun w : World α => ∀ mod ∈ mods, HasMod id mod w) id fun _ => True where
  mkdirs _ h := h
  write _ _ _ _ h := h
  unlink _ _ _ h := h
  answers _ _ := trivial
  rows h := h fun _ _ => trivial
  save_mod _ _ _ hid _ h mod hmod := hasMod_saveMod hid (h mod hmod)
  add_mod _ _ _ h mod hmod :=
    let ⟨r, hr, hrest⟩ := h mod hmod
    ⟨r, List.mem_append_left _ hr, hrest⟩

/-- The turn of a mod: it has no update, or it is updated. -/
theorem apply_mod_update_cases (env : Env α) (updates : List (Uuid4 × ModUpdateInfo)) (mod : Mod) (w : World α) :
    (∃ e, apply_mod_update env updates mod w = (.error e, w)) ∨
    (∃ info, updates.lookup mod.id = some info ∧ info.update_status ≠ .update_available ∧
      apply_mod_update env updates mod w = (.ok (), w)) ∨
    ∃ info new_version_id, updates.lookup mod.id = some info ∧ info.update_status = .update_available ∧
      info.new_versions_ids.head? = some new_version_id ∧
      apply_mod_update env updates mod w = (update_mod env mod new_version_id >>= fun _ => pure ()) w := by
  unfold apply_mod_update
  cases hinfo : updates.lookup mod.id with
  | none => exact Or.inl ⟨_, rfl⟩
  | some info =>
      rw [Eff.getOr_some_bind]
      by_cases hstatus : info.update_status = .update_available
      · rw [decide_eq_true hstatus, Eff.when_true]
        cases hhead : info.new_versions_ids.head? with
        | none => exact Or.inl ⟨_, rfl⟩
        | some new_version_id => exact Or.inr (Or.inr ⟨info, new_version_id, rfl, hstatus, hhead, rfl⟩)
      · rw [decide_eq_false hstatus]
        exact Or.inr (Or.inl ⟨info, rfl, hstatus, rfl⟩)

section Calm

variable [Calm R]

theorem within_update_mods {miniverse : Miniverse} (h : AllowsMods env R miniverse.id Safe) (new_mc_version : String)
    (force_update : Bool) : (update_mods env miniverse new_mc_version force_update).Within R := by
  refine (within_list_possible_mod_updates _ _).bind fun updates => (Eff.Within.raiseIf _ _).bind fun _ => ?_
  refine Eff.Within.read_bind fun w => h.rows fun hsafe => ?_
  have hmods : ∀ mod ∈ w.db.modsOf miniverse.id, mod ∈ w.db.mods ∧ mod.miniverse_id = miniverse.id := fun mod hmod => by
    rwa [Database.modsOf, List.mem_filter, decide_eq_true_eq] at hmod
  refine Eff.Within.forM_keeping (P := fun w' => ∀ mod ∈ w.db.modsOf miniverse.id, HasMod miniverse.id mod w')
    (fun mod hmod w' hw' => ?_) w fun mod hmod => ⟨mod, (hmods mod hmod).1, rfl, (hmods mod hmod).2⟩
  have hthere := hw' mod hmod
  rcases apply_mod_update_cases env updates mod w' with ⟨e, hrun⟩ | ⟨_, _, _, hrun⟩ | ⟨_, new_version_id, _, _, _, hrun⟩
  · rw [hrun]
    exact ⟨Std.Refl.refl _, hw'⟩
  · rw [hrun]
    exact ⟨Std.Refl.refl _, hw'⟩
  · rw [hrun]
    have hr := update_mod_at h (hmods mod hmod).2 new_version_id hthere (hsafe mod (hmods mod hmod).1)
    have hp := update_mod_at (allowsMods_hasMod env (w.db.modsOf miniverse.id)) (hmods mod hmod).2
      new_version_id hthere trivial hw'
    rw [Eff.bind_run]
    rcases hupdate : update_mod env mod new_version_id w' with ⟨e | a, w''⟩
    · rw [hupdate] at hr hp
      exact ⟨hr, hp⟩
    · rw [hupdate] at hr hp
      exact ⟨hr, hp⟩

/-! ## Starting and stopping -/

variable {Keep : Miniverse → Prop}

theorem within_saveObject (h : AllowsObject R id Keep) {m : Miniverse} (hid : m.id = id) (hkeep : Keep m) :
    (commit env (·.saveMiniverse m)).Within R :=
  within_commit fun _ => h.save hid hkeep

theorem within_startController (h : AllowsObject R id Keep) : (startController id : Act α Unit).Within R := by
  intro w
  unfold startController get_miniverse_controller
  rw [Eff.read_bind_run]
  cases hservice : (w.service id.str).map Prod.snd with
  | none => exact Std.Refl.refl w
  | some c => exact h.control hservice c.isWebSocket_start

omit [Calm R] in
theorem within_controller_stop [Quiet R] (c : Controller) : (c.stop env id).Within R := by
  cases c with
  | webSocket => exact (within_ask _).bind fun _ => Eff.Within.pure _
  | mcRouter => exact Eff.Within.pure _

theorem within_stopController (h : AllowsObject R id Keep) : (stopController env id).Within R := by
  intro w
  unfold stopController get_miniverse_controller
  rw [Eff.read_bind_run]
  cases hservice : (w.service id.str).map Prod.snd with
  | none => exact Std.Refl.refl w
  | some c =>
      rw [Eff.getOr_some_bind]
      cases c with
      | mcRouter players => exact h.control hservice rfl
      | webSocket task =>
          -- the players are read before the controller gets its new state
          rw [Controller.stop, bind_assoc, get_msmp_player_list]
          rcases ask_cases (env.player_list · id) w with ⟨e, _, hrun⟩ | ⟨players, _, hrun⟩
          · rw [Eff.bind_run_error hrun]
            exact Quiet.tick w _
          · rw [Eff.bind_run_ok hrun]
            have hcontrol : R w.next (w.next.setController id (.webSocket false)) := h.control hservice rfl
            exact trans_of R (Quiet.tick w _) hcontrol

omit [Calm R] in
theorem within_init_proxy_mods [Quiet R] {m : Miniverse} (h : AllowsData env R m.id Safe) (prioritize_release : Bool) :
    (init_proxy_mods env m prioritize_release).Within R := by
  have hinstall := within_automatic_mod_install h.toAllowsMods
  refine (h.mkdirs_below _ (List.prefix_append _ _)).bind fun _ => ?_
  have hbelow (name : String) : miniverse_data_path env.toPlatform m.id <+:
      miniverse_data_path env.toPlatform m.id ++ ["config"] ++ [name] := ⟨["config", name], by simp⟩
  cases m.type with
  | fabric =>
      exact (hinstall _ _ _).bind fun _ => (hinstall _ _ _).bind fun _ => h.write_below _ _ (hbelow _)
  | neo_forge => exact (hinstall _ _ _).bind fun _ => h.write_below _ _ (hbelow _)
  | forge => exact (hinstall _ _ _).bind fun _ => h.write_below _ _ (hbelow _)
  | vanilla => exact Eff.Within.pure _
  | paper => exact Eff.Within.pure _

omit [Calm R] in
/-- Only behind a proxy that is not the lite one are mods needed. -/
theorem within_init_data_path_of [Quiet R] {m : Miniverse}
    (hicon : (onDisk (Disk.write (miniverse_data_path env.toPlatform m.id ++ ["server-icon.png"]) env.server_icon) :
      Act α Unit).Within R)
    (hproxy : m.is_on_lite_proxy = false → (init_proxy_mods env m false).Within R) : (init_data_path env m).Within R := by
  refine (Eff.Within.ofExcept _).bind fun _ => Eff.Within.bind (fun w => ?_) fun _ =>
    Eff.Within.when fun h => hproxy (by simpa using h)
  have hicon := hicon w
  unfold onDisk Eff.zoom
  dsimp only
  rw [Disk.look, Eff.read_bind_run]
  cases w.disk.tree.exists (miniverse_data_path env.toPlatform m.id ++ ["server-icon.png"]) with
  | true => exact Std.Refl.refl w
  | false => exact hicon

omit [Calm R] in
theorem within_init_data_path [Quiet R] {m : Miniverse} (h : AllowsData env R m.id Safe) : (init_data_path env m).Within R :=
  within_init_data_path_of (h.write_below _ _ (List.prefix_append _ _)) fun _ => within_init_proxy_mods h _

omit [Calm R] in
theorem returns_create_miniverse_container (m : Miniverse) :
    (create_miniverse_container env m).Returns fun r => r.1.id = m.id ∧ r.1.mc_version = m.mc_version :=
  Eff.Returns.bind fun _ => Eff.Returns.bind fun _ => Eff.Returns.pure ⟨rfl, rfl⟩

omit [Calm R] in
theorem returns_start_miniverse (m : Miniverse) : (start_miniverse env m).Returns fun r => r.1.id = m.id := by
  intro w r w' h
  obtain ⟨_, w₁, _, h⟩ := Eff.bind_ok h
  obtain ⟨_, w₂, _, h⟩ := Eff.bind_ok h
  obtain ⟨existing, w₃, _, h⟩ := Eff.bind_ok h
  cases existing with
  | some c =>
      exact Eff.Returns.bind (Q := fun r => r.1.id = m.id) (fun _ => Eff.Returns.bind fun _ => Eff.Returns.pure rfl) w₃ r w' h
  | none =>
      obtain ⟨r', w₄, hcreate, h⟩ := Eff.bind_ok h
      have hid := (returns_create_miniverse_container _ _ _ _ hcreate).1
      exact Eff.Returns.bind (Q := fun r => r.1.id = m.id)
        (fun _ => Eff.Returns.bind fun _ => Eff.Returns.bind fun _ => Eff.Returns.pure hid) w₄ r w' h

theorem within_start_object {m : Miniverse} (h : AllowsObject R m.id Keep) (hinit : (init_data_path env m).Within R)
    (hkeep : Keep m) : (start_miniverse env m).Within R := by
  have hstarted := h.state true m.container_id hkeep
  refine hinit.bind fun _ => ?_
  refine Eff.Within.bind (within_saveObject h rfl hstarted) fun _ => (within_get_container_by_name _).bind fun existing => ?_
  cases existing with
  | some c =>
      exact Eff.Within.bind (within_saveObject h rfl (h.state true (some c.id) hstarted)) fun _ =>
        (within_start_container _).bind fun _ => Eff.Within.pure _
  | none =>
      refine Eff.Within.bind_returns (Eff.Within.bind (within_create_container _ _ _) fun c =>
        Eff.Within.bind (within_saveObject h rfl (h.state true (some c.id) hstarted)) fun _ => Eff.Within.pure _)
        (returns_create_miniverse_container _) fun r hr => ?_
      refine (within_start_container _).bind fun _ => Eff.Within.bind ?_ fun _ => (within_publish _ _ _).bind fun _ =>
        Eff.Within.pure _
      rw [hr.1]
      exact within_startController h

theorem within_start_miniverse {m : Miniverse} (h : AllowsMiniverse env R m.id Safe Good) (hgood : Good m.mc_version) :
    (start_miniverse env m).Within R :=
  within_start_object h.toAllowsRow.toObject (within_init_data_path h.toData) hgood

theorem within_stop_miniverse_container (m : Miniverse) : (stop_miniverse_container env m).Within R :=
  (Eff.Within.when fun _ => (within_get_container_by_name _).bind fun _ => Eff.Within.pure _).bind fun _ =>
    Eff.Within.elim (Eff.Within.pure _) fun _ _ => within_ignoreNotFound (within_stop_container _)

theorem within_stop_object {m : Miniverse} (h : AllowsObject R m.id Keep) (hkeep : Keep m) : (stop_miniverse env m).Within R :=
  (within_stop_miniverse_container m).bind fun _ => (within_stopController h).bind fun _ =>
    Eff.Within.bind (within_saveObject h rfl (h.state false none hkeep)) fun _ => (within_publish _ _ _).bind fun _ =>
      Eff.Within.pure _

omit [Calm R] in
theorem returns_stop_miniverse (m : Miniverse) :
    (stop_miniverse env m).Returns (· = { m with started := false, container_id := none }) :=
  Eff.Returns.bind fun _ => Eff.Returns.bind fun _ => Eff.Returns.bind fun _ => Eff.Returns.bind fun _ =>
    Eff.Returns.pure rfl

theorem within_restart_object {m : Miniverse} (h : AllowsObject R m.id Keep)
    (hinit : (init_data_path env { m with started := false, container_id := none }).Within R) (hkeep : Keep m) :
    (restart_miniverse env m).Within R := by
  refine Eff.Within.bind_returns (within_stop_object h hkeep) (returns_stop_miniverse m) ?_
  rintro _ rfl
  exact within_start_object h hinit (h.state false none hkeep)

/-! ## Updating -/

theorem within_prepare_game_version {m : Miniverse} (h : AllowsMods env R m.id Safe) (new_mc_version : String)
    (force_update : Bool) : (prepare_game_version env m new_mc_version force_update).Within R := by
  refine (Eff.Within.raiseIf _ _).bind fun _ => (within_ask _).bind fun _ => (Eff.Within.getOr _ _).bind fun _ =>
    (Eff.Within.raiseIf _ _).bind fun _ => ?_
  have hmods := within_update_mods h new_mc_version force_update
  cases m.type with
  | vanilla => exact Eff.Within.pure _
  | paper => exact Eff.Within.pure _
  | fabric => exact hmods
  | forge => exact hmods
  | neo_forge => exact hmods

omit [Calm R] in
/-- An upgrade that goes on leads to another version that was compared. -/
theorem returns_prepare_game_version (env : Env α) (m : Miniverse) (new_mc_version : String) (force_update : Bool) :
    (prepare_game_version env m new_mc_version force_update).Returns fun _ => m.mc_version ≠ new_mc_version ∧
      ∃ n c, compare_versions (env.get_minecraft_versions n) m.mc_version new_mc_version = .ok (some c) := by
  intro w a w' hrun
  unfold prepare_game_version at hrun
  by_cases heq : m.mc_version = new_mc_version
  · rw [decide_eq_true heq, Eff.raiseIf_true_bind] at hrun
    cases hrun
  · rw [decide_eq_false heq, Eff.raiseIf_false_bind] at hrun
    obtain ⟨c, w₁, hc, hrun⟩ := Eff.bind_ok hrun
    obtain ⟨n, hn⟩ := returns_ask _ _ _ _ hc
    cases c with
    | none => cases hrun
    | some c => exact ⟨heq, n, c, hn⟩

/-- From the stop of the server on. -/
theorem within_restart_upgraded {m : Miniverse} (h : AllowsObject R m.id Keep) (hkeep : Keep m) {new_mc_version : String}
    (hnew : Keep { m with started := false, container_id := none, mc_version := new_mc_version })
    (hinit : (init_data_path env { m with started := false, container_id := none, mc_version := new_mc_version }).Within R) :
    (do
      let miniverse ← stop_miniverse env m
      let miniverse := { miniverse with mc_version := new_mc_version }
      commit env (·.saveMiniverse miniverse)
      let (miniverse, _) ← start_miniverse env miniverse
      return miniverse : Act α Miniverse).Within R := by
  refine Eff.Within.bind_returns (within_stop_object h hkeep) (returns_stop_miniverse m) ?_
  rintro _ rfl
  refine Eff.Within.bind (within_saveObject h rfl hnew) fun _ => Eff.Within.bind ?_ fun _ => Eff.Within.pure _
  exact within_start_object h hinit hnew

theorem within_upgrade_object {m : Miniverse} (h : AllowsObject R m.id Keep) (hdata : AllowsData env R m.id Safe)
    (hkeep : Keep m) {new_mc_version : String} (force_update : Bool)
    (hnew : m.mc_version ≠ new_mc_version →
      (∃ n c, compare_versions (env.get_minecraft_versions n) m.mc_version new_mc_version = .ok (some c)) →
      Keep { m with started := false, container_id := none, mc_version := new_mc_version }) :
    (update_miniverse_game_version env m new_mc_version force_update).Within R := by
  refine Eff.Within.bind_returns (within_prepare_game_version hdata.toAllowsMods _ _)
    (returns_prepare_game_version env _ _ _) ?_
  rintro _ ⟨hne, hcompared⟩
  exact within_restart_upgraded h hkeep (hnew hne hcompared) (within_init_data_path hdata)

omit [Calm R] in
/-- The Java version is new only before it is set, so an update restarts nothing. -/
theorem should_restart_eq_false (data : MiniverseUpdate) (m : Miniverse) :
    (data.java_version.isSome && decide ((data.apply m).java_version ≠ data.java_version)) = false := by
  cases h : data.java_version with
  | none => rfl
  | some v => simp [MiniverseUpdate.apply, h]

theorem within_checkUnused (field : String) (column : Miniverse → String) (m : Miniverse) (new_value : Option String) :
    (checkUnused field column m new_value : Act α Unit).Within R := by
  cases new_value with
  | none => exact Eff.Within.pure _
  | some v => exact (within_query _).bind fun _ => Eff.Within.raiseIf _ _

theorem within_update_object {m : Miniverse} (h : AllowsObject R m.id Keep) (hdata : AllowsData env R m.id Safe)
    (hroutes : (update_proxy_config env).Within R) {data : MiniverseUpdate} (hupdated : Keep (data.apply m))
    (hnew : ∀ v, data.mc_version = some v → m.mc_version ≠ v →
      (∃ n c, compare_versions (env.get_minecraft_versions n) m.mc_version v = .ok (some c)) →
      Keep { data.apply m with started := false, container_id := none, mc_version := v }) :
    (update_miniverse env m data).Within R := by
  refine (within_checkUnused _ _ _ _).bind fun _ => (within_checkUnused _ _ _ _).bind fun _ => ?_
  refine Eff.Within.bind (Eff.Within.when fun _ => within_saveObject (m := data.apply m) h rfl hupdated) fun _ => ?_
  refine Eff.Within.bind (Eff.Within.elim (Eff.Within.pure _) fun v hv => ?_) fun m' => ?_
  · obtain ⟨hversion, hne⟩ := Option.filter_eq_some_iff.mp hv
    exact within_upgrade_object (m := data.apply m) h hdata hupdated false (hnew v hversion)
  · rw [should_restart_eq_false, Eff.when_false]
    refine Eff.Within.bind (Eff.Within.pure _) fun _ => Eff.Within.bind (Eff.Within.when fun _ => hroutes) fun _ => ?_
    exact Eff.Within.bind (Eff.Within.when fun _ => within_publish _ _ _) fun _ => Eff.Within.pure _

theorem within_update_miniverse {m : Miniverse} (h : AllowsMiniverse env R m.id Safe Good) (hgood : Good m.mc_version)
    (data : MiniverseUpdate) : (update_miniverse env m data).Within R := by
  refine within_update_object h.toAllowsRow.toObject h.toData h.routes hgood ?_
  rintro v _ hne ⟨n, c, hcompared⟩
  exact h.compared hcompared hne

end Calm

end Backend
