import Miniverse.Miniverses.Lemmas.Rules

/-!
# The parts of a creation, an update and a deletion

Each of them is refused before its commit, or goes on from the rows after it.
-/

namespace Backend

open Lib

variable {α β : Type} {env : Env α} {m : Miniverse} {id : Uuid4}

/-! ## Creating -/

/-- A creation is refused, or its row gets in. -/
theorem create_miniverse_cases (env : Env α) (data : MiniverseCreate) (creator : User) (w : World α) :
    (∃ e w', create_miniverse env data creator w = (.error e, w') ∧ w'.db = w.db ∧ w'.disk = w.disk ∧
      w'.controllers = w.controllers ∧ w'.events = w.events) ∨
    ∃ s, data.subdomain = some s ∧ (∀ r ∈ w.db.miniverses, r.id ≠ env.uuid4 w.tick) ∧ env.commit (w.tick + 2) = .ok () ∧
      create_miniverse env data creator w = (do
          commit env fun db => { db with user_roles := db.user_roles ++ [⟨creator.id, env.uuid4 w.tick, .admin⟩] }
          set_up_miniverse env (data.toMiniverse (env.uuid4 w.tick) s (env.random_string (w.tick + 1))) : Act α Miniverse)
        { w.next.next.next with
          db := { w.db with
            miniverses := w.db.miniverses ++ [data.toMiniverse (env.uuid4 w.tick) s (env.random_string (w.tick + 1))] } } := by
  unfold create_miniverse
  rw [Eff.bind_run_ok (ask_ok (b := env.uuid4 w.tick) rfl),
    Eff.bind_run_ok (ask_ok (w := w.next) (b := env.random_string (w.tick + 1)) rfl)]
  cases hsub : data.subdomain with
  | none => exact Or.inl ⟨_, _, rfl, rfl, rfl, rfl, rfl⟩
  | some s =>
      rw [Eff.getOr_some_bind, addMiniverse, bind_assoc, query, Eff.read_bind_run]
      cases htaken : w.next.next.db.miniverses.any fun r =>
          decide (r.id = (data.toMiniverse (env.uuid4 w.tick) s (env.random_string (w.tick + 1))).id) with
      | true => exact Or.inl ⟨_, _, Eff.raiseIf_true_bind _ _ _, rfl, rfl, rfl, rfl⟩
      | false =>
          rw [bind_assoc, Eff.raiseIf_false_bind]
          cases hcommit : env.commit w.next.next.tick with
          | error e => exact Or.inl ⟨e, _, Eff.bind_run_error (commit_error _ hcommit) _, rfl, rfl, rfl, rfl⟩
          | ok _ =>
              refine Or.inr ⟨s, rfl, fun r hr heq => ?_, hcommit, Eff.bind_run_ok (commit_ok _ hcommit) _⟩
              exact List.any_eq_false.mp htaken r hr (decide_eq_true heq)

/-! ## Updating -/

/-- What an update does after the commit of the fields. -/
def finish_update (env : Env α) (m : Miniverse) (data : MiniverseUpdate) : Act α Miniverse := do
  let updated := data.apply m
  let game_version := data.mc_version.filter fun v => decide (updated.mc_version ≠ v)
  let miniverse ← game_version.elim (pure updated) fun v => update_miniverse_game_version env updated v false
  Eff.when (decide (updated.subdomain ≠ m.subdomain ∨ updated.allow_bedrock ≠ m.allow_bedrock)) (update_proxy_config env)
  Eff.when (decide (updated ≠ m) || game_version.isSome) (publish .updated miniverse.id.str none)
  return miniverse

theorem update_miniverse_eq (env : Env α) (m : Miniverse) (data : MiniverseUpdate) :
    update_miniverse env m data = (do
      checkUnused "name" (·.name) m data.name
      checkUnused "subdomain" (·.subdomain) m data.subdomain
      Eff.when (decide (data.apply m ≠ m)) (commit env (·.saveMiniverse (data.apply m)))
      finish_update env m data) := by
  unfold update_miniverse finish_update
  simp only [should_restart_eq_false, Eff.when_false]
  rfl

theorem checkUnused_cases (field : String) (column : Miniverse → String) (m : Miniverse) (new_value : Option String)
    (w : World α) :
    (∃ e, (checkUnused field column m new_value : Act α Unit) w = (.error e, w)) ∨
      (∀ v, new_value = some v → column m ≠ v → ∀ r ∈ w.db.miniverses, w.db.weight (column r) ≠ w.db.weight v) ∧
        (checkUnused field column m new_value : Act α Unit) w = (.ok (), w) := by
  cases new_value with
  | none => exact Or.inr ⟨nofun, rfl⟩
  | some v =>
      rw [checkUnused, query, Eff.read_bind_run]
      cases hused : decide (column m ≠ v) && w.db.miniverses.any fun r => decide (w.db.weight (column r) = w.db.weight v) with
      | true => exact Or.inl ⟨_, rfl⟩
      | false =>
          refine Or.inr ⟨?_, rfl⟩
          rintro _ ⟨⟩ hne r hr heq
          rw [decide_eq_true hne, Bool.true_and, List.any_eq_false] at hused
          exact hused r hr (decide_eq_true heq)

/-- The new fields get into the row. -/
structure StoresFields (env : Env α) (w : World α) (m : Miniverse) (data : MiniverseUpdate) : Prop where
  name : ∀ v, data.name = some v → m.name ≠ v → ∀ r ∈ w.db.miniverses, w.db.weight r.name ≠ w.db.weight v
  subdomain : ∀ v, data.subdomain = some v → m.subdomain ≠ v → ∀ r ∈ w.db.miniverses, w.db.weight r.subdomain ≠ w.db.weight v
  commit : env.commit w.tick = .ok ()

/-- An update is refused, or goes on with the row as it is or with a new one. -/
theorem update_miniverse_cases (env : Env α) (m : Miniverse) (data : MiniverseUpdate) (w : World α) :
    (∃ e w₁, update_miniverse env m data w = (.error e, w₁) ∧ w₁.db = w.db ∧ w₁.disk = w.disk ∧
      w₁.controllers = w.controllers) ∨
    data.apply m = m ∧ update_miniverse env m data w = finish_update env m data w ∨
    StoresFields env w m data ∧ update_miniverse env m data w =
      finish_update env m data { w.next with db := w.db.saveMiniverse (data.apply m) } := by
  rw [update_miniverse_eq]
  rcases checkUnused_cases "name" (·.name) m data.name w with ⟨e, hrun⟩ | ⟨hname, hrun⟩
  · exact Or.inl ⟨e, w, Eff.bind_run_error hrun _, rfl, rfl, rfl⟩
  rw [Eff.bind_run_ok hrun]
  rcases checkUnused_cases "subdomain" (·.subdomain) m data.subdomain w with ⟨e, hrun⟩ | ⟨hunused, hrun⟩
  · exact Or.inl ⟨e, w, Eff.bind_run_error hrun _, rfl, rfl, rfl⟩
  rw [Eff.bind_run_ok hrun]
  by_cases hsame : data.apply m = m
  · refine Or.inr (Or.inl ⟨hsame, ?_⟩)
    rw [decide_eq_false (not_not_intro hsame), Eff.when_false]
    rfl
  · rw [decide_eq_true hsame, Eff.when_true]
    cases hcommit : env.commit w.tick with
    | error e => exact Or.inl ⟨e, w.next, Eff.bind_run_error (commit_error _ hcommit) _, rfl, rfl, rfl⟩
    | ok a => exact Or.inr (Or.inr ⟨⟨hname, hunused, hcommit⟩, Eff.bind_run_ok (commit_ok _ hcommit) _⟩)

/-! ## Deleting -/

/-- What a deletion does before the commit. -/
def dismantle (env : Env α) (m : Miniverse) : Act α Unit := do
  remove_miniverse env m.id
  (truthy m.container_id).elim (pure ()) (remove_container env)
  remove_volume env m.id

/-- What it does after the commit. -/
def finish_delete (env : Env α) (miniverse_id : Uuid4) (users_roles : List MiniverseUserRole) : Act α Unit := do
  ask (env.delete_miniverse_cache · miniverse_id)
  update_proxy_config env
  publish .deleted miniverse_id.str (some (users_roles.map (·.user_id)))

theorem delete_miniverse_eq (env : Env α) (m : Miniverse) :
    delete_miniverse env m = (do
      dismantle env m
      let users_roles ← query (·.rolesOf m.id)
      commit env (·.deleteMiniverse m.id)
      finish_delete env m.id users_roles) := by
  simp only [dismantle, bind_assoc]
  rfl

theorem within_remove_miniverse {R : World α → World α → Prop} [Calm R]
    (hunregister : ∀ w : World α, R w (w.unregister id.str)) : (remove_miniverse env id).Within R :=
  (Eff.Within.read _).bind fun _ => Eff.Within.bind (Eff.Within.modify hunregister) fun _ =>
    Eff.Within.elim (Eff.Within.pure _) fun c _ => (within_controller_stop c).bind fun _ => Eff.Within.pure _

/-- A deletion stops before the row is gone, or goes on without it. -/
theorem delete_miniverse_cases (env : Env α) (m : Miniverse) {R : World α → World α → Prop} [Calm R]
    (hunregister : ∀ w : World α, R w (w.unregister m.id.str)) (hvolume : (remove_volume env m.id).Within R) (w : World α) :
    (∃ e w', delete_miniverse env m w = (.error e, w') ∧ R w w') ∨
    ∃ w₁, R w w₁ ∧ dismantle env m w = (.ok (), w₁) ∧ env.commit w₁.tick = .ok () ∧ delete_miniverse env m w =
      finish_delete env m.id (w₁.db.rolesOf m.id) { w₁.next with db := w₁.db.deleteMiniverse m.id } := by
  have hr : R w (dismantle env m w).2 :=
    ((within_remove_miniverse hunregister).bind fun _ =>
      (Eff.Within.elim (Eff.Within.pure _) fun _ _ => within_remove_container _).bind fun _ => hvolume) w
  rw [delete_miniverse_eq]
  rcases hrun : dismantle env m w with ⟨e | a, w₁⟩
  · rw [hrun] at hr
    exact Or.inl ⟨e, w₁, Eff.bind_run_error hrun _, hr⟩
  · rw [hrun] at hr
    rw [Eff.bind_run_ok hrun, query, Eff.read_bind_run]
    cases hcommit : env.commit w₁.tick with
    | error e => exact Or.inl ⟨e, w₁.next, Eff.bind_run_error (commit_error _ hcommit) _, trans_of R hr (Quiet.tick _ _)⟩
    | ok _ => exact Or.inr ⟨w₁, hr, rfl, hcommit, Eff.bind_run_ok (commit_ok _ hcommit) _⟩

/-! ## Relations that files and controllers keep -/

section Side

variable {R : World α → World α → Prop} [Calm R] {Keep : Miniverse → Prop} {Safe : String → Prop}

/-- Only the routes are written. -/
theorem within_update_routes (hmkdirs : (onDisk (Disk.mkdirs (routes_path env).parent) : Act α Unit).Within R)
    (hwrite : ∀ x, (onDisk (Disk.write (routes_path env) x) : Act α Unit).Within R) : (update_proxy_config env).Within R :=
  (within_query _).bind fun _ => hmkdirs.bind fun _ => (hwrite _).bind fun _ => (within_get_container_by_name _).bind fun _ =>
    Eff.Within.elim (Eff.Within.pure _) fun _ _ => within_kill_container _

theorem within_update_proxy_config (hdisk : ∀ {γ : Type} (f : Fs α γ), (onDisk f : Act α γ).Within R) :
    (update_proxy_config env).Within R := within_update_routes (hdisk _) fun _ => hdisk _

theorem within_add_miniverse (hcontrollers : ∀ (w : World α) (cs : List (Uuid4 × Controller)), R w { w with controllers := cs })
    (m : Miniverse) : (add_miniverse env m).Within R := by
  refine (Eff.Within.read _).bind fun existing => ?_
  cases existing with
  | some c => exact Eff.Within.modify fun w => hcontrollers w _
  | none => exact (within_ask _).bind fun _ => Eff.Within.modify fun w => hcontrollers w _

theorem within_set_up (hroutes : (update_proxy_config env).Within R)
    (hcontrollers : ∀ (w : World α) (cs : List (Uuid4 × Controller)), R w { w with controllers := cs })
    (hobject : AllowsObject R m.id Keep) (hdata : AllowsData env R m.id Safe) (hkeep : Keep m) :
    (set_up_miniverse env m).Within R :=
  (hdata.mkdirs_below _ (List.prefix_refl _)).bind fun _ => (within_add_miniverse hcontrollers m).bind fun _ =>
    (within_start_object hobject (within_init_data_path hdata) hkeep).bind fun _ => hroutes.bind fun _ => (within_query _).bind fun _ => (within_publish _ _ _).bind fun _ =>
        Eff.Within.pure _

theorem within_finish_delete (hroutes : (update_proxy_config env).Within R) (k : Uuid4) (users_roles : List MiniverseUserRole) :
    (finish_delete env k users_roles).Within R :=
  (within_ask _).bind fun _ => hroutes.bind fun _ => within_publish _ _ _

end Side

end Backend
