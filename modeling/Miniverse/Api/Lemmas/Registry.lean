import Miniverse.Api.Lemmas.Routes
import Miniverse.Miniverses.Lemmas.Answers
import Miniverse.Miniverses.Lemmas.Cases

/-!
# The controllers of the rows
-/

namespace Backend

open Lib

variable {α β : Type} {env : Env α} {w : World α} {id : Uuid4}

/-! ## The invariant -/

/-- Every row has a controller, and a version that can be compared. -/
structure Covered (w : World α) : Prop where
  registered : ∀ m ∈ w.db.miniverses, Registered w m.id
  parses : ∀ m ∈ w.db.miniverses, Parses m.mc_version

instance : Calm (Eff.Keeping (Covered (α := α))) where
  tick _ _ h := ⟨h.registered, h.parses⟩
  events _ _ h := ⟨h.registered, h.parses⟩
  containers _ _ h := ⟨h.registered, h.parses⟩

theorem covered_onDisk (m : Fs α β) : (onDisk m).Keeps Covered := fun _ h => ⟨h.registered, h.parses⟩

theorem Covered.saveMiniverse (h : Covered w) {m : Miniverse} (hparses : Parses m.mc_version) :
    Covered { w with db := w.db.saveMiniverse m } where
  registered r hr := by
    obtain ⟨r', hr', rfl⟩ := List.mem_map.mp hr
    by_cases heq : r'.id = m.id
    · rw [if_pos heq, ← heq]
      exact h.registered r' hr'
    · rw [if_neg heq]
      exact h.registered r' hr'
  parses r hr := by
    obtain ⟨r', hr', rfl⟩ := List.mem_map.mp hr
    by_cases heq : r'.id = m.id
    · rw [if_pos heq]
      exact hparses
    · rw [if_neg heq]
      exact h.parses r' hr'

theorem covered_update_proxy_config : (update_proxy_config env).Keeps Covered := by
  refine (within_query _).bind fun _ => (covered_onDisk _).bind fun _ => (covered_onDisk _).bind fun _ => ?_
  refine (within_get_container_by_name _).bind fun _ => Eff.Within.elim (Eff.Within.pure _) fun _ _ => within_kill_container _

theorem covered_allows (env : Env α) (id : Uuid4) :
    AllowsMiniverse env (Eff.Keeping Covered) id (fun _ => True) Parses where
  mkdirs := covered_onDisk _
  write _ _ _ := covered_onDisk _
  unlink _ _ := covered_onDisk _
  answers _ _ := trivial
  rows h := h fun _ _ => trivial
  save_mod _ _ _ _ _ h := ⟨h.registered, h.parses⟩
  add_mod _ _ _ h := ⟨h.registered, h.parses⟩
  remove_mod _ _ h := ⟨h.registered, h.parses⟩
  save_row _ hparses h := h.saveMiniverse hparses
  found hmem _ h hcov := h (hcov.parses _ hmem) hcov
  compared h hne := compare_versions_parsed hne h
  control _ c h := ⟨fun m hm => (registered_setController c id).mpr (h.registered m hm), h.parses⟩
  mkdirs_below _ _ := covered_onDisk _
  write_below _ _ _ := covered_onDisk _
  routes := covered_update_proxy_config

theorem setRole_miniverses (db : Database) (role : MiniverseUserRole) : (db.setRole role).miniverses = db.miniverses := by
  unfold Database.setRole
  dsimp only
  split
  · rfl
  · split <;> rfl

theorem covered_allowsUser (env : Env α) (u : User) : AllowsUser env (Eff.Keeping Covered) u (fun _ => True) Parses where
  granted _ h := h (covered_allows env _) fun w role _ hcov =>
    ⟨fun m hm => hcov.registered m (setRole_miniverses w.db role ▸ hm),
      fun m hm => hcov.parses m (setRole_miniverses w.db role ▸ hm)⟩

/-! ## Creating -/

theorem set_up_covered (hversions : VersionsAnswered env) {m : Miniverse} (hparses : Parses m.mc_version)
    (hregistered : ∀ r ∈ w.db.miniverses, r.id = m.id ∨ Registered w r.id)
    (hrows : ∀ r ∈ w.db.miniverses, Parses r.mc_version)
    (hdirectory : ∀ q, q <+: miniverse_data_path env.toPlatform m.id → w.disk.tree.isFile q = false) :
    Covered (set_up_miniverse env m w).2 := by
  obtain ⟨d, hd, _⟩ := Disk.mkdirs_succeeds (ε := PyError) (miniverse_data_path_isName m.id) (d := w.disk) hdirectory
  have hmk : (onDisk (Disk.mkdirs (miniverse_data_path env.toPlatform m.id)) : Act α Unit) w =
      (.ok (), { w with disk := d }) := by
    unfold onDisk Eff.zoom
    dsimp only
    rw [hd]
  obtain ⟨w', hadd, hreg, hmono, hdb⟩ := add_miniverse_run hversions hparses { w with disk := d }
  have hcov : Covered w' := by
    refine ⟨fun r hr => ?_, fun r hr => ?_⟩
    · rw [hdb] at hr
      rcases hregistered r hr with heq | h
      · rw [heq]
        exact hreg
      · exact hmono _ h
    · rw [hdb] at hr
      exact hrows r hr
  unfold set_up_miniverse
  rw [Eff.bind_run_ok hmk, Eff.bind_run_ok hadd]
  refine Eff.Within.bind (R := Eff.Keeping Covered) (within_start_miniverse (covered_allows env m.id) hparses)
    (fun r => ?_) w' hcov
  exact Eff.Within.bind covered_update_proxy_config fun _ => (within_query _).bind fun _ =>
    (within_publish _ _ _).bind fun _ => Eff.Within.pure _

/-- A creation whose row gets in, and is then registered, keeps all rows covered. -/
theorem create_miniverse_covered (hversions : VersionsAnswered env) (hcov : Covered w) (data : MiniverseCreate) (creator : User)
    (h : InsertsRow env w data → RegistersRow env w data) : Covered (create_miniverse env data creator w).2 := by
  rcases create_miniverse_cases env data creator w with
    ⟨e, w', hrun, hdb, _, hcontrollers, _⟩ | ⟨s, hsub, hfresh, hcommit, hrun⟩
  · rw [hrun]
    refine ⟨fun m hm => ?_, fun m hm => hcov.parses m (hdb ▸ hm)⟩
    rw [Registered, hcontrollers]
    exact hcov.registered m (hdb ▸ hm)
  · obtain ⟨hrole, hdirectory, hversion⟩ := h ⟨by rw [hsub]; rfl, hfresh, hcommit⟩
    rw [hrun, Eff.bind_run_ok (commit_ok _ hrole)]
    refine set_up_covered hversions hversion (fun r hr => ?_) (fun r hr => ?_) hdirectory
    · rcases List.mem_append.mp hr with hr | hr
      · exact Or.inr (hcov.registered r hr)
      · exact Or.inl (congrArg Miniverse.id (List.mem_singleton.mp hr))
    · rcases List.mem_append.mp hr with hr | hr
      · exact hcov.parses r hr
      · rw [List.mem_singleton.mp hr]
        exact hversion

/-! ## Deleting -/

/-- A deletion that is answered takes the row away with its controller. -/
theorem delete_miniverse_covered (hcov : Covered w) {m : Miniverse} (h : DeletionAnswered env w m) :
    Covered (delete_miniverse env m w).2 := by
  obtain ⟨n, n', hstop, hremoved, hcommit⟩ := h
  obtain ⟨cs, hcontainer⟩ : ∃ cs, (truthy m.container_id).elim (pure ()) (remove_container env)
      { w.unregister m.id.str with tick := n } =
        (.ok (), { w.unregister m.id.str with containers := cs, tick := n' }) := by
    revert hremoved
    cases truthy m.container_id with
    | none =>
        intro hremoved
        cases hremoved
        exact ⟨w.containers, rfl⟩
    | some container_id =>
        exact fun hremoved => remove_container_run (w := { w.unregister m.id.str with tick := n }) hremoved
  obtain ⟨d, hvolume⟩ := remove_volume_run env m.id { w.unregister m.id.str with containers := cs, tick := n' }
  unfold delete_miniverse
  rw [Eff.bind_run_ok (remove_miniverse_run hstop), Eff.bind_run_ok hcontainer, Eff.bind_run_ok hvolume, query,
    Eff.read_bind_run, Eff.bind_run_ok (commit_ok _ hcommit)]
  refine Eff.Within.bind (R := Eff.Keeping Covered) (within_ask _) (fun _ => covered_update_proxy_config.bind fun _ =>
    within_publish _ _ _) _ ⟨fun r hr => ?_, fun r hr => hcov.parses r (List.mem_filter.mp hr).1⟩
  obtain ⟨hr, hne⟩ := List.mem_filter.mp hr
  exact registered_unregister (of_decide_eq_true hne) (hcov.registered r hr)

/-! ## Startup -/

theorem startup_run (hversions : VersionsAnswered env) (ms : List Miniverse) (hparses : ∀ m ∈ ms, Parses m.mc_version)
    (w : World α) :
    ∃ w', (ms.forM fun m => do
        add_miniverse env m
        Eff.when m.started (startController m.id) : Act α Unit) w = (.ok (), w') ∧
      (∀ m ∈ ms, Registered w' m.id) ∧ ∀ k, Registered w k → Registered w' k := by
  induction ms generalizing w with
  | nil => exact ⟨w, rfl, by simp, fun _ h => h⟩
  | cons m ms ih =>
      obtain ⟨w₁, hadd, hreg, hmono₁, _⟩ := add_miniverse_run hversions (hparses m List.mem_cons_self) w
      obtain ⟨w₂, hstart, hmono₂⟩ : ∃ w₂, Eff.when m.started (startController m.id : Act α Unit) w₁ = (.ok (), w₂) ∧
          ∀ k, Registered w₁ k → Registered w₂ k := by
        cases m.started with
        | true => exact startController_run hreg
        | false => exact ⟨w₁, rfl, fun _ h => h⟩
      obtain ⟨w₃, hrest, hall, hmono₃⟩ := ih (fun m hm => hparses m (List.mem_cons_of_mem _ hm)) w₂
      refine ⟨w₃, ?_, fun k hk => ?_, fun k hk => hmono₃ k (hmono₂ k (hmono₁ k hk))⟩
      · rw [List.forM_eq_forM, List.forM_cons, bind_assoc, Eff.bind_run_ok hadd, Eff.bind_run_ok hstart]
        exact hrest
      · rcases List.mem_cons.mp hk with rfl | hk
        · exact hmono₃ _ (hmono₂ _ hreg)
        · exact hall k hk

/-- On rows with versions that can be compared, the startup registers every row. -/
theorem startup_registers (hversions : VersionsAnswered env) (hparses : ∀ m ∈ w.db.miniverses, Parses m.mc_version) :
    ∃ w', miniverse_controller_manager_startup env w = (.ok (), w') ∧ ∀ m ∈ w.db.miniverses, Registered w' m.id := by
  obtain ⟨w', hrun, hall, _⟩ := startup_run hversions w.db.miniverses hparses w
  exact ⟨w', hrun, hall⟩

/-! ## Requests -/

/-- Nothing fails between the two stores: a creation registers the row that it inserts, a deletion takes the row away
with its controller. -/
def Uninterrupted (env : Env α) (w : World α) (r : MiniversesRequest) : Prop :=
  match r.route with
  | .create_miniverse data => ¬ r.current_user.role < .moderator → InsertsRow env w data → RegistersRow env w data
  | .delete_miniverse miniverse_id => ¬ w.db.get_miniverse_role r.current_user.id miniverse_id < .admin →
      ∀ m, w.db.findMiniverse miniverse_id = some m → DeletionAnswered env w m
  | _ => True

theorem create_route_covered (hversions : VersionsAnswered env) (hcov : Covered w) (u : User) (data : MiniverseCreate)
    (h : ¬ u.role < .moderator → InsertsRow env w data → RegistersRow env w data) :
    Covered ((MiniversesRoute.create_miniverse data).handle env u w).2 := by
  rw [MiniversesRoute.handle]
  by_cases hrole : u.role < .moderator
  · rw [decide_eq_true hrole, Eff.raiseIf_true_bind]
    exact hcov
  · rw [decide_eq_false hrole, Eff.raiseIf_false_bind]
    have hcreated := create_miniverse_covered hversions hcov data u (h hrole)
    rw [Eff.bind_run]
    rcases hrun : create_miniverse env data u w with ⟨e | m, w'⟩
    · rw [hrun] at hcreated
      exact hcreated
    · rw [hrun] at hcreated
      exact hcreated

theorem delete_route_covered (hcov : Covered w) (u : User) (miniverse_id : String)
    (h : ¬ w.db.get_miniverse_role u.id miniverse_id < .admin →
      ∀ m, w.db.findMiniverse miniverse_id = some m → DeletionAnswered env w m) :
    Covered ((MiniversesRoute.delete_miniverse miniverse_id).handle env u w).2 := by
  rw [MiniversesRoute.handle, requireRole, bind_assoc, query, Eff.read_bind_run]
  by_cases hguard : w.db.get_miniverse_role u.id miniverse_id < .admin
  · rw [decide_eq_true hguard, Eff.raiseIf_true_bind]
    exact hcov
  · rw [decide_eq_false hguard, Eff.raiseIf_false_bind, getMiniverse, bind_assoc, query, Eff.read_bind_run]
    cases hm : w.db.findMiniverse miniverse_id with
    | none => exact hcov
    | some m =>
        rw [Eff.getOr_some_bind]
        have hdeleted := delete_miniverse_covered hcov (h hguard m hm)
        rw [Eff.bind_run]
        rcases hrun : delete_miniverse env m w with ⟨e | _, w'⟩
        · rw [hrun] at hdeleted
          exact hdeleted
        · rw [hrun] at hdeleted
          exact hdeleted

/-- A request that is not interrupted keeps all rows covered. -/
theorem request_covered (hversions : VersionsAnswered env) (hcov : Covered w) {r : MiniversesRequest}
    (h : Uninterrupted env w r) : Covered (r.handle env w).2 := by
  obtain ⟨u, route⟩ := r
  by_cases hcreate : ∃ data, route = .create_miniverse data
  · obtain ⟨data, rfl⟩ := hcreate
    exact create_route_covered hversions hcov u data h
  by_cases hdelete : ∃ miniverse_id, route = .delete_miniverse miniverse_id
  · obtain ⟨miniverse_id, rfl⟩ := hdelete
    exact delete_route_covered hcov u miniverse_id h
  exact within_route (covered_allowsUser env u) (fun data heq => hcreate ⟨data, heq⟩)
    (fun miniverse_id heq => hdelete ⟨miniverse_id, heq⟩) w hcov

end Backend
