import Miniverse.Lib.Alone
import Miniverse.Mods.Calls
import Miniverse.Requests.Service
import Miniverse.Requests.Users
import Miniverse.Updates.Lemmas.Refusals
import Miniverse.Users.Lemmas.Admins

/-!
# Requests that run alone

A request that gives way wherever it awaits, and that no other interrupts, does what its function does in one go.
-/

namespace Backend

open Lib

variable {α β γ : Type} {env : Env α} {w : World α}

namespace Requests

theorem await_alone (m : Act α β) (w : World α) : Async.RunsAs id (await m) m w := Async.runsAs_lift m w

/-! ## Mods -/

theorem download_mod_file_alone (project : ModrinthProject) (version : ModrinthProjectVersion) (miniverse_id : Uuid4)
    (w : World α) :
    Async.RunsAs id (download_mod_file env project version miniverse_id)
      (Backend.download_mod_file env project version miniverse_id) w := by
  refine Async.RunsAs.lift_bind fun primary_file w₁ _ => Async.RunsAs.lift_bind fun _ w₂ _ =>
    Async.RunsAs.lift_bind fun _ w₃ _ => Async.RunsAs.lift_pure ?_
  exact (await_alone _ w₃).bind fun _ w₄ _ => (await_alone _ w₄).bind fun _ w₅ _ => Async.runsAs_pure id _ w₅

theorem update_mod_alone (mod : Mod) (new_version_id : String) (w : World α) :
    Async.RunsAs id (update_mod env mod new_version_id) (Backend.update_mod env mod new_version_id) w :=
  (await_alone _ w).bind fun _ w₁ _ => (await_alone _ w₁).bind fun _ w₂ _ => (await_alone _ w₂).bind fun _ w₃ _ =>
    (download_mod_file_alone _ _ _ w₃).bind fun _ w₄ _ => (await_alone _ w₄).bind fun _ w₅ _ =>
      (await_alone _ w₅).bind fun _ w₆ _ => Async.runsAs_pure id _ w₆

theorem install_new_mod_alone (project : ModrinthProject) (version : ModrinthProjectVersion) (miniverse_id : Uuid4)
    (w : World α) :
    Async.RunsAs id (install_new_mod env project version miniverse_id)
      (Backend.install_new_mod env project version miniverse_id) w :=
  (download_mod_file_alone _ _ _ w).bind fun _ w₁ _ => (await_alone _ w₁).bind fun _ w₂ _ =>
    (await_alone _ w₂).bind fun _ w₃ _ => (await_alone _ w₃).bind fun _ w₄ _ => Async.runsAs_pure id _ w₄

theorem install_mod_alone (mod_version_id : String) (miniverse_id : Uuid4) (w : World α) :
    Async.RunsAs id (install_mod env mod_version_id miniverse_id) (Backend.install_mod env mod_version_id miniverse_id) w :=
  (await_alone _ w).bind fun version w₁ _ => (await_alone _ w₁).bind fun project w₂ _ =>
    (await_alone _ w₂).bind fun existing_mod w₃ _ => by
      cases existing_mod with
      | none => exact install_new_mod_alone project version miniverse_id w₃
      | some mod => exact update_mod_alone mod mod_version_id w₃

theorem installable_versions_alone (mod_id : String) (miniverse : Miniverse) (retry_with_latest : Bool) (w : World α) :
    Async.RunsAs id (installable_versions env mod_id miniverse retry_with_latest)
      (Backend.installable_versions env mod_id miniverse retry_with_latest) w :=
  (await_alone _ w).bind fun versions w₁ _ => by
    cases hempty : versions.isEmpty with
    | false =>
        simp only [id, hempty]
        exact Async.runsAs_pure id versions w₁
    | true =>
        simp only [id, hempty, if_true]
        exact (await_alone _ w₁).bind fun versions w₂ _ => (await_alone _ w₂).bind fun _ w₃ _ =>
          Async.runsAs_pure id versions w₃

theorem automatic_mod_install_alone (mod_id : String) (miniverse : Miniverse) (prioritize_release retry_with_latest : Bool)
    (w : World α) :
    Async.RunsAs id (automatic_mod_install env mod_id miniverse prioritize_release retry_with_latest)
      (Backend.automatic_mod_install env mod_id miniverse prioritize_release retry_with_latest) w :=
  (installable_versions_alone _ _ _ w).bind fun _ _ _ => Async.RunsAs.lift_bind fun _ w₂ _ =>
    (await_alone _ w₂).bind fun latest_version w₃ _ => install_mod_alone latest_version.id miniverse.id w₃

theorem uninstall_mod_alone (mod : Mod) (w : World α) :
    Async.RunsAs id (uninstall_mod env mod) (Backend.uninstall_mod env mod) w :=
  (await_alone _ w).bind fun _ w₁ _ => (await_alone _ w₁).bind fun _ w₂ _ => await_alone _ w₂

/-! ## The files of a server -/

theorem init_proxy_mods_alone (miniverse : Miniverse) (prioritize_release : Bool) (w : World α) :
    Async.RunsAs id (init_proxy_mods env miniverse prioritize_release)
      (Backend.init_proxy_mods env miniverse prioritize_release) w :=
  (await_alone _ w).bind fun _ w₁ _ => by
    have hinstall (mod_id : String) (retry_with_latest : Bool) :=
      @automatic_mod_install_alone α env mod_id miniverse prioritize_release retry_with_latest
    cases miniverse.type with
    | vanilla => exact Async.runsAs_pure id () w₁
    | paper => exact Async.runsAs_pure id () w₁
    | fabric => exact (hinstall _ _ w₁).bind fun _ w₂ _ => (hinstall _ _ w₂).bind fun _ w₃ _ => await_alone _ w₃
    | forge => exact (hinstall _ _ w₁).bind fun _ w₂ _ => await_alone _ w₂
    | neo_forge => exact (hinstall _ _ w₁).bind fun _ w₂ _ => await_alone _ w₂

theorem init_data_path_alone (miniverse : Miniverse) (w : World α) :
    Async.RunsAs id (init_data_path env miniverse) (Backend.init_data_path env miniverse) w :=
  Async.RunsAs.lift_bind fun _ w₁ _ => (await_alone _ w₁).bind fun _ w₂ _ => by
    cases miniverse.is_on_lite_proxy with
    | true => exact Async.runsAs_pure id () w₂
    | false => exact init_proxy_mods_alone miniverse false w₂

/-! ## The row of a miniverse -/

/-- The row of the miniverse, and no other with its identifier. -/
structure SoleRow (miniverse : Miniverse) (db : Database) : Prop where
  mem : miniverse ∈ db.miniverses
  sole : ∀ r ∈ db.miniverses, r.id = miniverse.id → r = miniverse

theorem SoleRow.find {miniverse : Miniverse} {db : Database} (h : SoleRow miniverse db) :
    db.findMiniverse miniverse.id.str = some miniverse := by
  cases hfind : db.findMiniverse miniverse.id.str with
  | none =>
      have hne := List.find?_eq_none.mp hfind miniverse h.mem
      simp at hne
  | some r =>
      have hid : r.id.str = miniverse.id.str := by simpa using List.find?_some hfind
      rw [h.sole r (List.mem_of_find?_eq_some hfind) (Uuid4.eq_of_str hid)]

theorem SoleRow.save {miniverse object : Miniverse} {db : Database} (h : SoleRow miniverse db) (hid : object.id = miniverse.id) :
    SoleRow object (db.saveMiniverse object) where
  mem := List.mem_map.mpr ⟨miniverse, h.mem, if_pos hid.symm⟩
  sole r hr hrid := by
    obtain ⟨r', -, rfl⟩ := List.mem_map.mp hr
    by_cases hr' : r'.id = object.id
    · rw [if_pos hr']
    · rw [if_neg hr'] at hrid
      exact absurd hrid hr'

theorem SoleRow.committed {miniverse object : Miniverse} {w' : World α} {a : Unit} (h : SoleRow miniverse w.db)
    (hcommit : Backend.commit env (·.saveMiniverse object) w = (.ok a, w')) (hid : object.id = miniverse.id) :
    SoleRow object w'.db := by
  rcases commit_cases env (·.saveMiniverse object) w with ⟨e, hrun⟩ | hrun
  · rw [hrun] at hcommit
    cases hcommit
  · rw [hrun] at hcommit
    cases hcommit
    exact h.save hid

theorem SoleRow.of_rows {miniverse : Miniverse} {w' : World α} (h : SoleRow miniverse w.db) (hrows : w'.rows = w.rows) :
    SoleRow miniverse w'.db := by
  have hsame : w'.db.miniverses = w.db.miniverses := hrows
  exact ⟨hsame.symm ▸ h.mem, hsame.symm ▸ h.sole⟩

theorem rows_data (env : Env α) (id : Uuid4) : AllowsData env (Same World.rows) id fun _ => True where
  toAllowsMods := rows_allows env id
  mkdirs_below _ _ _ := rfl
  write_below _ _ _ _ := rfl

theorem rows_object (id : Uuid4) : AllowsObject (Same (World.rows (α := α))) id fun _ => False where
  save _ h := h.elim
  control _ _ := rfl
  state _ _ h := h

/-- The object of a session that has just read the row. -/
def Loaded.fresh (miniverse : Miniverse) : Loaded := ⟨miniverse, miniverse⟩

/-- The values of the object differ from its row only where they were set, so the row takes all of them. -/
theorem flush_fresh {miniverse : Miniverse} {db : Database} (h : SoleRow miniverse db) (started : Bool)
    (container_id : Option String) :
    { db with miniverses := db.miniverses.map fun r =>
        if r.id = miniverse.id then ((Loaded.fresh miniverse).set started container_id).flush r else r } =
      db.saveMiniverse { miniverse with started := started, container_id := container_id } := by
  have hrows : (db.miniverses.map fun r =>
      if r.id = miniverse.id then ((Loaded.fresh miniverse).set started container_id).flush r else r) =
      db.miniverses.map fun r =>
        if r.id = miniverse.id then { miniverse with started := started, container_id := container_id } else r := by
    refine List.map_congr_left fun r hr => ?_
    by_cases hid : r.id = miniverse.id
    · rw [if_pos hid, if_pos hid, h.sole r hr hid, Loaded.flush, Loaded.set, Loaded.fresh]
      dsimp only
      congr 1 <;> split <;> simp [*]
    · rw [if_neg hid, if_neg hid]
  rw [hrows]
  rfl

section Row

variable {miniverse : Miniverse} {started : Bool} {container_id : Option String}

theorem commit_alone (h : SoleRow miniverse w.db) :
    Async.RunsAs (fun _ => Loaded.fresh { miniverse with started := started, container_id := container_id })
      (((Loaded.fresh miniverse).set started container_id).commit env)
      (Backend.commit env (·.saveMiniverse { miniverse with started := started, container_id := container_id })) w := by
  have hsave : Backend.commit env (fun db => { db with miniverses := db.miniverses.map fun r =>
      if r.id = miniverse.id then ((Loaded.fresh miniverse).set started container_id).flush r else r }) w =
      Backend.commit env (·.saveMiniverse { miniverse with started := started, container_id := container_id }) w :=
    commit_congr env (flush_fresh h started container_id)
  rw [← bind_pure (Backend.commit env _)] at hsave
  exact ((await_alone _ w).bind fun _ w₁ _ => Async.runsAs_pure (fun _ => Loaded.fresh _) () w₁).congr hsave

/-- A look at the row of a miniverse. -/
theorem look_alone {miniverse_id : String} (hfind : w.db.findMiniverse miniverse_id = some miniverse) (missing : PyError) :
    Async.RunsAs id
      (do let row ← await do Eff.getOr (← query (·.findMiniverse miniverse_id)) missing
          return ⟨row, row⟩)
      (pure (Loaded.fresh miniverse)) w := by
  have hread : (do Eff.getOr (← query (·.findMiniverse miniverse_id)) missing : Act α Miniverse) w = (.ok miniverse, w) := by
    rw [query, Eff.read_bind_run, hfind]
    rfl
  rw [← bind_pure (do Eff.getOr (← query (·.findMiniverse miniverse_id)) missing : Act α Miniverse)] at hread
  have hlook : Async.RunsAs Loaded.fresh (await _ >>= fun row => pure ⟨row, row⟩) (pure miniverse) w :=
    ((await_alone _ w).bind fun row w₁ _ => Async.runsAs_pure Loaded.fresh row w₁).congr hread
  exact hlook

/-- A commit of the object and the look at its row after it. -/
theorem save_alone {f : γ → β} {k : Loaded → Awaiting α β} {l : Act α γ} (h : SoleRow miniverse w.db)
    (hk : ∀ w₁, SoleRow { miniverse with started := started, container_id := container_id } w₁.db →
      Async.RunsAs f (k (.fresh { miniverse with started := started, container_id := container_id })) l w₁) :
    Async.RunsAs f
      (do let object ← ((Loaded.fresh miniverse).set started container_id).commit env
          let object ← object.refresh
          k object)
      (do Backend.commit env (·.saveMiniverse { miniverse with started := started, container_id := container_id })
          l) w :=
  (commit_alone h).bind fun _ w₁ hcommit => by
    have hrow := h.committed hcommit rfl
    exact (look_alone hrow.find _).bind (m := pure _) (l := fun _ => l) fun _ w₂ hpure => by
      cases hpure
      exact hk w₁ hrow

/-! ## Starting and stopping -/

theorem create_miniverse_container_alone (h : SoleRow miniverse w.db) :
    Async.RunsAs (Prod.map Loaded.fresh id)
      (create_miniverse_container env (.fresh miniverse)) (Backend.create_miniverse_container env miniverse) w :=
  (await_alone _ w).bind fun container w₁ hcreate => by
    have hrows : Same World.rows w w₁ := (within_create_container _ _ _).of_run hcreate
    exact save_alone (h.of_rows hrows) fun w₂ _ => Async.runsAs_pure _ (_, container) w₂

theorem start_miniverse_alone (h : SoleRow miniverse w.db) :
    Async.RunsAs Prod.snd (start_miniverse env (.fresh miniverse)) (Backend.start_miniverse env miniverse) w :=
  (init_data_path_alone miniverse w).bind fun _ w₁ hinit => by
    have hrows : Same World.rows w w₁ := (within_init_data_path (rows_data env _)).of_run hinit
    refine save_alone (h.of_rows hrows) fun w₂ h₂ => (await_alone _ w₂).bind fun found w₃ hfound => ?_
    have hrows : Same World.rows w₂ w₃ := (within_get_container_by_name _).of_run hfound
    have h₃ := h₂.of_rows hrows
    cases found with
    | some existing_container =>
        exact save_alone h₃ fun w₄ _ => (await_alone _ w₄).bind fun _ w₅ _ =>
          Async.runsAs_pure Prod.snd (_, existing_container) w₅
    | none =>
        refine (create_miniverse_container_alone h₃).bind fun created w₄ _ => (await_alone _ w₄).bind fun _ w₅ _ =>
          Async.RunsAs.lift_bind fun _ w₆ _ => (await_alone _ w₆).bind fun _ w₇ _ => ?_
        exact Async.runsAs_pure Prod.snd created w₇

theorem stopController_alone (miniverse_id : Uuid4) (w : World α) :
    Async.RunsAs id (stopController env miniverse_id) (Backend.stopController env miniverse_id) w :=
  Async.RunsAs.lift_bind fun _ w₁ _ => (await_alone _ w₁).bind fun _ w₂ _ => (await_alone _ w₂).bind fun _ w₃ _ =>
    await_alone _ w₃

/-- The container and the controller stop, and the row stays. -/
theorem SoleRow.halted {w₁ w₂ : World α} {a b : Unit} (h : SoleRow miniverse w.db)
    (hcontainer : stop_miniverse_container env miniverse w = (.ok a, w₁))
    (hcontroller : Backend.stopController env miniverse.id w₁ = (.ok b, w₂)) : SoleRow miniverse w₂.db := by
  have hrows₁ : Same World.rows w w₁ := (within_stop_miniverse_container miniverse).of_run hcontainer
  have hrows₂ : Same World.rows w₁ w₂ := (within_stopController (rows_object _)).of_run hcontroller
  exact (h.of_rows hrows₁).of_rows hrows₂

theorem stop_miniverse_alone (h : SoleRow miniverse w.db) :
    Async.RunsAs Loaded.fresh (stop_miniverse env (.fresh miniverse)) (Backend.stop_miniverse env miniverse) w :=
  (await_alone _ w).bind fun _ w₁ hcontainer => (stopController_alone miniverse.id w₁).bind fun _ _ hcontroller =>
    save_alone (h.halted hcontainer hcontroller) fun w₃ _ => (await_alone _ w₃).bind fun _ w₄ _ =>
      Async.runsAs_pure Loaded.fresh _ w₄

/-- The values that a stop returns are those of the row. -/
theorem SoleRow.stopped {stopped : Miniverse} {w' : World α} (h : SoleRow miniverse w.db)
    (hstop : Backend.stop_miniverse env miniverse w = (.ok stopped, w')) : SoleRow stopped w'.db := by
  obtain ⟨_, w₁, hcontainer, hstop⟩ := Eff.bind_ok hstop
  obtain ⟨_, w₂, hcontroller, hstop⟩ := Eff.bind_ok hstop
  obtain ⟨_, w₃, hcommit, hstop⟩ := Eff.bind_ok hstop
  have hrow := (h.halted hcontainer hcontroller).committed hcommit rfl
  cases hstop
  exact hrow.of_rows rfl

theorem restart_miniverse_alone (h : SoleRow miniverse w.db) :
    Async.RunsAs Prod.snd (restart_miniverse env (.fresh miniverse)) (Backend.restart_miniverse env miniverse) w :=
  (stop_miniverse_alone h).bind fun _ _ hstop => start_miniverse_alone (h.stopped hstop)

end Row

end Requests

/-! ## Requests -/

/-- The miniverse of the request. -/
def ModRequest.miniverse_id : ModRequest → Uuid4
  | install_mod _ miniverse_id => miniverse_id
  | automatic_mod_install _ miniverse _ _ => miniverse.id
  | uninstall_mod mod => mod.miniverse_id

/-- The call that the request makes. -/
def ModRequest.call : ModRequest → ModCall
  | install_mod mod_version_id _ => .install_mod mod_version_id
  | automatic_mod_install mod_id _ prioritize_release retry_with_latest =>
      .automatic_mod_install mod_id prioritize_release retry_with_latest
  | uninstall_mod mod => .uninstall_mod mod.id.str

/-- The object that the request was given is the row. -/
def ModRequest.Current (db : Database) : ModRequest → Prop
  | install_mod _ _ => True
  | automatic_mod_install _ miniverse _ _ => db.findMiniverse miniverse.id.str = some miniverse
  | uninstall_mod mod => db.modOf mod.miniverse_id mod.id.str = some mod

/-- A request on mods that nothing interrupts does what the function does to the row. -/
theorem ModRequest.program_alone {request : ModRequest} (hcurrent : request.Current w.db) :
    (request.program env).run.run w = request.call.perform env request.miniverse_id w := by
  cases request with
  | install_mod mod_version_id miniverse_id => exact (Requests.install_mod_alone mod_version_id miniverse_id w).forget.eq
  | automatic_mod_install mod_id miniverse prioritize_release retry_with_latest =>
      have hrun := @Requests.automatic_mod_install_alone α env mod_id miniverse prioritize_release retry_with_latest w
      exact hrun.forget.eq.trans (withRow_found hcurrent fun miniverse => do
        let _ ← Backend.automatic_mod_install env mod_id miniverse prioritize_release retry_with_latest).symm
  | uninstall_mod mod =>
      exact (Requests.uninstall_mod_alone mod w).eq.trans (withMod_found hcurrent (Backend.uninstall_mod env)).symm

theorem Requests.request_alone {miniverse_id : String} {miniverse : Miniverse} {f : γ → β} {p : Loaded → Awaiting α β}
    {call : Miniverse → Act α γ} (hfind : w.db.findMiniverse miniverse_id = some miniverse)
    (hp : Async.RunsAs f (p (.fresh miniverse)) (call miniverse) w) :
    Async.RunsAs id
      (do let object ← get_miniverse miniverse_id
          let _ ← p object)
      (do let _ ← call miniverse) w :=
  (look_alone hfind _).bind (m := pure _) (l := fun _ => do let _ ← call miniverse) fun _ w₁ hlook => by
    cases hlook
    exact hp.forget

/-- The call that the request makes. -/
def ServerRequest.call (miniverse_id : Uuid4) : ServerRequest → MiniverseCall
  | start => .start_miniverse miniverse_id.str
  | stop => .stop_miniverse miniverse_id.str
  | restart => .restart_miniverse miniverse_id.str

/-- A request that starts or stops a server, and that nothing interrupts, does what the function does to the row. -/
theorem ServerRequest.program_alone {miniverse_id : Uuid4} {miniverse : Miniverse}
    (hkey : (w.db.miniverses.map Miniverse.id).Nodup) (hfind : w.db.findMiniverse miniverse_id.str = some miniverse)
    (request : ServerRequest) :
    (request.program env miniverse_id).run.run w = (request.call miniverse_id).perform env w := by
  have hmem := List.mem_of_find?_eq_some hfind
  have hrow : Requests.SoleRow miniverse w.db := ⟨hmem, fun r hr hid => List.inj_on_of_nodup_map hkey hr hmem hid⟩
  cases request with
  | start =>
      have hrun := (Requests.request_alone hfind (@Requests.start_miniverse_alone α env w miniverse hrow)).eq
      exact hrun.trans (withRow_found hfind fun miniverse => do let _ ← Backend.start_miniverse env miniverse).symm
  | stop =>
      have hrun := (Requests.request_alone hfind (@Requests.stop_miniverse_alone α env w miniverse hrow)).eq
      exact hrun.trans (withRow_found hfind fun miniverse => do let _ ← Backend.stop_miniverse env miniverse).symm
  | restart =>
      have hrun := (Requests.request_alone hfind (@Requests.restart_miniverse_alone α env w miniverse hrow)).eq
      exact hrun.trans (withRow_found hfind fun miniverse => do let _ ← Backend.restart_miniverse env miniverse).symm

/-- The route of the request. -/
def AdminRequest.route : AdminRequest → UsersRoute
  | delete_me _ => .delete_me
  | set_own_role current_user role => .set_user_role current_user.id role

theorem Requests.delete_user_alone (user_id : String) (w : World α) :
    Async.RunsAs id (Requests.delete_user env user_id) (Backend.delete_user env user_id) w :=
  Async.RunsAs.lift_pure (Requests.await_alone _ w)

/-- The row that is found is the only one that takes the role. -/
theorem setUserRole_eq {db : Database} {user : User} {user_id : String} (hunique : db.UniqueUsers)
    (hfind : db.findUser user_id = some user) (role : Role) :
    db.setUserRole user_id role = db.saveUser { user with role := role } := by
  obtain ⟨hmem, hid⟩ := findUser_mem hfind
  have hrows : (db.users.map fun u => if db.weight u.id = db.weight user_id then { u with role := role } else u) =
      db.users.map fun u => if db.weight u.id = db.weight user.id then { user with role := role } else u := by
    refine List.map_congr_left fun u hu => ?_
    rw [← hid]
    by_cases heq : db.weight u.id = db.weight user.id
    · rw [hunique.eq hu hmem heq]
    · rw [if_neg heq, if_neg heq]
  rw [Database.setUserRole, hrows]
  rfl

/-- A row that has the role already stays as it is. -/
theorem saveUser_same {db : Database} {user : User} (hunique : db.UniqueUsers) (hmem : user ∈ db.users) :
    db.saveUser user = db := by
  have hrows : (db.users.map fun u => if db.weight u.id = db.weight user.id then user else u) = db.users := by
    conv_rhs => rw [← List.map_id db.users]
    refine List.map_congr_left fun u hu => ?_
    by_cases heq : db.weight u.id = db.weight user.id
    · rw [if_pos heq, hunique.eq hu hmem heq, id]
    · rw [if_neg heq, id]
  rw [Database.saveUser, hrows]

theorem Requests.set_user_role_alone (hunique : w.db.UniqueUsers) (user_id : String) (role : Role) :
    Async.RunsAs id (Requests.set_user_role env user_id role) (Backend.set_user_role env user_id role) w := by
  refine Async.RunsAs.lift_bind fun found w₁ hquery => (Requests.await_alone _ w₁).bind fun user w₂ hfound => ?_
  obtain ⟨rfl, rfl⟩ : found = w.db.findUser user_id ∧ w₁ = w := by
    cases hquery
    exact ⟨rfl, rfl⟩
  obtain ⟨hfind, rfl⟩ := Eff.getOr_ok hfound
  by_cases hrole : user.role = role
  · subst hrole
    rw [id_eq, if_pos rfl]
    exact (Requests.await_alone _ w₂).congr (commit_congr env (saveUser_same hunique (findUser_mem hfind).1).symm)
  · rw [id_eq, if_neg hrole]
    exact (Requests.await_alone _ w₂).congr (commit_congr env (setUserRole_eq hunique hfind role))

theorem AdminRequest.program_alone (hunique : w.db.UniqueUsers) (request : AdminRequest) :
    (request.program env).run.run w = request.route.handle env request.current_user w := by
  refine Async.RunsAs.eq ?_
  cases request with
  | delete_me current_user =>
      by_cases hrole : current_user.role = .admin
      · have hown (admins : Nat) :
            decide ((delete_me current_user).current_user.role = .admin ∧ admins ≤ 1) = decide (admins ≤ 1) :=
          decide_eq_decide.mpr ⟨And.right, fun h => ⟨hrole, h⟩⟩
        rw [program, if_pos hrole]
        refine Async.RunsAs.lift_bind fun admins w₁ _ => ?_
        rw [hown]
        exact (Requests.await_alone _ w₁).bind fun _ w₂ _ => Requests.delete_user_alone current_user.id w₂
      · have hother (admins : Nat) : decide ((delete_me current_user).current_user.role = .admin ∧ admins ≤ 1) = false :=
          decide_eq_false fun h => hrole h.1
        have hhandle : UsersRoute.handle env (delete_me current_user).current_user .delete_me w =
            Backend.delete_user env current_user.id w := by
          show (do
            Eff.raiseIf (decide ((delete_me current_user).current_user.role = .admin ∧ count_admins w.db ≤ 1)) _
            Backend.delete_user env current_user.id : Act α Unit) w = _
          rw [hother, Eff.raiseIf_false_bind]
        rw [program, if_neg hrole]
        exact (Requests.delete_user_alone _ w).congr hhandle.symm
  | set_own_role current_user role =>
      have hown (admins : Nat) :
          decide ((set_own_role current_user role).current_user.id = current_user.id ∧ admins ≤ 1) = decide (admins ≤ 1) :=
        decide_eq_decide.mpr ⟨And.right, fun h => ⟨rfl, h⟩⟩
      refine Async.RunsAs.lift_bind fun _ w₁ hguard => Async.RunsAs.lift_bind fun admins w₂ hcount => ?_
      rw [hown]
      refine (Requests.await_alone _ w₂).bind fun _ w₃ hraise => ?_
      obtain ⟨-, rfl⟩ := Eff.raiseIf_ok hguard
      obtain ⟨-, rfl⟩ := Eff.raiseIf_ok hraise
      cases hcount
      exact Requests.set_user_role_alone hunique current_user.id role

end Backend
