import Miniverse.Api.Miniverses
import Miniverse.Miniverses.Lemmas.Rules

/-!
# What the routes of the miniverses do

A route that neither creates nor deletes a miniverse stays within every relation that allows the changes to the
miniverses in which its user has a role, and within every relation that allows what this role is for.
-/

namespace Backend

open Lib

variable {α β : Type} {env : Env α} {R : World α → World α → Prop} {u : User} {Safe Good : String → Prop}
  {Keep : Miniverse → Prop}

/-- The relation allows what the user may do. Nothing is asked of it in a state where the user has no role. -/
structure AllowsUser (env : Env α) (R : World α → World α → Prop) (u : User) (Safe Good : String → Prop) : Prop where
  granted : ∀ {w w' : World α} {id : Uuid4}, .none < w.db.get_miniverse_role u.id id.str →
    (AllowsMiniverse env R id Safe Good → (∀ (w : World α) (role : MiniverseUserRole), role.miniverse_id = id →
      R w { w with db := w.db.setRole role }) → R w w') → R w w'

/-- The relation allows what the user may do with the role that it has, to rows that satisfy `Keep`, but for the roles it gives. -/
structure AllowsUse (env : Env α) (R : World α → World α → Prop) (u : User) (Safe : String → Prop) (Keep : Miniverse → Prop) :
    Prop where
  used : ∀ {w w' : World α} {m : Miniverse}, m ∈ w.db.miniverses → .user ≤ w.db.get_miniverse_role u.id m.id.str →
    (AllowsObject R m.id Keep ∧ AllowsData env R m.id Safe ∧ Keep m → R w w') → R w w'
  moderated : ∀ {w w' : World α} {id : Uuid4}, .moderator ≤ w.db.get_miniverse_role u.id id.str →
    (AllowsMods env R id Safe → (∀ {w : World α} {mod : Mod}, mod ∈ w.db.mods → mod.miniverse_id = id →
      R w { w with db := { w.db with mods := w.db.mods.filter fun r => decide (r.id ≠ mod.id) } }) → R w w') → R w w'
  administered : ∀ {w w' : World α} {m : Miniverse}, m ∈ w.db.miniverses → .admin ≤ w.db.get_miniverse_role u.id m.id.str →
    ((∀ data, (update_miniverse env m data).Within R) → R w w') → R w w'

/-- The relation allows what the user may do with the role that it has. -/
structure AllowsByRole (env : Env α) (R : World α → World α → Prop) (u : User) (Safe : String → Prop) (Keep : Miniverse → Prop) : Prop
    extends AllowsUse env R u Safe Keep where
  given : ∀ {w : World α} {m : Miniverse} {target : User}, m ∈ w.db.miniverses → target ∈ w.db.users →
    .admin ≤ w.db.get_miniverse_role u.id m.id.str → ∀ role, R w { w with db := w.db.setRole ⟨target.id, m.id, role⟩ }

theorem findMiniverse_some {db : Database} {miniverse_id : String} {m : Miniverse} (h : db.findMiniverse miniverse_id = some m) :
    m ∈ db.miniverses ∧ m.id.str = miniverse_id := by
  unfold Database.findMiniverse at h
  exact ⟨List.mem_of_find?_eq_some h, by simpa using List.find?_some h⟩

theorem Role.user_le_of_moderator {r : Role} (h : .moderator ≤ r) : .user ≤ r := Nat.le_trans (by decide) h

section Calm

variable [Calm R]

/-- Behind a guard and a look-up there is a miniverse in which the user has the role. -/
theorem within_guarded_by {P : Miniverse → Prop} {miniverse_id detail : String} {role : Role}
    (hP : ∀ {w w' : World α} {m : Miniverse}, m ∈ w.db.miniverses → role ≤ w.db.get_miniverse_role u.id m.id.str →
      (P m → R w w') → R w w')
    {missing : PyError} {k : Miniverse → Act α β} (hk : ∀ m, P m → (k m).Within R) :
    (do requireRole u miniverse_id role detail
        let m ← getMiniverse miniverse_id missing
        k m : Act α β).Within R := by
  intro w
  unfold requireRole
  rw [bind_assoc, query, Eff.read_bind_run]
  by_cases hguard : w.db.get_miniverse_role u.id miniverse_id < role
  · rw [decide_eq_true hguard, Eff.raiseIf_true_bind]
    exact Std.Refl.refl w
  · rw [decide_eq_false hguard, Eff.raiseIf_false_bind]
    unfold getMiniverse
    rw [bind_assoc, query, Eff.read_bind_run]
    cases hm : w.db.findMiniverse miniverse_id with
    | none => exact Std.Refl.refl w
    | some m =>
        rw [Eff.getOr_some_bind]
        obtain ⟨hmem, rfl⟩ := findMiniverse_some hm
        exact hP hmem (Role.not_lt.mp hguard) fun h => hk m h w

/-- Behind a guard and a look-up there is a miniverse in which the user has a role. -/
theorem within_guarded {P : Miniverse → Prop} {miniverse_id detail : String} {role : Role} (hrole : .none < role)
    (hP : ∀ {w w' : World α} {m : Miniverse}, m ∈ w.db.miniverses → .none < w.db.get_miniverse_role u.id m.id.str →
      (P m → R w w') → R w w')
    {missing : PyError} {k : Miniverse → Act α β} (hk : ∀ m, P m → (k m).Within R) :
    (do requireRole u miniverse_id role detail
        let m ← getMiniverse miniverse_id missing
        k m : Act α β).Within R :=
  within_guarded_by (P := P) (fun hmem hown => hP hmem (Nat.lt_of_lt_of_le hrole hown)) hk

theorem within_visibleMiniverses : (visibleMiniverses u : Act α (List Miniverse)).Within R := within_query _

theorem within_listPlayers (banned : Bool) (m : Miniverse) : (listPlayers env banned m).Within R := by
  refine Eff.Within.ite (Eff.Within.pure _) ((Eff.Within.read _).bind fun c => ?_)
  rcases c with _ | _ | _
  · exact Eff.Within.raise _
  · exact (within_ask _).bind fun _ => Eff.Within.pure _
  · exact (Eff.Within.raiseIf _ _).bind fun _ => (within_ask _).bind fun _ => Eff.Within.pure _

theorem within_callManagement (miniverse_id detail : String) : (callManagement env miniverse_id detail).Within R := by
  refine Eff.Within.bind ((within_query _).bind fun _ => Eff.Within.getOr _ _) fun m => (Eff.Within.read _).bind fun c => ?_
  rcases c with _ | _ | _
  · exact Eff.Within.raise _
  · exact (within_ask _).bind fun _ => Eff.Within.raiseIf _ _
  · exact Eff.Within.raise _

theorem within_requireRole (miniverse_id detail : String) (role : Role) :
    (requireRole u miniverse_id role detail : Act α Unit).Within R :=
  (within_query _).bind fun _ => Eff.Within.raiseIf _ _

theorem within_management (miniverse_id detail detail' : String) :
    (do requireRole u miniverse_id .moderator detail
        callManagement env miniverse_id detail'
        return .empty : Act α Reply).Within R :=
  (within_requireRole _ _ _).bind fun _ => (within_callManagement _ _).bind fun _ => Eff.Within.pure _

theorem within_uninstall_mod_route (h : AllowsUse env R u Safe Keep) (mod_id : String) :
    ((MiniversesRoute.uninstall_mod mod_id).handle env u).Within R := by
  refine Eff.Within.read_bind fun w => ?_
  dsimp only
  cases hmod : w.db.mods.find? fun r => decide (r.id.str = mod_id) with
  | none => exact Std.Refl.refl w
  | some mod =>
      rw [Eff.getOr_some_bind, requireRole, bind_assoc, query, Eff.read_bind_run]
      by_cases hguard : w.db.get_miniverse_role u.id mod.miniverse_id.str < .moderator
      · rw [decide_eq_true hguard, Eff.raiseIf_true_bind]
        exact Std.Refl.refl w
      · rw [decide_eq_false hguard, Eff.raiseIf_false_bind]
        have hmem := List.mem_of_find?_eq_some hmod
        refine h.moderated (Role.not_lt.mp hguard) fun hallows hremove => hallows.rows fun hsafe => ?_
        have huninstall := uninstall_mod_at hallows.toAllowsModFiles rfl (hsafe mod hmem) fun w₁ hw₁ =>
          hremove (hw₁ ▸ hmem) rfl
        rw [Eff.bind_run]
        rcases hrun : uninstall_mod env mod w with ⟨e | a, w'⟩
        · rw [hrun] at huninstall
          exact huninstall
        · rw [hrun] at huninstall
          exact huninstall

theorem within_set_user_role_route (h : AllowsByRole env R u Safe Keep) (miniverse_id user_id_or_name : String) (role : Role) :
    ((MiniversesRoute.set_user_role miniverse_id user_id_or_name role).handle env u).Within R := by
  intro w
  rw [MiniversesRoute.handle, requireRole, bind_assoc, query, Eff.read_bind_run]
  by_cases hguard : w.db.get_miniverse_role u.id miniverse_id < .admin
  · rw [decide_eq_true hguard, Eff.raiseIf_true_bind]
    exact Std.Refl.refl w
  · rw [decide_eq_false hguard, Eff.raiseIf_false_bind, query, Eff.read_bind_run]
    cases hfound : (if matchesUuid4 user_id_or_name = true then w.db.findUser user_id_or_name
      else w.db.get_user_by_username user_id_or_name) with
    | none => exact Std.Refl.refl w
    | some user =>
        rw [Eff.getOr_some_bind, getMiniverse, bind_assoc, query, Eff.read_bind_run]
        have htarget : user ∈ w.db.users := by
          split at hfound
          · exact List.mem_of_find?_eq_some hfound
          · exact List.mem_of_find?_eq_some hfound
        cases hm : w.db.findMiniverse miniverse_id with
        | none => exact Std.Refl.refl w
        | some m =>
            rw [Eff.getOr_some_bind]
            obtain ⟨hmem, rfl⟩ := findMiniverse_some hm
            have hset := h.given hmem htarget (Role.not_lt.mp hguard) role
            rcases commit_cases env (·.setRole ⟨user.id, m.id, role⟩) w with ⟨e, hrun⟩ | hrun
            · rw [Eff.bind_run_error hrun]
              exact Quiet.tick w _
            · rw [Eff.bind_run_ok hrun]
              exact trans_of R (trans_of R hset (Quiet.tick _ _)) (Quiet.events _ _)

/-- The routes but for those that create or delete a miniverse or give a role. -/
theorem within_route_by_use (h : AllowsUse env R u Safe Keep) {route : MiniversesRoute}
    (hcreate : ∀ data, route = .create_miniverse data → (route.handle env u).Within R)
    (hdelete : ∀ id, route = .delete_miniverse id → (route.handle env u).Within R)
    (hset : ∀ id who role, route = .set_user_role id who role → (route.handle env u).Within R) : (route.handle env u).Within R := by
  cases route with
  | create_miniverse data => exact hcreate data rfl
  | delete_miniverse miniverse_id => exact hdelete miniverse_id rfl
  | list_miniverses => exact within_visibleMiniverses.bind fun _ => Eff.Within.pure _
  | start_miniverse miniverse_id =>
      exact within_guarded_by h.used fun m hm =>
        (within_start_object hm.1 (within_init_data_path hm.2.1) hm.2.2).bind fun _ => Eff.Within.pure _
  | stop_miniverse miniverse_id =>
      exact within_guarded_by h.used fun m hm => (within_stop_object hm.1 hm.2.2).bind fun _ => Eff.Within.pure _
  | restart_miniverse miniverse_id =>
      exact within_guarded_by h.used fun m hm =>
        (within_restart_object hm.1 (within_init_data_path hm.2.1) hm.2.2).bind fun _ => Eff.Within.pure _
  | update_miniverse miniverse_id data =>
      exact within_guarded_by h.administered fun m hm => (hm data).bind fun _ => Eff.Within.pure _
  | automatic_install_mod miniverse_id mod_id =>
      exact within_guarded_by (fun hmem hown => h.used hmem (Role.user_le_of_moderator hown)) fun m hm =>
        (within_automatic_mod_install hm.2.1.toAllowsMods _ _ _).bind fun _ => Eff.Within.pure _
  | install_mod miniverse_id mod_version_id =>
      exact within_guarded_by (fun hmem hown => h.used hmem (Role.user_le_of_moderator hown)) fun m hm =>
        (within_install_mod hm.2.1.toAllowsMods _).bind fun _ => Eff.Within.pure _
  | uninstall_mod mod_id => exact within_uninstall_mod_route h mod_id
  | update_mod mod_id new_version_id => exact Eff.Within.raise _
  | list_mod_updates miniverse_id =>
      exact within_guarded_by (P := fun _ => True) (fun _ _ h => h trivial) fun m _ =>
        (within_list_possible_mod_updates _ _).bind fun _ => Eff.Within.pure _
  | list_miniverse_users miniverse_id =>
      exact within_guarded_by (P := fun _ => True) (fun _ _ h => h trivial) fun m _ =>
        (within_query _).bind fun _ => Eff.Within.pure _
  | set_user_role miniverse_id user_id_or_name role => exact hset _ _ _ rfl
  | list_all_players =>
      exact within_visibleMiniverses.bind fun _ =>
        (Eff.Within.mapM fun m _ => within_listPlayers _ m).bind fun _ => Eff.Within.pure _
  | list_all_banned_players =>
      exact within_visibleMiniverses.bind fun _ =>
        (Eff.Within.mapM fun m _ => within_listPlayers _ m).bind fun _ => Eff.Within.pure _
  | set_operator miniverse_id player_id value => exact within_management _ _ _
  | kick_player miniverse_id player_id reason => exact within_management _ _ _
  | ban_player miniverse_id player_id reason => exact within_management _ _ _
  | unban_player miniverse_id player_id => exact within_management _ _ _

/-- The routes but for those that create or delete a miniverse. -/
theorem within_route_by_role (h : AllowsByRole env R u Safe Keep) {route : MiniversesRoute}
    (hcreate : ∀ data, route = .create_miniverse data → (route.handle env u).Within R)
    (hdelete : ∀ id, route = .delete_miniverse id → (route.handle env u).Within R) : (route.handle env u).Within R := by
  refine within_route_by_use h.toAllowsUse hcreate hdelete ?_
  rintro miniverse_id user_id_or_name role rfl
  exact within_set_user_role_route h _ _ _

/-- Where every role allows everything. -/
theorem AllowsUser.byRole (h : AllowsUser env R u Safe Good) : AllowsByRole env R u Safe fun m => Good m.mc_version where
  used hmem hown hr := h.granted (Nat.lt_of_lt_of_le (by decide) hown) fun hallows _ =>
    hallows.found hmem rfl fun hgood => hr ⟨hallows.toAllowsRow.toObject, hallows.toData, hgood⟩
  moderated hown hr := h.granted (Nat.lt_of_lt_of_le (by decide) hown) fun hallows _ =>
    hr hallows.toAllowsMods hallows.remove_mod
  administered hmem hown hr := h.granted (Nat.lt_of_lt_of_le (by decide) hown) fun hallows _ =>
    hallows.found hmem rfl fun hgood => hr fun data => within_update_miniverse hallows hgood data
  given _ _ hown _ := h.granted (Nat.lt_of_lt_of_le (by decide) hown) fun _ hset => hset _ _ rfl

/-- The routes that neither create nor delete a miniverse. -/
theorem within_route (h : AllowsUser env R u Safe Good) {route : MiniversesRoute}
    (hcreate : ∀ data, route ≠ .create_miniverse data) (hdelete : ∀ id, route ≠ .delete_miniverse id) :
    (route.handle env u).Within R :=
  within_route_by_role h.byRole (fun data heq => absurd heq (hcreate data)) fun id heq => absurd heq (hdelete id)

end Calm

end Backend
