import Miniverse.Roles.Lemmas.Table
import Miniverse.Users.Lemmas.Admins

/-!
# Theorems about roles
-/

namespace Backend

open Lib

variable {α β : Type} {env : Env α} {w w' : World α} {db db' : Database} {id : Uuid4} {roles : RoleMap}

/-! ## Steps that keep the tables -/

/-- The users, the roles and the identifiers of the miniverses stay. -/
structure TablesKept (w w' : World α) : Prop where
  weight : w'.db.weight = w.db.weight
  users : w'.db.users = w.db.users
  user_roles : w'.db.user_roles = w.db.user_roles
  miniverses : w'.db.miniverses.map (·.id) = w.db.miniverses.map (·.id)

instance : Calm (TablesKept (α := α)) where
  refl _ := ⟨rfl, rfl, rfl, rfl⟩
  trans _ _ _ h₁ h₂ :=
    ⟨h₂.weight.trans h₁.weight, h₂.users.trans h₁.users, h₂.user_roles.trans h₁.user_roles, h₂.miniverses.trans h₁.miniverses⟩
  tick _ _ := ⟨rfl, rfl, rfl, rfl⟩
  events _ _ := ⟨rfl, rfl, rfl, rfl⟩
  containers _ _ := ⟨rfl, rfl, rfl, rfl⟩

theorem tablesKept_onDisk (f : Fs α β) : (onDisk f : Act α β).Within TablesKept := fun _ => ⟨rfl, rfl, rfl, rfl⟩

theorem ids_saveMiniverse (m : Miniverse) (db : Database) :
    (db.saveMiniverse m).miniverses.map (·.id) = db.miniverses.map (·.id) := by
  rw [Database.saveMiniverse, List.map_map]
  refine List.map_congr_left fun r _ => ?_
  by_cases hid : r.id = m.id <;> simp [hid]

theorem tablesKept_object (id : Uuid4) : AllowsObject (TablesKept (α := α)) id fun _ => True where
  save _ _ := ⟨rfl, rfl, rfl, ids_saveMiniverse _ _⟩
  control _ _ := ⟨rfl, rfl, rfl, rfl⟩
  state _ _ _ := trivial

theorem tablesKept_data (env : Env α) (id : Uuid4) : AllowsData env TablesKept id fun _ => True where
  mkdirs := tablesKept_onDisk _
  write _ _ _ := tablesKept_onDisk _
  unlink _ _ := tablesKept_onDisk _
  answers _ _ := trivial
  rows h := h fun _ _ => trivial
  save_mod _ _ _ _ _ := ⟨rfl, rfl, rfl, rfl⟩
  add_mod _ _ _ := ⟨rfl, rfl, rfl, rfl⟩
  mkdirs_below _ _ := tablesKept_onDisk _
  write_below _ _ _ := tablesKept_onDisk _

theorem tablesKept_set_up (m : Miniverse) : (set_up_miniverse env m).Within TablesKept :=
  within_set_up (within_update_proxy_config tablesKept_onDisk) (fun _ _ => ⟨rfl, rfl, rfl, rfl⟩) (tablesKept_object m.id) (tablesKept_data env m.id) trivial

/-! ## Tables that stand for a map -/

/-- The table of roles says what the map says. -/
structure StandsFor (db : Database) (roles : RoleMap) : Prop where
  table : db.RoleTable
  users : db.UniqueUsers
  names : (db.users.map fun u => db.weight u.username).Nodup
  agrees : ∀ user_id miniverse_id, db.get_miniverse_role user_id miniverse_id = roles user_id miniverse_id

theorem StandsFor.kept (h : StandsFor w.db roles) (hkept : TablesKept w w') : StandsFor w'.db roles where
  table := ⟨hkept.user_roles ▸ h.table.pairs, hkept.user_roles ▸ h.table.given, by
    rw [hkept.user_roles, hkept.miniverses]
    exact h.table.rooted⟩
  users := by
    rw [Database.UniqueUsers, hkept.users, hkept.weight]
    exact h.users
  names := by
    rw [hkept.users, hkept.weight]
    exact h.names
  agrees user_id miniverse_id := (Database.role_of_rows hkept.user_roles _ _).trans (h.agrees user_id miniverse_id)

theorem StandsFor.setRole (role : MiniverseUserRole) (h : StandsFor db roles)
    (hrooted : role.miniverse_id ∈ db.miniverses.map (·.id)) :
    StandsFor (db.setRole role) (roles.set role.user_id role.miniverse_id.str role.role) where
  table := h.table.setRole hrooted
  users := by
    rcases db.setRole_cases role with ⟨_, hset⟩ | ⟨_, _, hset⟩ | ⟨_, _, hset⟩ <;> exact hset ▸ h.users
  names := by
    rcases db.setRole_cases role with ⟨_, hset⟩ | ⟨_, _, hset⟩ | ⟨_, _, hset⟩ <;> exact hset ▸ h.names
  agrees user_id miniverse_id := by
    unfold RoleMap.set
    split
    · rename_i hpair
      rw [hpair.1, hpair.2]
      exact Database.role_setRole_self db role
    · rename_i hpair
      exact (Database.role_setRole hpair).trans (h.agrees user_id miniverse_id)

theorem StandsFor.addMiniverse {m : Miniverse} {creator_id : String} (h : StandsFor db roles)
    (hfresh : ∀ r ∈ db.miniverses, r.id ≠ m.id) :
    StandsFor { db with miniverses := db.miniverses ++ [m], user_roles := db.user_roles ++ [⟨creator_id, m.id, .admin⟩] }
      (roles.set creator_id m.id.str .admin) := by
  have hnew : ∀ r ∈ db.user_roles, ¬ r.SamePair ⟨creator_id, m.id, .admin⟩ := by
    intro r hr hpair
    obtain ⟨r', hr', hid⟩ := List.mem_map.mp (h.table.rooted r hr)
    exact hfresh r' hr' (hid.trans hpair.2)
  refine ⟨?_, h.users, h.names, fun user_id miniverse_id => ?_⟩
  · refine h.table.addRole (nofun : (Role.admin : Role) ≠ .none) hnew rfl (fun i hi => ?_) ?_
    · rw [List.map_append]
      exact List.mem_append_left _ hi
    · rw [List.map_append]
      exact List.mem_append_right _ (List.mem_singleton.mpr rfl)
  · unfold RoleMap.set
    split
    · rename_i hpair
      rw [hpair.1, hpair.2]
      exact Database.role_addRole_self ⟨creator_id, m.id, .admin⟩ rfl hnew
    · rename_i hpair
      exact (Database.role_addRole ⟨creator_id, m.id, .admin⟩ rfl hpair).trans (h.agrees user_id miniverse_id)

theorem StandsFor.deleteMiniverse (h : StandsFor db roles) (id : Uuid4) :
    StandsFor (db.deleteMiniverse id) (roles.forgetMiniverse id.str) where
  table := h.table.deleteMiniverse id
  users := h.users
  names := h.names
  agrees user_id miniverse_id := by
    rw [Database.role_deleteMiniverse, RoleMap.forgetMiniverse, h.agrees]

theorem StandsFor.deleteUser (h : StandsFor db roles) (user_id : String) :
    StandsFor (db.deleteUser user_id) (roles.forgetUser db.weight user_id) where
  table := h.table.deleteUser user_id
  users := h.users.deleteUser
  names := h.names.sublist (List.filter_sublist.map _)
  agrees u miniverse_id := by
    rw [Database.role_deleteUser, RoleMap.forgetUser, h.agrees]

/-! ## Steps of the table -/

/-- A request to set a role that returns has found its user and set the role. -/
theorem set_user_role_ok {current_user : User} {miniverse_id user_id_or_name : String} {role : Role} {reply : Reply}
    (hrun : (MiniversesRoute.set_user_role miniverse_id user_id_or_name role).handle env current_user w = (.ok reply, w')) :
    ∃ user m, (if matchesUuid4 user_id_or_name then w.db.findUser user_id_or_name
        else w.db.get_user_by_username user_id_or_name) = some user ∧
      w.db.findMiniverse miniverse_id = some m ∧ w'.db = w.db.setRole ⟨user.id, m.id, role⟩ := by
  rw [MiniversesRoute.handle, requireRole, bind_assoc, query, Eff.read_bind_run] at hrun
  obtain ⟨_, w₁, hguard, hlookup⟩ := Eff.bind_ok hrun
  obtain ⟨_, rfl⟩ := Eff.raiseIf_ok hguard
  rw [query, Eff.read_bind_run] at hlookup
  obtain ⟨user, w₂, huser, hminiverse⟩ := Eff.bind_ok hlookup
  obtain ⟨hfound, rfl⟩ := Eff.getOr_ok huser
  rw [getMiniverse, bind_assoc, query, Eff.read_bind_run] at hminiverse
  obtain ⟨m, w₃, hm, hset⟩ := Eff.bind_ok hminiverse
  obtain ⟨hrow, rfl⟩ := Eff.getOr_ok hm
  obtain ⟨_, w₄, hcommit, hpublish⟩ := Eff.bind_ok hset
  refine ⟨user, m, hfound, hrow, ?_⟩
  rcases commit_cases env (·.setRole ⟨user.id, m.id, role⟩) _ with ⟨e, herror⟩ | hdone
  · rw [herror] at hcommit
    cases hcommit
  · rw [hdone] at hcommit
    cases hcommit
    cases hpublish
    rfl

theorem findMiniverse_row {miniverse_id : String} {m : Miniverse} (h : db.findMiniverse miniverse_id = some m) :
    m ∈ db.miniverses ∧ m.id.str = miniverse_id :=
  ⟨List.mem_of_find?_eq_some h, of_decide_eq_true (List.find?_some h :)⟩

/-- The user that is found is the target. -/
theorem target_of_found (h : StandsFor db roles) {target user : User} {by_name : Bool}
    (hmem : target ∈ db.users) (hshape : matchesUuid4 (if by_name then target.username else target.id) = !by_name)
    (hfound : (if matchesUuid4 (if by_name then target.username else target.id) then
        db.findUser (if by_name then target.username else target.id)
      else db.get_user_by_username (if by_name then target.username else target.id)) = some user) :
    user = target := by
  rw [hshape] at hfound
  cases by_name with
  | false =>
      obtain ⟨huser, hid⟩ := findUser_mem (hfound : db.findUser target.id = some user)
      exact h.users.eq huser hmem hid
  | true =>
      have hnamed : db.get_user_by_username target.username = some user := hfound
      exact List.inj_on_of_nodup_map h.names (List.mem_of_find?_eq_some hnamed) hmem
        (of_decide_eq_true (List.find?_some hnamed :))

theorem returns_set_up (m : Miniverse) : (set_up_miniverse env m).Returns fun r => r.id = m.id := by
  intro w r w' hrun
  obtain ⟨_, w₁, _, hrun⟩ := Eff.bind_ok hrun
  obtain ⟨_, w₂, _, hrun⟩ := Eff.bind_ok hrun
  obtain ⟨started, w₃, hstarted, hrun⟩ := Eff.bind_ok hrun
  obtain ⟨_, w₄, _, hrun⟩ := Eff.bind_ok hrun
  obtain ⟨_, w₅, _, hrun⟩ := Eff.bind_ok hrun
  obtain ⟨_, w₆, _, hrun⟩ := Eff.bind_ok hrun
  cases hrun
  exact returns_start_miniverse m _ _ _ hstarted

theorem StandsFor.create {data : MiniverseCreate} {creator : User} {m : Miniverse} (h : StandsFor w.db roles)
    (hrun : create_miniverse env data creator w = (.ok m, w')) :
    StandsFor w'.db (roles.set creator.id m.id.str .admin) := by
  rcases create_miniverse_cases env data creator w with ⟨e, _, herror, _⟩ | ⟨s, _, hfresh, _, hcreate⟩
  · rw [herror] at hrun
    cases hrun
  · rw [hcreate] at hrun
    generalize hm : data.toMiniverse (env.uuid4 w.tick) s (env.random_string (w.tick + 1)) = new at hrun
    have hid : new.id = env.uuid4 w.tick := hm ▸ rfl
    rw [← hid] at hrun hfresh
    obtain ⟨_, w₁, hcommit, hrun⟩ := Eff.bind_ok hrun
    rcases commit_cases env (fun db : Database => { db with user_roles := db.user_roles ++ [⟨creator.id, new.id, .admin⟩] })
      _ with ⟨e, herror⟩ | hadd
    · rw [herror] at hcommit
      cases hcommit
    · rw [hadd] at hcommit
      cases hcommit
      rw [returns_set_up new _ _ _ hrun]
      exact StandsFor.kept (h.addMiniverse hfresh) (Eff.Within.of_run hrun (tablesKept_set_up new))

/-- Nobody has a role in a miniverse that does not exist. -/
theorem StandsFor.nowhere {miniverse_id : String} (h : StandsFor db roles) (hmissing : db.findMiniverse miniverse_id = none) :
    StandsFor db (roles.forgetMiniverse miniverse_id) where
  table := h.table
  users := h.users
  names := h.names
  agrees user_id i := by
    unfold RoleMap.forgetMiniverse
    split
    · rename_i hi
      subst hi
      refine Database.get_miniverse_role_none (List.filter_eq_nil_iff.mpr fun r hr hpair => ?_)
      obtain ⟨m, hm, hid⟩ := List.mem_map.mp (h.table.rooted r hr)
      refine List.find?_eq_none.mp hmissing m hm (decide_eq_true ?_)
      rw [hid]
      exact (of_decide_eq_true hpair).2
    · exact h.agrees user_id i

theorem StandsFor.delete {miniverse_id : String} {a : Unit} (h : StandsFor w.db roles)
    (hrun : withRow miniverse_id (delete_miniverse env) w = (.ok a, w')) :
    StandsFor w'.db (roles.forgetMiniverse miniverse_id) := by
  rw [withRow, query, Eff.read_bind_run] at hrun
  cases hm : w.db.findMiniverse miniverse_id with
  | none =>
      rw [hm] at hrun
      cases hrun
      exact h.nowhere hm
  | some m =>
      rw [hm, Option.elim_some] at hrun
      rcases delete_miniverse_cases env m (R := TablesKept) (fun _ => ⟨rfl, rfl, rfl, rfl⟩) (tablesKept_onDisk _) w with
        ⟨e, _, herror, _⟩ | ⟨w₁, hkept, _, _, hdelete⟩
      · rw [herror] at hrun
        cases hrun
      · rw [hdelete] at hrun
        have hfinish := Eff.Within.of_run hrun (within_finish_delete (within_update_proxy_config tablesKept_onDisk) m.id (w₁.db.rolesOf m.id))
        rw [← (findMiniverse_row hm).2]
        exact StandsFor.kept (w := { w₁.next with db := w₁.db.deleteMiniverse m.id }) ((h.kept hkept).deleteMiniverse m.id) hfinish

theorem StandsFor.call {c : RoleCall} {created : Option Miniverse} (haddressed : c.Addressed w.db) (h : StandsFor w.db roles)
    (hrun : c.perform env w = (.ok created, w')) : StandsFor w'.db (c.apply w.db.weight created roles) := by
  cases c with
  | set_user_role current_user miniverse_id target by_name role =>
      obtain ⟨reply, w₁, hset, hdone⟩ := Eff.bind_ok hrun
      cases hdone
      obtain ⟨user, m, hfound, hrow, hdb⟩ := set_user_role_ok hset
      obtain ⟨hm, hid⟩ := findMiniverse_row hrow
      have hstands := h.setRole ⟨user.id, m.id, role⟩ (List.mem_map.mpr ⟨m, hm, rfl⟩)
      rw [← hdb, hid, target_of_found h haddressed.1 haddressed.2 hfound] at hstands
      exact hstands
  | create_miniverse data creator =>
      obtain ⟨m, w₁, hcreate, hdone⟩ := Eff.bind_ok hrun
      cases hdone
      exact h.create hcreate
  | delete_miniverse miniverse_id =>
      obtain ⟨_, w₁, hdelete, hdone⟩ := Eff.bind_ok hrun
      cases hdone
      exact h.delete hdelete
  | delete_user user_id =>
      obtain ⟨_, w₁, hdelete, hdone⟩ := Eff.bind_ok hrun
      cases hdone
      rcases commit_cases env (·.deleteUser user_id) w with ⟨e, herror⟩ | hdeleted
      · rw [delete_user, herror] at hdelete
        cases hdelete
      · rw [delete_user, hdeleted] at hdelete
        cases hdelete
        exact h.deleteUser user_id

/-! ## Runs -/

/-- The call returns, and a target that it has is a user. -/
def CallReturns (env : Env α) (t : TrackedRoles α) (c : RoleCall) : Prop :=
  c.Addressed t.world.db ∧ Succeeds (c.perform env) t.world

/-- After calls that return, the table says what the map says, one row for each pair and none without a role. -/
theorem role_table_is_map (hunique : w.db.UniqueUsers) (hnames : (w.db.users.map fun u => w.db.weight u.username).Nodup)
    (hempty : w.db.user_roles = [])
    {calls : List RoleCall} (hmeets : Meets (TrackedRoles.take env) (CallReturns env) calls ⟨w, RoleMap.empty⟩) :
    (∀ user_id miniverse_id,
      (runs (TrackedRoles.take env) calls ⟨w, RoleMap.empty⟩).world.db.get_miniverse_role user_id miniverse_id =
        (runs (TrackedRoles.take env) calls ⟨w, RoleMap.empty⟩).roles user_id miniverse_id) ∧
      (∀ r ∈ (runs (TrackedRoles.take env) calls ⟨w, RoleMap.empty⟩).world.db.user_roles, r.role ≠ .none) ∧
      ((runs (TrackedRoles.take env) calls ⟨w, RoleMap.empty⟩).world.db.user_roles.map fun r =>
        (r.user_id, r.miniverse_id)).Nodup := by
  have hstart : StandsFor w.db RoleMap.empty := by
    refine ⟨⟨?_, ?_, ?_⟩, hunique, hnames, fun user_id miniverse_id => ?_⟩
    · rw [hempty]
      exact List.nodup_nil
    · rw [hempty]
      exact fun _ hr => absurd hr List.not_mem_nil
    · rw [hempty]
      exact fun _ hr => absurd hr List.not_mem_nil
    · rw [Database.get_miniverse_role, hempty]
      rfl
  have hinv := runs_invariant (I := fun t : TrackedRoles α => StandsFor t.world.db t.roles) (fun t c hreturns h => by
    obtain ⟨haddressed, created, w', hrun⟩ := hreturns
    have hturn : (TrackedRoles.take env c t).2 = ⟨w', c.apply t.world.db.weight created t.roles⟩ := by
      show TrackedRoles.turn env c t = _
      rw [TrackedRoles.turn, hrun]
    rw [hturn]
    exact h.call haddressed hrun) hmeets hstart
  exact ⟨hinv.agrees, hinv.table.given, hinv.table.pairs⟩

theorem succeeds_of_isOk {m : Act α β} (h : (m w).1.isOk = true) : Succeeds m w := by
  cases hrun : m w with
  | mk r w' =>
      cases r with
      | ok b => exact ⟨b, w', hrun⟩
      | error e =>
          rw [hrun] at h
          cases h

def sampleGuest : User := ⟨"guest", true, "Guest", .user⟩

/-- A new miniverse, and a role in it for a user who is then deleted. -/
def sampleRoleCalls : List RoleCall :=
  [.create_miniverse (sampleCreate "1.21.8") sampleModerator,
    .set_user_role sampleModerator sampleId.str sampleGuest true .user, .delete_user "guest"]

/-- Two users, and no roles. -/
def sampleUsers : World String := { sampleWorld with db := ⟨[sampleModerator, sampleGuest], [], [], [], sampleWeight⟩ }

set_option maxRecDepth 10000 in
theorem role_table_is_map_sample :
    (∀ user_id miniverse_id,
      (runs (TrackedRoles.take sampleEnv) sampleRoleCalls ⟨sampleUsers, RoleMap.empty⟩).world.db.get_miniverse_role
          user_id miniverse_id =
        (runs (TrackedRoles.take sampleEnv) sampleRoleCalls ⟨sampleUsers, RoleMap.empty⟩).roles user_id
          miniverse_id) ∧
      (∀ r ∈ (runs (TrackedRoles.take sampleEnv) sampleRoleCalls
        ⟨sampleUsers, RoleMap.empty⟩).world.db.user_roles, r.role ≠ .none) ∧
      ((runs (TrackedRoles.take sampleEnv) sampleRoleCalls ⟨sampleUsers, RoleMap.empty⟩).world.db.user_roles.map
        fun r => (r.user_id, r.miniverse_id)).Nodup := by
  refine role_table_is_map (by unfold Database.UniqueUsers; decide) (by decide) rfl ⟨⟨trivial, succeeds_of_isOk (by decide +kernel)⟩,
    ⟨⟨?_, by decide⟩, succeeds_of_isOk (by decide +kernel)⟩, ⟨trivial, succeeds_of_isOk (by decide +kernel)⟩, trivial⟩
  have husers : (TrackedRoles.take sampleEnv (.create_miniverse (sampleCreate "1.21.8") sampleModerator)
    ⟨sampleUsers, RoleMap.empty⟩).2.world.db.users = [sampleModerator, sampleGuest] := by decide +kernel
  rw [husers]
  exact List.mem_cons_of_mem _ List.mem_cons_self

end Backend
