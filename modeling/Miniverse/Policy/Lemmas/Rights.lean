import Miniverse.Access.Lemmas.Sound
import Miniverse.Policy.Service
import Miniverse.Requests.Lemmas.Admins

/-!
# What the rows of the tables say

The rights after each change of a row, and the guards of the routes as permissions.
-/

namespace Backend

open Lib

variable {α : Type} {env : Env α} {db db' : Database} {u t : User} {user_id : String} {id : Uuid4}

/-! ## Users -/

namespace Database

theorem userOf_weight (db : Database) (user_id : String) : db.userOf (db.weight user_id) = db.findUser user_id := rfl

theorem userOf_mem {user : String} (h : db.userOf user = some u) : u ∈ db.users ∧ db.weight u.id = user := by
  unfold userOf at h
  exact ⟨List.mem_of_find?_eq_some h, of_decide_eq_true (List.find?_some h :)⟩

theorem userOf_of_mem (hunique : db.UniqueUsers) (hu : u ∈ db.users) : db.userOf (db.weight u.id) = some u :=
  findUser_of_weight hunique hu rfl

theorem userOf_saveUser (u : User) (db : Database) (user : String) :
    (db.saveUser u).userOf user = if user = db.weight u.id then (db.userOf user).map fun _ => u else db.userOf user := by
  have hids : ((fun v : User => decide (db.weight v.id = user)) ∘ fun v => if db.weight v.id = db.weight u.id then u else v) =
      fun v => decide (db.weight v.id = user) := by
    funext v
    by_cases h : db.weight v.id = db.weight u.id <;> simp [h]
  rw [userOf, saveUser, List.find?_map]
  show Option.map _ (List.find? ((fun v : User => decide (db.weight v.id = user)) ∘ _) db.users) = _
  rw [hids, ← userOf]
  cases hfind : db.userOf user with
  | none => split <;> rfl
  | some v =>
      obtain ⟨_, rfl⟩ := userOf_mem hfind
      rw [Option.map_some]
      split <;> rfl

theorem userOf_addUser (u : User) (db : Database) (user : String) (hnew : db.findUser u.id = none) :
    ({ db with users := db.users ++ [u] } : Database).userOf user = if user = db.weight u.id then some u else db.userOf user := by
  rw [userOf, List.find?_append]
  show (db.userOf user).or _ = _
  split
  · rename_i hi
    subst hi
    rw [userOf_weight, hnew]
    simp
  · rename_i hi
    have hne : decide (db.weight u.id = user) = false := decide_eq_false fun heq => hi heq.symm
    rw [List.find?_singleton, hne]
    exact Option.or_none

theorem userOf_deleteUser (user_id : String) (db : Database) (user : String) :
    (db.deleteUser user_id).userOf user = if user = db.weight user_id then none else db.userOf user := by
  rw [userOf, deleteUser, List.find?_filter]
  split
  · rename_i hi
    subst hi
    exact List.find?_eq_none.mpr fun v _ => by simp
  · rename_i hi
    refine congrArg (db.users.find? ·) (funext fun v => ?_)
    by_cases h : db.weight v.id = user
    · simp [h, hi]
    · simp [h]

end Database

theorem newUser_first {token : Token} (h : db.users = []) :
    newUser db token = ⟨token.sub, true, token.preferred_username, .admin⟩ := if_pos (by rw [h]; rfl)

theorem newUser_later {token : Token} (h : db.users ≠ []) :
    newUser db token = ⟨token.sub, false, token.preferred_username, .user⟩ := if_neg (by simpa using h)

/-- Only the first user is active from the start. -/
theorem users_empty {token : Token} (hactive : (newUser db token).is_active = true) : db.users = [] := by
  by_contra hne
  rw [newUser_later hne] at hactive
  cases hactive

namespace Database

theorem rights_account (h : db.findUser user_id = some u) :
    db.rights.accounts (db.weight user_id) = some (u.account db.weight) := congrArg (Option.map (User.account db.weight)) h

theorem rights_role (h : db.findUser user_id = some u) (id : Uuid4) :
    db.rights.roles (db.weight user_id) id = db.get_miniverse_role u.id id.str :=
  congrArg (fun o => (o.map (db.roleOf id)).getD .none) h

/-- A row of a user that is written, with what it was before. -/
theorem rights_saveUser (hfind : db.findUser user_id = some t) (u : User) (f : Account → Account) (hid : u.id = t.id)
    (hf : f (t.account db.weight) = u.account db.weight) :
    (db.saveUser u).rights =
      db.rights.setAccount (db.weight user_id) ((db.rights.accounts (db.weight user_id)).map f) := by
  have hkey : db.weight u.id = db.weight user_id := hid ▸ (findUser_mem hfind).2
  have huser (user : String) : (db.saveUser u).userOf user =
      if user = db.weight user_id then some u else db.userOf user := by
    rw [userOf_saveUser, hkey]
    split
    · rename_i hi
      rw [hi, userOf_weight, hfind, Option.map_some]
    · rfl
  refine Rights.ext (funext fun user => ?_) rfl (funext fun user => funext fun m => ?_)
  · show ((db.saveUser u).userOf user).map (User.account db.weight) = if user = db.weight user_id then _ else db.rights.accounts user
    rw [huser]
    split
    · rw [rights_account hfind, Option.map_some, Option.map_some, hf]
    · rfl
  · show (((db.saveUser u).userOf user).map (db.roleOf m)).getD .none = db.rights.roles user m
    rw [huser]
    split
    · rename_i hi
      rw [hi, rights_role hfind, Option.map_some, Option.getD_some, roleOf, hid]
    · rfl

theorem rights_addUser (hsound : db.Sound) (u : User) (hnew : db.findUser u.id = none) :
    ({ db with users := db.users ++ [u] } : Database).rights =
      db.rights.setAccount (db.weight u.id) (some (u.account db.weight)) := by
  have hnone (m : Uuid4) : db.get_miniverse_role u.id m.str = .none := by
    by_contra hrole
    obtain ⟨r, hr, hid, _⟩ := exists_role (Role.none_lt.mpr hrole)
    obtain ⟨v, hv, hvid⟩ := List.mem_map.mp (hsound.holders r hr)
    exact findUser_none hnew v hv (congrArg db.weight (hvid.trans hid))
  refine Rights.ext (funext fun user => ?_) rfl (funext fun user => funext fun m => ?_)
  · show Option.map _ _ = if user = db.weight u.id then _ else db.rights.accounts user
    rw [userOf_addUser u db user hnew]
    split <;> rfl
  · show (Option.map (db.roleOf m) _).getD .none = ((db.userOf user).map (db.roleOf m)).getD .none
    rw [userOf_addUser u db user hnew]
    split
    · rename_i hi
      rw [hi, userOf_weight, hnew]
      exact hnone m
    · rfl

theorem rights_newUser (hsound : db.Sound) {token : Token} (hfind : db.findUser token.sub = none) :
    ({ db with users := db.users ++ [newUser db token] } : Database).rights =
      db.rights.setAccount (db.weight token.sub) (some ((newUser db token).account db.weight)) := by
  have h := rights_addUser hsound (newUser db token) ((newUser_id db token).symm ▸ hfind)
  rwa [newUser_id] at h

theorem rights_deleteUser (user_id : String) (db : Database) :
    (db.deleteUser user_id).rights = db.rights.forget (db.weight user_id) := by
  refine Rights.ext (funext fun user => ?_) rfl (funext fun user => funext fun m => ?_)
  · show Option.map _ _ = if user = db.weight user_id then none else db.rights.accounts user
    rw [userOf_deleteUser]
    split <;> rfl
  · show (Option.map ((db.deleteUser user_id).roleOf m) _).getD .none =
      if user = db.weight user_id then .none else db.rights.roles user m
    rw [userOf_deleteUser]
    split
    · rfl
    · rename_i hother
      show _ = ((db.userOf user).map (db.roleOf m)).getD .none
      cases huser : db.userOf user with
      | none => rfl
      | some u =>
          obtain ⟨_, rfl⟩ := userOf_mem huser
          rw [Option.map_some, Option.map_some, roleOf, role_deleteUser, if_neg hother, roleOf]

/-! ## Miniverses and roles -/

theorem rights_kept (hweight : db'.weight = db.weight) (husers : db'.users = db.users) (hroles : db'.user_roles = db.user_roles)
    (hids : db'.miniverses.map Miniverse.id = db.miniverses.map Miniverse.id) : db'.rights = db.rights := by
  have huser (user : String) : db'.userOf user = db.userOf user := by rw [userOf, husers, hweight, ← userOf]
  refine Rights.ext (funext fun user => ?_) ?_ (funext fun user => funext fun m => ?_)
  · show (db'.userOf user).map (User.account db'.weight) = (db.userOf user).map (User.account db.weight)
    rw [huser, hweight]
  · show { id | id ∈ db'.miniverses.map Miniverse.id } = { id | id ∈ db.miniverses.map Miniverse.id }
    rw [hids]
  · show ((db'.userOf user).map (db'.roleOf m)).getD .none = ((db.userOf user).map (db.roleOf m)).getD .none
    rw [huser]
    exact congrArg (fun f => ((db.userOf user).map f).getD .none) (funext fun u => role_of_rows hroles u.id m.str)

theorem rights_setRole (hunique : db.UniqueUsers) (ht : t ∈ db.users) (id : Uuid4) (role : Role) :
    (db.setRole ⟨t.id, id, role⟩).rights = db.rights.setRole (db.weight t.id) id role := by
  obtain ⟨husers, hminiverses, _, hweight⟩ := setRole_others db ⟨t.id, id, role⟩
  have huser (user : String) : (db.setRole ⟨t.id, id, role⟩).userOf user = db.userOf user := by
    rw [userOf, husers, hweight, ← userOf]
  refine Rights.ext (funext fun user => ?_) ?_ (funext fun user => funext fun m => ?_)
  · show (Database.userOf _ user).map (User.account (db.setRole _).weight) = (db.userOf user).map (User.account db.weight)
    rw [huser, hweight]
  · show { i | i ∈ (db.setRole _).miniverses.map Miniverse.id } = { i | i ∈ db.miniverses.map Miniverse.id }
    rw [hminiverses]
  · show ((Database.userOf _ user).map ((db.setRole ⟨t.id, id, role⟩).roleOf m)).getD .none =
      if user = db.weight t.id ∧ m = id then role else ((db.userOf user).map (db.roleOf m)).getD .none
    rw [huser]
    split
    · rename_i hpair
      rw [hpair.1, hpair.2, userOf_of_mem hunique ht, Option.map_some, Option.getD_some]
      exact role_setRole_self db ⟨t.id, id, role⟩
    · rename_i hpair
      cases hfind : db.userOf user with
      | none => rfl
      | some u =>
          obtain ⟨_, rfl⟩ := userOf_mem hfind
          exact role_setRole fun h => hpair ⟨congrArg db.weight h.1, Uuid4.eq_of_str h.2⟩

theorem rights_deleteMiniverse (user : String) (id : Uuid4) (db : Database) :
    (db.deleteMiniverse id).rights = db.rights.apply user (.close id) := by
  refine Rights.ext rfl (Set.ext fun m => ?_) (funext fun i => funext fun m => ?_)
  · show m ∈ (db.deleteMiniverse id).miniverses.map Miniverse.id ↔ m ∈ db.miniverses.map Miniverse.id ∧ m ∉ ({id} : Set Uuid4)
    simp only [deleteMiniverse, List.mem_map, List.mem_filter, decide_eq_true_eq, Set.mem_singleton_iff]
    constructor
    · rintro ⟨r, ⟨hr, hne⟩, rfl⟩
      exact ⟨⟨r, hr, rfl⟩, hne⟩
    · rintro ⟨⟨r, hr, rfl⟩, hne⟩
      exact ⟨r, ⟨hr, hne⟩, rfl⟩
  · show ((db.userOf i).map ((db.deleteMiniverse id).roleOf m)).getD .none =
      if m = id then .none else ((db.userOf i).map (db.roleOf m)).getD .none
    cases db.userOf i with
    | none => split <;> rfl
    | some u =>
        rw [Option.map_some, Option.map_some, Option.getD_some, Option.getD_some, roleOf, role_deleteMiniverse]
        split
        · rename_i hm
          rw [if_pos (Uuid4.eq_of_str hm)]
        · rename_i hm
          rw [if_neg fun h => hm (congrArg Uuid4.str h)]
          rfl

/-- In a new miniverse nobody has a role. -/
theorem role_fresh (hsound : db.Sound) (hfresh : ∀ r ∈ db.miniverses, r.id ≠ id) (user_id : String) :
    db.get_miniverse_role user_id id.str = .none := by
  by_contra hrole
  obtain ⟨r, hr, _, hid⟩ := exists_role (Role.none_lt.mpr hrole)
  obtain ⟨s, hs, hsid⟩ := List.mem_map.mp (hsound.roles.rooted r hr)
  exact hfresh s hs (hsid.trans (Uuid4.eq_of_str hid))

theorem rights_addMiniverse (hsound : db.Sound) (user : String) (m : Miniverse) (hfresh : ∀ r ∈ db.miniverses, r.id ≠ m.id) :
    ({ db with miniverses := db.miniverses ++ [m] } : Database).rights = db.rights.apply user (.found m.id .none) := by
  refine Rights.ext rfl (Set.ext fun n => ?_) (funext fun i => funext fun n => ?_)
  · show n ∈ (db.miniverses ++ [m]).map Miniverse.id ↔ n = m.id ∨ n ∈ db.miniverses.map Miniverse.id
    rw [List.map_append, List.mem_append, List.map_singleton, List.mem_singleton, or_comm]
  · show db.rights.roles i n = if i = user ∧ n = m.id then .none else db.rights.roles i n
    split
    · rename_i hpair
      rw [hpair.2]
      show ((db.userOf i).map (db.roleOf m.id)).getD .none = .none
      cases db.userOf i with
      | none => rfl
      | some u => exact role_fresh hsound hfresh u.id
    · rfl

/-- A new miniverse, and the role of who founds it. -/
theorem rights_foundMiniverse (hsound : db.Sound) (hu : u ∈ db.users) (m : Miniverse) (hfresh : ∀ r ∈ db.miniverses, r.id ≠ m.id)
    (role : Role) :
    ({ db with miniverses := db.miniverses ++ [m], user_roles := db.user_roles ++ [⟨u.id, m.id, role⟩] } : Database).rights =
      db.rights.apply (db.weight u.id) (.found m.id role) := by
  have hnew : ∀ r ∈ db.user_roles, ¬ r.SamePair ⟨u.id, m.id, role⟩ := by
    intro r hr hpair
    obtain ⟨s, hs, hid⟩ := List.mem_map.mp (hsound.roles.rooted r hr)
    exact hfresh s hs (hid.trans hpair.2)
  refine Rights.ext rfl (Set.ext fun n => ?_) (funext fun i => funext fun n => ?_)
  · show n ∈ (db.miniverses ++ [m]).map Miniverse.id ↔ n = m.id ∨ n ∈ db.miniverses.map Miniverse.id
    rw [List.map_append, List.mem_append, List.map_singleton, List.mem_singleton, or_comm]
  · show ((db.userOf i).map (Database.roleOf _ n)).getD .none =
      if i = db.weight u.id ∧ n = m.id then role else ((db.userOf i).map (db.roleOf n)).getD .none
    split
    · rename_i hpair
      rw [hpair.1, hpair.2, userOf_of_mem hsound.users hu, Option.map_some, Option.getD_some]
      exact role_addRole_self ⟨u.id, m.id, role⟩ rfl hnew
    · rename_i hpair
      cases hfind : db.userOf i with
      | none => rfl
      | some v =>
          obtain ⟨_, rfl⟩ := userOf_mem hfind
          exact role_addRole ⟨u.id, m.id, role⟩ rfl fun h => hpair ⟨congrArg db.weight h.1, Uuid4.eq_of_str h.2⟩

/-! ## Guards -/

/-- Each account is that of a row. -/
theorem row_of_account {user : String} {a : Account} (h : db.rights.accounts user = some a) :
    ∃ u ∈ db.users, db.weight u.id = user ∧ u.account db.weight = a := by
  obtain ⟨u, hfind, hu⟩ := Option.map_eq_some_iff.mp h
  exact ⟨u, (userOf_mem hfind).1, (userOf_mem hfind).2, hu⟩

theorem free_of_rows {username : String} (h : ∀ v ∈ db.users, db.weight v.username = db.weight username →
    db.weight v.id = db.weight user_id) : db.rights.Free (db.weight user_id) (db.weight username) := by
  intro j a ha hname
  obtain ⟨v, hv, rfl, rfl⟩ := row_of_account ha
  exact h v hv hname

theorem exists_account (h : db.users ≠ []) : ∃ user, db.rights.accounts user ≠ none := by
  obtain ⟨v, hv⟩ := List.exists_mem_of_ne_nil _ h
  exact ⟨db.weight v.id, fun hnone => findUser_none (Option.map_eq_none_iff.mp hnone) v hv rfl⟩

theorem no_accounts (h : db.users = []) (user : String) : db.rights.accounts user = none := by
  show (db.userOf user).map _ = none
  rw [userOf, h]
  rfl

theorem accounts_ne_none {j : String} : db.rights.accounts (db.weight j) ≠ none ↔ ∃ t, db.findUser j = some t := by
  show (db.findUser j).map _ ≠ none ↔ _
  rw [ne_eq, Option.map_eq_none_iff, ← ne_eq, Option.ne_none_iff_exists']

section Known

variable (hfind : db.findUser user_id = some u) (hactive : u.is_active = true)

include hfind hactive

theorem active_iff {role : Role} : db.rights.Active (db.weight user_id) role ↔ role ≤ u.role := by
  constructor
  · rintro ⟨a, ha, _, hrole⟩
    obtain rfl := Option.some.inj ((rights_account hfind).symm.trans ha)
    exact hrole
  · exact fun hrole => ⟨u.account db.weight, rights_account hfind, hactive, hrole⟩

theorem active_of_findUser : db.rights.Active (db.weight user_id) .none := (active_iff hfind hactive).mpr (Nat.zero_le _)

theorem admin_iff : db.rights.Active (db.weight user_id) .admin ↔ u.role = .admin :=
  (active_iff hfind hactive).trans Role.admin_le

omit hactive in
/-- An administrator is not the only one where the count says so. -/
theorem otherAdmin_iff (hunique : db.UniqueUsers) (hrole : u.role = .admin) :
    db.rights.OtherAdmin (db.weight user_id) ↔ ¬ count_admins db ≤ 1 := by
  obtain ⟨hu, hid⟩ := findUser_mem hfind
  rw [Nat.not_le, ← hid]
  constructor
  · rintro ⟨j, hne, a, ha, hadmin⟩
    obtain ⟨v, hv, rfl, rfl⟩ := row_of_account ha
    have hsubset : [u, v] ⊆ db.users.filter fun t => decide (t.role = .admin) := by
      intro t ht
      rcases List.mem_pair.mp ht with rfl | rfl
      · exact List.mem_filter.mpr ⟨hu, decide_eq_true hrole⟩
      · exact List.mem_filter.mpr ⟨hv, decide_eq_true hadmin⟩
    have hnodup : [u, v].Nodup :=
      List.nodup_cons.mpr ⟨fun hmem => hne (congrArg (db.weight ·.id) (List.mem_singleton.mp hmem).symm), List.nodup_singleton v⟩
    have hle := (List.subperm_of_subset hnodup hsubset).length_le
    rwa [← List.countP_eq_length_filter] at hle
  · intro hcount
    obtain ⟨other, hne, v, hv, hvid, hadmin⟩ := Requests.other_admin hunique hcount u.id
    exact ⟨db.weight v.id, hvid ▸ hne, v.account db.weight, rights_account (findUser_of_weight hunique hv rfl), hadmin⟩

theorem permits_leave_iff (hunique : db.UniqueUsers) :
    db.rights.Permits (db.weight user_id) .leave ↔ ¬ (u.role = .admin ∧ count_admins db ≤ 1) := by
  rw [not_and, ← admin_iff hfind hactive]
  constructor
  · rintro ⟨_, hother⟩ hadmin
    exact (otherAdmin_iff hfind hunique ((admin_iff hfind hactive).mp hadmin)).mp (hother hadmin)
  · intro hguard
    refine ⟨active_of_findUser hfind hactive, fun hadmin => ?_⟩
    exact (otherAdmin_iff hfind hunique ((admin_iff hfind hactive).mp hadmin)).mpr (hguard hadmin)

omit hactive in
/-- Where the own identifier is spelled as in the row, the texts say whether it is the own one. -/
theorem own_iff {j : String} (hspells : db.weight j = db.weight user_id → j = u.id) :
    db.weight user_id = db.weight j ↔ u.id = j :=
  ⟨fun h => (hspells h.symm).symm, fun h => h ▸ (findUser_mem hfind).2.symm⟩

theorem permits_expel_iff {j : String} (hspells : db.weight j = db.weight user_id → j = u.id) :
    db.rights.Permits (db.weight user_id) (.expel (db.weight j)) ↔ u.role = .admin ∧ u.id ≠ j :=
  and_congr (admin_iff hfind hactive) (not_congr (own_iff hfind hspells))

theorem permits_reject_iff {j : String} : db.rights.Permits (db.weight user_id) (.reject j) ↔ u.role = .admin :=
  admin_iff hfind hactive

theorem permits_accept_iff {j : String} :
    db.rights.Permits (db.weight user_id) (.accept (db.weight j)) ↔ u.role = .admin ∧ ∃ t, db.findUser j = some t :=
  and_congr (admin_iff hfind hactive) accounts_ne_none

theorem permits_promote_iff (hunique : db.UniqueUsers) {j : String} {role : Role}
    (hspells : db.weight j = db.weight user_id → j = u.id) :
    db.rights.Permits (db.weight user_id) (.promote (db.weight j) role) ↔
      u.role = .admin ∧ ¬ (u.id = j ∧ count_admins db ≤ 1) ∧ ∃ t, db.findUser j = some t := by
  have hguard (hadmin : u.role = .admin) : (db.weight user_id = db.weight j → db.rights.OtherAdmin (db.weight user_id)) ↔
      ¬ (u.id = j ∧ count_admins db ≤ 1) := by
    rw [own_iff hfind hspells, otherAdmin_iff hfind hunique hadmin, not_and]
  constructor
  · rintro ⟨hadmin, hfound, hother⟩
    have hrole := (admin_iff hfind hactive).mp hadmin
    exact ⟨hrole, (hguard hrole).mp hother, accounts_ne_none.mp hfound⟩
  · rintro ⟨hrole, hother, hfound⟩
    exact ⟨(admin_iff hfind hactive).mpr hrole, accounts_ne_none.mpr hfound, (hguard hrole).mpr hother⟩

end Known

end Database

/-! ## Targets -/

theorem names_of_target {user_id_or_name : String} {t : User} (hunique : db.UniqueUsers)
    (h : (if matchesUuid4 user_id_or_name then db.findUser user_id_or_name
      else db.get_user_by_username user_id_or_name) = some t) :
    t ∈ db.users ∧ db.rights.Names db.weight user_id_or_name (db.weight t.id) := by
  unfold Rights.Names
  split at h
  · rename_i hmatches
    rw [if_pos hmatches]
    exact findUser_mem h
  · rename_i hmatches
    rw [if_neg hmatches]
    unfold Database.get_user_by_username at h
    have hmem := List.mem_of_find?_eq_some h
    exact ⟨hmem, t.account db.weight, Database.rights_account (findUser_of_weight hunique hmem rfl),
      of_decide_eq_true (List.find?_some h :)⟩

theorem target_of_names {user_id_or_name user : String} (hnames : db.rights.Names db.weight user_id_or_name user)
    (hfound : db.rights.accounts user ≠ none) :
    ∃ t, (if matchesUuid4 user_id_or_name then db.findUser user_id_or_name
      else db.get_user_by_username user_id_or_name) = some t := by
  unfold Rights.Names at hnames
  split
  · rename_i hmatches
    rw [if_pos hmatches] at hnames
    exact Database.accounts_ne_none.mp (hnames ▸ hfound)
  · rename_i hmatches
    rw [if_neg hmatches] at hnames
    obtain ⟨a, ha, hname⟩ := hnames
    obtain ⟨v, hv, _, rfl⟩ := Database.row_of_account ha
    exact Option.isSome_iff_exists.mp (List.find?_isSome.mpr ⟨v, hv, decide_eq_true hname⟩)

end Backend
