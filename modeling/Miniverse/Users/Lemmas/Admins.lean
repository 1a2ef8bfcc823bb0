import Miniverse.Users.Lemmas.Requests

/-!
# The administrator that remains

Identifiers of users are unique, and a user who is active and an administrator stays so through every request that is
not harmful.
-/

namespace Backend

open Lib

variable {α : Type} {env : Env α} {db db' : Database} {u v : User}

def User.ActiveAdmin (u : User) : Prop := u.is_active = true ∧ u.role = .admin

def Database.UniqueUsers (db : Database) : Prop := (db.users.map fun u => db.weight u.id).Nodup

def Database.HasActiveAdmin (db : Database) : Prop := ∃ u ∈ db.users, u.ActiveAdmin

/-- The identifier in the row of who sends the token, also where the login makes this row. -/
def Database.ownId (db : Database) (token : Token) : String := ((db.findUser token.sub).map User.id).getD token.sub

/-- The request removes or demotes the user who sends it, who is the only active administrator. The checks of the own
identifier pass where it is spelled as in no row. -/
def Harmful (db : Database) (r : UsersRequest) : Prop :=
  (∀ v ∈ db.users, db.weight v.id ≠ db.weight r.token.sub → ¬ v.ActiveAdmin) ∧
    match r.route with
    | .delete_me => 1 < count_admins db
    | .delete_user user_id => db.weight user_id = db.weight r.token.sub ∧ user_id ≠ db.ownId r.token
    | .set_user_role user_id role => db.weight user_id = db.weight r.token.sub ∧ role ≠ .admin ∧
        (user_id = db.ownId r.token → 1 < count_admins db)
    | .reject_user_request user_id => db.weight user_id = db.weight r.token.sub
    | _ => False

/-! ## Tables of users -/

theorem mem_deleteUser {user_id : String} :
    v ∈ (db.deleteUser user_id).users ↔ v ∈ db.users ∧ db.weight v.id ≠ db.weight user_id := by
  simp [Database.deleteUser]

theorem mem_saveUser_of_ne (hv : v ∈ db.users) (hne : db.weight v.id ≠ db.weight u.id) : v ∈ (db.saveUser u).users :=
  List.mem_map.mpr ⟨v, hv, if_neg hne⟩

theorem mem_saveUser_self (hv : v ∈ db.users) (heq : v.id = u.id) : u ∈ (db.saveUser u).users :=
  List.mem_map.mpr ⟨v, hv, if_pos (congrArg db.weight heq)⟩

theorem findUser_mem {user_id : String} (h : db.findUser user_id = some u) :
    u ∈ db.users ∧ db.weight u.id = db.weight user_id := by
  unfold Database.findUser at h
  exact ⟨List.mem_of_find?_eq_some h, by simpa using List.find?_some h⟩

theorem findUser_none {user_id : String} (h : db.findUser user_id = none) :
    ∀ v ∈ db.users, db.weight v.id ≠ db.weight user_id := by
  intro v hv heq
  have := List.find?_eq_none.mp h v hv
  simp [heq] at this

theorem saveUser_weights : ((db.saveUser u).users.map fun v => db.weight v.id) = db.users.map fun v => db.weight v.id := by
  rw [Database.saveUser, List.map_map]
  refine List.map_congr_left fun v _ => ?_
  by_cases h : db.weight v.id = db.weight u.id
  · simp [h]
  · simp [h]

theorem Database.UniqueUsers.saveUser (h : db.UniqueUsers) : (db.saveUser u).UniqueUsers :=
  (congrArg List.Nodup saveUser_weights).mpr h

theorem Database.UniqueUsers.deleteUser {user_id : String} (h : db.UniqueUsers) : (db.deleteUser user_id).UniqueUsers :=
  h.sublist (List.filter_sublist.map _)

theorem Database.UniqueUsers.eq (h : db.UniqueUsers) (hu : u ∈ db.users) (hv : v ∈ db.users)
    (heq : db.weight u.id = db.weight v.id) : u = v :=
  List.inj_on_of_nodup_map h hu hv heq

/-- The identifiers stay as they are spelled where a row takes other values. -/
theorem Database.UniqueUsers.saveUser_ids (h : db.UniqueUsers) (hv : v ∈ db.users) (hid : u.id = v.id) :
    (db.saveUser u).users.map User.id = db.users.map User.id := by
  rw [Database.saveUser, List.map_map]
  refine List.map_congr_left fun t ht => ?_
  by_cases heq : db.weight t.id = db.weight u.id
  · rw [h.eq ht hv (heq.trans (congrArg db.weight hid))]
    simp [hid]
  · simp [heq]

theorem findUser_of_weight (hunique : db.UniqueUsers) (hu : u ∈ db.users) {user_id : String}
    (hid : db.weight u.id = db.weight user_id) : db.findUser user_id = some u := by
  cases hfind : db.findUser user_id with
  | none => exact absurd hid (findUser_none hfind u hu)
  | some v =>
      obtain ⟨hv, hvid⟩ := findUser_mem hfind
      rw [hunique.eq hv hu (hvid.trans hid.symm)]

theorem saveUser_count (h : ∀ v ∈ db.users, db.weight v.id = db.weight u.id → v.role = u.role) :
    count_admins (db.saveUser u) = count_admins db := by
  unfold count_admins Database.saveUser
  rw [List.countP_map]
  refine List.countP_congr fun v hv => ?_
  by_cases heq : db.weight v.id = db.weight u.id
  · simp [heq, h v hv heq]
  · simp [heq]

/-! ## Login -/

theorem login_unique {token : Token} {r : Except PyError User} (h : Login db token r db') (hunique : db.UniqueUsers) :
    db'.UniqueUsers := by
  have hadd (hfind : db.findUser token.sub = none) :
      ((db.users ++ [newUser db token]).map fun v => db.weight v.id).Nodup := by
    rw [List.map_append, List.nodup_append]
    refine ⟨hunique, by simp, ?_⟩
    intro a ha b hb
    obtain ⟨v, hv, rfl⟩ := List.mem_map.mp ha
    rw [List.map_singleton, List.mem_singleton, newUser_id] at hb
    rw [hb]
    exact findUser_none hfind v hv
  cases h with
  | refused => exact hunique
  | found => exact hunique
  | inactive hfind => exact hadd hfind
  | created hfind => exact hadd hfind
  | renamed => exact hunique.saveUser

/-- No login takes an administrator away. -/
theorem login_keeps {token : Token} {r : Except PyError User} (h : Login db token r db') (hunique : db.UniqueUsers)
    (hadmin : db.HasActiveAdmin) : db'.HasActiveAdmin := by
  obtain ⟨v, hv, hactive⟩ := hadmin
  cases h with
  | refused => exact ⟨v, hv, hactive⟩
  | found => exact ⟨v, hv, hactive⟩
  | inactive => exact ⟨v, List.mem_append_left _ hv, hactive⟩
  | created => exact ⟨v, List.mem_append_left _ hv, hactive⟩
  | @renamed u hfind _ =>
      obtain ⟨hu, hid⟩ := findUser_mem hfind
      by_cases heq : db.weight v.id = db.weight u.id
      · have := hunique.eq hv hu heq
        subst this
        exact ⟨_, mem_saveUser_self hv rfl, hactive⟩
      · exact ⟨v, mem_saveUser_of_ne hv heq, hactive⟩

/-- The first user who gets in is an administrator. -/
theorem login_first {token : Token} (h : Login db token (.ok u) db') (hempty : db.users = []) : db'.HasActiveAdmin := by
  have hnone (u : User) : db.findUser token.sub ≠ some u := by simp [Database.findUser, hempty]
  cases h with
  | found hfind => exact absurd hfind (hnone _)
  | created =>
      refine ⟨newUser db token, List.mem_append_right _ (List.mem_singleton_self _), ?_, ?_⟩ <;> simp [newUser, hempty]
  | renamed hfind => exact absurd hfind (hnone _)

/-- An empty table stays empty, or its first user is an administrator. -/
theorem login_empty {token : Token} {r : Except PyError User} (h : Login db token r db') (hempty : db.users = []) :
    db'.users = [] ∨ db'.HasActiveAdmin := by
  cases r with
  | ok u => exact Or.inr (login_first h hempty)
  | error e =>
      cases h with
      | refused => exact Or.inl hempty
      | inactive _ hactive => simp [newUser, hempty] at hactive

theorem login_weight {token : Token} {r : Except PyError User} (h : Login db token r db') : db'.weight = db.weight := by
  cases h <;> rfl

theorem login_roles {token : Token} {r : Except PyError User} (h : Login db token r db') : db'.user_roles = db.user_roles := by
  cases h <;> rfl

theorem login_user {token : Token} (h : Login db token (.ok u) db') :
    u ∈ db'.users ∧ db.weight u.id = db.weight token.sub ∧ u.is_active = true := by
  cases h with
  | found hfind hactive => exact ⟨(findUser_mem hfind).1, (findUser_mem hfind).2, hactive⟩
  | created _ hactive =>
      exact ⟨List.mem_append_right _ (List.mem_singleton_self _), congrArg db.weight (newUser_id _ _), hactive⟩
  | renamed hfind hactive =>
      exact ⟨mem_saveUser_self (findUser_mem hfind).1 rfl, (findUser_mem hfind).2, hactive⟩

theorem ownId_of_findUser {token : Token} (h : db.findUser token.sub = some u) : db.ownId token = u.id := by
  rw [Database.ownId, h, Option.map_some, Option.getD_some]

theorem login_ownId {token : Token} (h : Login db token (.ok u) db') : u.id = db.ownId token := by
  cases h with
  | found hfind => exact (ownId_of_findUser hfind).symm
  | created hfind => rw [Database.ownId, hfind, Option.map_none, Option.getD_none, newUser_id]
  | renamed hfind => exact (ownId_of_findUser hfind).symm

/-- A login leaves how the own identifier is spelled. -/
theorem login_ownId_kept {token : Token} (h : Login db token (.ok u) db') (hunique : db.UniqueUsers) :
    db'.ownId token = db.ownId token := by
  obtain ⟨hu, hid, _⟩ := login_user h
  rw [← login_ownId h]
  exact ownId_of_findUser (findUser_of_weight (login_unique h hunique) hu (login_weight h ▸ hid))

theorem newUser_count {token : Token} (h : 1 < count_admins { db with users := db.users ++ [newUser db token] }) :
    1 < count_admins db := by
  unfold count_admins at h ⊢
  rw [List.countP_append] at h
  cases hempty : db.users with
  | nil =>
      rw [hempty, List.countP_nil, Nat.zero_add] at h
      have := List.countP_le_length (p := fun u : User => decide (u.role = .admin)) (l := [newUser db token])
      rw [List.length_singleton] at this
      omega
  | cons v vs =>
      rw [← hempty]
      simpa [newUser, hempty] using h

/-- A request that is harmful after the login was harmful before it. -/
theorem login_harmful {r : UsersRequest} (h : Login db r.token (.ok u) db') (hunique : db.UniqueUsers)
    (hharm : Harmful db' r) : Harmful db r := by
  obtain ⟨hothers, hroute⟩ := hharm
  have hweight := login_weight h
  have hown := login_ownId_kept h hunique
  have hcount : 1 < count_admins db' → 1 < count_admins db := by
    cases h with
    | found => exact id
    | created => exact newUser_count
    | @renamed u hfind _ =>
        rw [saveUser_count]
        · exact id
        · intro v hv heq
          rw [hunique.eq hv (findUser_mem hfind).1 heq]
  rw [hweight] at hothers
  refine ⟨fun v hv hne => hothers v ?_ hne, ?_⟩
  · cases h with
    | found => exact hv
    | created => exact List.mem_append_left _ hv
    | renamed hfind => exact mem_saveUser_of_ne hv fun heq => hne (heq.trans (findUser_mem hfind).2)
  · rw [hown, hweight] at hroute
    cases hr : r.route with
    | delete_me => simpa [hr] using hcount (by simpa [hr] using hroute)
    | delete_user user_id => simpa [hr] using hroute
    | set_user_role user_id role =>
        rw [hr] at hroute
        exact ⟨hroute.1, hroute.2.1, fun hid => hcount (hroute.2.2 hid)⟩
    | reject_user_request => simpa [hr] using hroute
    | _ => simp [hr] at hroute

/-! ## Routes -/

theorem route_unique {route : UsersRoute} (h : RouteChange u db route db') (hunique : db.UniqueUsers) :
    db'.UniqueUsers := by
  cases h with
  | delete_me => exact hunique.deleteUser
  | delete_user => exact hunique.deleteUser
  | set_user_role => exact hunique.saveUser
  | accept => exact hunique.saveUser
  | reject => exact hunique.deleteUser

/-- A deletion leaves an administrator where its row stays or another one is there. -/
theorem deleteUser_keeps {user_id : String} (hu : u ∈ db.users) (hadmin : u.ActiveAdmin)
    (hother : db.weight u.id = db.weight user_id → ∃ v ∈ db.users, db.weight v.id ≠ db.weight u.id ∧ v.ActiveAdmin) :
    (db.deleteUser user_id).HasActiveAdmin := by
  by_cases heq : db.weight u.id = db.weight user_id
  · obtain ⟨v, hv, hne, hv'⟩ := hother heq
    exact ⟨v, mem_deleteUser.mpr ⟨hv, heq ▸ hne⟩, hv'⟩
  · exact ⟨u, mem_deleteUser.mpr ⟨hu, heq⟩, hadmin⟩

/-- A route that is not harmful leaves an administrator. -/
theorem route_keeps {r : UsersRequest} (h : RouteChange u db r.route db') (hunique : db.UniqueUsers)
    (hadmin : db.HasActiveAdmin) (hu : u ∈ db.users) (hid : db.weight u.id = db.weight r.token.sub)
    (hactive : u.is_active = true) (hharm : ¬ Harmful db r) : db'.HasActiveAdmin := by
  have hown : db.ownId r.token = u.id := by
    rw [Database.ownId, findUser_of_weight hunique hu hid, Option.map_some, Option.getD_some]
  -- an active administrator other than the caller is left alone by what the caller does to itself
  have hother (h : ¬ ∀ v ∈ db.users, db.weight v.id ≠ db.weight r.token.sub → ¬ v.ActiveAdmin) :
      ∃ v ∈ db.users, db.weight v.id ≠ db.weight u.id ∧ v.ActiveAdmin := by
    by_contra hnone
    exact h fun v hv hne hv' => hnone ⟨v, hv, hid ▸ hne, hv'⟩
  obtain ⟨token, route⟩ := r
  cases h with
  | delete_me hguard =>
      by_cases hrole : u.role = .admin
      · exact deleteUser_keeps hu ⟨hactive, hrole⟩ fun _ => hother fun halone =>
          hharm ⟨halone, by simpa [hrole] using hguard⟩
      · obtain ⟨v, hv, hv'⟩ := hadmin
        refine ⟨v, mem_deleteUser.mpr ⟨hv, fun heq => hrole ?_⟩, hv'⟩
        rw [← hunique.eq hv hu heq]
        exact hv'.2
  | @delete_user user_id hrole hne =>
      exact deleteUser_keeps hu ⟨hactive, hrole⟩ fun heq => hother fun halone =>
        hharm ⟨halone, heq.symm.trans hid, hown ▸ hne.symm⟩
  | @set_user_role user_id role t hrole hguard hfind =>
      obtain ⟨ht, htid⟩ := findUser_mem hfind
      by_cases heq : db.weight u.id = db.weight t.id
      · have := hunique.eq hu ht heq
        subst this
        by_cases hnew : role = .admin
        · exact ⟨_, mem_saveUser_self hu rfl, hactive, hnew⟩
        · obtain ⟨v, hv, hne, hv'⟩ := hother fun halone => by
            refine hharm ⟨halone, htid.symm.trans hid, hnew, fun hself => ?_⟩
            exact Nat.not_le.mp fun hcount => hguard ⟨(hself.trans hown).symm, hcount⟩
          exact ⟨v, mem_saveUser_of_ne hv hne, hv'⟩
      · exact ⟨u, mem_saveUser_of_ne hu heq, hactive, hrole⟩
  | @accept user_id t hrole hfind =>
      obtain ⟨ht, _⟩ := findUser_mem hfind
      by_cases heq : db.weight u.id = db.weight t.id
      · have := hunique.eq hu ht heq
        subst this
        exact ⟨_, mem_saveUser_self hu rfl, rfl, hrole⟩
      · exact ⟨u, mem_saveUser_of_ne hu heq, hactive, hrole⟩
  | @reject user_id hrole =>
      exact deleteUser_keeps hu ⟨hactive, hrole⟩ fun heq => hother fun halone =>
        hharm ⟨halone, heq.symm.trans hid⟩

/-! ## Requests -/

theorem request_unique (r : UsersRequest) (w : World α) (hunique : w.db.UniqueUsers) :
    (r.handle env w).2.db.UniqueUsers := by
  obtain ⟨db, hlogin, hsame | ⟨u, _, hroute⟩⟩ := request_db env r w
  · rw [hsame]
    exact login_unique hlogin hunique
  · exact route_unique hroute (login_unique hlogin hunique)

/-- An administrator after the login is left by a request that is not harmful. -/
theorem request_keeps_of_login {r : UsersRequest} {w : World α} (hharm : ¬ Harmful w.db r) (hunique : w.db.UniqueUsers)
    (hadmin : ∀ db, Login w.db r.token (retrieve_user_handler env r.token w).1 db → db.HasActiveAdmin) :
    (r.handle env w).2.db.HasActiveAdmin := by
  obtain ⟨db, hlogin, hsame | ⟨u, hok, hroute⟩⟩ := request_db env r w
  · rw [hsame]
    exact hadmin db hlogin
  · rw [hok] at hlogin hadmin
    obtain ⟨hu, hid, hactive⟩ := login_user hlogin
    rw [← login_weight hlogin] at hid
    exact route_keeps hroute (login_unique hlogin hunique) (hadmin db hlogin) hu hid hactive fun h =>
      hharm (login_harmful hlogin hunique h)

theorem request_keeps {r : UsersRequest} {w : World α} (hharm : ¬ Harmful w.db r) (hunique : w.db.UniqueUsers)
    (hadmin : w.db.HasActiveAdmin) : (r.handle env w).2.db.HasActiveAdmin :=
  request_keeps_of_login hharm hunique fun _ hlogin => login_keeps hlogin hunique hadmin

/-- The first login that succeeds brings an administrator. -/
theorem request_first {r : UsersRequest} {w : World α} {u : User} (hharm : ¬ Harmful w.db r)
    (hempty : w.db.users = []) (hlogin : (retrieve_user_handler env r.token w).1 = .ok u) :
    (r.handle env w).2.db.HasActiveAdmin := by
  refine request_keeps_of_login hharm (by simp [Database.UniqueUsers, hempty]) fun db h => ?_
  rw [hlogin] at h
  exact login_first h hempty

theorem request_empty {r : UsersRequest} {w : World α} (hharm : ¬ Harmful w.db r) (hempty : w.db.users = []) :
    (r.handle env w).2.db.users = [] ∨ (r.handle env w).2.db.HasActiveAdmin := by
  rcases hx : (retrieve_user_handler env r.token w).1 with e | u
  · obtain ⟨db, hlogin, hsame | ⟨u, hok, _⟩⟩ := request_db env r w
    · rw [hsame]
      exact login_empty hlogin hempty
    · rw [hx] at hok
      cases hok
  · exact Or.inr (request_first hharm hempty hx)

end Backend
