import Miniverse.Users.Service

/-!
# What a request does to the users
-/

namespace Backend

open Lib

variable {α : Type} {env : Env α}

/-- The change of a route of the current user `u`, when it makes one. -/
inductive RouteChange (u : User) (db : Database) : UsersRoute → Database → Prop
  | delete_me : ¬ (u.role = .admin ∧ count_admins db ≤ 1) → RouteChange u db .delete_me (db.deleteUser u.id)
  | delete_user {user_id} : u.role = .admin → u.id ≠ user_id →
      RouteChange u db (.delete_user user_id) (db.deleteUser user_id)
  | set_user_role {user_id role t} : u.role = .admin → ¬ (u.id = user_id ∧ count_admins db ≤ 1) →
      db.findUser user_id = some t →
      RouteChange u db (.set_user_role user_id role) (db.saveUser { t with role := role })
  | accept {user_id t} : u.role = .admin → db.findUser user_id = some t →
      RouteChange u db (.accept_user_request user_id) (db.saveUser { t with is_active := true })
  | reject {user_id} : u.role = .admin → RouteChange u db (.reject_user_request user_id) (db.deleteUser user_id)

theorem commit_db (f : Database → Database) (w : World α) :
    (commit env f w).2.db = w.db ∨ (commit env f w).2.db = f w.db := by
  rcases commit_cases env f w with ⟨e, h⟩ | h
  · exact Or.inl (by rw [h]; rfl)
  · exact Or.inr (by rw [h])

theorem admin_user_guard_run (u : User) (w : World α) :
    admin_user_guard u w = (if u.role = .admin then .ok () else .error (.notAuthorized "Unauthorized"), w) := by
  unfold admin_user_guard
  by_cases h : u.role = .admin
  · simp [Role.admin_le, h]
  · simp [Role.admin_le, h]

/-- A route changes nothing, or makes its change. -/
theorem handle_db (u : User) (route : UsersRoute) (w : World α) :
    (route.handle env u w).2.db = w.db ∨ RouteChange u w.db route (route.handle env u w).2.db := by
  cases route with
  | get_me => exact Or.inl rfl
  | delete_me =>
      rw [UsersRoute.handle]
      rw [query, Eff.read_bind_run]
      by_cases h : u.role = .admin ∧ count_admins w.db ≤ 1
      · rw [decide_eq_true h, Eff.raiseIf_true_bind]
        exact Or.inl rfl
      · rw [decide_eq_false h, Eff.raiseIf_false_bind]
        refine (commit_db _ w).imp id fun hdb => ?_
        rw [delete_user, hdb]
        exact .delete_me h
  | delete_user user_id =>
      rw [UsersRoute.handle]
      by_cases hadmin : u.role = .admin
      · rw [Eff.bind_run_ok (by rw [admin_user_guard_run, if_pos hadmin])]
        by_cases h : u.id = user_id
        · rw [decide_eq_true h, Eff.raiseIf_true_bind]
          exact Or.inl rfl
        · rw [decide_eq_false h, Eff.raiseIf_false_bind]
          refine (commit_db _ w).imp id fun hdb => ?_
          rw [delete_user, hdb]
          exact .delete_user hadmin h
      · rw [Eff.bind_run_error (by rw [admin_user_guard_run, if_neg hadmin])]
        exact Or.inl rfl
  | set_user_role user_id role =>
      rw [UsersRoute.handle]
      by_cases hadmin : u.role = .admin
      · rw [Eff.bind_run_ok (by rw [admin_user_guard_run, if_pos hadmin]), query, Eff.read_bind_run]
        by_cases h : u.id = user_id ∧ count_admins w.db ≤ 1
        · rw [decide_eq_true h, Eff.raiseIf_true_bind]
          exact Or.inl rfl
        · rw [decide_eq_false h, Eff.raiseIf_false_bind, set_user_role, query, Eff.read_bind_run]
          cases ht : w.db.findUser user_id with
          | none => exact Or.inl rfl
          | some t =>
              rw [Eff.getOr_some_bind]
              refine (commit_db _ w).imp id fun hdb => ?_
              rw [hdb]
              exact .set_user_role hadmin h ht
      · rw [Eff.bind_run_error (by rw [admin_user_guard_run, if_neg hadmin])]
        exact Or.inl rfl
  | accept_user_request user_id =>
      rw [UsersRoute.handle]
      by_cases hadmin : u.role = .admin
      · rw [Eff.bind_run_ok (by rw [admin_user_guard_run, if_pos hadmin]), accept_user_request, query,
          Eff.read_bind_run]
        cases ht : w.db.findUser user_id with
        | none => exact Or.inl rfl
        | some t =>
            rw [Eff.getOr_some_bind]
            refine (commit_db _ w).imp id fun hdb => ?_
            rw [hdb]
            exact .accept hadmin ht
      · rw [Eff.bind_run_error (by rw [admin_user_guard_run, if_neg hadmin])]
        exact Or.inl rfl
  | reject_user_request user_id =>
      rw [UsersRoute.handle]
      by_cases hadmin : u.role = .admin
      · rw [Eff.bind_run_ok (by rw [admin_user_guard_run, if_pos hadmin])]
        refine (commit_db _ w).imp id fun hdb => ?_
        rw [reject_user_request, delete_user, hdb]
        exact .reject hadmin
      · rw [Eff.bind_run_error (by rw [admin_user_guard_run, if_neg hadmin])]
        exact Or.inl rfl

/-! ## Login -/

/-- The user that `create_user` makes. -/
def newUser (db : Database) (token : Token) : User :=
  if db.users.isEmpty then { id := token.sub, is_active := true, username := token.preferred_username, role := .admin }
  else { id := token.sub, is_active := false, username := token.preferred_username, role := .user }

/-- What a login does: nothing, a new user, or a new name. -/
inductive Login (db : Database) (token : Token) : Except PyError User → Database → Prop
  | refused {e} : Login db token (.error e) db
  | found {u} : db.findUser token.sub = some u → u.is_active = true → Login db token (.ok u) db
  | inactive {e} : db.findUser token.sub = none → (newUser db token).is_active = false →
      Login db token (.error e) { db with users := db.users ++ [newUser db token] }
  | created : db.findUser token.sub = none → (newUser db token).is_active = true →
      Login db token (.ok (newUser db token)) { db with users := db.users ++ [newUser db token] }
  | renamed {u} : db.findUser token.sub = some u → u.is_active = true →
      Login db token (.ok { u with username := token.preferred_username })
        (db.saveUser { u with username := token.preferred_username })

theorem newUser_id (db : Database) (token : Token) : (newUser db token).id = token.sub := by
  unfold newUser
  split <;> rfl

theorem newUser_username (db : Database) (token : Token) :
    (newUser db token).username = token.preferred_username := by
  unfold newUser
  split <;> rfl

theorem saveUsername_cases (env : Env α) (user_id username : String) (f : Database → Database) (w : World α) :
    (∃ e w', saveUsername env user_id username f w = (.error e, w') ∧ w'.db = w.db) ∨
      ∃ w', saveUsername env user_id username f w = (.ok (), w') ∧ w'.db = f w.db := by
  unfold saveUsername
  rw [query, Eff.read_bind_run]
  cases w.db.users.any fun u =>
      decide (w.db.weight u.username = w.db.weight username ∧ w.db.weight u.id ≠ w.db.weight user_id) with
  | true => exact Or.inl ⟨_, _, rfl, rfl⟩
  | false =>
      rw [Eff.raiseIf_false_bind]
      rcases commit_cases env f w with ⟨e, h⟩ | h
      · exact Or.inl ⟨_, _, h, rfl⟩
      · exact Or.inr ⟨_, h, rfl⟩

theorem create_user_cases (env : Env α) (userid username : String) (w : World α) :
    (∃ e w', create_user env userid username w = (.error e, w') ∧ w'.db = w.db) ∨
      ∃ w', create_user env userid username w = (.ok (newUser w.db ⟨userid, username⟩), w') ∧
        w'.db = { w.db with users := w.db.users ++ [newUser w.db ⟨userid, username⟩] } := by
  unfold create_user
  rw [query, Eff.read_bind_run]
  rcases saveUsername_cases env userid username
      (fun db => { db with users := db.users ++ [newUser w.db ⟨userid, username⟩] }) w with
    ⟨e, w', h, hdb⟩ | ⟨w', h, hdb⟩
  · exact Or.inl ⟨e, w', Eff.bind_run_error h _, hdb⟩
  · exact Or.inr ⟨w', Eff.bind_run_ok h _, hdb⟩

/-- A login is one of these. -/
theorem retrieve_user_handler_login (env : Env α) (token : Token) (w : World α) :
    Login w.db token (retrieve_user_handler env token w).1 (retrieve_user_handler env token w).2.db := by
  unfold retrieve_user_handler
  rw [query, Eff.read_bind_run]
  cases hfind : w.db.findUser token.sub with
  | none =>
      rw [Option.elim_none]
      rcases create_user_cases env token.sub token.preferred_username w with ⟨e, w', h, hdb⟩ | ⟨w', h, hdb⟩
      · rw [Eff.bind_run_error h, hdb]
        exact .refused
      · rw [Eff.bind_run_ok h]
        cases hactive : (newUser w.db token).is_active with
        | false =>
            rw [Bool.not_false, Eff.raiseIf_true_bind, hdb]
            exact .inactive hfind hactive
        | true =>
            rw [Bool.not_true, Eff.raiseIf_false_bind, if_neg (not_not.mpr (newUser_username _ _)), Eff.pure_run, hdb]
            exact .created hfind hactive
  | some u =>
      rw [Option.elim_some, Eff.pure_bind_run]
      by_cases hactive : u.is_active = true
      · rw [show (!u.is_active) = false by simp [hactive], Eff.raiseIf_false_bind]
        by_cases hname : u.username ≠ token.preferred_username
        · rw [if_pos hname]
          rcases saveUsername_cases env u.id token.preferred_username
              (·.saveUser { u with username := token.preferred_username }) w with ⟨e, w', h, hdb⟩ | ⟨w', h, hdb⟩
          · rw [Eff.bind_run_error h, hdb]
            exact .refused
          · rw [Eff.bind_run_ok h, Eff.pure_run, hdb]
            exact .renamed hfind hactive
        · rw [if_neg hname]
          exact .found hfind hactive
      · rw [show (!u.is_active) = true by simp [hactive], Eff.raiseIf_true_bind]
        exact .refused

/-- A request is a login, and then a route for a user who got in. -/
theorem request_db (env : Env α) (r : UsersRequest) (w : World α) :
    ∃ db, Login w.db r.token (retrieve_user_handler env r.token w).1 db ∧ ((r.handle env w).2.db = db ∨
      ∃ u, (retrieve_user_handler env r.token w).1 = .ok u ∧ RouteChange u db r.route (r.handle env w).2.db) := by
  have hlogin := retrieve_user_handler_login env r.token w
  unfold UsersRequest.handle
  rcases hr : retrieve_user_handler env r.token w with ⟨e | u, w'⟩
  · rw [hr] at hlogin
    rw [Eff.bind_run_error hr]
    exact ⟨_, hlogin, Or.inl rfl⟩
  · rw [hr] at hlogin
    rw [Eff.bind_run_ok hr]
    exact ⟨_, hlogin, (handle_db u r.route w').imp id fun h => ⟨u, rfl, h⟩⟩

end Backend
