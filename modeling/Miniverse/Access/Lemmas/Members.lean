import Miniverse.Access.Lemmas.Changes
import Miniverse.Miniverses.Lemmas.Cases

/-!
# Who is let in

A login lets in only users who are active, and writes nothing but a row of the users. Rows of users change their role, and become
active, only for an administrator.
-/

namespace Backend

open Lib

variable {α β : Type} {env : Env α} {db db' : Database} {w w' : World α} {u v : User} {user_id : String} {token : Token}

/-- The user has a row, and may use the service. -/
def Database.Active (db : Database) (user_id : String) : Prop :=
  ∃ v ∈ db.users, db.weight v.id = db.weight user_id ∧ v.is_active = true

/-- The user is an administrator who may use the service. -/
def Database.Administers (db : Database) (user_id : String) : Prop :=
  ∃ v ∈ db.users, db.weight v.id = db.weight user_id ∧ v.ActiveAdmin

instance (db : Database) (user_id : String) : Decidable (db.Active user_id) :=
  inferInstanceAs (Decidable (∃ v ∈ db.users, db.weight v.id = db.weight user_id ∧ v.is_active = true))

instance (db : Database) (user_id : String) : Decidable (db.Administers user_id) :=
  inferInstanceAs (Decidable (∃ v ∈ db.users, db.weight v.id = db.weight user_id ∧ v.is_active = true ∧ v.role = .admin))

/-! ## Logins -/

/-- A login writes no more than a row of the users. -/
def OnlyUsers (w w' : World α) : Prop := w' = { w with db := { w.db with users := w'.db.users }, tick := w'.tick }

instance : Std.Refl (OnlyUsers (α := α)) := ⟨fun _ => rfl⟩

instance : IsTrans (World α) OnlyUsers := ⟨fun w₁ w₂ w₃ h₁ h₂ => by
  unfold OnlyUsers at *
  rw [h₁] at h₂
  exact h₂⟩

theorem onlyUsers_saveUsername (env : Env α) (user_id username : String) {f : Database → Database}
    (hf : ∀ db, f db = { db with users := (f db).users }) : (saveUsername env user_id username f).Within OnlyUsers := by
  refine (Eff.Within.read _).bind fun _ => (Eff.Within.raiseIf _ _).bind fun _ => fun w => ?_
  rcases commit_cases env f w with ⟨e, hrun⟩ | hrun
  · rw [hrun]
    rfl
  · rw [hrun]
    show _ = _
    conv_lhs => rw [hf w.db]
    rfl

theorem onlyUsers_retrieve_user_handler (env : Env α) (token : Token) : (retrieve_user_handler env token).Within OnlyUsers := by
  have hcreate : (create_user env token.sub token.preferred_username).Within OnlyUsers :=
    (Eff.Within.read _).bind fun _ => (onlyUsers_saveUsername env _ _ fun _ => rfl).bind fun _ => Eff.Within.pure _
  refine (Eff.Within.read _).bind fun found => Eff.Within.bind (Eff.Within.elim hcreate fun _ _ => Eff.Within.pure _) fun u => ?_
  refine (Eff.Within.raiseIf _ _).bind fun _ => Eff.Within.ite ?_ (Eff.Within.pure _)
  exact (onlyUsers_saveUsername env _ _ fun _ => rfl).bind fun _ => Eff.Within.pure _

/-- Who is let in was active before, or is the first user. -/
theorem Login.active (h : Login db token (.ok u) db') : db.Active token.sub ∨ db.users = [] := by
  cases h with
  | found hfind hactive => exact Or.inl ⟨u, (findUser_mem hfind).1, (findUser_mem hfind).2, hactive⟩
  | renamed hfind hactive => exact Or.inl ⟨_, (findUser_mem hfind).1, (findUser_mem hfind).2, hactive⟩
  | created _ hactive =>
      refine Or.inr (by_contra fun hne => ?_)
      have hempty : db.users.isEmpty = false := by simpa using hne
      simp [newUser, hempty] at hactive

/-- The administrators who are let in were administrators before, or are the first users. -/
theorem Login.admin (h : Login db token (.ok u) db') (hrole : u.role = .admin) : db.Administers token.sub ∨ db.users = [] := by
  cases h with
  | found hfind hactive => exact Or.inl ⟨u, (findUser_mem hfind).1, (findUser_mem hfind).2, hactive, hrole⟩
  | renamed hfind hactive => exact Or.inl ⟨_, (findUser_mem hfind).1, (findUser_mem hfind).2, hactive, hrole⟩
  | created _ hactive =>
      refine Or.inr (by_contra fun hne => ?_)
      have hempty : db.users.isEmpty = false := by simpa using hne
      simp [newUser, hempty] at hactive

/-- A row after a login is as before but for its name, or is new. -/
theorem Login.row {r : Except PyError User} (h : Login db token r db') (hv : v ∈ db'.users) :
    (∃ v₀ ∈ db.users, v₀.id = v.id ∧ v₀.is_active = v.is_active ∧ v₀.role = v.role ∧
      (db.weight v.id ≠ db.weight token.sub → v₀ = v)) ∨ v = newUser db token := by
  have hold (hv : v ∈ db.users) : ∃ v₀ ∈ db.users, v₀.id = v.id ∧ v₀.is_active = v.is_active ∧ v₀.role = v.role ∧
      (db.weight v.id ≠ db.weight token.sub → v₀ = v) := ⟨v, hv, rfl, rfl, rfl, fun _ => rfl⟩
  have hadded (hv : v ∈ db.users ++ [newUser db token]) : (∃ v₀ ∈ db.users, v₀.id = v.id ∧ v₀.is_active = v.is_active ∧
      v₀.role = v.role ∧ (db.weight v.id ≠ db.weight token.sub → v₀ = v)) ∨ v = newUser db token :=
    (List.mem_append.mp hv).imp hold List.mem_singleton.mp
  cases h with
  | refused => exact Or.inl (hold hv)
  | found => exact Or.inl (hold hv)
  | inactive => exact hadded hv
  | created => exact hadded hv
  | @renamed u hfind =>
      obtain ⟨v₀, hv₀, rfl⟩ := List.mem_map.mp hv
      obtain ⟨hu, hid⟩ := findUser_mem hfind
      refine Or.inl ?_
      by_cases heq : db.weight v₀.id = db.weight u.id
      · rw [if_pos heq]
        exact ⟨u, hu, rfl, rfl, rfl, fun hne => absurd hid hne⟩
      · rw [if_neg heq]
        exact ⟨v₀, hv₀, rfl, rfl, rfl, fun _ => rfl⟩

/-- Nobody's row is taken away by a login. -/
theorem Login.kept {r : Except PyError User} (h : Login db token r db') (hv : v ∈ db.users)
    (hother : db.weight v.id ≠ db.weight token.sub) : v ∈ db'.users := by
  cases h with
  | refused => exact hv
  | found => exact hv
  | inactive => exact List.mem_append_left _ hv
  | created => exact List.mem_append_left _ hv
  | renamed hfind => exact mem_saveUser_of_ne hv fun heq => hother (heq.trans (findUser_mem hfind).2)

/-! ## Routes of the miniverses -/

def SameUsers (w w' : World α) : Prop := w'.db.users = w.db.users ∧ w'.db.weight = w.db.weight

instance : Calm (SameUsers (α := α)) where
  refl _ := ⟨rfl, rfl⟩
  trans _ _ _ h₁ h₂ := ⟨h₂.1.trans h₁.1, h₂.2.trans h₁.2⟩
  tick _ _ := ⟨rfl, rfl⟩
  events _ _ := ⟨rfl, rfl⟩
  containers _ _ := ⟨rfl, rfl⟩

theorem sameUsers_object (id : Uuid4) : AllowsObject (SameUsers (α := α)) id fun _ => True where
  save _ _ := ⟨rfl, rfl⟩
  control _ _ := ⟨rfl, rfl⟩
  state _ _ _ := trivial

theorem sameUsers_onDisk (f : Fs α β) : (onDisk f : Act α β).Within SameUsers := fun _ => ⟨rfl, rfl⟩

theorem sameUsers_data (env : Env α) (id : Uuid4) : AllowsData env SameUsers id fun _ => True where
  mkdirs := sameUsers_onDisk _
  write _ _ _ := sameUsers_onDisk _
  unlink _ _ := sameUsers_onDisk _
  answers _ _ := trivial
  rows h := h fun _ _ => trivial
  save_mod _ _ _ _ _ := ⟨rfl, rfl⟩
  add_mod _ _ _ := ⟨rfl, rfl⟩
  mkdirs_below _ _ := sameUsers_onDisk _
  write_below _ _ _ := sameUsers_onDisk _

theorem sameUsers_byRole (env : Env α) (u : User) : AllowsByRole env SameUsers u (fun _ => True) fun _ => True where
  used _ _ hr := hr ⟨sameUsers_object _, sameUsers_data env _, trivial⟩
  moderated _ hr := hr (sameUsers_data env _).toAllowsMods fun _ _ => ⟨rfl, rfl⟩
  administered _ _ hr := hr fun _ => within_update_object (sameUsers_object _) (sameUsers_data env _)
    (within_update_proxy_config sameUsers_onDisk) trivial fun _ _ _ _ => trivial
  given _ _ _ _ := ⟨(setRole_others _ _).1, (setRole_others _ _).2.2.2⟩

theorem sameUsers_create (env : Env α) (data : MiniverseCreate) (u : User) : (create_miniverse env data u).Within SameUsers := by
  have hcommit {f : Database → Database} (hf : ∀ db, (f db).users = db.users ∧ (f db).weight = db.weight) :
      (commit env f).Within SameUsers := within_commit fun w => hf w.db
  refine (within_ask _).bind fun _ => (within_ask _).bind fun _ => (Eff.Within.getOr _ _).bind fun _ => ?_
  refine Eff.Within.bind ((within_query _).bind fun _ => (Eff.Within.raiseIf _ _).bind fun _ => hcommit fun _ => ⟨rfl, rfl⟩) fun _ => ?_
  refine Eff.Within.bind (hcommit fun _ => ⟨rfl, rfl⟩) fun _ => ?_
  exact within_set_up (within_update_proxy_config sameUsers_onDisk) (fun _ _ => ⟨rfl, rfl⟩) (sameUsers_object _) (sameUsers_data env _)
    trivial

theorem sameUsers_delete (env : Env α) (m : Miniverse) : (delete_miniverse env m).Within SameUsers := by
  intro w
  rcases delete_miniverse_cases env m (R := SameUsers) (fun _ => ⟨rfl, rfl⟩) (sameUsers_onDisk _) w with
    ⟨e, w', hrun, hsame⟩ | ⟨w₁, hsame, _, _, hrun⟩
  · rw [hrun]
    exact hsame
  · rw [hrun]
    have hproxy : (update_proxy_config env).Within SameUsers := within_update_proxy_config sameUsers_onDisk
    have hfinish := within_finish_delete hproxy m.id (w₁.db.rolesOf m.id) { w₁.next with db := w₁.db.deleteMiniverse m.id }
    exact ⟨hfinish.1.trans hsame.1, hfinish.2.trans hsame.2⟩

theorem sameUsers_route (env : Env α) (u : User) (route : MiniversesRoute) : (route.handle env u).Within SameUsers := by
  refine within_route_by_role (sameUsers_byRole env u) ?_ ?_
  · rintro data rfl
    exact (Eff.Within.raiseIf _ _).bind fun _ => (sameUsers_create env data u).bind fun _ => Eff.Within.pure _
  · rintro miniverse_id rfl
    exact within_guarded_by (P := fun _ => True) (fun _ _ h => h trivial) fun m _ =>
      (sameUsers_delete env m).bind fun _ => Eff.Within.pure _

theorem RowChange.weight {a : Arrival} (h : RowChange env db a db') : db'.weight = db.weight := by
  cases h with
  | idle => rfl
  | login _ h => exact login_weight h.login
  | users h hchange =>
      rw [← login_weight h.login]
      cases hchange <;> rfl
  | @miniverses token u w route h =>
      have hsame : SameUsers w (route.handle env u w).2 := sameUsers_route env u route w
      exact hsame.2.trans (login_weight h.login)

/-! ## Acceptance -/

/-- No administrator accepts the user, and the user is not the first one to come. -/
def Unaccepted (user_id : String) (l : Live α) (a : Arrival) : Prop :=
  (∀ token target, a = .users token (.accept_user_request target) → l.world.db.weight target = l.world.db.weight user_id →
    ¬ l.world.db.Administers token.sub) ∧
    ∀ token, a.token = some token → l.world.db.weight token.sub = l.world.db.weight user_id → l.world.db.users ≠ []

theorem Login.inactive_kept {r : Except PyError User} (h : Login db token r db') (hactive : ¬ db.Active user_id)
    (hfirst : db.weight token.sub = db.weight user_id → db.users ≠ []) : ¬ db'.Active user_id := by
  rintro ⟨v, hv, hvid, hv'⟩
  rw [login_weight h] at hvid
  rcases h.row hv with ⟨v₀, hv₀, hid, hsame, _⟩ | rfl
  · exact hactive ⟨v₀, hv₀, hid ▸ hvid, hsame.trans hv'⟩
  · rw [newUser_id] at hvid
    have hempty : db.users.isEmpty = false := by simpa using hfirst hvid
    simp [newUser, hempty] at hv'

theorem RouteChange.inactive_kept {route : UsersRoute} (h : RouteChange u db route db') (hactive : ¬ db.Active user_id)
    (haccept : ∀ target, route = .accept_user_request target → db.weight target = db.weight user_id → u.role = .admin →
      db.findUser target = none) : ¬ db'.Active user_id := by
  have hdeleted (i : String) : ¬ (db.deleteUser i).Active user_id := by
    rintro ⟨v, hv, hid, hv'⟩
    exact hactive ⟨v, (mem_deleteUser.mp hv).1, hid, hv'⟩
  -- a row that is not the one that was written is an old one
  have hsaved {t : User} (ht : db.weight t.id = db.weight user_id → t.is_active = false) : ¬ (db.saveUser t).Active user_id := by
    rintro ⟨v, hv, hid, hv'⟩
    replace hid : db.weight v.id = db.weight user_id := hid
    obtain ⟨v₀, hv₀, rfl⟩ := List.mem_map.mp hv
    by_cases heq : db.weight v₀.id = db.weight t.id
    · rw [if_pos heq] at hid hv'
      rw [ht hid] at hv'
      cases hv'
    · rw [if_neg heq] at hid hv'
      exact hactive ⟨v₀, hv₀, hid, hv'⟩
  cases h with
  | delete_me => exact hdeleted _
  | delete_user => exact hdeleted _
  | @set_user_role _ role t _ _ hfind =>
      obtain ⟨ht, _⟩ := findUser_mem hfind
      exact hsaved fun hid => Bool.eq_false_iff.mpr fun ht' => hactive ⟨t, ht, hid, ht'⟩
  | @accept target t hadmin hfind =>
      refine hsaved fun hid => ?_
      rw [haccept target rfl ((findUser_mem hfind).2.symm.trans hid) hadmin] at hfind
      cases hfind
  | reject => exact hdeleted _

/-- Nobody becomes active but by being accepted. -/
theorem RowChange.inactive_kept {a : Arrival} {l : Live α} (h : RowChange env l.world.db a db') (hcond : Unaccepted user_id l a)
    (hactive : ¬ l.world.db.Active user_id) : ¬ db'.Active user_id := by
  cases h with
  | idle => exact hactive
  | login htoken hlogin => exact hlogin.login.inactive_kept hactive (hcond.2 _ htoken)
  | @users token u db₁ route _ hlogin hchange =>
      refine hchange.inactive_kept (hlogin.login.inactive_kept hactive (hcond.2 _ rfl)) fun target hroute htarget hadmin => ?_
      subst hroute
      have hweight := login_weight hlogin.login
      rw [hweight] at htarget
      -- an administrator who may accept is the first user, and finds nobody
      rcases hlogin.login.admin hadmin with hadministers | hempty
      · exact absurd hadministers (hcond.1 token target rfl htarget)
      · refine List.find?_eq_none.mpr fun v hv hid => ?_
        have hid := hweight ▸ of_decide_eq_true hid
        rcases hlogin.login.row hv with ⟨v₀, hv₀, _⟩ | rfl
        · rw [hempty] at hv₀
          cases hv₀
        · rw [newUser_id] at hid
          exact hcond.2 token rfl (hid.trans htarget) hempty
  | @miniverses token u w route hlogin =>
      rintro ⟨v, hv, hid, hv'⟩
      obtain ⟨husers, hweight⟩ : SameUsers w (route.handle env u w).2 := sameUsers_route env u route w
      rw [hweight] at hid
      exact hlogin.login.inactive_kept hactive (hcond.2 _ rfl) ⟨v, husers ▸ hv, hid, hv'⟩

/-- Who is not active is refused, and at most gets a row. -/
theorem Arrival.refused (sur : Surroundings env.toPlatform) {a : Arrival} {l : Live α} (htoken : a.token = some token)
    (hactive : ¬ l.world.db.Active token.sub) (hfirst : l.world.db.users ≠ []) :
    ∃ e w, a.handle sur l = (.error e, { l with world := w }) ∧ OnlyUsers l.world w := by
  have hrefused {β : Type} (handler : User → Eff (Live α) PyError β) : ∃ e w,
      authenticated env token handler l = (.error e, { l with world := w }) ∧ OnlyUsers l.world w := by
    obtain ⟨w, ⟨e, _, hretrieve, hrun⟩ | ⟨u, hlogin, _⟩⟩ := authenticated_cases env token handler l
    · exact ⟨e, w, hrun, (onlyUsers_retrieve_user_handler env token).of_run hretrieve⟩
    · exact (hlogin.login.active.elim hactive hfirst).elim
  cases a with
  | users token route =>
      obtain rfl := Option.some.inj htoken
      exact hrefused _
  | miniverses token route =>
      obtain rfl := Option.some.inj htoken
      exact hrefused _
  | files token route =>
      obtain rfl := Option.some.inj htoken
      exact hrefused _
  | open_updates token =>
      obtain rfl := Option.some.inj htoken
      exact hrefused _
  | open_logs token miniverse_id chunks inputs =>
      obtain rfl := Option.some.inj htoken
      exact hrefused _
  | next_event session => cases htoken
  | receive_text session => cases htoken
  | receive_webhook data => cases htoken

end Backend
