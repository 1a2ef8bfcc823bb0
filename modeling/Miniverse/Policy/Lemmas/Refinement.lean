import Miniverse.Access.Lemmas.Members
import Miniverse.Policy.Lemmas.Origins
import Miniverse.Policy.Lemmas.Rights

/-!
# The service under its policy

What an arrival does to the rights is a sequence of permitted actions that it asks for: what its login does, and then what its route
does.
-/

namespace Backend

open Lib

variable {α : Type} {env : Env α} {db db' db'' : Database} {w : World α} {u : User} {token : Token}
  {log log' : List (String × Action String Uuid4)}

/-- The actions are permitted one after the other, and lead from the rights of one database to those of another. -/
def Leads (log : List (String × Action String Uuid4)) (db db' : Database) : Prop :=
  Meets Rights.take Rights.Allows log db.rights ∧ runs Rights.take log db.rights = db'.rights

namespace Leads

theorem nothing (h : db'.rights = db.rights) : Leads [] db db' := ⟨trivial, h.symm⟩

theorem one {user : String} {action : Action String Uuid4} (hpermits : db.rights.Permits user action)
    (h : db'.rights = db.rights.apply user action) : Leads [(user, action)] db db' := ⟨⟨hpermits, trivial⟩, h.symm⟩

theorem append (h : Leads log db db') (h' : Leads log' db' db'') : Leads (log ++ log') db db'' := by
  refine ⟨meets_append.mpr ⟨h.1, ?_⟩, ?_⟩
  · rw [h.2]
    exact h'.1
  · rw [runs_append, h.2]
    exact h'.2

end Leads

/-- Some actions that the arrival asks for lead there. -/
def Arrival.LeadsTo (a : Arrival) (db db' : Database) : Prop := ∃ log, (∀ x ∈ log, a.Asks db.weight x) ∧ Leads log db db'

namespace Arrival.LeadsTo

variable {a : Arrival}

theorem nothing (h : db'.rights = db.rights) : a.LeadsTo db db' := ⟨[], fun _ hx => absurd hx List.not_mem_nil, .nothing h⟩

theorem one {user : String} {action : Action String Uuid4} (hasks : a.Asks db.weight (user, action))
    (hpermits : db.rights.Permits user action) (h : db'.rights = db.rights.apply user action) : a.LeadsTo db db' :=
  ⟨_, fun _ hx => List.mem_singleton.mp hx ▸ hasks, .one hpermits h⟩

theorem trans (h : a.LeadsTo db db') (hweight : db'.weight = db.weight) (h' : a.LeadsTo db' db'') : a.LeadsTo db db'' := by
  obtain ⟨log, hasks, hleads⟩ := h
  obtain ⟨log', hasks', hleads'⟩ := h'
  rw [hweight] at hasks'
  exact ⟨log ++ log', fun x hx => (List.mem_append.mp hx).elim (hasks x) (hasks' x), hleads.append hleads'⟩

end Arrival.LeadsTo

/-! ## Logins and the routes of the users -/

theorem SignIn.leadsTo {a : Arrival} {r : Except PyError User} (h : SignIn db token r db') (hsound : db.Sound)
    (htoken : a.token = some token) : a.LeadsTo db db' := by
  obtain ⟨hlogin, hsame | hfree⟩ := h
  · exact .nothing (congrArg Database.rights hsame)
  have hfree := Database.free_of_rows hfree
  cases hlogin with
  | refused => exact .nothing rfl
  | found => exact .nothing rfl
  | inactive hfind hinactive =>
      have hsome : db.users ≠ [] := fun hempty => by simp [newUser, hempty] at hinactive
      refine .one (.join htoken) ⟨congrArg (Option.map _) hfind, Database.exists_account hsome, hfree⟩
        ((Database.rights_newUser hsound hfind).trans ?_)
      rw [newUser_later hsome]
      rfl
  | created hfind hactive =>
      have hempty := users_empty hactive
      refine .one (.settle htoken) (Database.no_accounts hempty) ((Database.rights_newUser hsound hfind).trans ?_)
      rw [newUser_first hempty]
      rfl
  | @renamed u hfind hactive =>
      refine .one (.rename htoken) ⟨Database.active_of_findUser hfind hactive, hfree⟩ ?_
      exact Database.rights_saveUser hfind _ (fun a => { a with username := db.weight token.preferred_username }) rfl rfl

theorem RouteChange.leadsTo {route : UsersRoute} (h : RouteChange u db route db') (hunique : db.UniqueUsers)
    (hspells : (Arrival.users token route).SpellsOwn db) (hfind : db.findUser token.sub = some u) (hactive : u.is_active = true) :
    (Arrival.users token route).LeadsTo db db' := by
  have hown := ownId_of_findUser hfind
  cases h with
  | delete_me hguard =>
      refine .one (.users token rfl) ((Database.permits_leave_iff hfind hactive hunique).mpr hguard) ?_
      exact (Database.rights_deleteUser _ _).trans (congrArg db.rights.forget (findUser_mem hfind).2)
  | delete_user hrole hne =>
      refine .one (.users token rfl) ((Database.permits_expel_iff hfind hactive fun h => ?_).mpr ⟨hrole, hne⟩) ?_
      · exact (hspells h).trans hown
      · exact Database.rights_deleteUser _ _
  | reject hrole =>
      exact .one (.users token rfl) ((Database.permits_reject_iff hfind hactive).mpr hrole) (Database.rights_deleteUser _ _)
  | accept hrole htarget =>
      refine .one (.users token rfl) ((Database.permits_accept_iff hfind hactive).mpr ⟨hrole, _, htarget⟩) ?_
      exact Database.rights_saveUser htarget _ (fun a => { a with is_active := true }) rfl rfl
  | @set_user_role _ role _ hrole hguard htarget =>
      refine .one (.users token rfl)
        ((Database.permits_promote_iff hfind hactive hunique fun h => ?_).mpr ⟨hrole, hguard, _, htarget⟩) ?_
      · exact (hspells h).trans hown
      · exact Database.rights_saveUser htarget _ (fun a => { a with role := role }) rfl rfl

/-! ## Routes of the miniverses -/

theorem tablesKept_use (env : Env α) (u : User) : AllowsUse env TablesKept u (fun _ => True) fun _ => True where
  used _ _ hr := hr ⟨tablesKept_object _, tablesKept_data env _, trivial⟩
  moderated _ hr := hr (tablesKept_data env _).toAllowsMods fun _ _ => ⟨rfl, rfl, rfl, rfl⟩
  administered _ _ hr := hr fun _ => within_update_object (tablesKept_object _) (tablesKept_data env _)
    (within_update_proxy_config tablesKept_onDisk) trivial fun _ _ _ _ => trivial

theorem TablesKept.rights {w' : World α} (h : TablesKept w w') : w'.db.rights = w.db.rights :=
  Database.rights_kept h.weight h.users h.user_roles h.miniverses

theorem leadsTo_create {data : MiniverseCreate} (hsound : w.db.Sound) (hfind : w.db.findUser token.sub = some u)
    (hmoderator : w.db.rights.Active (w.db.weight token.sub) .moderator) :
    (Arrival.miniverses token (.create_miniverse data)).LeadsTo w.db (create_miniverse env data u w).2.db := by
  obtain ⟨hu, hid⟩ := findUser_mem hfind
  rcases create_miniverse_cases env data u w with ⟨e, w', hrun, hdb, _⟩ | ⟨s, _, hfresh, _, hrun⟩
  · rw [hrun, hdb]
    exact .nothing rfl
  · rw [hrun]
    generalize hm : data.toMiniverse (env.uuid4 w.tick) s (env.random_string (w.tick + 1)) = new
    have hnew : new.id = env.uuid4 w.tick := hm ▸ rfl
    rw [← hnew] at hfresh ⊢
    have habsent : new.id ∉ w.db.rights.miniverses := fun hmem => by
      obtain ⟨r, hr, hrid⟩ := List.mem_map.mp hmem
      exact hfresh r hr hrid
    rcases commit_cases env (fun db : Database => { db with user_roles := db.user_roles ++ [⟨u.id, new.id, .admin⟩] })
      { w.next.next.next with db := { w.db with miniverses := w.db.miniverses ++ [new] } } with ⟨e, hcommit⟩ | hcommit
    · -- the row of the miniverse stays without a role
      rw [Eff.bind_run_error hcommit]
      exact .one (.found token data new.id .none) ⟨hmoderator, habsent, Or.inl rfl⟩
        (Database.rights_addMiniverse hsound _ new hfresh)
    · rw [Eff.bind_run_ok hcommit]
      refine .one (.found token data new.id .admin) ⟨hmoderator, habsent, Or.inr rfl⟩ ?_
      rw [(tablesKept_set_up new _).rights, ← hid]
      exact Database.rights_foundMiniverse hsound hu new hfresh .admin

theorem leadsTo_delete {m : Miniverse} (hrow : m ∈ w.db.miniverses)
    (hactive : w.db.rights.Active (w.db.weight token.sub) .none)
    (hadmin : w.db.rights.roles (w.db.weight token.sub) m.id = .admin) :
    (Arrival.miniverses token (.delete_miniverse m.id.str)).LeadsTo w.db (delete_miniverse env m w).2.db := by
  rcases delete_miniverse_cases env m (R := TablesKept) (fun _ => ⟨rfl, rfl, rfl, rfl⟩) (tablesKept_onDisk _) w with
    ⟨e, w', hrun, hkept⟩ | ⟨w₁, hkept, _, _, hrun⟩
  · rw [hrun]
    exact .nothing hkept.rights
  · rw [hrun]
    have hfinish : (finish_delete env m.id (w₁.db.rolesOf m.id)).Within TablesKept :=
      within_finish_delete (within_update_proxy_config tablesKept_onDisk) _ _
    refine .one (.close token m.id) ⟨hactive, List.mem_map_of_mem hrow, hadmin⟩ ?_
    rw [(hfinish _).rights, ← hkept.rights]
    exact Database.rights_deleteMiniverse _ m.id w₁.db

theorem leadsTo_set_user_role {miniverse_id user_id_or_name : String} {role : Role} (hunique : w.db.UniqueUsers)
    (hfind : w.db.findUser token.sub = some u) (hactive : w.db.rights.Active (w.db.weight token.sub) .none) :
    (Arrival.miniverses token (.set_user_role miniverse_id user_id_or_name role)).LeadsTo w.db
      ((MiniversesRoute.set_user_role miniverse_id user_id_or_name role).handle env u w).2.db := by
  rw [MiniversesRoute.handle, requireRole, bind_assoc, query, Eff.read_bind_run]
  by_cases hguard : w.db.get_miniverse_role u.id miniverse_id < .admin
  · rw [decide_eq_true hguard, Eff.raiseIf_true_bind]
    exact .nothing rfl
  · rw [decide_eq_false hguard, Eff.raiseIf_false_bind, query, Eff.read_bind_run]
    cases hfound : (if matchesUuid4 user_id_or_name = true then w.db.findUser user_id_or_name
      else w.db.get_user_by_username user_id_or_name) with
    | none => exact .nothing rfl
    | some user =>
        rw [Eff.getOr_some_bind, getMiniverse, bind_assoc, query, Eff.read_bind_run]
        obtain ⟨htarget, hnames⟩ := names_of_target hunique hfound
        have hsame (hmatches : matchesUuid4 user_id_or_name = true) : w.db.weight user.id = w.db.weight user_id_or_name := by
          rwa [Rights.Names, if_pos hmatches] at hnames
        cases hm : w.db.findMiniverse miniverse_id with
        | none => exact .nothing rfl
        | some m =>
            rw [Eff.getOr_some_bind]
            obtain ⟨hmem, rfl⟩ := findMiniverse_some hm
            rcases commit_cases env (·.setRole ⟨user.id, m.id, role⟩) w with ⟨e, hrun⟩ | hrun
            · rw [Eff.bind_run_error hrun]
              exact .nothing rfl
            · rw [Eff.bind_run_ok hrun]
              refine .one (.grant token m.id role hsame) ⟨hactive, List.mem_map_of_mem hmem, ?_, ?_⟩ ?_
              · exact (Database.rights_role hfind m.id).trans (Role.admin_le.mp (Role.not_lt.mp hguard))
              · exact Database.accounts_ne_none.mpr ⟨user, findUser_of_weight hunique htarget rfl⟩
              · exact Database.rights_setRole hunique htarget m.id role

theorem leadsTo_route (route : MiniversesRoute) (hsound : w.db.Sound) (hfind : w.db.findUser token.sub = some u)
    (hactive : u.is_active = true) : (Arrival.miniverses token route).LeadsTo w.db (route.handle env u w).2.db := by
  have hany : w.db.rights.Active (w.db.weight token.sub) .none := Database.active_of_findUser hfind hactive
  by_cases hcreate : ∃ data, route = .create_miniverse data
  · obtain ⟨data, rfl⟩ := hcreate
    rw [MiniversesRoute.handle]
    by_cases hguard : u.role < .moderator
    · rw [decide_eq_true hguard]
      exact .nothing rfl
    · rw [decide_eq_false hguard, Eff.raiseIf_false_bind, Eff.bind_pure_state]
      exact leadsTo_create hsound hfind ((Database.active_iff hfind hactive).mpr (Role.not_lt.mp hguard))
  · by_cases hdelete : ∃ id, route = .delete_miniverse id
    · obtain ⟨miniverse_id, rfl⟩ := hdelete
      rw [MiniversesRoute.handle, requireRole, bind_assoc, query, Eff.read_bind_run]
      by_cases hguard : w.db.get_miniverse_role u.id miniverse_id < .admin
      · rw [decide_eq_true hguard, Eff.raiseIf_true_bind]
        exact .nothing rfl
      · rw [decide_eq_false hguard, Eff.raiseIf_false_bind, getMiniverse, bind_assoc, query, Eff.read_bind_run]
        cases hm : w.db.findMiniverse miniverse_id with
        | none => exact .nothing rfl
        | some m =>
            rw [Eff.getOr_some_bind, Eff.bind_pure_state]
            obtain ⟨hmem, rfl⟩ := findMiniverse_some hm
            exact leadsTo_delete hmem hany ((Database.rights_role hfind m.id).trans (Role.admin_le.mp (Role.not_lt.mp hguard)))
    · by_cases hset : ∃ id who role, route = .set_user_role id who role
      · obtain ⟨miniverse_id, who, role, rfl⟩ := hset
        exact leadsTo_set_user_role hsound.users hfind hany
      · refine .nothing (TablesKept.rights (within_route_by_use (tablesKept_use env u) ?_ ?_ ?_ w))
        · exact fun data heq => absurd ⟨data, heq⟩ hcreate
        · exact fun id heq => absurd ⟨id, heq⟩ hdelete
        · exact fun id who role heq => absurd ⟨id, who, role, heq⟩ hset

/-! ## Arrivals -/

theorem SignIn.spellsOwn {a : Arrival} (h : SignIn db token (.ok u) db') (hunique : db.UniqueUsers) (htoken : a.token = some token)
    (hspells : a.SpellsOwn db) : a.SpellsOwn db' := by
  have hown : db'.ownId token = db.ownId token := login_ownId_kept h.login hunique
  have hweight := login_weight h.login
  cases a with
  | users token route =>
      obtain rfl := Option.some.inj htoken
      cases route with
      | delete_user user_id =>
          intro hid
          rw [hweight] at hid
          exact (hspells hid).trans hown.symm
      | set_user_role user_id role =>
          intro hid
          rw [hweight] at hid
          exact (hspells hid).trans hown.symm
      | _ => exact trivial
  | _ => exact trivial

theorem RowChange.leadsTo {a : Arrival} (h : RowChange env db a db') (hsound : db.Sound) (hspells : a.SpellsOwn db) :
    a.LeadsTo db db' := by
  have hlogin {token : Token} {u : User} {db₁ : Database} (h : SignIn db token (.ok u) db₁) :
      db₁.Sound ∧ db₁.findUser token.sub = some u ∧ u.is_active = true := by
    obtain ⟨hmem, hid, hactive⟩ := login_user h.login
    have hsound := h.sound hsound
    rw [← login_weight h.login] at hid
    exact ⟨hsound, findUser_of_weight hsound.users hmem hid, hactive⟩
  cases h with
  | idle => exact .nothing rfl
  | login htoken h => exact h.leadsTo hsound htoken
  | users h hchange =>
      obtain ⟨hsound₁, hfind, hactive⟩ := hlogin h
      have hspells₁ := h.spellsOwn hsound.users rfl hspells
      exact (h.leadsTo hsound rfl).trans (login_weight h.login) (hchange.leadsTo hsound₁.users hspells₁ hfind hactive)
  | miniverses h =>
      obtain ⟨hsound₁, hfind, hactive⟩ := hlogin h
      exact (h.leadsTo hsound rfl).trans (login_weight h.login) (leadsTo_route _ hsound₁ hfind hactive)

/-- Every run whose requests spell their own users as the rows do has an explanation. -/
theorem exists_explanation (sur : Surroundings env.toPlatform) (arrivals : List Arrival) {l : Live α} (h : l.world.db.Sound)
    (hspells : Meets (Arrival.handle sur) (fun l a => a.SpellsOwn l.world.db) arrivals l) :
    ∃ logs, Explains sur arrivals l logs := by
  induction arrivals generalizing l with
  | nil => exact ⟨[], .nil, trivial, fun k => by simp⟩
  | cons a arrivals ih =>
      have hchange := a.rowChange sur l
      obtain ⟨log, hasks, hmeets, hruns⟩ := hchange.leadsTo h hspells.1
      obtain ⟨logs, hexplains⟩ := ih (hchange.sound h) hspells.2
      have hasked := hexplains.asked
      rw [hchange.weight] at hasked
      refine ⟨log :: logs, .cons hasks hasked, ?_, fun k => ?_⟩
      · rw [List.flatten_cons, meets_append, hruns]
        exact ⟨hmeets, hexplains.allowed⟩
      · cases k with
        | zero => rfl
        | succ k =>
            rw [List.take_succ_cons, List.take_succ_cons, List.flatten_cons, runs_append, hruns, runs_cons]
            exact hexplains.rights k

end Backend
