import Miniverse.Access.Lemmas.Changes
import Miniverse.Roles.Theorems
import Miniverse.Users.Lemmas.Admins

/-!
# The keys of the tables

What the keys and the foreign keys of the tables say is kept by every change of a row. A route of the miniverses changes rows of
miniverses that exist.
-/

namespace Backend

open Lib

variable {α β : Type} {env : Env α} {db : Database} {w w' : World α} {u : User} {id : Uuid4}

/-- Identifiers and names are unique as the database compares them, there is one role for a user in a miniverse, and a
role or a mod belongs to rows that exist. -/
structure Database.Sound (db : Database) : Prop where
  users : db.UniqueUsers
  usernames : (db.users.map fun u => db.weight u.username).Nodup
  miniverses : (db.miniverses.map Miniverse.id).Nodup
  roles : db.RoleTable
  holders : ∀ r ∈ db.user_roles, r.user_id ∈ db.users.map User.id
  mods : db.ModKeys
  rooted : ∀ mod ∈ db.mods, mod.miniverse_id ∈ db.miniverses.map Miniverse.id

namespace Database.Sound

/-! ## Rows of miniverses -/

theorem saveMiniverse (h : db.Sound) (m : Miniverse) : (db.saveMiniverse m).Sound where
  users := h.users
  usernames := h.usernames
  miniverses := (ids_saveMiniverse m db).symm ▸ h.miniverses
  roles := ⟨h.roles.pairs, h.roles.given, fun r hr => (ids_saveMiniverse m db).symm ▸ h.roles.rooted r hr⟩
  holders := h.holders
  mods := h.mods
  rooted mod hmod := (ids_saveMiniverse m db).symm ▸ h.rooted mod hmod

theorem addMiniverse (h : db.Sound) {m : Miniverse} (hfresh : ∀ r ∈ db.miniverses, r.id ≠ m.id) :
    ({ db with miniverses := db.miniverses ++ [m] } : Database).Sound where
  users := h.users
  usernames := h.usernames
  miniverses := by
    rw [List.map_append]
    refine h.miniverses.append (List.nodup_singleton _) (List.disjoint_singleton.mpr fun hmem => ?_)
    obtain ⟨r, hr, hid⟩ := List.mem_map.mp hmem
    exact hfresh r hr hid
  roles := ⟨h.roles.pairs, h.roles.given, fun r hr => by
    rw [List.map_append]
    exact List.mem_append_left _ (h.roles.rooted r hr)⟩
  holders := h.holders
  mods := h.mods
  rooted mod hmod := by
    rw [List.map_append]
    exact List.mem_append_left _ (h.rooted mod hmod)

theorem deleteMiniverse (h : db.Sound) (id : Uuid4) : (db.deleteMiniverse id).Sound where
  users := h.users
  usernames := h.usernames
  miniverses := h.miniverses.sublist (List.filter_sublist.map _)
  roles := h.roles.deleteMiniverse id
  holders r hr := h.holders r (List.mem_of_mem_filter hr)
  mods := h.mods.sublist (List.filter_sublist.map _)
  rooted mod hmod := by
    obtain ⟨hmem, hne⟩ := List.mem_filter.mp hmod
    obtain ⟨m, hm, hid⟩ := List.mem_map.mp (h.rooted mod hmem)
    exact List.mem_map.mpr ⟨m, List.mem_filter.mpr ⟨hm, hid ▸ hne⟩, hid⟩

/-! ## Rows of mods -/

theorem addMod (h : db.Sound) {mod : Mod} (hfresh : ∀ r ∈ db.mods, r.id ≠ mod.id)
    (hrooted : mod.miniverse_id ∈ db.miniverses.map Miniverse.id) : ({ db with mods := db.mods ++ [mod] } : Database).Sound where
  users := h.users
  usernames := h.usernames
  miniverses := h.miniverses
  roles := ⟨h.roles.pairs, h.roles.given, h.roles.rooted⟩
  holders := h.holders
  mods := by
    unfold ModKeys
    rw [List.map_append]
    refine h.mods.append (List.nodup_singleton _) (List.disjoint_singleton.mpr fun hmem => ?_)
    obtain ⟨r, hr, hid⟩ := List.mem_map.mp hmem
    exact hfresh r hr hid
  rooted r hr := by
    rcases List.mem_append.mp hr with hr | hr
    · exact h.rooted r hr
    · exact List.mem_singleton.mp hr ▸ hrooted

theorem saveMod (h : db.Sound) {mod : Mod} (hrooted : mod.miniverse_id ∈ db.miniverses.map Miniverse.id) :
    (db.saveMod mod).Sound where
  users := h.users
  usernames := h.usernames
  miniverses := h.miniverses
  roles := ⟨h.roles.pairs, h.roles.given, h.roles.rooted⟩
  holders := h.holders
  mods := by
    rw [ModKeys, ids_saveMod]
    exact h.mods
  rooted r hr := by
    obtain ⟨s, hs, rfl⟩ := List.mem_map.mp hr
    split
    · exact hrooted
    · exact h.rooted s hs

theorem removeMod (h : db.Sound) (id : Uuid4) :
    ({ db with mods := db.mods.filter fun r => decide (r.id ≠ id) } : Database).Sound where
  users := h.users
  usernames := h.usernames
  miniverses := h.miniverses
  roles := ⟨h.roles.pairs, h.roles.given, h.roles.rooted⟩
  holders := h.holders
  mods := h.mods.sublist (List.filter_sublist.map _)
  rooted r hr := h.rooted r (List.mem_of_mem_filter hr)

/-! ## Rows of roles -/

theorem setRole (h : db.Sound) {role : MiniverseUserRole} (hrooted : role.miniverse_id ∈ db.miniverses.map Miniverse.id)
    (hholder : role.user_id ∈ db.users.map User.id) : (db.setRole role).Sound := by
  have hroles := h.roles.setRole hrooted
  rcases db.setRole_cases role with ⟨_, hset⟩ | ⟨_, _, hset⟩ | ⟨_, _, hset⟩
  · rw [hset] at hroles ⊢
    exact ⟨h.users, h.usernames, h.miniverses, hroles, fun r hr => h.holders r (List.mem_of_mem_filter hr), h.mods, h.rooted⟩
  · rw [hset] at hroles ⊢
    refine ⟨h.users, h.usernames, h.miniverses, hroles, fun r hr => ?_, h.mods, h.rooted⟩
    rcases List.mem_append.mp hr with hr | hr
    · exact h.holders r hr
    · exact List.mem_singleton.mp hr ▸ hholder
  · rw [hset] at hroles ⊢
    refine ⟨h.users, h.usernames, h.miniverses, hroles, fun r hr => ?_, h.mods, h.rooted⟩
    obtain ⟨s, hs, rfl⟩ := List.mem_map.mp hr
    rw [(role.takes_samePair s).1]
    exact h.holders s hs

/-- The first role in a miniverse. -/
theorem addRole (h : db.Sound) {role : MiniverseUserRole} (hgiven : role.role ≠ .none)
    (hfresh : ∀ r ∈ db.user_roles, r.miniverse_id ≠ role.miniverse_id)
    (hrooted : role.miniverse_id ∈ db.miniverses.map Miniverse.id) (hholder : role.user_id ∈ db.users.map User.id) :
    ({ db with user_roles := db.user_roles ++ [role] } : Database).Sound where
  users := h.users
  usernames := h.usernames
  miniverses := h.miniverses
  roles := h.roles.addRole hgiven (fun r hr hpair => hfresh r hr hpair.2) rfl (fun _ hi => hi) hrooted
  holders r hr := by
    rcases List.mem_append.mp hr with hr | hr
    · exact h.holders r hr
    · exact List.mem_singleton.mp hr ▸ hholder
  mods := h.mods
  rooted := h.rooted

/-! ## Rows of users -/

theorem deleteUser (h : db.Sound) (user_id : String) : (db.deleteUser user_id).Sound where
  users := h.users.deleteUser
  usernames := h.usernames.sublist (List.filter_sublist.map _)
  miniverses := h.miniverses
  roles := h.roles.deleteUser user_id
  holders r hr := by
    obtain ⟨hmem, hne⟩ := List.mem_filter.mp hr
    obtain ⟨v, hv, hid⟩ := List.mem_map.mp (h.holders r hmem)
    exact List.mem_map.mpr ⟨v, List.mem_filter.mpr ⟨hv, hid.symm ▸ hne⟩, hid⟩
  mods := h.mods
  rooted := h.rooted

/-- Other rows of users, with the identifiers that have roles and with unique names. -/
theorem withUsers {db' : Database} (h : db.Sound) (hothers : db' = { db with users := db'.users }) (hids : db'.UniqueUsers)
    (hnames : (db'.users.map fun u => db'.weight u.username).Nodup) (hkept : ∀ i ∈ db.users.map User.id, i ∈ db'.users.map User.id) :
    db'.Sound := by
  have hroles : db'.user_roles = db.user_roles := by rw [hothers]
  have hminiverses : db'.miniverses = db.miniverses := by rw [hothers]
  have hmods : db'.mods = db.mods := by rw [hothers]
  refine ⟨hids, hnames, hminiverses ▸ h.miniverses, ⟨hroles ▸ h.roles.pairs, hroles ▸ h.roles.given, ?_⟩, ?_, ?_, ?_⟩
  · rw [hroles, hminiverses]
    exact h.roles.rooted
  · rw [hroles]
    exact fun r hr => hkept _ (h.holders r hr)
  · rw [ModKeys, hmods]
    exact h.mods
  · rw [hmods, hminiverses]
    exact h.rooted

/-- A row of a user takes another role, or becomes active. -/
theorem saveUser (h : db.Sound) {t : User} (ht : t ∈ db.users) (hid : u.id = t.id) (hname : u.username = t.username) :
    (db.saveUser u).Sound := by
  have hnames : ((db.saveUser u).users.map fun v => db.weight v.username) = db.users.map fun v => db.weight v.username := by
    rw [Database.saveUser, List.map_map]
    refine List.map_congr_left fun v hv => ?_
    by_cases heq : db.weight v.id = db.weight u.id
    · obtain rfl : v = t := h.users.eq hv ht (heq.trans (congrArg db.weight hid))
      simp [heq, hname]
    · simp [heq]
  exact h.withUsers rfl h.users.saveUser (hnames.symm ▸ h.usernames) fun i hi => h.users.saveUser_ids ht hid ▸ hi

end Database.Sound

/-! ## Logins and the routes of the users -/

theorem SignIn.sound {token : Token} {r : Except PyError User} {db' : Database} (h : SignIn db token r db') (hsound : db.Sound) :
    db'.Sound := by
  obtain ⟨hlogin, hfree⟩ := h
  have hids : db'.UniqueUsers := login_unique hlogin hsound.users
  -- where a name is written, only the user of the token may have it
  have hadd (hfind : db.findUser token.sub = none) (hdb : db' = { db with users := db.users ++ [newUser db token] }) :
      db'.Sound := by
    subst hdb
    refine hsound.withUsers rfl hids ?_ fun i hi => ?_
    · rw [List.map_append]
      refine hsound.usernames.append (List.nodup_singleton _) (List.disjoint_singleton.mpr fun hmem => ?_)
      obtain ⟨v, hv, hname⟩ := List.mem_map.mp hmem
      have hname := hname.trans (congrArg db.weight (newUser_username db token))
      rcases hfree with hsame | hfree
      · simpa using congrArg (·.users.length) hsame
      · exact findUser_none hfind v hv (hfree v hv hname)
    · rw [List.map_append]
      exact List.mem_append_left _ hi
  cases hlogin with
  | refused => exact hsound
  | found => exact hsound
  | inactive hfind => exact hadd hfind rfl
  | created hfind => exact hadd hfind rfl
  | @renamed u hfind _ =>
      rcases hfree with hsame | hfree
      · rw [hsame]
        exact hsound
      · obtain ⟨hu, hid⟩ := findUser_mem hfind
        have hkept := hsound.users.saveUser_ids (u := { u with username := token.preferred_username }) hu rfl
        refine hsound.withUsers rfl hids ?_ fun i hi => hkept.symm ▸ hi
        show ((db.saveUser _).users.map fun v => db.weight v.username).Nodup
        rw [Database.saveUser, List.map_map]
        refine (List.Nodup.of_map _ hsound.users).map_on fun v hv v' hv' heq => ?_
        simp only [Function.comp_apply] at heq
        by_cases h : db.weight v.id = db.weight u.id
        · by_cases h' : db.weight v'.id = db.weight u.id
          · exact hsound.users.eq hv hv' (h.trans h'.symm)
          · rw [if_pos h, if_neg h'] at heq
            exact absurd ((hfree v' hv' heq.symm).trans hid.symm) h'
        · by_cases h' : db.weight v'.id = db.weight u.id
          · rw [if_neg h, if_pos h'] at heq
            exact absurd ((hfree v hv heq).trans hid.symm) h
          · rw [if_neg h, if_neg h'] at heq
            exact List.inj_on_of_nodup_map hsound.usernames hv hv' heq

theorem RouteChange.sound {route : UsersRoute} {db' : Database} (h : RouteChange u db route db') (hsound : db.Sound) : db'.Sound := by
  cases h with
  | delete_me => exact hsound.deleteUser _
  | delete_user => exact hsound.deleteUser _
  | set_user_role _ _ hfind => exact hsound.saveUser (findUser_mem hfind).1 rfl rfl
  | accept _ hfind => exact hsound.saveUser (findUser_mem hfind).1 rfl rfl
  | reject => exact hsound.deleteUser _

/-- Who was let in has a row. -/
theorem SignIn.mem {token : Token} {db' : Database} (h : SignIn db token (.ok u) db') :
    u ∈ db'.users ∧ db'.weight u.id = db'.weight token.sub := by
  obtain ⟨hmem, hid, _⟩ := login_user h.login
  exact ⟨hmem, (login_weight h.login).symm ▸ hid⟩

/-! ## Routes of the miniverses -/

/-- The tables are sound, and have the miniverses with the identifiers. -/
def SoundAt (ids : List Uuid4) (w : World α) : Prop := w.db.Sound ∧ w.db.miniverses.map Miniverse.id = ids

variable {ids : List Uuid4}

instance : Calm (Eff.Keeping (SoundAt (α := α) ids)) where
  tick _ _ h := h
  events _ _ h := h
  containers _ _ h := h

theorem soundAt_onDisk (f : Fs α β) : (onDisk f : Act α β).Within (Eff.Keeping (SoundAt ids)) := fun _ h => h

theorem soundAt_object (id : Uuid4) : AllowsObject (Eff.Keeping (SoundAt (α := α) ids)) id fun _ => True where
  save {_ m} _ _ h := ⟨h.1.saveMiniverse m, (ids_saveMiniverse m _).trans h.2⟩
  control _ _ h := h
  state _ _ _ := trivial

theorem soundAt_data (env : Env α) (hid : id ∈ ids) : AllowsData env (Eff.Keeping (SoundAt ids)) id fun _ => True where
  mkdirs := soundAt_onDisk _
  write _ _ _ := soundAt_onDisk _
  unlink _ _ := soundAt_onDisk _
  answers _ _ := trivial
  rows h := h fun _ _ => trivial
  save_mod _ _ _ hin _ h := ⟨h.1.saveMod (h.2 ▸ hin ▸ hid), h.2⟩
  add_mod hin _ hfresh h := ⟨h.1.addMod hfresh (h.2 ▸ hin ▸ hid), h.2⟩
  mkdirs_below _ _ := soundAt_onDisk _
  write_below _ _ _ := soundAt_onDisk _

/-- Who has a role in a miniverse has a row that says so. -/
theorem exists_role {user_id miniverse_id : String} (h : .none < db.get_miniverse_role user_id miniverse_id) :
    ∃ r ∈ db.user_roles, r.user_id = user_id ∧ r.miniverse_id.str = miniverse_id := by
  unfold Database.get_miniverse_role at h
  cases hrow : db.user_roles.find? fun r => decide (r.user_id = user_id ∧ r.miniverse_id.str = miniverse_id) with
  | none =>
      rw [hrow] at h
      exact absurd h (by decide)
  | some r => exact ⟨r, List.mem_of_find?_eq_some hrow, of_decide_eq_true (List.find?_some hrow :)⟩

theorem soundAt_byRole (env : Env α) (u : User) (ids : List Uuid4) :
    AllowsByRole env (Eff.Keeping (SoundAt ids)) u (fun _ => True) fun _ => True where
  used hmem _ hr h := hr ⟨soundAt_object _, soundAt_data env (h.2 ▸ List.mem_map_of_mem hmem), trivial⟩ h
  moderated hown hr h := by
    obtain ⟨r, hrow, _, hid⟩ := exists_role (Nat.lt_of_lt_of_le (by decide) hown)
    have hid := Uuid4.eq_of_str hid ▸ h.2 ▸ h.1.roles.rooted r hrow
    exact hr (soundAt_data env hid).toAllowsMods (fun _ _ h => ⟨h.1.removeMod _, h.2⟩) h
  administered hmem _ hr h := hr (fun _ => within_update_object (soundAt_object _)
    (soundAt_data env (h.2 ▸ List.mem_map_of_mem hmem)) (within_update_proxy_config soundAt_onDisk) trivial
    fun _ _ _ _ => trivial) h
  given hmem htarget _ _ h := ⟨h.1.setRole (List.mem_map_of_mem hmem) (List.mem_map_of_mem htarget),
    (congrArg (List.map Miniverse.id) (setRole_others _ _).2.1).trans h.2⟩

theorem sound_create {data : MiniverseCreate} {w : World α} (h : w.db.Sound) (hu : u.id ∈ w.db.users.map User.id) :
    (create_miniverse env data u w).2.db.Sound := by
  rcases create_miniverse_cases env data u w with ⟨e, w', hrun, hdb, _⟩ | ⟨s, _, hfresh, _, hrun⟩
  · rw [hrun, hdb]
    exact h
  · rw [hrun]
    generalize hm : data.toMiniverse (env.uuid4 w.tick) s (env.random_string (w.tick + 1)) = new
    have hid : new.id = env.uuid4 w.tick := hm ▸ rfl
    rw [← hid] at hfresh ⊢
    have hadded := h.addMiniverse hfresh
    have hnew : new.id ∈ (w.db.miniverses ++ [new]).map Miniverse.id := by simp
    rcases commit_cases env (fun db : Database => { db with user_roles := db.user_roles ++ [⟨u.id, new.id, .admin⟩] })
      { w.next.next.next with db := { w.db with miniverses := w.db.miniverses ++ [new] } } with ⟨e, hcommit⟩ | hcommit
    · rw [Eff.bind_run_error hcommit]
      exact hadded
    · rw [Eff.bind_run_ok hcommit]
      have hrole := @Database.Sound.addRole _ hadded ⟨u.id, new.id, .admin⟩ nofun (fun r hr heq => by
        obtain ⟨m, hm, hmid⟩ := List.mem_map.mp (h.roles.rooted r hr)
        exact hfresh m hm (hmid.trans heq)) hnew hu
      exact (within_set_up (R := Eff.Keeping (SoundAt ((w.db.miniverses ++ [new]).map Miniverse.id)))
        (within_update_proxy_config soundAt_onDisk) (fun _ _ h => h) (soundAt_object _) (soundAt_data env hnew) trivial _
        ⟨hrole, rfl⟩).1

theorem sound_delete (m : Miniverse) (h : w.db.Sound) : (delete_miniverse env m w).2.db.Sound := by
  rcases delete_miniverse_cases env m (R := Same World.db) (fun _ => rfl) (fun _ => rfl) w with
    ⟨e, w', hrun, hdb⟩ | ⟨w₁, hdb, _, _, hrun⟩
  · rw [hrun]
    exact (hdb : w'.db = w.db) ▸ h
  · rw [hrun]
    have hfinish : (finish_delete env m.id (w₁.db.rolesOf m.id)).Within (Same World.db) :=
      within_finish_delete (within_update_proxy_config fun _ _ => rfl) _ _
    rw [hfinish { w₁.next with db := w₁.db.deleteMiniverse m.id }, (hdb : w₁.db = w.db)]
    exact h.deleteMiniverse m.id

/-- A route of the miniverses keeps the tables sound. -/
theorem sound_route (route : MiniversesRoute) (h : w.db.Sound) (hu : u.id ∈ w.db.users.map User.id) :
    (route.handle env u w).2.db.Sound := by
  by_cases hcreate : ∃ data, route = .create_miniverse data
  · obtain ⟨data, rfl⟩ := hcreate
    rw [MiniversesRoute.handle]
    cases decide (u.role < .moderator) with
    | true => exact h
    | false =>
        rw [Eff.raiseIf_false_bind, Eff.bind_pure_state]
        exact sound_create h hu
  · by_cases hdelete : ∃ id, route = .delete_miniverse id
    · obtain ⟨miniverse_id, rfl⟩ := hdelete
      have : Calm (Eff.Keeping fun w : World α => w.db.Sound) :=
        { tick := fun _ _ h => h, events := fun _ _ h => h, containers := fun _ _ h => h }
      refine within_guarded_by (R := Eff.Keeping fun w : World α => w.db.Sound) (P := fun _ => True) (fun _ _ h => h trivial)
        (fun m _ => Eff.Within.bind (fun w => sound_delete m) fun _ => Eff.Within.pure _) w h
    · exact (within_route_by_role (soundAt_byRole env u (w.db.miniverses.map Miniverse.id))
        (fun data heq => absurd ⟨data, heq⟩ hcreate) (fun id heq => absurd ⟨id, heq⟩ hdelete) w ⟨h, rfl⟩).1

theorem RowChange.sound {a : Arrival} {db' : Database} (h : RowChange env db a db') (hsound : db.Sound) : db'.Sound := by
  cases h with
  | idle => exact hsound
  | login _ hlogin => exact hlogin.sound hsound
  | users hlogin hchange => exact hchange.sound (hlogin.sound hsound)
  | miniverses hlogin => exact sound_route _ (hlogin.sound hsound) (List.mem_map_of_mem hlogin.mem.1)

end Backend
