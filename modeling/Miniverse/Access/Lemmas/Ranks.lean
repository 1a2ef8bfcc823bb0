import Miniverse.Access.Lemmas.Members
import Miniverse.Access.Lemmas.Sound

/-!
# What requests of users without a rank leave as it is

Users who are no administrators change no role of a user, and users who do not administer a miniverse change neither its settings
nor the roles in it.
-/

namespace Backend

open Lib

variable {α β : Type} {env : Env α} {db₀ db db' : Database} {w w' : World α} {u v : User} {id : Uuid4} {senders : String → Prop}
  {a : Arrival}

/-! ## Ranks of users -/

/-- The rows of users who send nothing are as they were. The row of a sender has its role and its activity, or is new, and neither
accepted nor of a rank. -/
structure RanksKept (senders : String → Prop) (db₀ db : Database) : Prop where
  weight : db.weight = db₀.weight
  others : ∀ v ∈ db₀.users, ¬ senders (db₀.weight v.id) → v ∈ db.users
  rows : ∀ v ∈ db.users, (∃ v₀ ∈ db₀.users, v₀.id = v.id ∧ v₀.is_active = v.is_active ∧ v₀.role = v.role ∧
      (¬ senders (db₀.weight v.id) → v₀ = v)) ∨
    senders (db₀.weight v.id) ∧ v.is_active = false ∧ v.role = .user

theorem RanksKept.refl (senders : String → Prop) (db : Database) : RanksKept senders db db where
  weight := rfl
  others _ hv _ := hv
  rows v hv := Or.inl ⟨v, hv, rfl, rfl, rfl, fun _ => rfl⟩

/-- No sender is an administrator, and somebody sends nothing. -/
structure Rankless (senders : String → Prop) (db : Database) : Prop where
  plain : ∀ user_id, senders (db.weight user_id) → ¬ db.Administers user_id
  guard : ∃ v ∈ db.users, ¬ senders (db.weight v.id)

theorem RanksKept.rankless (h : RanksKept senders db₀ db) (hstart : Rankless senders db₀) : Rankless senders db where
  plain user_id hsender := by
    rintro ⟨v, hv, hvid, hactive, hrole⟩
    rw [h.weight] at hsender hvid
    rcases h.rows v hv with ⟨v₀, hv₀, hid, hactive₀, hrole₀, _⟩ | ⟨_, hinactive, _⟩
    · exact hstart.plain user_id hsender ⟨v₀, hv₀, hid ▸ hvid, hactive₀.trans hactive, hrole₀.trans hrole⟩
    · rw [hactive] at hinactive
      cases hinactive
  guard := by
    obtain ⟨v, hv, hguard⟩ := hstart.guard
    exact ⟨v, h.others v hv hguard, h.weight ▸ hguard⟩

theorem Rankless.nonempty (h : Rankless senders db) : db.users ≠ [] := by
  obtain ⟨v, hv, _⟩ := h.guard
  exact List.ne_nil_of_mem hv

theorem RanksKept.login {token : Token} {r : Except PyError User} (h : RanksKept senders db₀ db) (hstart : Rankless senders db₀)
    (hsender : senders (db₀.weight token.sub)) (hlogin : Login db token r db') : RanksKept senders db₀ db' where
  weight := (login_weight hlogin).trans h.weight
  others v hv hother := hlogin.kept (h.others v hv hother) fun heq => by
    rw [h.weight] at heq
    exact hother (heq ▸ hsender)
  rows v hv := by
    rcases hlogin.row hv with ⟨v₁, hv₁, hid₁, hactive₁, hrole₁, hsame₁⟩ | rfl
    · rcases h.rows v₁ hv₁ with ⟨v₀, hv₀, hid, hactive, hrole, hsame⟩ | ⟨hsender₁, hactive, hrole⟩
      · refine Or.inl ⟨v₀, hv₀, hid.trans hid₁, hactive.trans hactive₁, hrole.trans hrole₁, fun hother => ?_⟩
        have hne : db.weight v.id ≠ db.weight token.sub := fun heq => by
          rw [h.weight] at heq
          exact hother (heq ▸ hsender)
        exact (hsame (hid₁ ▸ hother)).trans (hsame₁ hne)
      · exact Or.inr ⟨hid₁ ▸ hsender₁, hactive₁.symm.trans hactive, hrole₁.symm.trans hrole⟩
    · have hempty : db.users.isEmpty = false := by simpa using (h.rankless hstart).nonempty
      exact Or.inr ⟨(newUser_id db token).symm ▸ hsender, by simp [newUser, hempty], by simp [newUser, hempty]⟩

theorem RanksKept.step (h : RanksKept senders db₀ db) (hstart : Rankless senders db₀)
    (hsenders : ∀ token, a.token = some token → senders (db₀.weight token.sub)) (hchange : RowChange env db a db') :
    RanksKept senders db₀ db' := by
  cases hchange with
  | idle => exact h
  | login htoken hlogin => exact h.login hstart (hsenders _ htoken) hlogin.login
  | @users token u db₁ route _ hlogin hchange =>
      have hsender := hsenders token rfl
      have hkept := h.login hstart hsender hlogin.login
      have hplain : u.role ≠ .admin := fun hrole => (hlogin.login.admin hrole).elim
        ((h.rankless hstart).plain _ (h.weight ▸ hsender)) (h.rankless hstart).nonempty
      -- only the own row may go
      cases hchange with
      | delete_me =>
          refine ⟨hkept.weight, fun v hv hother => mem_deleteUser.mpr ⟨hkept.others v hv hother, fun heq => ?_⟩, fun v hv => ?_⟩
          · rw [hlogin.mem.2, hkept.weight] at heq
            exact hother (heq ▸ hsender)
          · exact hkept.rows v (mem_deleteUser.mp hv).1
      | delete_user hadmin => exact absurd hadmin hplain
      | set_user_role hadmin => exact absurd hadmin hplain
      | accept hadmin => exact absurd hadmin hplain
      | reject hadmin => exact absurd hadmin hplain
  | @miniverses token u w route hlogin =>
      have hkept := h.login hstart (hsenders token rfl) hlogin.login
      obtain ⟨husers, hweight⟩ : SameUsers w (route.handle env u w).2 := sameUsers_route env u route w
      exact ⟨hweight.trans hkept.weight, fun v hv hother => husers ▸ hkept.others v hv hother,
        fun v hv => hkept.rows v (husers ▸ hv)⟩

/-! ## Rights in a miniverse -/

/-- The rows say the same but for the state of the server. -/
def Miniverse.SameSettings (r m : Miniverse) : Prop := r = { m with started := r.started, container_id := r.container_id }

/-- The miniverse exists with its settings, and each user has the same role in it, or is gone and has none. -/
structure RightsKept (gone : String → Prop) (m : Miniverse) (db₀ db : Database) : Prop where
  weight : db.weight = db₀.weight
  present : m.id ∈ db.miniverses.map Miniverse.id
  settings : ∀ r ∈ db.miniverses, r.id = m.id → r.SameSettings m
  roles : ∀ user_id, db.get_miniverse_role user_id m.id.str = db₀.get_miniverse_role user_id m.id.str ∨
    db.get_miniverse_role user_id m.id.str = .none ∧ gone user_id

variable {m r : Miniverse} {gone : String → Prop}

/-- Who did not administer the miniverse before does not administer it now. -/
theorem RightsKept.other (h : RightsKept gone m db₀ db) {user_id : String} (hplain : db₀.get_miniverse_role user_id m.id.str < .admin)
    (hadmin : .admin ≤ db.get_miniverse_role user_id id.str) : id ≠ m.id := by
  rintro rfl
  rcases h.roles user_id with hrole | ⟨hrole, _⟩
  · rw [hrole] at hadmin
    exact absurd hadmin (Nat.not_le.mpr hplain)
  · rw [hrole] at hadmin
    exact absurd hadmin (by decide)

theorem RightsKept.saveMiniverse (h : RightsKept gone m db₀ db) (hr : r.id = m.id → r.SameSettings m) :
    RightsKept gone m db₀ (db.saveMiniverse r) where
  weight := h.weight
  present := (ids_saveMiniverse r db).symm ▸ h.present
  settings s hs hid := by
    obtain ⟨t, ht, rfl⟩ := List.mem_map.mp hs
    by_cases heq : t.id = r.id
    · rw [if_pos heq] at hid ⊢
      exact hr hid
    · rw [if_neg heq] at hid ⊢
      exact h.settings t ht hid
  roles := h.roles

theorem RightsKept.addMiniverse (h : RightsKept gone m db₀ db) (hr : r.id ≠ m.id) :
    RightsKept gone m db₀ { db with miniverses := db.miniverses ++ [r] } where
  weight := h.weight
  present := by
    rw [List.map_append]
    exact List.mem_append_left _ h.present
  settings s hs hid := by
    rcases List.mem_append.mp hs with hs | hs
    · exact h.settings s hs hid
    · exact absurd (List.mem_singleton.mp hs ▸ hid) hr
  roles := h.roles

theorem RightsKept.deleteMiniverse (h : RightsKept gone m db₀ db) (hid : id ≠ m.id) : RightsKept gone m db₀ (db.deleteMiniverse id) where
  weight := h.weight
  present := by
    obtain ⟨r, hr, hrid⟩ := List.mem_map.mp h.present
    exact List.mem_map.mpr ⟨r, List.mem_filter.mpr ⟨hr, decide_eq_true fun heq => hid (heq.symm.trans hrid)⟩, hrid⟩
  settings r hr := h.settings r (List.mem_of_mem_filter hr)
  roles user_id := by
    rw [Database.role_deleteMiniverse, if_neg fun heq => hid (Uuid4.eq_of_str heq.symm)]
    exact h.roles user_id

/-- Other rows of roles, which are not about the miniverse. -/
theorem RightsKept.withRoles (h : RightsKept gone m db₀ db) (hweight : db'.weight = db.weight) (hminiverses : db'.miniverses = db.miniverses)
    (hroles : ∀ user_id, db'.get_miniverse_role user_id m.id.str = db.get_miniverse_role user_id m.id.str) :
    RightsKept gone m db₀ db' where
  weight := hweight.trans h.weight
  present := hminiverses.symm ▸ h.present
  settings r hr := h.settings r (hminiverses ▸ hr)
  roles user_id := hroles user_id ▸ h.roles user_id

/-- A role goes with the user who holds it. -/
theorem RightsKept.deleteUser (h : RightsKept gone m db₀ db) {removed : String}
    (hgone : ∀ user_id, user_id ∈ db.user_roles.map MiniverseUserRole.user_id →
      user_id ∉ (db.deleteUser removed).users.map User.id → gone user_id) : RightsKept gone m db₀ (db.deleteUser removed) where
  weight := h.weight
  present := h.present
  settings := h.settings
  roles user_id := by
    rw [Database.role_deleteUser]
    split
    · rename_i hremoved
      by_cases hrole : db.get_miniverse_role user_id m.id.str = .none
      · exact hrole ▸ h.roles user_id
      · obtain ⟨r, hr, rfl, _⟩ := exists_role (Role.none_lt.mpr hrole)
        refine Or.inr ⟨rfl, hgone _ (List.mem_map_of_mem hr) fun hmem => ?_⟩
        obtain ⟨v, hv, hid⟩ := List.mem_map.mp hmem
        exact (mem_deleteUser.mp hv).2 ((congrArg db.weight hid).trans hremoved)
    · exact h.roles user_id

instance : Calm (Eff.Keeping fun w : World α => RightsKept gone m db₀ w.db) where
  tick _ _ h := h
  events _ _ h := h
  containers _ _ h := h

theorem rightsKept_onDisk (f : Fs α β) : (onDisk f : Act α β).Within (Eff.Keeping fun w => RightsKept gone m db₀ w.db) := fun _ h => h

theorem rightsKept_object (m : Miniverse) (db₀ : Database) (id : Uuid4) :
    AllowsObject (Eff.Keeping fun w : World α => RightsKept gone m db₀ w.db) id fun r => r.id = m.id → r.SameSettings m where
  save _ hkeep h := h.saveMiniverse hkeep
  control _ _ h := h
  state _ _ hkeep hid := by
    have hsame := hkeep hid
    unfold Miniverse.SameSettings at hsame ⊢
    rw [hsame]

theorem rightsKept_data (env : Env α) (m : Miniverse) (db₀ : Database) (id : Uuid4) :
    AllowsData env (Eff.Keeping fun w => RightsKept gone m db₀ w.db) id fun _ => True where
  mkdirs := rightsKept_onDisk _
  write _ _ _ := rightsKept_onDisk _
  unlink _ _ := rightsKept_onDisk _
  answers _ _ := trivial
  rows h := h fun _ _ => trivial
  save_mod _ _ _ _ _ h := h.withRoles rfl rfl fun _ => rfl
  add_mod _ _ _ h := h.withRoles rfl rfl fun _ => rfl
  mkdirs_below _ _ := rightsKept_onDisk _
  write_below _ _ _ := rightsKept_onDisk _

theorem rightsKept_byRole (env : Env α) (hplain : db₀.get_miniverse_role u.id m.id.str < .admin) :
    AllowsByRole env (Eff.Keeping fun w => RightsKept gone m db₀ w.db) u (fun _ => True) fun r => r.id = m.id → r.SameSettings m where
  used hmem _ hr h := hr ⟨rightsKept_object m db₀ _, rightsKept_data env m db₀ _, h.settings _ hmem⟩ h
  moderated _ hr h := hr (rightsKept_data env m db₀ _).toAllowsMods (fun _ _ h => h.withRoles rfl rfl fun _ => rfl) h
  administered _ hown hr h := hr (fun _ => within_update_object (rightsKept_object m db₀ _) (rightsKept_data env m db₀ _)
    (within_update_proxy_config rightsKept_onDisk) (fun hid => absurd hid (h.other hplain hown))
    fun _ _ _ _ hid => absurd hid (h.other hplain hown)) h
  given _ _ hown _ h := h.withRoles (setRole_others _ _).2.2.2 (setRole_others _ _).2.1 fun _ => Database.role_setRole fun hpair =>
    h.other hplain hown (Uuid4.eq_of_str hpair.2.symm)

theorem rightsKept_create {data : MiniverseCreate} {w : World α} (h : RightsKept gone m db₀ w.db) :
    RightsKept gone m db₀ (create_miniverse env data u w).2.db := by
  rcases create_miniverse_cases env data u w with ⟨e, w', hrun, hdb, _⟩ | ⟨s, _, hfresh, _, hrun⟩
  · rw [hrun, hdb]
    exact h
  · rw [hrun]
    generalize hm : data.toMiniverse (env.uuid4 w.tick) s (env.random_string (w.tick + 1)) = new
    have hid : new.id = env.uuid4 w.tick := hm ▸ rfl
    rw [← hid] at hfresh ⊢
    have hother : new.id ≠ m.id := fun heq => by
      obtain ⟨r, hr, hrid⟩ := List.mem_map.mp h.present
      exact hfresh r hr (hrid.trans heq.symm)
    have hadded := h.addMiniverse hother
    rcases commit_cases env (fun db : Database => { db with user_roles := db.user_roles ++ [⟨u.id, new.id, .admin⟩] })
      { w.next.next.next with db := { w.db with miniverses := w.db.miniverses ++ [new] } } with ⟨e, hcommit⟩ | hcommit
    · rw [Eff.bind_run_error hcommit]
      exact hadded
    · rw [Eff.bind_run_ok hcommit]
      refine within_set_up (R := Eff.Keeping fun w : World α => RightsKept gone m db₀ w.db) (within_update_proxy_config rightsKept_onDisk)
        (fun _ _ h => h) (rightsKept_object m db₀ _) (rightsKept_data env m db₀ _) (fun hid => absurd hid hother) _ ?_
      exact hadded.withRoles rfl rfl fun _ => Database.role_addRole ⟨u.id, new.id, .admin⟩ rfl fun hpair =>
        hother (Uuid4.eq_of_str hpair.2.symm)

theorem rightsKept_delete (hid : r.id ≠ m.id) :
    (delete_miniverse env r).Within (Eff.Keeping fun w => RightsKept gone m db₀ w.db) := by
  intro w h
  rcases delete_miniverse_cases env r (R := Same World.db) (fun _ => rfl) (fun _ => rfl) w with
    ⟨e, w', hrun, hdb⟩ | ⟨w₁, hdb, _, _, hrun⟩
  · rw [hrun]
    exact (hdb : w'.db = w.db) ▸ h
  · rw [hrun]
    have hfinish : (finish_delete env r.id (w₁.db.rolesOf r.id)).Within (Same World.db) :=
      within_finish_delete (within_update_proxy_config fun _ _ => rfl) _ _
    show RightsKept gone m db₀ (finish_delete env r.id _ _).2.db
    rw [hfinish { w₁.next with db := w₁.db.deleteMiniverse r.id }, (hdb : w₁.db = w.db)]
    exact h.deleteMiniverse hid

theorem rightsKept_route (hplain : db₀.get_miniverse_role u.id m.id.str < .admin) (route : MiniversesRoute) :
    (route.handle env u).Within (Eff.Keeping fun w => RightsKept gone m db₀ w.db) := by
  refine within_route_by_role (rightsKept_byRole env hplain) ?_ ?_
  · rintro data rfl
    exact (Eff.Within.raiseIf _ _).bind fun _ => Eff.Within.bind (fun _ h => rightsKept_create h) fun _ => Eff.Within.pure _
  · rintro miniverse_id rfl
    exact within_guarded_by (R := Eff.Keeping fun w : World α => RightsKept gone m db₀ w.db) (P := fun r => r.id ≠ m.id)
      (fun _ hown hr h => hr (h.other hplain hown) h) fun r hr => (rightsKept_delete hr).bind fun _ => Eff.Within.pure _

theorem RightsKept.login {token : Token} {r : Except PyError User} (h : RightsKept gone m db₀ db) (hlogin : Login db token r db') :
    RightsKept gone m db₀ db' := by
  cases hlogin with
  | refused => exact h
  | found => exact h
  | inactive => exact h.withRoles rfl rfl fun _ => rfl
  | created => exact h.withRoles rfl rfl fun _ => rfl
  | renamed => exact h.withRoles rfl rfl fun _ => rfl

theorem RightsKept.step (h : RightsKept gone m db₀ db) (hsound : db.Sound)
    (hplain : ∀ token user_id, a.token = some token → db₀.weight user_id = db₀.weight token.sub →
      db₀.get_miniverse_role user_id m.id.str < .admin)
    (hgone : ∀ user_id, user_id ∈ db.users.map User.id → user_id ∉ db'.users.map User.id → gone user_id)
    (hchange : RowChange env db a db') : RightsKept gone m db₀ db' := by
  cases hchange with
  | idle => exact h
  | login _ hlogin => exact h.login hlogin.login
  | @users token u db₁ route _ hlogin hchange =>
      have hkept := h.login hlogin.login
      have hdeleted (removed : String)
          (hgone : ∀ user_id, user_id ∈ db.users.map User.id → user_id ∉ (db₁.deleteUser removed).users.map User.id → gone user_id) :
          RightsKept gone m db₀ (db₁.deleteUser removed) := by
        refine hkept.deleteUser fun user_id hmem => hgone user_id ?_
        obtain ⟨r, hr, rfl⟩ := List.mem_map.mp hmem
        exact hsound.holders r (login_roles hlogin.login ▸ hr)
      cases hchange with
      | delete_me => exact hdeleted _ hgone
      | delete_user => exact hdeleted _ hgone
      | set_user_role => exact hkept.withRoles rfl rfl fun _ => rfl
      | accept => exact hkept.withRoles rfl rfl fun _ => rfl
      | reject => exact hdeleted _ hgone
  | @miniverses token u w route hlogin =>
      have hkept := h.login hlogin.login
      have hid := hlogin.mem.2
      rw [hkept.weight] at hid
      exact rightsKept_route (hplain token u.id rfl hid) route w hkept

end Backend
