import Miniverse.Api.Lemmas.Routes
import Miniverse.Calls.Lemmas.Addresses
import Miniverse.Miniverses.Lemmas.Answers
import Miniverse.Roles.Lemmas.Table
import Miniverse.Sessions.Live

/-!
# What a session knows of its user

A session knows the roles of its user, or an event that names the user is to come.
-/

namespace Backend

open Lib

variable {α β : Type} {env : Env α} {w w' w'' : World α} {s s' : Session} {db db' : Database}
  {user_id miniverse_id : String}

/-! ## What a call announces -/

/-- The roles of all users but these are as before, or a new event names the user. -/
structure Announces (silent : String → Prop) (w w' : World α) : Prop where
  events : w.events <+: w'.events
  roles : ∀ user_id, ¬ silent user_id →
    (∀ miniverse_id, w'.db.get_miniverse_role user_id miniverse_id = w.db.get_miniverse_role user_id miniverse_id) ∨
      ∃ event ∈ w'.events.drop w.events.length, event.names user_id = true

/-- The rows of the roles stay, and events may come. -/
def RolesKept (w w' : World α) : Prop := w'.db.user_roles = w.db.user_roles ∧ w.events <+: w'.events

instance : Calm (RolesKept (α := α)) where
  refl _ := ⟨rfl, List.prefix_refl _⟩
  trans _ _ _ h₁ h₂ := ⟨h₂.1.trans h₁.1, h₁.2.trans h₂.2⟩
  tick _ _ := ⟨rfl, List.prefix_refl _⟩
  events _ _ := ⟨rfl, List.prefix_append _ _⟩
  containers _ _ := ⟨rfl, List.prefix_refl _⟩

instance (silent : String → Prop) : Calm (Announces (α := α) silent) where
  refl _ := ⟨List.prefix_refl _, fun _ _ => Or.inl fun _ => rfl⟩
  trans w₁ w₂ w₃ h₁ h₂ := by
    refine ⟨h₁.events.trans h₂.events, fun user_id hheard => ?_⟩
    rcases h₁.roles user_id hheard with hsame₁ | ⟨event, hevent, hnames⟩
    · rcases h₂.roles user_id hheard with hsame₂ | ⟨event, hevent, hnames⟩
      · exact Or.inl fun miniverse_id => (hsame₂ miniverse_id).trans (hsame₁ miniverse_id)
      · exact Or.inr ⟨event, (List.drop_sublist_drop_left _ h₁.events.length_le).subset hevent, hnames⟩
    · exact Or.inr ⟨event, (h₂.events.drop _).subset hevent, hnames⟩
  tick _ _ := ⟨List.prefix_refl _, fun _ _ => Or.inl fun _ => rfl⟩
  events _ _ := ⟨List.prefix_append _ _, fun _ _ => Or.inl fun _ => rfl⟩
  containers _ _ := ⟨List.prefix_refl _, fun _ _ => Or.inl fun _ => rfl⟩

theorem RolesKept.announces (h : RolesKept w w') (silent : String → Prop) : Announces silent w w' where
  events := h.2
  roles user_id _ := Or.inl (Database.role_of_rows h.1 user_id)

theorem rolesKept_onDisk (f : Fs α β) : (onDisk f : Act α β).Within RolesKept := fun _ => ⟨rfl, List.prefix_refl _⟩

theorem rolesKept_object (id : Uuid4) : AllowsObject (RolesKept (α := α)) id fun _ => True where
  save _ _ := ⟨rfl, List.prefix_refl _⟩
  control _ _ := ⟨rfl, List.prefix_refl _⟩
  state _ _ _ := trivial

theorem rolesKept_data (env : Env α) (id : Uuid4) : AllowsData env RolesKept id fun _ => True where
  mkdirs := rolesKept_onDisk _
  write _ _ _ := rolesKept_onDisk _
  unlink _ _ := rolesKept_onDisk _
  answers _ _ := trivial
  rows h := h fun _ _ => trivial
  save_mod _ _ _ _ _ := ⟨rfl, List.prefix_refl _⟩
  add_mod _ _ _ := ⟨rfl, List.prefix_refl _⟩
  mkdirs_below _ _ := rolesKept_onDisk _
  write_below _ _ _ := rolesKept_onDisk _

theorem rolesKept_update_proxy_config (env : Env α) : (update_proxy_config env).Within RolesKept :=
  within_update_proxy_config rolesKept_onDisk

theorem rolesKept_controllers (w : World α) (cs : List (Uuid4 × Controller)) : RolesKept w { w with controllers := cs } :=
  ⟨rfl, List.prefix_refl _⟩

theorem mem_drop_publish {events events' : List MiniverseEvent} (h : events <+: events') (event : MiniverseEvent) :
    event ∈ (events' ++ [event]).drop events.length := by
  rw [List.drop_append_of_le_length h.length_le]
  exact List.mem_append_right _ (List.mem_singleton.mpr rfl)

/-! ## What each call announces -/

theorem set_user_role_announces (current_user : User) (miniverse_id user_id_or_name : String) (role : Role)
    (silent : String → Prop) :
    ((MiniversesRoute.set_user_role miniverse_id user_id_or_name role).handle env current_user).Within (Announces silent) := by
  refine (within_requireRole _ _ _).bind fun _ => (within_query _).bind fun _ => (Eff.Within.getOr _ _).bind fun user => ?_
  refine Eff.Within.bind ((within_query _).bind fun _ => Eff.Within.getOr _ _) fun m w => ?_
  rcases commit_cases env (·.setRole ⟨user.id, m.id, role⟩) w with ⟨e, hcommit⟩ | hcommit
  · rw [Eff.bind_run_error hcommit]
    exact Quiet.tick w _
  · rw [Eff.bind_run_ok hcommit]
    refine ⟨List.prefix_append _ _, fun user_id _ => ?_⟩
    by_cases hid : user_id = user.id
    · refine Or.inr ⟨_, mem_drop_publish (List.prefix_refl _) _, ?_⟩
      simp [MiniverseEvent.names, hid]
    · exact Or.inl fun _ => Database.role_setRole fun hpair => hid hpair.1

theorem rolesKept_start_miniverse (m : Miniverse) : (start_miniverse env m).Within RolesKept :=
  within_start_object (rolesKept_object m.id) (within_init_data_path (rolesKept_data env m.id)) trivial

theorem rolesKept_set_up (m : Miniverse) : (set_up_miniverse env m).Within RolesKept :=
  within_set_up (within_update_proxy_config rolesKept_onDisk) rolesKept_controllers (rolesKept_object m.id) (rolesKept_data env m.id) trivial

/-- A set-up that returns names the users with a role in the miniverse. -/
theorem set_up_names {m m' : Miniverse} (hrun : set_up_miniverse env m w = (.ok m', w'))
    (h : user_id ∈ (w.db.rolesOf m.id).map (·.user_id)) :
    ∃ event ∈ w'.events.drop w.events.length, event.names user_id = true := by
  obtain ⟨_, w₁, hdata, _, hrun⟩ := (rolesKept_onDisk _).bind_ok hrun
  obtain ⟨_, w₂, hadd, _, hrun⟩ := (within_add_miniverse rolesKept_controllers m).bind_ok hrun
  obtain ⟨r, w₃, hstart, hstarted, hrun⟩ := (rolesKept_start_miniverse m).bind_ok hrun
  obtain ⟨_, w₄, hproxy, _, hrun⟩ := (rolesKept_update_proxy_config env).bind_ok hrun
  have hkept : RolesKept w w₄ := trans_of RolesKept hdata (trans_of RolesKept hadd (trans_of RolesKept hstart hproxy))
  have hid : r.1.id = m.id := returns_start_miniverse m _ _ _ hstarted
  cases hrun
  refine ⟨_, mem_drop_publish hkept.2 _, ?_⟩
  have hroles : w₄.db.rolesOf r.1.id = w.db.rolesOf m.id := by
    rw [Database.rolesOf, hkept.1, hid, Database.rolesOf]
  simpa [MiniverseEvent.names, hroles] using h

theorem rolesKept_finish_delete (id : Uuid4) (users_roles : List MiniverseUserRole) :
    (finish_delete env id users_roles).Within RolesKept :=
  within_finish_delete (within_update_proxy_config rolesKept_onDisk) id users_roles

/-- A deletion that returns names the users that had a role in the miniverse. -/
theorem finish_delete_names {id : Uuid4} {users_roles : List MiniverseUserRole} {a : Unit}
    (hrun : finish_delete env id users_roles w = (.ok a, w')) (h : user_id ∈ users_roles.map (·.user_id)) :
    ∃ event ∈ w'.events.drop w.events.length, event.names user_id = true := by
  obtain ⟨_, w₁, hcache, _, hrun⟩ := (within_ask (R := RolesKept) _).bind_ok hrun
  obtain ⟨_, w₂, hproxy, _, hrun⟩ := (rolesKept_update_proxy_config env).bind_ok hrun
  have hkept : RolesKept w w₂ := trans_of RolesKept hcache hproxy
  cases hrun
  refine ⟨_, mem_drop_publish hkept.2 _, ?_⟩
  simpa [MiniverseEvent.names] using h

/-- The users whose role a call changes without an event that names them. -/
def RightsCall.Silent (env : Env α) (w : World α) (user_id : String) : RightsCall → Prop
  | set_user_role _ _ _ _ => False
  | create_miniverse data creator => user_id = creator.id ∧ InsertsRow env w data ∧ env.commit (w.tick + 3) = .ok () ∧
      ¬ Succeeds (Backend.create_miniverse env data creator) w
  | delete_miniverse miniverse_id => ∃ m, w.db.findMiniverse miniverse_id = some m ∧
      w.db.get_miniverse_role user_id m.id.str ≠ .none ∧
      (∃ w₁, dismantle env m w = (.ok (), w₁) ∧ env.commit w₁.tick = .ok ()) ∧ ¬ Succeeds (Backend.delete_miniverse env m) w
  | delete_user removed => w.db.weight user_id = w.db.weight removed ∧ env.commit w.tick = .ok () ∧
      ∃ miniverse_id, w.db.get_miniverse_role user_id miniverse_id ≠ .none
  | reject_user_request removed => w.db.weight user_id = w.db.weight removed ∧ env.commit w.tick = .ok () ∧
      ∃ miniverse_id, w.db.get_miniverse_role user_id miniverse_id ≠ .none

theorem set_up_announces {w₁ : World α} {m : Miniverse} {creator_id : String} {silent : String → Prop}
    (hroles : w₁.db.user_roles = w.db.user_roles ++ [⟨creator_id, m.id, .admin⟩]) (hevents : w₁.events = w.events)
    (hsilent : ¬ Succeeds (set_up_miniverse env m) w₁ → silent creator_id) :
    Announces silent w (set_up_miniverse env m w₁).2 := by
  have hkept : RolesKept w₁ (set_up_miniverse env m w₁).2 := rolesKept_set_up m w₁
  refine ⟨hevents ▸ hkept.2, fun user_id hheard => ?_⟩
  by_cases hid : user_id = creator_id
  · subst hid
    obtain ⟨m', w', hrun⟩ := not_not.mp fun hraises => hheard (hsilent hraises)
    have hmem : user_id ∈ (w₁.db.rolesOf m.id).map (·.user_id) := by simp [Database.rolesOf, hroles]
    rw [hrun, ← hevents]
    exact Or.inr (set_up_names hrun hmem)
  · refine Or.inl fun miniverse_id => ?_
    exact Database.role_addRole ⟨creator_id, m.id, .admin⟩ (hkept.1.trans hroles) fun hpair => hid hpair.1

theorem create_announces (data : MiniverseCreate) (creator : User) (w : World α) :
    Announces (fun user_id => (RightsCall.create_miniverse data creator).Silent env w user_id) w
      (create_miniverse env data creator w).2 := by
  rcases create_miniverse_cases env data creator w with ⟨e, w', hrun, hdb, _, _, hevents⟩ | ⟨s, hsub, hfresh, hcommit, hrun⟩
  · rw [hrun]
    exact RolesKept.announces ⟨by rw [hdb], by rw [hevents]⟩ _
  · have hinserts : InsertsRow env w data := ⟨by rw [hsub]; rfl, hfresh, hcommit⟩
    cases hrole : env.commit (w.tick + 3) with
    | error e =>
        rw [hrun, Eff.bind_run_error (commit_error _ hrole)]
        refine RolesKept.announces (w := w) ?_ _
        exact ⟨rfl, List.prefix_refl _⟩
    | ok _ =>
        rw [Eff.bind_run_ok (commit_ok _ hrole)] at hrun
        rw [hrun]
        refine set_up_announces rfl rfl fun hraises => ⟨rfl, hinserts, hrole, ?_⟩
        rintro ⟨m', w', hreturns⟩
        exact hraises ⟨m', w', hrun.symm.trans hreturns⟩

theorem delete_announces {miniverse_id : String} {m : Miniverse} (hm : w.db.findMiniverse miniverse_id = some m) :
    Announces (fun user_id => (RightsCall.delete_miniverse miniverse_id).Silent env w user_id) w
      (delete_miniverse env m w).2 := by
  rcases delete_miniverse_cases env m (R := RolesKept) (fun _ => ⟨rfl, List.prefix_refl _⟩) (rolesKept_onDisk _) w with
    ⟨e, w', hrun, hkept⟩ | ⟨w₁, hkept, hdismantled, hcommit, hrun⟩
  · rw [hrun]
    exact hkept.announces _
  · have hfinish : RolesKept _ (finish_delete env m.id (w₁.db.rolesOf m.id) _).2 :=
      rolesKept_finish_delete m.id (w₁.db.rolesOf m.id) { w₁.next with db := w₁.db.deleteMiniverse m.id }
    rw [← hrun] at hfinish
    refine ⟨hkept.2.trans hfinish.2, fun user_id hheard => ?_⟩
    have hroles : w₁.db.rolesOf m.id = w.db.rolesOf m.id := by
      rw [Database.rolesOf, hkept.1, Database.rolesOf]
    by_cases hrole : w.db.get_miniverse_role user_id m.id.str = .none
    · refine Or.inl fun other => ?_
      rw [Database.role_of_rows hfinish.1, Database.role_deleteMiniverse, Database.role_of_rows hkept.1]
      split
      · rename_i heq
        rw [heq, hrole]
      · rfl
    · obtain ⟨a, w', hreturns⟩ := not_not.mp fun hraises => hheard ⟨m, hm, hrole, ⟨w₁, hdismantled, hcommit⟩, hraises⟩
      rw [hreturns]
      rw [hrun] at hreturns
      obtain ⟨event, hevent, hnames⟩ := finish_delete_names hreturns (hroles ▸ Database.mem_rolesOf hrole)
      exact Or.inr ⟨event, (List.drop_sublist_drop_left _ hkept.2.length_le).subset hevent, hnames⟩

theorem delete_user_announces {removed : String} {silent : String → Prop}
    (hsilent : ∀ user_id miniverse_id, w.db.weight user_id = w.db.weight removed → env.commit w.tick = .ok () →
      w.db.get_miniverse_role user_id miniverse_id ≠ .none → silent user_id) : Announces silent w (delete_user env removed w).2 := by
  cases hcommit : env.commit w.tick with
  | error e =>
      rw [delete_user, commit_error _ hcommit]
      exact Quiet.tick w _
  | ok _ =>
      rw [delete_user, commit_ok _ hcommit]
      refine ⟨List.prefix_refl _, fun user_id hheard => Or.inl fun miniverse_id => ?_⟩
      refine (Database.role_deleteUser w.db removed user_id miniverse_id).trans ?_
      split
      · rename_i heq
        exact (not_not.mp fun hrole => hheard (hsilent user_id miniverse_id heq hcommit hrole)).symm
      · rfl

theorem call_announces (c : RightsCall) (w : World α) :
    Announces (fun user_id => c.Silent env w user_id) w (c.perform env w).2 := by
  cases c with
  | set_user_role current_user miniverse_id user_id_or_name role =>
      rw [RightsCall.perform, bind_unit_state]
      exact set_user_role_announces current_user miniverse_id user_id_or_name role _ w
  | create_miniverse data creator =>
      rw [RightsCall.perform, bind_unit_state]
      exact create_announces data creator w
  | delete_miniverse miniverse_id =>
      rw [RightsCall.perform, withRow, query, Eff.read_bind_run]
      cases hm : w.db.findMiniverse miniverse_id with
      | none => exact Std.Refl.refl w
      | some m => exact delete_announces hm
  | delete_user removed =>
      exact delete_user_announces fun _ miniverse_id hid hcommit hrole => ⟨hid, hcommit, miniverse_id, hrole⟩
  | reject_user_request removed =>
      exact delete_user_announces fun _ miniverse_id hid hcommit hrole => ⟨hid, hcommit, miniverse_id, hrole⟩

/-! ## Sessions -/

namespace Session

theorem get_miniverse_role_loaded (h : s.miniverses_roles = db.rolesOfUser s.user_id) (miniverse_id : String) :
    s.get_miniverse_role miniverse_id = db.get_miniverse_role s.user_id miniverse_id := by
  rw [get_miniverse_role, h, Database.rolesOfUser, List.find?_filter, Database.get_miniverse_role]
  simp only [Bool.decide_and, Bool.decide_eq_true]

/-- An event that names the user is yet to be handled. -/
def AwaitsRefresh (w : World α) (s : Session) : Prop :=
  ∃ event ∈ w.events.drop s.handled, event.names s.user_id = true

/-- The roles that the session knows are those in the tables. -/
def Current (w : World α) (s : Session) : Prop :=
  ∀ miniverse_id, s.get_miniverse_role miniverse_id = w.db.get_miniverse_role s.user_id miniverse_id

/-- The session has no event before it was published, and knows its user or is to load it again. -/
structure Informed (w : World α) (s : Session) : Prop where
  handled : s.handled ≤ w.events.length
  knows : s.failed = true ∨ s.AwaitsRefresh w ∨ s.Current w

theorem informed_new (w : World α) (user_id : String) : (Session.new w user_id).Informed w :=
  ⟨le_refl _, Or.inr (Or.inr (get_miniverse_role_loaded rfl))⟩

/-- A call whose silent changes reach no session that relies on what it knows. -/
theorem Informed.call {silent : String → Prop} (hannounces : Announces silent w w') (h : s.Informed w)
    (hsilent : silent s.user_id → s.failed = true ∨ s.AwaitsRefresh w) : s.Informed w' := by
  refine ⟨h.handled.trans hannounces.events.length_le, ?_⟩
  have hawaits (hs : s.AwaitsRefresh w) : s.AwaitsRefresh w' := by
    obtain ⟨event, hevent, hnames⟩ := hs
    exact ⟨event, (hannounces.events.drop _).subset hevent, hnames⟩
  rcases h.knows with hfailed | hs | hcurrent
  · exact Or.inl hfailed
  · exact Or.inr (Or.inl (hawaits hs))
  · by_cases hquiet : silent s.user_id
    · exact (hsilent hquiet).imp_right fun hs => Or.inl (hawaits hs)
    · rcases hannounces.roles s.user_id hquiet with hsame | ⟨event, hevent, hnames⟩
      · exact Or.inr (Or.inr fun miniverse_id => (hcurrent miniverse_id).trans (hsame miniverse_id).symm)
      · exact Or.inr (Or.inl ⟨event, (List.drop_sublist_drop_left _ h.handled).subset hevent, hnames⟩)

/-- The event is sent to the session with the user as it is loaded for it. -/
def deliver (event : MiniverseEvent) (before_user_role : Role) (s : Session) : Session :=
  if receives before_user_role (s.get_miniverse_role event.miniverse_id) then { s with sent := s.sent ++ [event] } else s

theorem deliver_eq (event : MiniverseEvent) (before_user_role : Role) (s : Session) :
    ∃ sent, s.deliver event before_user_role = { s with sent := sent } := by
  unfold deliver
  split
  · exact ⟨s.sent ++ [event], rfl⟩
  · exact ⟨s.sent, rfl⟩

/-- An event leaves what the session knows, or the session loads it again, which fails when the user is gone. -/
theorem handle_message_cases (db : Database) (event : MiniverseEvent) (s : Session) :
    event.names s.user_id = true ∧ s.handle_miniverse_channel_message db event = none ∨
    event.names s.user_id = true ∧ s.handle_miniverse_channel_message db event =
      some ({ s with miniverses_roles := db.rolesOfUser s.user_id }.deliver event (s.get_miniverse_role event.miniverse_id)) ∨
    event.names s.user_id = false ∧ s.handle_miniverse_channel_message db event =
      some (s.deliver event (s.get_miniverse_role event.miniverse_id)) := by
  unfold handle_miniverse_channel_message
  cases hnames : event.names s.user_id with
  | false => exact Or.inr (Or.inr ⟨rfl, rfl⟩)
  | true =>
      unfold refresh
      cases db.findUser s.user_id with
      | none => exact Or.inl ⟨rfl, rfl⟩
      | some u => exact Or.inr (Or.inl ⟨rfl, rfl⟩)

/-- No event of a miniverse is sent to who had no role in it and has none. -/
theorem sends_nothing {event : MiniverseEvent} (hbefore : s.get_miniverse_role event.miniverse_id = .none)
    (hafter : db.get_miniverse_role s.user_id event.miniverse_id = .none)
    (h : s.handle_miniverse_channel_message db event = some s') : s'.sent = s.sent := by
  have hreceives : receives .none .none = false := by decide
  rcases handle_message_cases db event s with ⟨_, hnone⟩ | ⟨_, hsome⟩ | ⟨_, hsome⟩
  · rw [hnone] at h
    cases h
  · have hloaded : ({ s with miniverses_roles := db.rolesOfUser s.user_id } : Session).get_miniverse_role
        event.miniverse_id = .none := (get_miniverse_role_loaded rfl _).trans hafter
    rw [hsome, deliver, hloaded, hbefore, hreceives] at h
    cases h
    rfl
  · rw [hsome, deliver, hbefore, hreceives] at h
    cases h
    rfl

theorem drop_of_getElem? {events : List MiniverseEvent} {n : Nat} {event : MiniverseEvent} (h : events[n]? = some event) :
    events.drop n = event :: events.drop (n + 1) := by
  obtain ⟨hn, rfl⟩ := List.getElem?_eq_some_iff.mp h
  exact List.drop_eq_getElem_cons hn

theorem Informed.handle (h : s.Informed w) : (s.handle w).Informed w := by
  unfold Session.handle
  cases hnext : w.events[s.handled]? with
  | none => exact h
  | some event =>
      have hle : s.handled + 1 ≤ w.events.length := (List.getElem?_eq_some_iff.mp hnext).1
      cases hfailed : s.failed with
      | true => simpa using h
      | false =>
          dsimp only
          rw [if_neg (by decide)]
          rcases handle_message_cases w.db event s with ⟨_, hnone⟩ | ⟨_, hsome⟩ | ⟨hnames, hsome⟩
          · rw [hnone]
            exact ⟨h.handled, Or.inl rfl⟩
          · obtain ⟨sent, hdeliver⟩ := deliver_eq event (s.get_miniverse_role event.miniverse_id)
              { s with miniverses_roles := w.db.rolesOfUser s.user_id }
            rw [hsome, hdeliver]
            exact ⟨hle, Or.inr (Or.inr (get_miniverse_role_loaded rfl))⟩
          · obtain ⟨sent, hdeliver⟩ := deliver_eq event (s.get_miniverse_role event.miniverse_id) s
            rw [hsome, hdeliver]
            refine ⟨hle, ?_⟩
            rcases h.knows with hs | ⟨named, hnamed, hs⟩ | hcurrent
            · exact Or.inl hs
            · rw [drop_of_getElem? hnext] at hnamed
              rcases List.mem_cons.mp hnamed with rfl | hnamed
              · rw [hnames] at hs
                cases hs
              · exact Or.inr (Or.inl ⟨named, hnamed, hs⟩)
            · exact Or.inr (Or.inr hcurrent)

end Session

/-! ## Runs -/

/-- Where a call changes the role of a user silently, no session of the user relies on what it knows. -/
def AnnouncesRights (env : Env α) (l : Live α) : LiveTurn → Prop
  | .call c => ∀ s ∈ l.sessions, c.Silent env l.world s.user_id → s.failed = true ∨ s.AwaitsRefresh l.world
  | _ => True

theorem informed_turn {l : Live α} {t : LiveTurn} (hannounces : AnnouncesRights env l t)
    (h : ∀ s ∈ l.sessions, s.Informed l.world) : ∀ s ∈ (l.turn env t).sessions, s.Informed (l.turn env t).world := by
  cases t with
  | call c => exact fun s hs => (h s hs).call (call_announces c l.world) (hannounces s hs)
  | connect user_id =>
      rw [Live.turn]
      cases l.world.db.findUser user_id with
      | none => exact h
      | some user =>
          intro s hs
          rcases List.mem_append.mp hs with hs | hs
          · exact h s hs
          · rw [List.mem_singleton.mp hs]
            exact Session.informed_new l.world user.id
  | disconnect i => exact fun s hs => h s (List.mem_of_mem_eraseIdx hs)
  | handle i =>
      rw [Live.turn]
      intro s hs
      obtain ⟨j, hj, rfl⟩ := List.mem_iff_getElem.mp hs
      rw [List.getElem_modify]
      split
      · exact (h _ (List.getElem_mem _)).handle
      · exact h _ (List.getElem_mem _)

end Backend
