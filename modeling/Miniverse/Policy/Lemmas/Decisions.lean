import Miniverse.Access.Lemmas.Members
import Miniverse.Policy.Lemmas.Refinement

/-!
# What the policy grants

Who is let in, and which requests about users and roles are answered, where the database never fails.
-/

namespace Backend

open Lib

variable {α β γ : Type} {env : Env α} {db : Database} {w w' : World α} {u : User} {token : Token}

/-! ## Answers -/

theorem isOk_raiseIf_bind {b : Bool} {e : PyError} {k : Unit → Act α β} :
    ((Eff.raiseIf b e >>= k : Act α β) w).1.isOk = true ↔ b = false ∧ (k () w).1.isOk = true := by
  cases b with
  | true =>
      rw [Eff.raiseIf_true_bind]
      exact iff_of_false Bool.false_ne_true fun h => Bool.noConfusion h.1
  | false =>
      rw [Eff.raiseIf_false_bind]
      exact (and_iff_right rfl).symm

theorem isOk_getOr_bind {o : Option γ} {e : PyError} {k : γ → Act α β} :
    ((Eff.getOr o e >>= k : Act α β) w).1.isOk = true ↔ ∃ a, o = some a ∧ (k a w).1.isOk = true := by
  cases o with
  | none =>
      rw [Eff.getOr_none_bind]
      refine iff_of_false Bool.false_ne_true ?_
      rintro ⟨_, h, _⟩
      cases h
  | some a =>
      rw [Eff.getOr_some_bind]
      constructor
      · exact fun h => ⟨a, rfl, h⟩
      · rintro ⟨_, heq, h⟩
        exact Option.some.inj heq ▸ h

theorem isOk_bind_pure (m : Act α β) (f : β → γ) (l : Live α) :
    (onWorld (do return f (← m)) l).1.isOk = true ↔ (m l.world).1.isOk = true := by
  show (((m >>= fun b => pure (f b)) : Act α γ) l.world).1.isOk = true ↔ _
  rw [Eff.bind_run]
  rcases m l.world with ⟨_ | b, w⟩ <;> exact Iff.rfl

/-! ## Logins -/

theorem Rights.Admits.unique {ι μ : Type} [DecidableEq ι] [DecidableEq μ] {r r₁ r₂ : Rights ι μ} {i : ι} {username : String}
    (h₁ : r.Admits i username r₁) (h₂ : r.Admits i username r₂) : r₁ = r₂ := by
  have hnot : r.Permits i (.settle username) → ¬ r.Permits i (.rename username) := by
    rintro hempty ⟨⟨a, ha, _⟩, _⟩
    cases (hempty i).symm.trans ha
  cases h₁ with
  | first hempty =>
      cases h₂ with
      | first => rfl
      | known hknown => exact absurd hknown (hnot hempty)
  | known hknown =>
      cases h₂ with
      | first hempty => exact absurd hknown (hnot hempty)
      | known => rfl

/-- Who is let in has the name of the token. -/
theorem retrieve_user_handler_username (hrun : retrieve_user_handler env token w = (.ok u, w')) :
    u.username = token.preferred_username := by
  rw [retrieve_user_handler, query, Eff.read_bind_run] at hrun
  obtain ⟨user, w₁, _, hrun⟩ := Eff.bind_ok hrun
  obtain ⟨_, w₂, _, hrun⟩ := Eff.bind_ok hrun
  split at hrun
  · obtain ⟨_, w₃, _, hrun⟩ := Eff.bind_ok hrun
    cases hrun
    rfl
  · cases hrun
    exact not_not.mp ‹_›

/-- The policy admits who is let in, and says what rights are left. -/
theorem admits_of_retrieve (hsound : w.db.Sound) (hrun : retrieve_user_handler env token w = (.ok u, w')) :
    w.db.rights.Admits (w.db.weight token.sub) (w.db.weight token.preferred_username) w'.db.rights := by
  have hname := retrieve_user_handler_username hrun
  have hsign : SignIn w.db token (.ok u) w'.db := by
    have h := retrieve_user_handler_signIn env token w
    rwa [hrun] at h
  have hfree : w.db.rights.Free (w.db.weight token.sub) (w.db.weight token.preferred_username) := by
    refine Database.free_of_rows fun v hv hsame => by_contra fun hne => ?_
    -- another row with the name would still be there
    obtain ⟨hu, hid⟩ := hsign.mem
    have hweight := login_weight hsign.login
    rw [← hname, ← hweight] at hsame
    have heq : v = u := List.inj_on_of_nodup_map (hsign.sound hsound).usernames (hsign.login.kept hv hne) hu hsame
    exact hne (hweight ▸ heq ▸ hid)
  generalize w'.db = db' at hsign
  cases hsign.login with
  | found hfind hactive =>
      have hsame : w.db.rights.apply (w.db.weight token.sub) (.rename (w.db.weight token.preferred_username)) = w.db.rights := by
        refine Rights.ext (funext fun user => ?_) rfl rfl
        show (if user = w.db.weight token.sub then _ else w.db.rights.accounts user) = w.db.rights.accounts user
        split
        · rename_i hi
          subst hi
          rw [Database.rights_account hfind, Option.map_some, ← hname]
          rfl
        · rfl
      have hadmits := Rights.Admits.known (r := w.db.rights) ⟨Database.active_of_findUser hfind hactive, hfree⟩
      rwa [hsame] at hadmits
  | created hfind hactive =>
      have hempty := users_empty hactive
      rw [Database.rights_newUser hsound hfind, newUser_first hempty]
      exact .first (Database.no_accounts hempty)
  | @renamed u hfind hactive =>
      rw [Database.rights_saveUser hfind { u with username := token.preferred_username }
        (fun a => { a with username := w.db.weight token.preferred_username }) rfl rfl]
      exact .known ⟨Database.active_of_findUser hfind hactive, hfree⟩

section Commits

variable (hcommit : ∀ tick, env.commit tick = .ok ())

include hcommit

theorem saveUsername_free_run {user_id username : String} (f : Database → Database)
    (hfree : ∀ v ∈ w.db.users, w.db.weight v.username = w.db.weight username → w.db.weight v.id = w.db.weight user_id) :
    saveUsername env user_id username f w = (.ok (), { w.next with db := f w.db }) := by
  have hnone : (w.db.users.any fun v =>
      decide (w.db.weight v.username = w.db.weight username ∧ w.db.weight v.id ≠ w.db.weight user_id)) = false :=
    List.any_eq_false.mpr fun v hv htaken => (of_decide_eq_true htaken).2 (hfree v hv (of_decide_eq_true htaken).1)
  rw [saveUsername, query, Eff.read_bind_run, hnone, Eff.raiseIf_false_bind]
  exact commit_ok f (hcommit _)

/-- Who is admitted is let in. -/
theorem retrieve_of_admits {r : Rights String Uuid4} (hunique : w.db.UniqueUsers)
    (h : w.db.rights.Admits (w.db.weight token.sub) (w.db.weight token.preferred_username) r) :
    ∃ u w', retrieve_user_handler env token w = (.ok u, w') := by
  rw [retrieve_user_handler, query, Eff.read_bind_run]
  cases h with
  | first hempty =>
      have husers : w.db.users = [] := by_contra fun hne => by
        obtain ⟨i, hi⟩ := Database.exists_account hne
        exact hi (hempty i)
      have hfind : w.db.findUser token.sub = none := Option.map_eq_none_iff.mp (hempty (w.db.weight token.sub))
      have hnobody : ∀ v ∈ w.db.users, w.db.weight v.username = w.db.weight token.preferred_username →
          w.db.weight v.id = w.db.weight token.sub := by
        rw [husers]
        exact fun _ hv => absurd hv List.not_mem_nil
      have hcreate : ∃ w₁, create_user env token.sub token.preferred_username w = (.ok (newUser w.db token), w₁) := by
        rw [create_user, query, Eff.read_bind_run]
        exact ⟨_, Eff.bind_run_ok (saveUsername_free_run hcommit _ hnobody) _⟩
      obtain ⟨w₁, hcreate⟩ := hcreate
      rw [hfind, Option.elim_none, Eff.bind_run_ok hcreate, newUser_first husers, Bool.not_true, Eff.raiseIf_false_bind,
        if_neg (not_not.mpr rfl)]
      exact ⟨_, _, rfl⟩
  | known hknown =>
      obtain ⟨⟨a, ha, hactive, _⟩, hfree⟩ := hknown
      obtain ⟨v, hfind, rfl⟩ := Option.map_eq_some_iff.mp ha
      have hactive : v.is_active = true := hactive
      replace hfind : w.db.findUser token.sub = some v := hfind
      rw [hfind, Option.elim_some, Eff.pure_bind_run, hactive, Bool.not_true, Eff.raiseIf_false_bind]
      split
      · refine ⟨_, _, Eff.bind_run_ok (saveUsername_free_run hcommit _ fun t ht hname => ?_) _⟩
        rw [(findUser_mem hfind).2]
        exact hfree _ _ (Database.rights_account (findUser_of_weight hunique ht rfl)) hname
      · exact ⟨_, _, rfl⟩

/-! ## Routes -/

theorem isOk_commit (f : Database → Database) (w : World α) : (commit env f w).1.isOk = true := by
  rw [commit_ok f (hcommit _)]
  rfl

theorem isOk_commit_bind {f : Database → Database} {k : Unit → Act α β} :
    ((commit env f >>= k : Act α β) w).1.isOk = true ↔ (k () { w.next with db := f w.db }).1.isOk = true := by
  rw [Eff.bind_run_ok (commit_ok f (hcommit _))]

/-- A route of the users is answered where the policy permits what it is for. -/
theorem users_route_iff (hunique : w.db.UniqueUsers) (hfind : w.db.findUser token.sub = some u) (hactive : u.is_active = true)
    {route : UsersRoute} (hspells : (Arrival.users token route).SpellsOwn w.db) :
    (route.handle env u w).1.isOk = true ↔
      ∀ action, route.action w.db.weight = some action → w.db.rights.Permits (w.db.weight token.sub) action := by
  have hown := ownId_of_findUser hfind
  have honly {a : Action String Uuid4} {P : Action String Uuid4 → Prop} : (∀ action, some a = some action → P action) ↔ P a :=
    ⟨fun h => h a rfl, fun h _ heq => Option.some.inj heq ▸ h⟩
  cases route with
  | get_me =>
      refine iff_of_true rfl fun _ h => ?_
      cases h
  | delete_me =>
      rw [UsersRoute.action, honly, Database.permits_leave_iff hfind hactive hunique, UsersRoute.handle, query, Eff.read_bind_run,
        isOk_raiseIf_bind, decide_eq_false_iff_not]
      exact and_iff_left (isOk_commit hcommit _ _)
  | delete_user user_id =>
      rw [UsersRoute.action, honly, Database.permits_expel_iff hfind hactive fun h => (hspells h).trans hown,
        UsersRoute.handle, admin_user_guard, isOk_raiseIf_bind, isOk_raiseIf_bind, decide_eq_false_iff_not, not_not,
        Role.admin_le, decide_eq_false_iff_not]
      exact and_congr_right' (and_iff_left (isOk_commit hcommit _ _))
  | set_user_role user_id role =>
      rw [UsersRoute.action, honly, Database.permits_promote_iff hfind hactive hunique fun h => (hspells h).trans hown,
        UsersRoute.handle, admin_user_guard, isOk_raiseIf_bind, decide_eq_false_iff_not, not_not, Role.admin_le, query,
        Eff.read_bind_run, isOk_raiseIf_bind, decide_eq_false_iff_not, set_user_role, query, Eff.read_bind_run,
        isOk_getOr_bind]
      exact and_congr_right' (and_congr_right' (exists_congr fun t => and_iff_left (isOk_commit hcommit _ _)))
  | accept_user_request user_id =>
      rw [UsersRoute.action, honly, Database.permits_accept_iff hfind hactive, UsersRoute.handle, admin_user_guard, isOk_raiseIf_bind,
        decide_eq_false_iff_not, not_not, Role.admin_le, accept_user_request, query, Eff.read_bind_run, isOk_getOr_bind]
      exact and_congr_right' (exists_congr fun t => and_iff_left (isOk_commit hcommit _ _))
  | reject_user_request user_id =>
      rw [UsersRoute.action, honly, Database.permits_reject_iff hfind hactive, UsersRoute.handle, admin_user_guard, isOk_raiseIf_bind,
        decide_eq_false_iff_not, not_not, Role.admin_le]
      exact and_iff_left (isOk_commit hcommit _ _)

theorem set_user_role_iff (hsound : w.db.Sound) (hfind : w.db.findUser token.sub = some u) (hactive : u.is_active = true)
    (miniverse_id user_id_or_name : String) (role : Role) :
    ((MiniversesRoute.set_user_role miniverse_id user_id_or_name role).handle env u w).1.isOk = true ↔
      ∃ user id, id.str = miniverse_id ∧ w.db.rights.Names w.db.weight user_id_or_name user ∧
        w.db.rights.Permits (w.db.weight token.sub) (.grant user id role) := by
  rw [MiniversesRoute.handle, requireRole, bind_assoc, query, Eff.read_bind_run, isOk_raiseIf_bind, query, Eff.read_bind_run,
    isOk_getOr_bind]
  simp only [getMiniverse, bind_assoc, query, Eff.read_bind_run, isOk_getOr_bind, isOk_commit_bind hcommit]
  constructor
  · rintro ⟨hguard, t, htarget, m, hm, _⟩
    obtain ⟨hmem, rfl⟩ := findMiniverse_some hm
    obtain ⟨ht, hnames⟩ := names_of_target hsound.users htarget
    refine ⟨_, m.id, rfl, hnames, Database.active_of_findUser hfind hactive, List.mem_map_of_mem hmem, ?_,
      Database.accounts_ne_none.mpr ⟨t, findUser_of_weight hsound.users ht rfl⟩⟩
    exact (Database.rights_role hfind m.id).trans (Role.admin_le.mp (Role.not_lt.mp (of_decide_eq_false hguard)))
  · rintro ⟨user, id, rfl, hnames, _, hmem, hadmin, hfound⟩
    obtain ⟨t, htarget⟩ := target_of_names hnames hfound
    obtain ⟨r, hr, rfl⟩ := List.mem_map.mp hmem
    obtain ⟨m, hm⟩ : ∃ m, w.db.findMiniverse r.id.str = some m :=
      Option.isSome_iff_exists.mp (List.find?_isSome.mpr ⟨r, hr, decide_eq_true rfl⟩)
    refine ⟨decide_eq_false ?_, t, htarget, m, hm, rfl⟩
    exact Role.not_lt.mpr (Role.admin_le.mpr ((Database.rights_role hfind r.id).symm.trans hadmin))

/-! ## Requests -/

/-- A request is answered where its user is admitted and the handler answers. -/
theorem authenticated_iff {l : Live α} {handler : User → Eff (Live α) PyError β} {permitted : Rights String Uuid4 → Prop}
    (hsound : l.world.db.Sound)
    (hhandler : ∀ u w, SignIn l.world.db token (.ok u) w.db → w.db.Sound → w.db.findUser token.sub = some u → u.is_active = true →
      ((handler u { l with world := w }).1.isOk = true ↔ permitted w.db.rights)) :
    (authenticated env token handler l).1.isOk = true ↔
      ∃ r, l.world.db.rights.Admits (l.world.db.weight token.sub) (l.world.db.weight token.preferred_username) r ∧ permitted r := by
  rcases hrun : retrieve_user_handler env token l.world with ⟨e | u, w⟩
  · have hzoom : onWorld (retrieve_user_handler env token) l = (.error e, { l with world := w }) := by
      rw [onWorld, Eff.zoom, hrun]
    rw [authenticated, Eff.bind_run_error hzoom]
    refine iff_of_false Bool.false_ne_true ?_
    rintro ⟨r, hadmits, _⟩
    obtain ⟨u, w', hok⟩ := retrieve_of_admits hcommit hsound.users hadmits
    rw [hrun] at hok
    cases hok
  · have hzoom : onWorld (retrieve_user_handler env token) l = (.ok u, { l with world := w }) := by
      rw [onWorld, Eff.zoom, hrun]
    have hsign : SignIn l.world.db token (.ok u) w.db := by
      have h := retrieve_user_handler_signIn env token l.world
      rwa [hrun] at h
    obtain ⟨hmem, hid, hactive⟩ := login_user hsign.login
    rw [← login_weight hsign.login] at hid
    have hsound' := hsign.sound hsound
    have hadmits := admits_of_retrieve hsound hrun
    rw [authenticated, Eff.bind_run_ok hzoom, hhandler u w hsign hsound' (findUser_of_weight hsound'.users hmem hid) hactive]
    constructor
    · exact fun h => ⟨_, hadmits, h⟩
    · rintro ⟨_, hother, h⟩
      exact hother.unique hadmits ▸ h

/-- A request about users or roles is answered where the policy grants it. -/
theorem granted_iff (sur : Surroundings env.toPlatform) {l : Live α} {a : Arrival} {granted : Rights String Uuid4 → Prop}
    (h : a.GrantedWhen l.world.db.weight granted) (hspells : a.SpellsOwn l.world.db) (hsound : l.world.db.Sound) :
    (a.handle sur l).1.isOk = true ↔ granted l.world.db.rights := by
  generalize hweight : l.world.db.weight = weight at h
  cases h with
  | users token route =>
      subst hweight
      refine authenticated_iff hcommit hsound fun u w hsign hsound' hfind hactive => (isOk_bind_pure _ _ _).trans ?_
      have hspells' := hsign.spellsOwn hsound.users rfl hspells
      exact login_weight hsign.login ▸ users_route_iff hcommit hsound'.users hfind hactive hspells'
  | set_user_role token miniverse_id user_id_or_name role =>
      subst hweight
      refine authenticated_iff hcommit hsound fun u w hsign hsound' hfind hactive => (isOk_bind_pure _ _ _).trans ?_
      exact login_weight hsign.login ▸ set_user_role_iff hcommit hsound' hfind hactive miniverse_id user_id_or_name role

end Commits

end Backend
