import Miniverse.Access.Service
import Miniverse.Isolation.Lemmas.Requests
import Miniverse.Users.Lemmas.Admins

/-!
# What an arrival does to the rows

A login may write a row of the users, and after it only the routes of the users and of the miniverses write rows.
-/

namespace Backend

open Lib

variable {α β : Type} {env : Env α} {u : User}

/-- A login, which writes a name only where no other user has it. -/
structure SignIn (db : Database) (token : Token) (r : Except PyError User) (db' : Database) : Prop where
  login : Login db token r db'
  free : db' = db ∨ ∀ v ∈ db.users, db.weight v.username = db.weight token.preferred_username → db.weight v.id = db.weight token.sub

/-- What an arrival does to the database. -/
inductive RowChange (env : Env α) (db : Database) : Arrival → Database → Prop
  | idle {a : Arrival} : a.token = none → RowChange env db a db
  | login {a : Arrival} {token r db'} : a.token = some token → SignIn db token r db' → RowChange env db a db'
  | users {token u db₁ route db'} : SignIn db token (.ok u) db₁ → RouteChange u db₁ route db' →
      RowChange env db (.users token route) db'
  | miniverses {token u} {w : World α} {route} : SignIn db token (.ok u) w.db →
      RowChange env db (.miniverses token route) (route.handle env u w).2.db

/-! ## Logins -/

theorem saveUsername_free {user_id username : String} {f : Database → Database} {w w' : World α} {a : Unit}
    (h : saveUsername env user_id username f w = (.ok a, w')) :
    ∀ v ∈ w.db.users, w.db.weight v.username = w.db.weight username → w.db.weight v.id = w.db.weight user_id := by
  rw [saveUsername, query, Eff.read_bind_run] at h
  intro v hv hname
  by_contra hne
  have htaken : (w.db.users.any fun u =>
      decide (w.db.weight u.username = w.db.weight username ∧ w.db.weight u.id ≠ w.db.weight user_id)) = true :=
    List.any_eq_true.mpr ⟨v, hv, decide_eq_true ⟨hname, hne⟩⟩
  rw [htaken] at h
  cases h

theorem retrieve_user_handler_free (env : Env α) (token : Token) (w : World α) :
    (retrieve_user_handler env token w).2.db = w.db ∨
      ∀ v ∈ w.db.users, w.db.weight v.username = w.db.weight token.preferred_username →
        w.db.weight v.id = w.db.weight token.sub := by
  unfold retrieve_user_handler
  rw [query, Eff.read_bind_run]
  cases hfind : w.db.findUser token.sub with
  | none =>
      rw [Option.elim_none]
      rcases create_user_cases env token.sub token.preferred_username w with ⟨e, w', h, hdb⟩ | ⟨w', h, _⟩
      · rw [Eff.bind_run_error h]
        exact Or.inl hdb
      · rw [create_user, query, Eff.read_bind_run] at h
        obtain ⟨_, _, hsave, _⟩ := Eff.bind_ok h
        exact Or.inr (saveUsername_free hsave)
  | some u =>
      rw [Option.elim_some, Eff.pure_bind_run]
      cases hactive : !u.is_active with
      | true => exact Or.inl rfl
      | false =>
          rw [Eff.raiseIf_false_bind]
          split
          · rcases saveUsername_cases env u.id token.preferred_username (·.saveUser { u with username := token.preferred_username })
                w with ⟨e, w', h, hdb⟩ | ⟨w', h, _⟩
            · rw [Eff.bind_run_error h]
              exact Or.inl hdb
            · exact Or.inr ((findUser_mem hfind).2 ▸ saveUsername_free h)
          · exact Or.inl rfl

theorem retrieve_user_handler_signIn (env : Env α) (token : Token) (w : World α) :
    SignIn w.db token (retrieve_user_handler env token w).1 (retrieve_user_handler env token w).2.db :=
  ⟨retrieve_user_handler_login env token w, retrieve_user_handler_free env token w⟩

/-! ## Handlers of files, logs and webhooks -/

section Handlers

variable {R : World α → World α → Prop} [Calm R]

theorem within_getMiniverse (miniverse_id : String) (missing : PyError) : (getMiniverse miniverse_id missing : Act α Miniverse).Within R :=
  (within_query _).bind fun _ => Eff.Within.getOr _ _

theorem within_withFiles {service : Uuid4 → Act α β} (h : ∀ id, (service id).Within R) (miniverse_id action : String) :
    (withFiles u miniverse_id action service).Within R :=
  (within_requireRole _ _ _).bind fun _ => (within_getMiniverse _ _).bind fun m => h m.id

theorem within_confirm_upload (hdisk : ∀ {γ : Type} (f : Fs α γ), (onDisk f : Act α γ).Within R) (data : HookRequest) :
    (confirm_upload env u data).Within R := by
  refine (Eff.Within.getOr _ _).bind fun upload => ?_
  cases data.type with
  | pre_create =>
      refine (Eff.Within.getOr _ _).bind fun _ => (Eff.Within.getOr _ _).bind fun _ => (within_query _).bind fun _ => ?_
      exact (Eff.Within.pure _).ite ((Eff.Within.getOr _ _).bind fun _ => Eff.Within.pure _)
  | post_finish =>
      refine (Eff.Within.getOr _ _).bind fun _ => (Eff.Within.getOr _ _).bind fun _ => (Eff.Within.getOr _ _).bind fun _ =>
        (within_query _).bind fun _ => Eff.Within.ite ((hdisk _).bind fun _ => Eff.Within.pure _) ?_
      exact (Eff.Within.getOr _ _).bind fun _ => (Eff.Within.getOr _ _).bind fun _ => (within_getMiniverse _ _).bind fun _ =>
        (hdisk _).bind fun _ => Eff.Within.pure _

/-- The routes of the files change no more than files. -/
theorem within_files (hdisk : ∀ {γ : Type} (f : Fs α γ), (onDisk f : Act α γ).Within R) (server : FilesServer env.toPlatform)
    (route : FilesRoute) : (route.handle server u).Within R := by
  have hservice {γ : Type} {service : Uuid4 → Fs α γ} {answer : γ → FilesReply α} (miniverse_id action : String) :
      (withFiles u miniverse_id action fun id => do
        return answer (← onDisk (service id))).Within R :=
    within_withFiles (fun _ => (hdisk _).bind fun _ => Eff.Within.pure _) _ _
  cases route with
  | list_miniverse_files miniverse_id path =>
      rw [FilesRoute.handle]
      exact within_withFiles (fun _ => (Eff.Within.read _).bind fun _ => (hdisk _).bind fun _ => Eff.Within.pure _) _ _
  | delete_miniverse_files miniverse_id paths =>
      rw [FilesRoute.handle]
      exact hservice _ _
  | copy_miniverse_files miniverse_id paths destination =>
      rw [FilesRoute.handle]
      exact hservice _ _
  | download_files miniverse_id paths =>
      rw [FilesRoute.handle]
      exact hservice _ _
  | confirm_upload data => exact within_confirm_upload hdisk data
  | extract_miniverse_archive miniverse_id path =>
      rw [FilesRoute.handle]
      exact hservice _ _
  | compress_miniverse_files miniverse_id paths =>
      rw [FilesRoute.handle]
      exact hservice _ _
  | rename_miniverse_file miniverse_id path new_name =>
      rw [FilesRoute.handle]
      exact hservice _ _
  | get_file_content miniverse_id path =>
      rw [FilesRoute.handle]
      exact hservice _ _
  | set_file_content miniverse_id path data =>
      rw [FilesRoute.handle]
      exact (within_requireRole _ _ _).bind fun _ => (within_query _).bind fun _ => (Eff.Within.ofExcept _).bind fun _ =>
        (Eff.Within.getOr _ _).bind fun _ => (hdisk _).bind fun _ => Eff.Within.pure _

theorem within_command (hcommands : ∀ (w : World α) cs, R w { w with commands := cs }) (container_id command : String) :
    (send_command_to_container env container_id command).Within R :=
  (within_getContainer _).bind fun _ => (within_ask _).bind fun _ => Eff.Within.modify fun w => hcommands w _

theorem within_logs (hcommands : ∀ (w : World α) cs, R w { w with commands := cs }) (logs : Nat → String → List String)
    (miniverse_id : String) (chunks : Nat) (inputs : List String) :
    (websocket_miniverse_logs_handler env logs miniverse_id chunks inputs).Within R := by
  refine (within_getMiniverse _ _).bind fun m => Eff.Within.elim (Eff.Within.pure _) fun container_id _ =>
    (Eff.Within.read _).bind fun _ => Eff.Within.bind ?_ fun _ => Eff.Within.pure _
  refine Eff.Within.attempt (Eff.Within.bind ?_ fun _ => Eff.Within.pure _) fun _ => Eff.Within.pure _
  exact Eff.Within.forM fun input _ => within_command hcommands container_id input

theorem within_webhook (hcontrol : ∀ (w : World α) (id : Uuid4) c, R w (w.setController id c)) (data : WebhookPayload) :
    (handle_mc_router_webhook env data).Within R := by
  refine Eff.Within.read_bind fun w => ?_
  rcases w.service data.target_id with _ | ⟨id, _ | players⟩
  · exact Std.Refl.refl w
  · exact Std.Refl.refl w
  · unfold process_webhook
    cases data.player with
    | none => exact Std.Refl.refl w
    | some player =>
        refine (Eff.Within.getOr _ _).bind (fun _ => (Eff.Within.getOr _ _).bind fun _ => ?_) w
        exact (Eff.Within.modify fun w => hcontrol w id _).bind fun _ => (within_ask _).bind fun _ => Eff.Within.pure _

end Handlers

/-- Setting a role is about the table of the roles only. -/
theorem setRole_others (db : Database) (role : MiniverseUserRole) :
    (db.setRole role).users = db.users ∧ (db.setRole role).miniverses = db.miniverses ∧ (db.setRole role).mods = db.mods ∧
      (db.setRole role).weight = db.weight := by
  rcases db.setRole_cases role with ⟨_, hset⟩ | ⟨_, _, hset⟩ | ⟨_, _, hset⟩ <;> exact hset ▸ ⟨rfl, rfl, rfl, rfl⟩

/-! ## Arrivals -/

/-- A request that is let in, or not. -/
theorem authenticated_cases (env : Env α) (token : Token) (handler : User → Eff (Live α) PyError β) (l : Live α) :
    ∃ w, (∃ e, SignIn l.world.db token (.error e) w.db ∧ retrieve_user_handler env token l.world = (.error e, w) ∧
        authenticated env token handler l = (.error e, { l with world := w })) ∨
      ∃ u, SignIn l.world.db token (.ok u) w.db ∧ authenticated env token handler l = handler u { l with world := w } := by
  have hlogin := retrieve_user_handler_signIn env token l.world
  rcases hrun : retrieve_user_handler env token l.world with ⟨e | u, w⟩
  · rw [hrun] at hlogin
    have hzoom : onWorld (retrieve_user_handler env token) l = (.error e, { l with world := w }) := by
      rw [onWorld, Eff.zoom, hrun]
    exact ⟨w, Or.inl ⟨e, hlogin, rfl, Eff.bind_run_error hzoom _⟩⟩
  · rw [hrun] at hlogin
    have hzoom : onWorld (retrieve_user_handler env token) l = (.ok u, { l with world := w }) := by
      rw [onWorld, Eff.zoom, hrun]
    exact ⟨w, Or.inr ⟨u, hlogin, Eff.bind_run_ok hzoom _⟩⟩

/-- The handler of a request that writes no rows leaves what the login wrote. -/
theorem RowChange.ofLogin {a : Arrival} {token : Token} {handler : User → Eff (Live α) PyError β} {l : Live α}
    (htoken : a.token = some token) (hsame : ∀ u l, (handler u l).2.world.db = l.world.db) :
    RowChange env l.world.db a (authenticated env token handler l).2.world.db := by
  obtain ⟨w, ⟨e, hlogin, _, hrun⟩ | ⟨u, hlogin, hrun⟩⟩ := authenticated_cases env token handler l
  · rw [hrun]
    exact .login htoken hlogin
  · rw [hrun, hsame]
    exact .login htoken hlogin

theorem onWorld_state (m : Act α β) (l : Live α) : (onWorld m l).2.world = (m l.world).2 := rfl

theorem Arrival.rowChange (sur : Surroundings env.toPlatform) (a : Arrival) (l : Live α) :
    RowChange env l.world.db a (a.handle sur l).2.world.db := by
  cases a with
  | users token route =>
      obtain ⟨w, ⟨e, hlogin, _, hrun⟩ | ⟨u, hlogin, hrun⟩⟩ := authenticated_cases env token (fun current_user => onWorld do
        route.handle env current_user
        return (ServiceReply.miniverses .empty : ServiceReply α)) l
      · rw [Arrival.handle, hrun]
        exact .login rfl hlogin
      · rw [Arrival.handle, hrun, onWorld_state, Eff.bind_pure_state]
        rcases handle_db u route w with hsame | hchange
        · rw [hsame]
          exact .login rfl hlogin
        · exact .users hlogin hchange
  | miniverses token route =>
      obtain ⟨w, ⟨e, hlogin, _, hrun⟩ | ⟨u, hlogin, hrun⟩⟩ := authenticated_cases env token (ServiceRequest.handle sur · (.miniverses route)) l
      · rw [Arrival.handle, hrun]
        exact .login rfl hlogin
      · rw [Arrival.handle, hrun, ServiceRequest.handle, onWorld_state, Eff.bind_pure_state]
        exact .miniverses hlogin
  | files token route =>
      refine RowChange.ofLogin rfl fun u l => ?_
      rw [ServiceRequest.handle, onWorld_state, Eff.bind_pure_state]
      exact within_files (R := Same World.db) (fun _ _ => rfl) sur.toFilesServer route l.world
  | open_updates token =>
      refine RowChange.ofLogin rfl fun u l => ?_
      have hdata := within_updates_handler (R := Same World.db) sur u.id l.world
      rw [ServiceRequest.handle, Eff.bind_run]
      rcases hrun : onWorld (websocket_miniverse_updates_handler sur u.id) l with ⟨_ | data, l'⟩
      · exact (congrArg (·.2.world.db) hrun).symm.trans hdata
      · exact (congrArg (·.2.world.db) hrun).symm.trans hdata
  | open_logs token miniverse_id chunks inputs =>
      exact RowChange.ofLogin rfl fun u l =>
        within_logs (R := Same World.db) (fun _ _ => rfl) sur.logs miniverse_id chunks inputs l.world
  | next_event session => exact .idle rfl
  | receive_text session => exact .idle rfl
  | receive_webhook data =>
      have hrun : (Arrival.handle sur (.receive_webhook data) l).2.world.db = l.world.db := by
        rw [Arrival.handle, onWorld_state, Eff.bind_pure_state]
        exact within_webhook (R := Same World.db) (fun _ _ _ => rfl) data l.world
      rw [hrun]
      exact .idle rfl

end Backend
