import Miniverse.Access.Lemmas.Changes

/-!
# Events are never taken back

Whatever arrives, the events that were published stay, in their order.
-/

namespace Backend

open Lib

variable {α β : Type} {env : Env α} {u : User}

def EventsKept (w w' : World α) : Prop := w.events <+: w'.events

instance : Calm (EventsKept (α := α)) where
  refl _ := List.prefix_refl _
  trans _ _ _ h₁ h₂ := h₁.trans h₂
  tick _ _ := List.prefix_refl _
  events _ _ := List.prefix_append _ _
  containers _ _ := List.prefix_refl _

theorem eventsKept_commit (f : Database → Database) : (commit env f).Within EventsKept := within_commit fun _ => List.prefix_refl _

theorem eventsKept_onDisk (f : Fs α β) : (onDisk f : Act α β).Within EventsKept := fun _ => List.prefix_refl _

theorem eventsKept_object (id : Uuid4) : AllowsObject (EventsKept (α := α)) id fun _ => True where
  save _ _ := List.prefix_refl _
  control _ _ := List.prefix_refl _
  state _ _ _ := trivial

theorem eventsKept_data (env : Env α) (id : Uuid4) : AllowsData env EventsKept id fun _ => True where
  mkdirs := eventsKept_onDisk _
  write _ _ _ := eventsKept_onDisk _
  unlink _ _ := eventsKept_onDisk _
  answers _ _ := trivial
  rows h := h fun _ _ => trivial
  save_mod _ _ _ _ _ := List.prefix_refl _
  add_mod _ _ _ := List.prefix_refl _
  mkdirs_below _ _ := eventsKept_onDisk _
  write_below _ _ _ := eventsKept_onDisk _

theorem eventsKept_proxy (env : Env α) : (update_proxy_config env).Within EventsKept := within_update_proxy_config eventsKept_onDisk

theorem eventsKept_byRole (env : Env α) (u : User) : AllowsByRole env EventsKept u (fun _ => True) fun _ => True where
  used _ _ h := h ⟨eventsKept_object _, eventsKept_data env _, trivial⟩
  moderated _ h := h (eventsKept_data env _).toAllowsMods fun _ _ => List.prefix_refl _
  administered _ _ h := h fun _ => within_update_object (eventsKept_object _) (eventsKept_data env _) (eventsKept_proxy env) trivial
    fun _ _ _ _ => trivial
  given _ _ _ _ := List.prefix_refl _

/-! ## Routes of the miniverses -/

theorem eventsKept_create (data : MiniverseCreate) (creator : User) : (create_miniverse env data creator).Within EventsKept := by
  refine (within_ask _).bind fun id => (within_ask _).bind fun secret => (Eff.Within.getOr _ _).bind fun subdomain => ?_
  refine Eff.Within.bind ((within_query _).bind fun _ => (Eff.Within.raiseIf _ _).bind fun _ => eventsKept_commit _) fun _ => ?_
  refine (eventsKept_commit _).bind fun _ => within_set_up (eventsKept_proxy env) (fun w cs => ?_) (eventsKept_object _)
    (eventsKept_data env _) trivial
  exact List.prefix_refl _

theorem eventsKept_delete (m : Miniverse) : (delete_miniverse env m).Within EventsKept := by
  refine (within_remove_miniverse fun w => List.prefix_refl _).bind fun _ => ?_
  refine (Eff.Within.elim (Eff.Within.pure _) fun _ _ => within_remove_container _).bind fun _ => ?_
  refine (eventsKept_onDisk _).bind fun _ => (within_query _).bind fun users_roles => (eventsKept_commit _).bind fun _ => ?_
  exact within_finish_delete (eventsKept_proxy env) m.id users_roles

theorem eventsKept_route (route : MiniversesRoute) : (route.handle env u).Within EventsKept := by
  refine within_route_by_role (eventsKept_byRole env u) (fun data heq => ?_) fun miniverse_id heq => ?_
  · subst heq
    exact (Eff.Within.raiseIf _ _).bind fun _ => (eventsKept_create data u).bind fun _ => Eff.Within.pure _
  · subst heq
    exact within_guarded_by (P := fun _ => True) (fun _ _ h => h trivial)
      fun m _ => (eventsKept_delete m).bind fun _ => Eff.Within.pure _

/-! ## Users -/

theorem eventsKept_saveUsername (user_id username : String) (f : Database → Database) :
    (saveUsername env user_id username f).Within EventsKept :=
  (within_query _).bind fun _ => (Eff.Within.raiseIf _ _).bind fun _ => eventsKept_commit f

theorem eventsKept_login (token : Token) : (retrieve_user_handler env token).Within EventsKept := by
  refine (within_query _).bind fun found => Eff.Within.bind (Eff.Within.elim ?_ fun u _ => Eff.Within.pure _) fun u => ?_
  · exact (within_query _).bind fun _ => (eventsKept_saveUsername _ _ _).bind fun _ => Eff.Within.pure _
  · exact (Eff.Within.raiseIf _ _).bind fun _ => Eff.Within.ite ((eventsKept_saveUsername _ _ _).bind fun _ => Eff.Within.pure _)
      (Eff.Within.pure _)

theorem eventsKept_users (route : UsersRoute) : (route.handle env u).Within EventsKept := by
  cases route with
  | get_me => exact Eff.Within.pure _
  | delete_me => exact (within_query _).bind fun _ => (Eff.Within.raiseIf _ _).bind fun _ => eventsKept_commit _
  | delete_user user_id => exact (Eff.Within.raiseIf _ _).bind fun _ => (Eff.Within.raiseIf _ _).bind fun _ => eventsKept_commit _
  | set_user_role user_id role =>
      refine (Eff.Within.raiseIf _ _).bind fun _ => (within_query _).bind fun _ => (Eff.Within.raiseIf _ _).bind fun _ => ?_
      exact (within_query _).bind fun _ => (Eff.Within.getOr _ _).bind fun _ => eventsKept_commit _
  | accept_user_request user_id =>
      exact (Eff.Within.raiseIf _ _).bind fun _ => (within_query _).bind fun _ => (Eff.Within.getOr _ _).bind fun _ =>
        eventsKept_commit _
  | reject_user_request user_id => exact (Eff.Within.raiseIf _ _).bind fun _ => eventsKept_commit _

/-! ## All that arrives -/

theorem eventsKept_authenticated {token : Token} {handler : User → Eff (Live α) PyError β} {l : Live α}
    (h : ∀ u (l : Live α), EventsKept l.world (handler u l).2.world) : EventsKept l.world (authenticated env token handler l).2.world := by
  have hlogin : EventsKept l.world (retrieve_user_handler env token l.world).2 := eventsKept_login token l.world
  rw [authenticated, Eff.bind_run, onWorld, Eff.zoom]
  rcases hrun : retrieve_user_handler env token l.world with ⟨e | u, w⟩
  · rw [hrun] at hlogin
    exact hlogin
  · rw [hrun] at hlogin
    exact hlogin.trans (h u { l with world := w })

/-- The world after a request of the updates is that of its first part. -/
theorem open_updates_state (sur : Surroundings env.toPlatform) (u : User) (l : Live α) :
    (ServiceRequest.handle sur u .open_updates l).2.world = (websocket_miniverse_updates_handler sur u.id l.world).2 := by
  rw [ServiceRequest.handle, Eff.bind_run, ← onWorld_state]
  rcases onWorld (websocket_miniverse_updates_handler sur u.id) l with ⟨_ | data, l'⟩
  · rfl
  · rfl

theorem eventsKept_arrival (sur : Surroundings env.toPlatform) (a : Arrival) (l : Live α) :
    EventsKept l.world (a.handle sur l).2.world := by
  cases a with
  | users token route =>
      refine eventsKept_authenticated fun u l => ?_
      rw [onWorld_state, Eff.bind_pure_state]
      exact eventsKept_users route l.world
  | miniverses token route =>
      refine eventsKept_authenticated fun u l => ?_
      rw [ServiceRequest.handle, onWorld_state, Eff.bind_pure_state]
      exact eventsKept_route route l.world
  | files token route =>
      refine eventsKept_authenticated fun u l => ?_
      rw [ServiceRequest.handle, onWorld_state, Eff.bind_pure_state]
      exact within_files eventsKept_onDisk sur.toFilesServer route l.world
  | open_updates token =>
      refine eventsKept_authenticated fun u l => ?_
      rw [open_updates_state]
      exact within_updates_handler sur u.id l.world
  | open_logs token miniverse_id chunks inputs =>
      exact eventsKept_authenticated fun u l => within_logs (fun _ _ => List.prefix_refl _) sur.logs miniverse_id chunks inputs l.world
  | next_event session => exact List.prefix_refl _
  | receive_text session => exact List.prefix_refl _
  | receive_webhook data =>
      rw [Arrival.handle, onWorld_state, Eff.bind_pure_state]
      exact within_webhook (fun _ _ _ => List.prefix_refl _) data l.world

end Backend
