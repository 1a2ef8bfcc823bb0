import Miniverse.Access.Theorems
import Miniverse.Calls.Theorems
import Miniverse.Startup.Lemmas.Jars
import Miniverse.Startup.Lemmas.Rows

/-!
# Theorems about the startup
-/

namespace Backend

open Lib

variable {α : Type} {env : Env α} {w w' : World α}

/-- What the startup restores from the tables: the routes, a controller for each row and a running server for each row that
says so. Nothing else of the tables changes. -/
structure Restored (env : Env α) (w w' : World α) : Prop where
  routes : InStep env w'
  controllers : Attended w.db.miniverses w'.controllers
  rows : List.Forall₂ (Resumed w') w.db.miniverses w'.db.miniverses
  users : w'.db.users = w.db.users
  user_roles : w'.db.user_roles = w.db.user_roles
  servers : ServersKept w w'
  router : (∃ c ∈ w.containers, "miniverse-router".toList <:+: c.name.toList) ∨
    ∃ c ∈ w'.containers, "miniverse-router".toList <:+: c.name.toList ∧ c.running = true

theorem Resumed.address {m m' : Miniverse} (h : Resumed w m m') : (m'.id, m'.subdomain) = (m.id, m.subdomain) := by
  rw [h.row]

theorem addresses_resumed {ms ms' : List Miniverse} (h : List.Forall₂ (Resumed w) ms ms') :
    ms'.map (fun r => (r.id, r.subdomain)) = ms.map fun r => (r.id, r.subdomain) := by
  induction h with
  | nil => rfl
  | cons hrow _ ih => rw [List.map_cons, List.map_cons, hrow.address, ih]

/-- A startup that returns restores what the tables say, when nothing runs in this process yet. -/
theorem startup_restores (hkey : (w.db.miniverses.map Miniverse.id).Nodup) (hjars : ∀ r ∈ w.db.mods, IsJar r.file_name)
    (hempty : w.controllers = []) (h : startup env w = (.ok (), w')) : Restored env w w' := by
  obtain ⟨_, w₁, hproxy, h⟩ := Eff.bind_ok h
  obtain ⟨hstep₁, hdb₁, hcontrollers₁, hcontainers₁⟩ := proxy_startup_returned hproxy
  obtain ⟨_, w₂, hmanager, hdocker⟩ := Eff.bind_ok h
  obtain ⟨hregistering, hattended⟩ := manager_startup_returned (hdb₁ ▸ hkey) (hcontrollers₁.trans hempty) hmanager
  have hdb₂ : w₂.db = w.db := by rw [hregistering, hdb₁]
  have hcontainers₂ : w₂.containers = w.containers := by rw [hregistering, hcontainers₁]
  have hkept : RoutesKept env w₂ w' := Eff.Within.of_run hdocker (routesKept_docker_startup env)
  obtain ⟨_, w₃, hrouter, hrows⟩ := Eff.bind_ok hdocker
  obtain ⟨hdb₃, hcontrollers₃, hservers₃, hrunning⟩ := start_proxy_containers_returned hrouter
  rw [query, Eff.read_bind_run] at hrows
  have hstarting := start_rows_returned (hdb₃ ▸ hdb₂ ▸ hkey) (by rw [hdb₃, hdb₂, hcontrollers₃, ← hdb₁]; exact hattended) hrows
  have hrowsDb : w₃.db = w.db := hdb₃.trans hdb₂
  have hresumed := hstarting.resumed
  rw [hrowsDb] at hresumed
  have hservers : ServersKept w w' := ((ServersKept.of_eq hcontainers₂).trans hservers₃).trans hstarting.servers
  refine ⟨?_, hrowsDb ▸ hstarting.attended, hresumed, ?_, ?_, hservers, ?_⟩
  · have hstep₂ : InStep env w₂ := hstep₁.of_same (by rw [hregistering]) (by rw [hregistering])
    refine hstep₂.of_same ?_ (hkept (hdb₂ ▸ hjars)).2
    rw [hdb₂]
    exact addresses_resumed hresumed
  · rw [hstarting.users, hrowsDb]
  · rw [hstarting.user_roles, hrowsDb]
  · rcases hrunning with ⟨c, hc, hname⟩ | ⟨c, hc, hname, hrun⟩
    · exact Or.inl ⟨c, hcontainers₂ ▸ hc, hname⟩
    · rcases hstarting.servers c hc with hc | hc
      · exact Or.inr ⟨c, hc, hname ▸ List.infix_refl _, hrun⟩
      · exact Or.inr ⟨_, hc, hname ▸ List.infix_refl _, rfl⟩

/-! ## Restarts -/

/-- The tables are as the startup needs them. -/
structure Restartable (w : World α) : Prop where
  sound : w.db.Sound
  jars : w.db.Jars

/-- The startup is within a relation that allows its starts of the rows that there are. -/
theorem within_startup {R : World α → World α → Prop} [Calm R] (hdisk : ∀ {β : Type} (f : Fs α β), (onDisk f : Act α β).Within R)
    (hcontrollers : ∀ (w : World α) (cs : List (Uuid4 × Controller)), R w { w with controllers := cs })
    (hobject : ∀ id, AllowsObject R id fun _ => True)
    (hdata : ∀ {w w' : World α} (ms : List Miniverse), ms = w.db.miniverses →
      ((∀ m ∈ ms, ∃ Safe, AllowsData env R m.id Safe) → R w w') → R w w') : (startup env).Within R := by
  refine Eff.Within.bind (within_update_proxy_config hdisk) fun _ => Eff.Within.bind ?_ fun _ => ?_
  · refine (within_query _).bind fun ms => Eff.Within.forM fun m _ => ?_
    exact (within_add_miniverse hcontrollers m).bind fun _ => Eff.Within.when fun _ => within_startController (hobject m.id)
  · refine within_start_proxy_containers.bind fun _ => Eff.Within.read_bind fun w => hdata w.db.miniverses rfl fun h => ?_
    refine Eff.Within.forM (fun m hm => Eff.Within.when fun _ => ?_) w
    obtain ⟨_, hdata⟩ := h m hm
    exact (within_start_object (hobject m.id) (within_init_data_path hdata) trivial).bind fun _ => Eff.Within.pure _

theorem startup_restartable (h : Restartable w) : Restartable (startup env w).2 where
  sound := (within_startup (R := Eff.Keeping (SoundAt (w.db.miniverses.map Miniverse.id))) soundAt_onDisk (fun _ _ h => h) soundAt_object
    (fun _ hms hr h => hr (fun _ hm => ⟨_, soundAt_data env (h.2 ▸ hms ▸ List.mem_map_of_mem hm)⟩) h) w ⟨h.sound, rfl⟩).1
  jars := within_startup (R := Eff.Keeping fun w : World α => w.db.Jars) jars_onDisk (fun _ _ h => h) jars_object
    (fun _ _ hr h => hr (fun _ _ => ⟨_, jars_data env _⟩) h) w h.jars

theorem ServiceTurn.restartable (sur : Surroundings env.toPlatform) (l : Live α) (t : ServiceTurn) (h : Restartable l.world) :
    Restartable (t.handle sur l).2.world := by
  cases t with
  | arrives a =>
      have hchange := a.rowChange sur l
      rw [ServiceTurn.handle, Eff.bind_pure_state]
      exact ⟨hchange.sound h.sound, hchange.jars h.jars⟩
  | restarts => exact startup_restartable (w := l.ended.world) ⟨h.sound, h.jars⟩

/-- Whatever arrives, and whenever the process ends, a restart that returns restores what the tables say. -/
theorem restarts_restore (sur : Surroundings env.toPlatform) {turns : List ServiceTurn} {l : Live α} (h : Restartable l.world) :
    Meets (ServiceTurn.handle sur) (fun l t => t = .restarts → ∀ l', t.handle sur l = (.ok (), l') → Restored env l.ended.world l'.world)
      turns l := by
  have hmeets : Meets (ServiceTurn.handle sur) (fun _ _ => True) turns l := meets_of_forall (fun _ _ => trivial) _ _
  refine (hmeets.always (I := fun l => Restartable l.world) (fun l t _ => t.restartable sur l) h).mono fun l t hl ht l' hrun => ?_
  subst ht
  obtain ⟨hresult, rfl⟩ := Prod.mk.inj hrun
  exact startup_restores (w := l.ended.world) hl.2.sound.miniverses hl.2.jars rfl (Prod.ext hresult rfl)

/-- One row that is to run, with its directory, and one that is not. -/
def sampleSwitchedOff : World String where
  db := ⟨[], [{ sampleMiniverse with started := true }, { sampleMiniverse with id := sampleIdE }], [], [], sampleWeight⟩
  disk := ⟨⟨[([], .dir), (["srv"], .dir), (["srv", "proxy"], .dir), (["srv", "miniverses"], .dir),
    (["srv", "miniverses", sampleId.str], .dir), (["srv", "miniverses", sampleId.str, "data"], .dir)], by decide, by decide, by decide, by decide⟩, []⟩
  controllers := []
  containers := []
  commands := []
  events := []
  tick := 0

theorem restartable_sampleSwitchedOff : Restartable sampleSwitchedOff where
  sound :=
    { users := List.nodup_nil
      usernames := List.nodup_nil
      miniverses := by decide
      roles := ⟨List.nodup_nil, nofun, nofun⟩
      holders := nofun
      mods := List.nodup_nil
      rooted := nofun }
  jars := nofun

theorem restarts_restore_sample : Restored (sampleCdn []) sampleSwitchedOff (startup (sampleCdn []) sampleSwitchedOff).2 := by
  obtain ⟨_, w', h⟩ : Succeeds (startup (sampleCdn [])) sampleSwitchedOff := succeeds_of_isOk (by decide +kernel)
  have hmeets : Meets (ServiceTurn.handle (sampleSurroundings "line")) (fun l t => t = .restarts → ∀ l',
      t.handle (sampleSurroundings "line") l = (.ok (), l') → Restored (sampleCdn []) l.ended.world l'.world) [.restarts]
      ⟨sampleSwitchedOff, []⟩ := restarts_restore (sampleSurroundings "line") restartable_sampleSwitchedOff
  rw [h]
  exact hmeets.1 rfl ⟨w', []⟩ (congrArg (fun r => (r.1, (⟨r.2, []⟩ : Live String))) h)

end Backend
