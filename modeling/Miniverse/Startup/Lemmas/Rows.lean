import Miniverse.Calls.Lemmas.RoutesFile
import Miniverse.Startup.Lemmas.Registry

/-!
# The rows and the routes after the startup
-/

namespace Backend

open Lib

variable {α : Type} {env : Env α} {w w' : World α} {m m' : Miniverse}

/-! ## Rows -/

/-- A row after the startup: only its container may be another one, and a row that says so has a running container. -/
structure Resumed (w : World α) (m m' : Miniverse) : Prop where
  row : m' = { m with container_id := m'.container_id }
  stopped : m.started = false → m' = m
  started : m.started = true → ∃ container_id, m'.container_id = some container_id ∧ Serves w container_id (container_name_of m.id)

/-- The same while the startup is under way, where only the given rows were handled. -/
structure Resuming (done : List Miniverse) (w : World α) (m m' : Miniverse) : Prop where
  row : m' = { m with container_id := m'.container_id }
  stopped : m.started = false → m' = m
  started : m ∈ done → m.started = true →
    ∃ container_id, m'.container_id = some container_id ∧ Serves w container_id (container_name_of m.id)

theorem Resuming.id_eq {done : List Miniverse} (h : Resuming done w m m') : m'.id = m.id := by rw [h.row]

theorem resuming_refl (w : World α) (ms : List Miniverse) : List.Forall₂ (Resuming [] w) ms ms :=
  List.forall₂_same.mpr fun _ _ => ⟨rfl, fun _ => rfl, nofun⟩

/-- A row that is not to run is handled without a step. -/
theorem Resuming.skip {done : List Miniverse} {r r' : Miniverse} (h : Resuming done w r r') (hstarted : m.started = false) :
    Resuming (done ++ [m]) w r r' := by
  refine ⟨h.row, h.stopped, fun hmem hrun => ?_⟩
  rcases List.mem_append.mp hmem with hmem | hmem
  · exact h.started hmem hrun
  · rw [List.mem_singleton.mp hmem, hstarted] at hrun
    cases hrun

theorem Resuming.other {done : List Miniverse} {r r' : Miniverse} (h : Resuming done w r r') (hne : r ≠ m)
    (hservers : ServersKept w w') : Resuming (done ++ [m]) w' r r' := by
  refine ⟨h.row, h.stopped, fun hmem hrun => ?_⟩
  obtain ⟨container_id, hid, hserves⟩ := h.started ((List.mem_append.mp hmem).resolve_right fun hm => hne (List.mem_singleton.mp hm)) hrun
  exact ⟨container_id, hid, hserves.kept hservers⟩

/-- The start of one of the rows. -/
theorem resuming_start {ms done : List Miniverse} (hkey : (ms.map Miniverse.id).Nodup) (hm : m ∈ ms) (hstarted : m.started = true)
    {r : Miniverse × Container} (hreturned : StartReturned m r w w') (h : List.Forall₂ (Resuming done w) ms w.db.miniverses) :
    List.Forall₂ (Resuming (done ++ [m]) w') ms w'.db.miniverses := by
  have hobject : r.1 = { m with container_id := some r.2.id } := by rw [hreturned.object, ← hstarted]
  rw [hreturned.rows]
  refine List.forall₂_map_right_iff.mpr (((List.forall₂_and_left _ _).mpr ⟨fun _ hr => hr, h⟩).imp fun x x' hpair => ?_)
  obtain ⟨hx, hpair⟩ := hpair
  have hid : r.1.id = m.id := by rw [hobject]
  by_cases hown : x'.id = r.1.id
  · rw [if_pos hown]
    obtain rfl : x = m := List.inj_on_of_nodup_map hkey hx hm (hpair.id_eq.symm.trans (hown.trans hid))
    refine ⟨?_, fun hstopped => ?_, fun _ _ => ⟨r.2.id, ?_, hreturned.serves⟩⟩
    · rw [hobject]
    · rw [hstarted] at hstopped
      cases hstopped
    · rw [hobject]
  · rw [if_neg hown]
    refine hpair.other (fun heq => hown ?_) hreturned.servers
    rw [hpair.id_eq, hid, heq]

/-! ## Starting the servers -/

/-- While the servers are started: the rows handled so far, and what stays as it was. -/
structure Starting (w : World α) (done : List Miniverse) (s : World α) : Prop where
  rows : List.Forall₂ (Resuming done s) w.db.miniverses s.db.miniverses
  users : s.db.users = w.db.users
  user_roles : s.db.user_roles = w.db.user_roles
  attended : Attended w.db.miniverses s.controllers
  servers : ServersKept w s

theorem starting_refl (hattended : Attended w.db.miniverses w.controllers) : Starting w [] w :=
  ⟨resuming_refl w _, rfl, rfl, hattended, .refl w⟩

theorem Starting.start {done : List Miniverse} {s s' : World α} (hkey : (w.db.miniverses.map Miniverse.id).Nodup)
    (hm : m ∈ w.db.miniverses) (hstarted : m.started = true) (h : Starting w done s) {r : Miniverse × Container}
    (hreturned : StartReturned m r s s') : Starting w (done ++ [m]) s' where
  rows := resuming_start hkey hm hstarted hreturned h.rows
  users := (congrArg Database.users hreturned.rows).trans h.users
  user_roles := (congrArg Database.user_roles hreturned.rows).trans h.user_roles
  attended := by
    rcases hreturned.controllers with hsame | ⟨k, c, hservice, hagain⟩
    · exact hsame ▸ h.attended
    · exact hagain ▸ h.attended.startAgain hkey hm hstarted hservice
  servers := h.servers.trans hreturned.servers

/-- All rows that are to run are started in turn. -/
theorem start_rows_returned (hkey : (w.db.miniverses.map Miniverse.id).Nodup) (hattended : Attended w.db.miniverses w.controllers)
    (h : (w.db.miniverses.forM fun miniverse => Eff.when miniverse.started do
      let _ ← start_miniverse env miniverse : Act α Unit) w = (.ok (), w')) : Starting w w.db.miniverses w' := by
  refine Eff.forM_returned (P := Starting w) (fun done m rest hms s s' hdone hs => ?_) (starting_refl hattended) h
  cases hstarted : m.started with
  | false =>
      rw [hstarted] at hs
      cases hs
      exact { hdone with rows := hdone.rows.imp fun _ _ hpair => hpair.skip hstarted }
  | true =>
      rw [hstarted] at hs
      obtain ⟨r, s₁, hstart, hs⟩ := Eff.bind_ok hs
      cases hs
      exact hdone.start hkey (hms ▸ List.mem_append_right _ List.mem_cons_self) hstarted (start_miniverse_returned hstart)

theorem Starting.resumed {s : World α} (h : Starting w w.db.miniverses s) :
    List.Forall₂ (Resumed s) w.db.miniverses s.db.miniverses :=
  ((List.forall₂_and_left _ _).mpr ⟨fun _ hr => hr, h.rows⟩).imp fun _ _ hpair =>
    ⟨hpair.2.row, hpair.2.stopped, hpair.2.started hpair.1⟩

/-! ## The router -/

theorem within_start_container_by_name {R : World α → World α → Prop} [Calm R] (name : String) :
    (start_container_by_name env name).Within R :=
  (within_ask _).bind fun _ => (Eff.Within.read _).bind fun _ => (Eff.Within.getOr _ _).bind fun _ => (within_ask _).bind fun _ =>
    Eff.Within.modify fun w => Calm.containers w _

theorem within_start_proxy_containers {R : World α → World α → Prop} [Calm R] : (start_proxy_containers env).Within R := by
  refine (within_get_container_by_name _).bind fun router => ?_
  cases router with
  | some c => exact Eff.Within.pure _
  | none => exact (within_create_container _ _ _).bind fun _ => within_start_container_by_name _

theorem start_container_by_name_returned {name : String} {a : Unit} (h : start_container_by_name env name w = (.ok a, w')) :
    ∃ c ∈ w.containers, c.name = name ∧
      w'.db = w.db ∧ w'.controllers = w.controllers ∧ w'.containers = withStarted c.id w.containers := by
  obtain ⟨_, w₁, hask, h⟩ := Eff.bind_ok h
  obtain rfl : w.next = w₁ := congrArg Prod.snd hask
  rw [Eff.read_bind_run] at h
  obtain ⟨c, w₂, hget, h⟩ := Eff.bind_ok h
  obtain ⟨hfind, rfl⟩ := Eff.getOr_ok hget
  obtain ⟨_, w₃, hask, h⟩ := Eff.bind_ok h
  obtain rfl : w.next.next = w₃ := congrArg Prod.snd hask
  cases h
  exact ⟨c, List.mem_of_find?_eq_some hfind, of_decide_eq_true (List.find?_some hfind :), rfl, rfl, rfl⟩

/-- The router runs, or there was one. -/
theorem start_proxy_containers_returned {a : Unit} (h : start_proxy_containers env w = (.ok a, w')) :
    w'.db = w.db ∧ w'.controllers = w.controllers ∧ ServersKept w w' ∧
      ((∃ c ∈ w.containers, "miniverse-router".toList <:+: c.name.toList) ∨
        ∃ c ∈ w'.containers, c.name = "miniverse-router" ∧ c.running = true) := by
  obtain ⟨found, w₁, hget, h⟩ := Eff.bind_ok h
  obtain ⟨rfl, hfound⟩ := get_container_by_name_returned hget
  cases found with
  | some c =>
      cases h
      exact ⟨rfl, rfl, .of_eq rfl, Or.inl ⟨c, hfound c rfl⟩⟩
  | none =>
      obtain ⟨c, w₂, hcreate, h⟩ := Eff.bind_ok h
      obtain ⟨_, hdb, hcontrollers, hcontainers⟩ := create_container_returned hcreate
      obtain ⟨router, hrouter, hname, hdb', hcontrollers', hcontainers'⟩ := start_container_by_name_returned h
      refine ⟨hdb'.trans hdb, hcontrollers'.trans hcontrollers, ?_, Or.inr ⟨{ router with running := true }, ?_, hname, rfl⟩⟩
      · have hkept : ServersKept w w₂ := fun d hd => Or.inl (hcontainers ▸ List.mem_cons_of_mem _ hd)
        exact hkept.trans (serversKept_started hcontainers')
      · rw [hcontainers']
        exact started_mem hrouter rfl

/-! ## Routes -/

/-- All of the state but the answers and the events. -/
def World.lasting (w : World α) : Database × Disk α × List (Uuid4 × Controller) × List Container :=
  (w.db, w.disk, w.controllers, w.containers)

instance : Quiet (Same (World.lasting (α := α))) where
  refl _ := rfl
  trans _ _ _ h₁ h₂ := h₂.trans h₁
  tick _ _ := rfl
  events _ _ := rfl

/-- The routes are written before anything else. -/
theorem proxy_startup_returned {a : Unit} (h : proxy_startup env w = (.ok a, w')) :
    InStep env w' ∧ w'.db = w.db ∧ w'.controllers = w.controllers ∧ w'.containers = w.containers := by
  unfold proxy_startup update_proxy_config query at h
  rw [Eff.read_bind_run] at h
  obtain ⟨_, w₁, hmkdirs, h⟩ := Eff.bind_ok h
  obtain ⟨_, hw₁⟩ := onDisk_ok hmkdirs
  obtain ⟨_, w₂, hwrite, h⟩ := Eff.bind_ok h
  obtain ⟨hwrite, hw₂⟩ := onDisk_ok hwrite
  have hsame : Same World.lasting w₂ w' := Eff.Within.of_run (R := Same World.lasting) h <|
    (within_get_container_by_name _).bind fun _ => Eff.Within.elim (Eff.Within.pure _) fun _ _ => within_kill_container _
  obtain ⟨hdb, hdisk, hcontrollers, hcontainers⟩ : w'.db = w₂.db ∧ w'.disk = w₂.disk ∧ w'.controllers = w₂.controllers ∧
      w'.containers = w₂.containers := by simpa [Same, World.lasting] using hsame
  have hrows : w₂.db = w.db := by rw [hw₂, hw₁]
  refine ⟨?_, hdb.trans hrows, hcontrollers.trans (by rw [hw₂, hw₁]), hcontainers.trans (by rw [hw₂, hw₁])⟩
  unfold InStep
  rw [hdisk, hdb, hrows]
  exact Disk.write_returned hwrite

theorem routesKept_docker_startup (env : Env α) : (docker_startup env).Within (RoutesKept env) :=
  within_start_proxy_containers.bind fun _ => (within_query _).bind fun _ => Eff.Within.forM fun m _ => Eff.Within.when fun _ =>
    (within_start_object (routesKept_object env m.id) (within_init_data_path (routesKept_data env m.id)) trivial).bind fun _ =>
      Eff.Within.pure _

end Backend
