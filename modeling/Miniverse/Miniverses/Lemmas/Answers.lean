import Miniverse.Miniverses.Lemmas.Rules
import Miniverse.Versions.Lemmas.Compare

/-!
# Runs whose calls to the outside are answered
-/

namespace Backend

open Lib

variable {α β : Type} {env : Env α} {w : World α} {id : Uuid4}

/-! ## The registry -/

def Registered (w : World α) (id : Uuid4) : Prop := id ∈ w.controllers.map Prod.fst

theorem service_of_registered (h : Registered w id) : ∃ c, w.service id.str = some (id, c) := by
  obtain ⟨⟨k, c⟩, hmem, rfl⟩ := List.mem_map.mp h
  cases hfind : w.service k.str with
  | none =>
      have := List.find?_eq_none.mp hfind (k, c) hmem
      simp at this
  | some kc =>
      obtain ⟨k', c'⟩ := kc
      have hstr : k'.str = k.str := by simpa using List.find?_some hfind
      exact ⟨c', by rw [Uuid4.eq_of_str hstr]⟩

theorem registered_of_service {miniverse_id : String} {k : Uuid4} {c : Controller}
    (h : w.service miniverse_id = some (k, c)) : Registered w k ∧ k.str = miniverse_id :=
  ⟨List.mem_map.mpr ⟨_, List.mem_of_find?_eq_some h, rfl⟩, by simpa using List.find?_some h⟩

theorem registered_setController (c : Controller) (k : Uuid4) : Registered (w.setController k c) id ↔ Registered w id := by
  have hkeys : (w.setController k c).controllers.map Prod.fst = w.controllers.map Prod.fst := by
    rw [World.setController, List.map_map]
    refine List.map_congr_left fun e _ => ?_
    by_cases h : e.1 = k
    · simp [h]
    · simp [h]
  rw [Registered, hkeys, Registered]

theorem registered_unregister {k : Uuid4} (hne : id ≠ k) (h : Registered w id) : Registered (w.unregister k.str) id := by
  obtain ⟨e, he, rfl⟩ := List.mem_map.mp h
  refine List.mem_map.mpr ⟨e, List.mem_filter.mpr ⟨he, ?_⟩, rfl⟩
  simpa using fun heq => hne (Uuid4.eq_of_str heq)

/-! ## Registering -/

def Parses (version : String) : Prop := ∃ p, parse_version version = .ok (some p)

/-- The list of versions can always be read, and its dates compared. -/
def VersionsAnswered (env : Env α) : Prop := ∀ n, ∃ vs, env.get_minecraft_versions n = .ok vs ∧ AllAware vs

theorem parse_first_websocket :
    parse_version "1.21.9" = .ok (some ⟨"1.21.9", .release, .old, 1, 21, 9, .number 0, none⟩) := by
  decide

/-- The controller is chosen without an exception, where the answers go on with the first number and then the second. -/
inductive ControlledAt (env : Env α) (w : World α) (id : Uuid4) (mc_version : String) : Nat → Nat → Prop
  | existing {n} : Registered w id → ControlledAt env w id mc_version n n
  | new {n c} : ¬ Registered w id → compare_versions (env.get_minecraft_versions n) mc_version "1.21.9" = .ok c →
      ControlledAt env w id mc_version n (n + 1)

theorem add_miniverse_at {m : Miniverse} {n : Nat} (h : ControlledAt env w m.id m.mc_version w.tick n) :
    ∃ cs, add_miniverse env m w = (.ok (), { w with controllers := cs, tick := n }) ∧ m.id ∈ cs.map Prod.fst ∧
      ∀ k, Registered w k → k ∈ cs.map Prod.fst := by
  unfold add_miniverse get_miniverse_controller
  rw [Eff.read_bind_run]
  cases hservice : w.service m.id.str with
  | some kc =>
      obtain ⟨k, c⟩ := kc
      obtain ⟨hreg, hstr⟩ := registered_of_service hservice
      obtain rfl := Uuid4.eq_of_str hstr
      cases h with
      | existing _ => exact ⟨_, rfl, (registered_setController _ _).mpr hreg, fun _ h => (registered_setController _ _).mpr h⟩
      | new hno _ => exact absurd hreg hno
  | none =>
      cases h with
      | existing hreg =>
          obtain ⟨c, hc⟩ := service_of_registered hreg
          rw [hservice] at hc
          cases hc
      | @new c _ hc =>
          have hask : compareVersions env m.mc_version "1.21.9" w = (.ok c, w.next) := ask_ok (by exact hc)
          rw [Option.map_none]
          show ∃ cs, (compareVersions env m.mc_version "1.21.9" >>= _) w = _ ∧ _
          rw [Eff.bind_run_ok hask]
          refine ⟨_, rfl, by simp, fun k hk => ?_⟩
          obtain ⟨e, he, rfl⟩ := List.mem_map.mp hk
          exact List.mem_map.mpr ⟨e, List.mem_append_left _ he, rfl⟩

theorem add_miniverse_run (hversions : VersionsAnswered env) {m : Miniverse} (hparses : Parses m.mc_version) (w : World α) :
    ∃ w', add_miniverse env m w = (.ok (), w') ∧ Registered w' m.id ∧ (∀ k, Registered w k → Registered w' k) ∧
      w'.db = w.db := by
  obtain ⟨n, hn⟩ : ∃ n, ControlledAt env w m.id m.mc_version w.tick n := by
    by_cases hreg : Registered w m.id
    · exact ⟨_, .existing hreg⟩
    · obtain ⟨p, hp⟩ := hparses
      obtain ⟨vs, hvs, haware⟩ := hversions w.tick
      obtain ⟨c, hc⟩ := compare_with_release haware hp parse_first_websocket rfl
      exact ⟨_, .new hreg (hvs ▸ hc)⟩
  obtain ⟨cs, hrun, hreg, hmono⟩ := add_miniverse_at hn
  exact ⟨_, hrun, hreg, hmono, rfl⟩

theorem startController_run (h : Registered w id) :
    ∃ w', startController id w = (.ok (), w') ∧ ∀ k, Registered w k → Registered w' k := by
  obtain ⟨c, hc⟩ := service_of_registered h
  unfold startController get_miniverse_controller
  rw [Eff.read_bind_run, hc, Option.map_some, Eff.getOr_some_bind]
  exact ⟨_, rfl, fun _ hk => (registered_setController _ _).mpr hk⟩

/-! ## Starting -/

/-- The server of a miniverse is started without an exception, where the answers go on with the given number: there is a
container with the name, or a new one can be created. -/
inductive StartsAt (env : Env α) (containers : List Container) (name : String) (n : Nat) : Prop
  | existing {c : Container} : env.commit n = .ok () → env.docker (n + 1) = .ok () → c ∈ containers →
      name.toList <:+: c.name.toList → env.commit (n + 2) = .ok () → env.docker (n + 3) = .ok () →
      env.docker (n + 4) = .ok () → StartsAt env containers name n
  | new : env.commit n = .ok () →
      (env.docker (n + 1) = .ok () → ∀ c ∈ containers, ¬ name.toList <:+: c.name.toList) → env.docker (n + 2) = .ok () →
      (∀ c ∈ containers, c.name ≠ name) → env.commit (n + 4) = .ok () → env.docker (n + 5) = .ok () →
      env.docker (n + 6) = .ok () → StartsAt env containers name n

/-- The icon is put into the directory, where it is missing. -/
theorem server_icon_run {p : Loc} (x : α) {d : Disk α} (hdir : d.tree.isDir p = true) :
    ∃ d', (do
        Eff.when (!(← Disk.look (·.exists (p ++ ["server-icon.png"])))) (Disk.write (p ++ ["server-icon.png"]) x) : Fs α Unit) d =
      (.ok (), d') ∧ ∀ q, d.tree.isDir q = true → d'.tree.isDir q = true := by
  rw [Disk.look, Eff.read_bind_run]
  cases hicon : d.tree.exists (p ++ ["server-icon.png"]) with
  | true => exact ⟨d, rfl, fun _ h => h⟩
  | false =>
      obtain ⟨d', hwritten, hget⟩ := Disk.write_new (ε := PyError) x hicon (by rw [Loc.parent_concat]; exact hdir)
        (by rw [Loc.name_concat]; decide)
      refine ⟨d', hwritten, fun q hq => ?_⟩
      have hne : q ≠ p ++ ["server-icon.png"] := by
        rintro rfl
        rw [FileTree.exists_of_isDir hq] at hicon
        cases hicon
      rw [FileTree.isDir_iff, hget, if_neg hne]
      exact FileTree.isDir_iff.mp hq

theorem init_data_path_run {m : Miniverse} (hlite : m.is_on_lite_proxy = true) (hparses : Parses m.mc_version)
    (hdir : w.disk.tree.isDir (miniverse_data_path env.toPlatform m.id) = true) :
    ∃ d, init_data_path env m w = (.ok (), { w with disk := d }) := by
  obtain ⟨p, hp⟩ := hparses
  obtain ⟨d, hd, _⟩ := server_icon_run env.server_icon hdir
  unfold init_data_path
  rw [hp, hlite, Eff.ofExcept_ok_bind]
  exact ⟨d, Eff.bind_run_ok (onDisk_run hd) _⟩

theorem start_miniverse_run {m : Miniverse} (hlite : m.is_on_lite_proxy = true) (hparses : Parses m.mc_version)
    (hdir : w.disk.tree.isDir (miniverse_data_path env.toPlatform m.id) = true) (hregistered : Registered w m.id)
    (h : StartsAt env w.containers (container_name_of m.id) w.tick) : ∃ r w', start_miniverse env m w = (.ok r, w') := by
  obtain ⟨d, hinit⟩ := init_data_path_run hlite hparses hdir
  let m₁ : Miniverse := { m with started := true }
  let w₁ : World α := { w.next with disk := d, db := w.db.saveMiniverse m₁ }
  have hsaved (hcommit : env.commit w.tick = .ok ()) :
      commit env (·.saveMiniverse m₁) { w with disk := d } = (.ok (), w₁) := commit_ok _ hcommit
  unfold start_miniverse
  rw [Eff.bind_run_ok hinit]
  cases h with
  | existing hcommit hlook hc hname hcommit' hget hstart =>
      obtain ⟨c, hc, _, hlook⟩ := get_container_by_name_some env (w := w₁) hlook hc hname
      let m₂ : Miniverse := { m₁ with container_id := some c.id }
      let w₂ : World α := { w₁.next.next with db := w₁.db.saveMiniverse m₂ }
      have hsaved' : commit env (·.saveMiniverse m₂) w₁.next = (.ok (), w₂) := commit_ok _ hcommit'
      obtain ⟨w', hstarted, _⟩ := start_container_ok env (w := w₂) hget hc rfl hstart
      refine ⟨(m₂, c), w', ?_⟩
      rw [Eff.bind_run_ok (hsaved hcommit), Eff.bind_run_ok hlook]
      show (commit env (·.saveMiniverse m₂) >>= _) w₁.next = _
      rw [Eff.bind_run_ok hsaved', Eff.bind_run_ok hstarted]
      rfl
  | new hcommit hlook hcreate hfree hcommit' hget hstart =>
      have hlook := get_container_by_name_none env (w := w₁) hlook
      have hcreated := create_container_ok env (container_image m₁) (container_environment m₁) (w := w₁.next)
        hcreate hfree
      let c : Container := ⟨env.container_id (w₁.next.tick + 1), container_name_of m.id, container_image m₁,
        container_environment m₁, false⟩
      let w₂ : World α := { w₁.next.next.next with containers := c :: w.containers }
      let m₂ : Miniverse := { m₁ with container_id := some c.id }
      let w₃ : World α := { w₂.next with db := w₂.db.saveMiniverse m₂ }
      have hsaved' : commit env (·.saveMiniverse m₂) w₂ = (.ok (), w₃) := commit_ok _ hcommit'
      have hmade : create_miniverse_container env m₁ w₁.next = (.ok (m₂, c), w₃) := by
        rw [create_miniverse_container, Eff.bind_run_ok hcreated]
        exact Eff.bind_run_ok hsaved' _
      obtain ⟨w', hstarted, hcontrollers⟩ := start_container_ok env (w := w₃) hget List.mem_cons_self rfl hstart
      have hregistered' : Registered w' m₂.id := by
        rw [Registered, hcontrollers]
        exact hregistered
      obtain ⟨w'', hcontroller, _⟩ := startController_run hregistered'
      rw [Eff.bind_run_ok (hsaved hcommit), Eff.bind_run_ok hlook]
      show ∃ r w', (create_miniverse_container env m₁ >>= _) w₁.next = (.ok r, w')
      rw [Eff.bind_run_ok hmade]
      show ∃ r w', (start_container env c.id >>= _) w₃ = (.ok r, w')
      rw [Eff.bind_run_ok hstarted]
      rw [Eff.bind_run_ok hcontroller]
      exact ⟨_, _, rfl⟩

/-! ## Creating -/

/-- The row of a new miniverse gets into the database. -/
def InsertsRow (env : Env α) (w : World α) (data : MiniverseCreate) : Prop :=
  data.subdomain.isSome = true ∧ (∀ r ∈ w.db.miniverses, r.id ≠ env.uuid4 w.tick) ∧ env.commit (w.tick + 2) = .ok ()

/-- Nothing fails between the row and the controller of a new miniverse. -/
structure RegistersRow (env : Env α) (w : World α) (data : MiniverseCreate) : Prop where
  role : env.commit (w.tick + 3) = .ok ()
  directory : ∀ q, q <+: miniverse_data_path env.toPlatform (env.uuid4 w.tick) → w.disk.tree.isFile q = false
  version : Parses data.mc_version

/-! ## Deleting -/

/-- The controller is stopped without an exception, after which the answers go on with the given number. -/
inductive StopsAt (env : Env α) (w : World α) (id : Uuid4) : Nat → Prop
  | silent : (∀ task, w.service id.str ≠ some (id, .webSocket task)) → StopsAt env w id w.tick
  | answered {task players} : w.service id.str = some (id, .webSocket task) → env.player_list w.tick id = .ok players →
      StopsAt env w id (w.tick + 1)

/-- The container is removed without an exception, with the numbers of the first and the next answer. -/
inductive RemovedAt (env : Env α) (containers : List Container) : Option String → Nat → Nat → Prop
  | none {n} : RemovedAt env containers none n n
  | unknown {id n} : env.docker n = .error .dockerNotFound → RemovedAt env containers (some id) n (n + 1)
  | missing {id n} : env.docker n = .ok () → (∀ c ∈ containers, c.id ≠ id) → RemovedAt env containers (some id) n (n + 1)
  | gone {id n c} : env.docker n = .ok () → c ∈ containers → c.id = id → env.docker (n + 1) = .error .dockerNotFound →
      RemovedAt env containers (some id) n (n + 2)
  | removed {id n c} : env.docker n = .ok () → c ∈ containers → c.id = id → env.docker (n + 1) = .ok () →
      RemovedAt env containers (some id) n (n + 2)

/-- Nothing fails from the removal of the controller to that of the row. -/
def DeletionAnswered (env : Env α) (w : World α) (m : Miniverse) : Prop :=
  ∃ n n', StopsAt env w m.id n ∧ RemovedAt env w.containers (truthy m.container_id) n n' ∧ env.commit n' = .ok ()

theorem remove_miniverse_run {n : Nat} (h : StopsAt env w id n) :
    remove_miniverse env id w = (.ok (), { w.unregister id.str with tick := n }) := by
  unfold remove_miniverse get_miniverse_controller
  rw [Eff.read_bind_run, Eff.modify_bind_run]
  cases h with
  | silent hsilent =>
      cases hservice : w.service id.str with
      | none => rfl
      | some kc =>
          obtain ⟨k, c⟩ := kc
          obtain rfl := Uuid4.eq_of_str (registered_of_service hservice).2
          cases c with
          | webSocket task => exact absurd hservice (hsilent task)
          | mcRouter players => rfl
  | answered hservice hplayers =>
      rw [hservice, Option.map_some, Option.elim_some, Controller.stop, bind_assoc]
      exact Eff.bind_run_ok (ask_ok (w := w.unregister id.str) hplayers) _

theorem remove_container_run {container_id : String} {n : Nat}
    (h : RemovedAt env w.containers (some container_id) w.tick n) :
    ∃ cs, remove_container env container_id w = (.ok (), { w with containers := cs, tick := n }) := by
  unfold remove_container
  cases h with
  | unknown hdocker => exact ⟨w.containers, ignoreNotFound_missing (Eff.bind_run_error (getContainer_error hdocker) _)⟩
  | missing hdocker hno =>
      exact ⟨w.containers, ignoreNotFound_missing (Eff.bind_run_error (getContainer_missing hdocker hno) _)⟩
  | gone hdocker hc hid hgone =>
      obtain ⟨c', _, _, hget⟩ := getContainer_ok hdocker hc hid
      refine ⟨w.containers, ignoreNotFound_missing ?_⟩
      rw [Eff.bind_run_ok hget, Eff.bind_run_error (ask_error hgone)]
      rfl
  | removed hdocker hc hid hremoved =>
      obtain ⟨c', _, _, hget⟩ := getContainer_ok hdocker hc hid
      refine ⟨w.containers.filter fun c => decide (c.id ≠ c'.id), ignoreNotFound_ok ?_⟩
      rw [Eff.bind_run_ok hget, Eff.bind_run_ok (ask_ok hremoved)]
      rfl

/-- A removal of the controller that returns was answered. -/
theorem remove_miniverse_at {w' : World α} {a : Unit} (h : remove_miniverse env id w = (.ok a, w')) :
    StopsAt env w id w'.tick ∧ w'.containers = w.containers := by
  unfold remove_miniverse get_miniverse_controller at h
  rw [Eff.read_bind_run, Eff.modify_bind_run] at h
  cases hservice : w.service id.str with
  | none =>
      rw [hservice] at h
      cases h
      refine ⟨.silent fun task hsome => ?_, rfl⟩
      rw [hservice] at hsome
      cases hsome
  | some kc =>
      obtain ⟨k, c⟩ := kc
      obtain rfl := Uuid4.eq_of_str (registered_of_service hservice).2
      rw [hservice] at h
      cases c with
      | mcRouter players =>
          cases h
          refine ⟨.silent fun task hsome => ?_, rfl⟩
          rw [hservice] at hsome
          cases hsome
      | webSocket task =>
          rw [Option.map_some, Option.elim_some, Controller.stop, bind_assoc, get_msmp_player_list] at h
          rcases ask_cases (env.player_list · k) (w.unregister k.str) with ⟨e, _, hrun⟩ | ⟨players, hplayers, hrun⟩
          · rw [Eff.bind_run_error hrun] at h
            cases h
          · rw [Eff.bind_run_ok hrun] at h
            cases h
            exact ⟨.answered hservice hplayers, rfl⟩

/-- A removal of the container that returns was answered. -/
theorem remove_container_at {container_id : String} {w' : World α} {a : Unit}
    (h : remove_container env container_id w = (.ok a, w')) : RemovedAt env w.containers (some container_id) w.tick w'.tick := by
  rcases ignoreNotFound_returned h with hrun | hrun
  · obtain ⟨c, w₁, hget, hrest⟩ := Eff.bind_ok hrun
    obtain ⟨hc, hid, rfl⟩ := getContainer_returned hget
    obtain ⟨_, w₂, hask, hmodify⟩ := Eff.bind_ok hrest
    cases hmodify
    obtain ⟨hremoved, rfl⟩ := Prod.mk.inj hask
    exact .removed (getContainer_answered hget) hc hid hremoved
  · rcases Eff.bind_error hrun with hget | ⟨c, w₁, hget, hrest⟩
    · obtain ⟨rfl, hdocker | ⟨hdocker, hno⟩⟩ := getContainer_notFound hget
      · exact .unknown hdocker
      · exact .missing hdocker hno
    · obtain ⟨hc, hid, rfl⟩ := getContainer_returned hget
      rcases Eff.bind_error hrest with hask | ⟨_, _, _, hmodify⟩
      · obtain ⟨hgone, rfl⟩ := Prod.mk.inj hask
        exact .gone (getContainer_answered hget) hc hid hgone
      · cases hmodify

theorem remove_volume_run (env : Env α) (id : Uuid4) (w : World α) :
    ∃ d, remove_volume env id w = (.ok (), { w with disk := d }) := by
  unfold remove_volume onDisk Eff.zoom
  dsimp only
  rw [Disk.look, Eff.read_bind_run]
  cases hdir : w.disk.tree.isDir (get_miniverse_path env.toPlatform id) with
  | false => exact ⟨w.disk, rfl⟩
  | true =>
      have hroot : get_miniverse_path env.toPlatform id ≠ [] := by simp [get_miniverse_path]
      have hrm : w.disk.tree.rmtree (get_miniverse_path env.toPlatform id) = .ok (w.disk.tree.remove _ hroot) := by
        rw [FileTree.rmtree, dif_neg hroot, if_pos hdir]
      rw [Eff.when_true, Disk.rmtree, Disk.call_ok hrm]
      exact ⟨_, rfl⟩

end Backend
