import Miniverse.Miniverses.Lemmas.Cases
import Miniverse.Mods.Lemmas.Rows

/-!
# The server of a miniverse

What stopping and deleting do to the container that has the name of the miniverse.
-/

namespace Backend

open Lib

variable {α β : Type} {env : Env α} {w w' : World α} {m : Miniverse} {id : Uuid4}

/-- A container with the name of the miniverse is running. -/
def ServerRunning (w : World α) (id : Uuid4) : Prop :=
  ∃ c ∈ w.containers, c.name = container_name_of id ∧ c.running = true

theorem ServerRunning.congr (h : w'.containers = w.containers) : ServerRunning w' id ↔ ServerRunning w id := by
  rw [ServerRunning, h, ServerRunning]

/-- The daemon tells that a container is missing only where it is. -/
def TruthfulDocker (env : Env α) : Prop := ∀ n, env.docker n ≠ .error .dockerNotFound

/-! ## Stopping a container -/

/-- A call about one container that returns has done its work, unless the container is missing. -/
theorem container_call_returned (hdocker : TruthfulDocker env) {container_id : String} {change : Container → World α → World α}
    {a : Unit} (h : ignoreNotFound (do
      let container ← getContainer env container_id
      ask env.docker
      Eff.modify (change container)) w = (.ok a, w')) :
    (∃ c ∈ w.containers, c.id = container_id ∧ w' = change c w.next.next) ∨
      (∀ c ∈ w.containers, c.id ≠ container_id) ∧ w' = w.next := by
  rcases ignoreNotFound_returned h with hrun | hrun
  · exact Or.inl (container_call_ok hrun)
  · rcases Eff.bind_error hrun with hget | ⟨c, w₂, _, hrun⟩
    · obtain ⟨rfl, hunknown | ⟨_, hno⟩⟩ := getContainer_notFound hget
      · exact absurd hunknown (hdocker w.tick)
      · exact Or.inr ⟨hno, rfl⟩
    · rcases Eff.bind_error hrun with hask | ⟨_, _, _, hmodify⟩
      · exact absurd (congrArg Prod.fst hask) (hdocker w₂.tick)
      · cases hmodify

/-- A stop that returns leaves no running container with the identifier. -/
theorem stop_container_returned (hdocker : TruthfulDocker env) {container_id : String} {a : Unit}
    (h : ignoreNotFound (stop_container env container_id) w = (.ok a, w')) :
    w'.containers = w.containers.filter fun c => decide (c.id ≠ container_id ∨ c.running = false) := by
  rcases container_call_returned hdocker h with ⟨c, _, rfl, rfl⟩ | ⟨hno, rfl⟩
  · rfl
  · exact (List.filter_eq_self.mpr fun c hc => decide_eq_true (Or.inl (hno c hc))).symm

theorem remove_container_returned (hdocker : TruthfulDocker env) {container_id : String} {a : Unit}
    (h : remove_container env container_id w = (.ok a, w')) :
    w'.containers = w.containers.filter fun c => decide (c.id ≠ container_id) := by
  rcases container_call_returned hdocker h with ⟨c, _, rfl, rfl⟩ | ⟨hno, rfl⟩
  · rfl
  · exact (List.filter_eq_self.mpr fun c hc => decide_eq_true (hno c hc)).symm

/-- The stored identifier is of the container with the name. -/
def PointsToServer (w : World α) (m : Miniverse) : Prop :=
  ∀ container_id, m.container_id = some container_id → ∀ c ∈ w.containers, c.name = container_name_of m.id → c.id = container_id

/-- The step that stopping and deleting share: without a stored identifier it does nothing. -/
theorem server_running_after {end_container : String → Act α Unit}
    (hends : ∀ container_id a, end_container container_id w = (.ok a, w') →
      ∀ c ∈ w'.containers, c ∈ w.containers ∧ (c.running = true → c.id ≠ container_id))
    (hids : ∀ c ∈ w.containers, c.id ≠ "") (hpoints : PointsToServer w m) {a : Unit}
    (h : (truthy m.container_id).elim (pure ()) end_container w = (.ok a, w')) :
    ServerRunning w' m.id ↔ m.container_id = none ∧ ServerRunning w m.id := by
  cases hcontainer : m.container_id with
  | none =>
      rw [hcontainer] at h
      cases h
      exact ⟨fun hrunning => ⟨rfl, hrunning⟩, fun hrunning => hrunning.2⟩
  | some container_id =>
      refine ⟨fun hrunning => ?_, fun hrunning => nomatch hrunning.1⟩
      exfalso
      obtain ⟨c, hc, hname, hrunning⟩ := hrunning
      by_cases hempty : container_id = ""
      · rw [hcontainer, hempty] at h
        cases h
        exact hids c hc ((hpoints container_id hcontainer c hc hname).trans hempty)
      · have htruthy : truthy (some container_id) = some container_id :=
          Option.filter_eq_some_iff.mpr ⟨rfl, decide_eq_true hempty⟩
        rw [hcontainer, htruthy] at h
        obtain ⟨hc, hne⟩ := hends container_id a h c hc
        exact hne hrunning (hpoints container_id hcontainer c hc hname)

/-! ## What leaves the containers alone -/

instance : Quiet (Same (α := α) World.containers) where
  tick _ _ := rfl
  events _ _ := rfl

theorem still_commit (f : Database → Database) : (commit env f).Within (Same World.containers) := within_commit fun _ => rfl

theorem still_stopController : (stopController env id).Within (Same World.containers) :=
  (Eff.Within.read _).bind fun _ => (Eff.Within.getOr _ _).bind fun _ => (within_controller_stop _).bind fun _ =>
    Eff.Within.modify fun _ => rfl

theorem still_remove_miniverse : (remove_miniverse env id).Within (Same World.containers) :=
  (Eff.Within.read _).bind fun _ => Eff.Within.bind (Eff.Within.modify fun _ => rfl) fun _ =>
    Eff.Within.elim (Eff.Within.pure _) fun c _ => (within_controller_stop c).bind fun _ => Eff.Within.pure _

theorem still_update_proxy_config : (update_proxy_config env).Within (Same World.containers) :=
  (within_query _).bind fun _ => Eff.Within.bind (fun _ => rfl) fun _ => Eff.Within.bind (fun _ => rfl) fun _ =>
    (within_get_container_by_name _).bind fun _ => Eff.Within.elim (Eff.Within.pure _) fun _ _ => within_kill_container _

/-! ## Stopping and deleting -/

theorem stop_miniverse_server (hdocker : TruthfulDocker env) (hids : ∀ c ∈ w.containers, c.id ≠ "")
    (hpoints : PointsToServer w m) {m' : Miniverse} (h : stop_miniverse env m w = (.ok m', w')) :
    ServerRunning w' m.id ↔ m.container_id = none ∧ ServerRunning w m.id := by
  obtain ⟨_, w₁, hstop, hrest⟩ := Eff.bind_ok h
  obtain ⟨_, w₂, hlookup, hstop⟩ := Eff.bind_ok hstop
  have hlooked : w₂.containers = w.containers := by
    have hstill : (Eff.when m.container_id.isNone do
        let _ ← get_container_by_name env (container_name_of m.id) : Act α Unit).Within (Same World.containers) :=
      Eff.Within.when fun _ => (within_get_container_by_name _).bind fun _ => Eff.Within.pure _
    exact congrArg (·.2.containers) hlookup ▸ hstill w
  have hrested : w'.containers = w₁.containers := by
    have hstill : (do
        stopController env m.id
        commit env (·.saveMiniverse { m with started := false, container_id := none })
        publish .updated m.id.str none
        pure { m with started := false, container_id := none } : Act α Miniverse).Within (Same World.containers) :=
      still_stopController.bind fun _ => (still_commit _).bind fun _ =>
        (within_publish _ _ _).bind fun _ => Eff.Within.pure _
    exact congrArg (·.2.containers) hrest ▸ hstill w₁
  rw [ServerRunning.congr hrested, ← ServerRunning.congr hlooked]
  refine server_running_after (fun container_id _ hended c hc => ?_) (hlooked ▸ hids) (fun container_id hid => ?_) hstop
  · rw [stop_container_returned hdocker hended] at hc
    obtain ⟨hc, hleft⟩ := List.mem_filter.mp hc
    exact ⟨hc, fun hrunning => (of_decide_eq_true hleft).resolve_right (by simp [hrunning])⟩
  · rw [hlooked]
    exact hpoints container_id hid

theorem delete_miniverse_server (hdocker : TruthfulDocker env) (hids : ∀ c ∈ w.containers, c.id ≠ "")
    (hpoints : PointsToServer w m) {a : Unit} (h : delete_miniverse env m w = (.ok a, w')) :
    ServerRunning w' m.id ↔ m.container_id = none ∧ ServerRunning w m.id := by
  obtain ⟨_, w₁, hremove, h⟩ := Eff.bind_ok h
  obtain ⟨_, w₂, hstop, hrest⟩ := Eff.bind_ok h
  have hremoved : w₁.containers = w.containers :=
    congrArg (·.2.containers) hremove ▸ (still_remove_miniverse : (remove_miniverse env m.id).Within _) w
  have hrested : w'.containers = w₂.containers := by
    have hstill : (do
        remove_volume env m.id
        let users_roles ← query (·.rolesOf m.id)
        commit env (·.deleteMiniverse m.id)
        ask (env.delete_miniverse_cache · m.id)
        update_proxy_config env
        publish .deleted m.id.str (some (users_roles.map (·.user_id))) : Act α Unit).Within (Same World.containers) :=
      Eff.Within.bind (fun _ => rfl) fun _ => (Eff.Within.read _).bind fun _ => (still_commit _).bind fun _ =>
        (within_ask _).bind fun _ => still_update_proxy_config.bind fun _ => within_publish _ _ _
    exact congrArg (·.2.containers) hrest ▸ hstill w₂
  rw [ServerRunning.congr hrested, ← ServerRunning.congr hremoved]
  refine server_running_after (fun container_id _ hended c hc => ?_) (hremoved ▸ hids) (fun container_id hid => ?_) hstop
  · rw [remove_container_returned hdocker hended] at hc
    obtain ⟨hc, hleft⟩ := List.mem_filter.mp hc
    exact ⟨hc, fun _ => of_decide_eq_true hleft⟩
  · rw [hremoved]
    exact hpoints container_id hid

end Backend
