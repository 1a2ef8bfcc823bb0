import Miniverse.Docker.Service

/-!
# Calls that leave the rows, the files and the controllers alone

A relation is quiet when it allows answers from outside and further events, and calm when it allows changes of containers
as well. All computations that do no more stay within every such relation.
-/

namespace Backend

open Lib

variable {α β : Type} {env : Env α} {w : World α} {R : World α → World α → Prop}

class Quiet (R : World α → World α → Prop) : Prop extends Std.Refl R, IsTrans (World α) R where
  tick : ∀ w n, R w { w with tick := n }
  events : ∀ w e, R w { w with events := w.events ++ [e] }

class Calm (R : World α → World α → Prop) : Prop extends Quiet R where
  containers : ∀ w cs, R w { w with containers := cs }

section Quiet

variable [Quiet R]

theorem within_ask (answer : Nat → Except PyError β) : (ask answer : Act α β).Within R :=
  fun w => Quiet.tick w _

theorem within_query (f : Database → β) : (query f : Act α β).Within R := Eff.Within.read _

theorem within_publish (type : EventType) (miniverse_id : String) (ids : Option (List String)) :
    (publish type miniverse_id ids : Act α Unit).Within R :=
  Eff.Within.modify fun w => Quiet.events w _

/-- A commit is within a relation that allows its change. -/
theorem within_commit {f : Database → Database} (h : ∀ w : World α, R w { w with db := f w.db }) :
    (commit env f).Within R :=
  (within_ask _).bind fun _ => Eff.Within.modify h

theorem within_getContainer (container_id : String) : (getContainer env container_id).Within R :=
  (within_ask _).bind fun _ => (Eff.Within.read _).bind fun _ => Eff.Within.getOr _ _

theorem within_get_container_by_name (name : String) : (get_container_by_name env name).Within R :=
  ((within_ask _).bind fun _ => Eff.Within.read _).attempt fun _ => Eff.Within.pure _

theorem within_ignoreNotFound {m : Act α Unit} (h : m.Within R) : (ignoreNotFound m).Within R :=
  h.attempt fun _ => (Eff.Within.pure _).ite (Eff.Within.raise _)

theorem within_kill_container (container_id : String) : (kill_container env container_id).Within R :=
  within_ignoreNotFound ((within_getContainer _).bind fun _ => within_ask _)

end Quiet

/-! ## Containers -/

section Calm

variable [Calm R]

theorem within_create_container (name image : String) (environment : List (String × String)) :
    (create_container env name image environment).Within R :=
  (within_ask _).bind fun _ => (Eff.Within.read _).bind fun _ => (Eff.Within.raiseIf _ _).bind fun _ =>
    (within_ask _).bind fun _ => (Eff.Within.modify fun w => Calm.containers w _).bind fun _ => Eff.Within.pure _

theorem within_start_container (container_id : String) : (start_container env container_id).Within R :=
  (within_getContainer _).bind fun _ => (within_ask _).bind fun _ =>
    Eff.Within.modify fun w => Calm.containers w _

theorem within_stop_container (container_id : String) : (stop_container env container_id).Within R :=
  (within_getContainer _).bind fun _ => (within_ask _).bind fun _ =>
    Eff.Within.modify fun w => Calm.containers w _

theorem within_remove_container (container_id : String) : (remove_container env container_id).Within R :=
  within_ignoreNotFound ((within_getContainer _).bind fun _ => (within_ask _).bind fun _ =>
    Eff.Within.modify fun w => Calm.containers w _)

end Calm

/-! ## Runs -/

theorem ignoreNotFound_ok {m : Act α Unit} {w' : World α} (h : m w = (.ok (), w')) : ignoreNotFound m w = (.ok (), w') :=
  Eff.attempt_ok h _

theorem ignoreNotFound_missing {m : Act α Unit} {w' : World α} (h : m w = (.error .dockerNotFound, w')) :
    ignoreNotFound m w = (.ok (), w') := by
  rw [ignoreNotFound, Eff.attempt_error h, if_pos rfl]
  rfl

/-- One that returns has done its work, or found no container. -/
theorem ignoreNotFound_returned {m : Act α Unit} {w' : World α} {a : Unit} (h : ignoreNotFound m w = (.ok a, w')) :
    m w = (.ok (), w') ∨ m w = (.error .dockerNotFound, w') := by
  rcases hrun : m w with ⟨e | _, w₁⟩
  · rw [ignoreNotFound, Eff.attempt_error hrun] at h
    split at h
    · subst e
      obtain rfl : w₁ = w' := congrArg Prod.snd h
      exact Or.inr rfl
    · cases h
  · rw [ignoreNotFound_ok hrun] at h
    obtain rfl : w₁ = w' := congrArg Prod.snd h
    exact Or.inl rfl

theorem ignoreNotFound_raised {m : Act α Unit} {w' : World α} {e : PyError} (h : ignoreNotFound m w = (.error e, w')) :
    m w = (.error e, w') := by
  rcases hrun : m w with ⟨e' | a, w₁⟩
  · rw [ignoreNotFound, Eff.attempt_error hrun] at h
    split at h
    · cases h
    · exact h
  · rw [ignoreNotFound_ok hrun] at h
    cases h

theorem getContainer_error {container_id : String} {e : PyError} (h : env.docker w.tick = .error e) :
    getContainer env container_id w = (.error e, w.next) :=
  Eff.bind_run_error (ask_error h) _

theorem getContainer_missing {container_id : String} (h : env.docker w.tick = .ok ())
    (hno : ∀ c ∈ w.containers, c.id ≠ container_id) : getContainer env container_id w = (.error .dockerNotFound, w.next) := by
  have hfind : (w.next.containers.find? fun c => decide (c.id = container_id)) = none := by simpa using hno
  rw [getContainer, Eff.bind_run_ok (ask_ok h), Eff.read_bind_run, hfind]
  rfl

theorem getContainer_ok {container_id : String} {c : Container} (h : env.docker w.tick = .ok ()) (hc : c ∈ w.containers)
    (hid : c.id = container_id) :
    ∃ c' ∈ w.containers, c'.id = container_id ∧ getContainer env container_id w = (.ok c', w.next) := by
  rw [getContainer, Eff.bind_run_ok (ask_ok h), Eff.read_bind_run]
  cases hfind : w.next.containers.find? fun c => decide (c.id = container_id) with
  | none =>
      have := List.find?_eq_none.mp hfind c hc
      simp [hid] at this
  | some c' => exact ⟨c', List.mem_of_find?_eq_some hfind, by simpa using List.find?_some hfind, rfl⟩

theorem getContainer_returned {container_id : String} {c : Container} {w' : World α}
    (h : getContainer env container_id w = (.ok c, w')) : c ∈ w.containers ∧ c.id = container_id ∧ w' = w.next := by
  obtain ⟨_, w₁, hask, h⟩ := Eff.bind_ok h
  obtain rfl : w.next = w₁ := congrArg Prod.snd hask
  obtain ⟨hfind, rfl⟩ := Eff.getOr_ok h
  exact ⟨List.mem_of_find?_eq_some hfind, by simpa using List.find?_some hfind, rfl⟩

theorem getContainer_answered {container_id : String} {c : Container} {w' : World α}
    (h : getContainer env container_id w = (.ok c, w')) : env.docker w.tick = .ok () := by
  cases hdocker : env.docker w.tick with
  | error e =>
      rw [getContainer_error hdocker] at h
      cases h
  | ok _ => rfl

/-- Where no container is found, Docker said so, or there is none. -/
theorem getContainer_notFound {container_id : String} {w' : World α}
    (h : getContainer env container_id w = (.error .dockerNotFound, w')) :
    w' = w.next ∧ (env.docker w.tick = .error .dockerNotFound ∨
      env.docker w.tick = .ok () ∧ ∀ c ∈ w.containers, c.id ≠ container_id) := by
  cases hdocker : env.docker w.tick with
  | error e =>
      rw [getContainer_error hdocker] at h
      cases h
      exact ⟨rfl, Or.inl rfl⟩
  | ok _ =>
      have hno : ∀ c ∈ w.containers, c.id ≠ container_id := by
        intro c hc hid
        obtain ⟨_, _, _, hfound⟩ := getContainer_ok hdocker hc hid
        rw [hfound] at h
        cases h
      rw [getContainer_missing hdocker hno] at h
      cases h
      exact ⟨rfl, Or.inr ⟨rfl, hno⟩⟩

/-- A call about one container that returns has found it. -/
theorem container_call_ok {container_id : String} {change : Container → World α → World α} {w' : World α} {a : Unit}
    (h : (do
      let container ← getContainer env container_id
      ask env.docker
      Eff.modify (change container) : Act α Unit) w = (.ok a, w')) :
    ∃ c ∈ w.containers, c.id = container_id ∧ w' = change c w.next.next := by
  obtain ⟨c, _, hget, h⟩ := Eff.bind_ok h
  obtain ⟨hc, hid, rfl⟩ := getContainer_returned hget
  obtain ⟨_, w₂, hask, h⟩ := Eff.bind_ok h
  obtain rfl : w.next.next = w₂ := congrArg Prod.snd hask
  exact ⟨c, hc, hid, (congrArg Prod.snd h).symm⟩

/-- One that raises has changed nothing. -/
theorem container_call_raised [Quiet R] {container_id : String} {change : Container → World α → World α} {w' : World α}
    {e : PyError} (h : (do
      let container ← getContainer env container_id
      ask env.docker
      Eff.modify (change container) : Act α Unit) w = (.error e, w')) : R w w' := by
  rcases Eff.bind_error h with hget | ⟨c, w₁, hget, h⟩
  · exact (within_getContainer container_id).of_run hget
  · have h₁ : R w w₁ := (within_getContainer container_id).of_run hget
    rcases Eff.bind_error h with hask | ⟨_, w₂, _, hmodify⟩
    · exact trans_of R h₁ ((within_ask env.docker).of_run hask)
    · cases hmodify

/-- A daemon that answers finds a container with the name. -/
theorem get_container_by_name_some (env : Env α) {name : String} {c : Container} (h : env.docker w.tick = .ok ()) (hc : c ∈ w.containers)
    (hname : name.toList <:+: c.name.toList) :
    ∃ c' ∈ w.containers, name.toList <:+: c'.name.toList ∧ get_container_by_name env name w = (.ok (some c'), w.next) := by
  cases hfind : w.containers.find? fun c => decide (name.toList <:+: c.name.toList) with
  | none =>
      have := List.find?_eq_none.mp hfind c hc
      simp [hname] at this
  | some c' =>
      refine ⟨c', List.mem_of_find?_eq_some hfind, by simpa using List.find?_some hfind, Eff.attempt_ok ?_ _⟩
      rw [Eff.bind_run_ok (ask_ok h), Eff.read_run, World.next_containers, hfind]

/-- Without an answer or a container with the name, there is none. -/
theorem get_container_by_name_none (env : Env α) {name : String}
    (h : env.docker w.tick = .ok () → ∀ c ∈ w.containers, ¬ name.toList <:+: c.name.toList) :
    get_container_by_name env name w = (.ok none, w.next) := by
  cases hdocker : env.docker w.tick with
  | error e =>
      rw [get_container_by_name, Eff.attempt_error (Eff.bind_run_error (ask_error hdocker) _)]
      rfl
  | ok a =>
      refine Eff.attempt_ok ?_ _
      have hfind : (w.containers.find? fun c => decide (name.toList <:+: c.name.toList)) = none := by
        simpa using h hdocker
      rw [Eff.bind_run_ok (ask_ok hdocker), Eff.read_run, World.next_containers, hfind]

theorem start_container_ok (env : Env α) {container_id : String} {c : Container} (h : env.docker w.tick = .ok ()) (hc : c ∈ w.containers)
    (hid : c.id = container_id) (h' : env.docker (w.tick + 1) = .ok ()) :
    ∃ w', start_container env container_id w = (.ok (), w') ∧ w'.controllers = w.controllers := by
  obtain ⟨c', _, _, hget⟩ := getContainer_ok h hc hid
  unfold start_container
  rw [Eff.bind_run_ok hget, Eff.bind_run_ok (ask_ok (w := w.next) h')]
  exact ⟨_, rfl, rfl⟩

theorem create_container_ok (env : Env α) {name : String} (image : String) (environment : List (String × String))
    (h : env.docker w.tick = .ok ()) (hfree : ∀ c ∈ w.containers, c.name ≠ name) :
    create_container env name image environment w =
      (.ok ⟨env.container_id (w.tick + 1), name, image, environment, false⟩,
        { w.next.next with
          containers := ⟨env.container_id (w.tick + 1), name, image, environment, false⟩ :: w.containers }) := by
  have hany : (w.next.containers.any fun c => decide (c.name = name)) = false := by simpa using hfree
  rw [create_container, Eff.bind_run_ok (ask_ok h), Eff.read_bind_run, hany, Eff.raiseIf_false_bind]
  rfl

end Backend
