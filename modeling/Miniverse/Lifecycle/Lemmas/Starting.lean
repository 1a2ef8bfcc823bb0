import Miniverse.Miniverses.Lemmas.Answers

/-!
# What a start that returns has done
-/

namespace Backend

open Lib

variable {α β : Type} {env : Env α} {w w' : World α} {m : Miniverse}

/-! ## Containers -/

/-- No container is gone, and at most some were started. -/
def ServersKept (w w' : World α) : Prop := ∀ c ∈ w.containers, c ∈ w'.containers ∨ { c with running := true } ∈ w'.containers

theorem ServersKept.refl (w : World α) : ServersKept w w := fun _ hc => Or.inl hc

theorem ServersKept.of_eq (h : w'.containers = w.containers) : ServersKept w w' := fun _ hc => Or.inl (h ▸ hc)

theorem ServersKept.trans {w'' : World α} (h : ServersKept w w') (h' : ServersKept w' w'') : ServersKept w w'' := by
  intro c hc
  rcases h c hc with hc | hc
  · exact h' c hc
  · rcases h' _ hc with hc | hc
    · exact Or.inr hc
    · exact Or.inr hc

/-- A running container with the identifier, whose name holds the text. -/
def Serves (w : World α) (container_id name : String) : Prop :=
  ∃ c ∈ w.containers, c.id = container_id ∧ c.running = true ∧ name.toList <:+: c.name.toList

theorem Serves.kept {container_id name : String} (h : Serves w container_id name) (hkept : ServersKept w w') :
    Serves w' container_id name := by
  obtain ⟨c, hc, hid, hrunning, hname⟩ := h
  rcases hkept c hc with hc | hc
  · exact ⟨c, hc, hid, hrunning, hname⟩
  · exact ⟨_, hc, hid, rfl, hname⟩

/-- The containers with the identifier are running. -/
def withStarted (container_id : String) (containers : List Container) : List Container :=
  containers.map fun c => if c.id = container_id then { c with running := true } else c

theorem started_mem {container_id : String} {containers : List Container} {c : Container} (hc : c ∈ containers)
    (hid : c.id = container_id) : { c with running := true } ∈ withStarted container_id containers :=
  List.mem_map.mpr ⟨c, hc, if_pos hid⟩

theorem serversKept_started {container_id : String} (h : w'.containers = withStarted container_id w.containers) :
    ServersKept w w' := by
  intro c hc
  rw [h]
  by_cases hid : c.id = container_id
  · exact Or.inr (started_mem hc hid)
  · exact Or.inl (List.mem_map.mpr ⟨c, hc, if_neg hid⟩)

theorem start_container_returned {container_id : String} {a : Unit} (h : start_container env container_id w = (.ok a, w')) :
    w'.db = w.db ∧ w'.controllers = w.controllers ∧ w'.containers = withStarted container_id w.containers := by
  obtain ⟨c, _, rfl, rfl⟩ := container_call_ok h
  exact ⟨rfl, rfl, rfl⟩

theorem create_container_returned {name image : String} {environment : List (String × String)} {c : Container}
    (h : create_container env name image environment w = (.ok c, w')) :
    c.name = name ∧ w'.db = w.db ∧ w'.controllers = w.controllers ∧ w'.containers = c :: w.containers := by
  obtain ⟨_, w₁, hask, h⟩ := Eff.bind_ok h
  obtain rfl : w.next = w₁ := congrArg Prod.snd hask
  rw [Eff.read_bind_run] at h
  obtain ⟨_, w₂, hfree, h⟩ := Eff.bind_ok h
  obtain ⟨_, rfl⟩ := Eff.raiseIf_ok hfree
  obtain ⟨id, w₃, hask, h⟩ := Eff.bind_ok h
  obtain rfl : w.next.next = w₃ := congrArg Prod.snd hask
  cases h
  exact ⟨rfl, rfl, rfl, rfl⟩

theorem get_container_by_name_returned {name : String} {found : Option Container}
    (h : get_container_by_name env name w = (.ok found, w')) :
    w' = w.next ∧ ∀ c, found = some c → c ∈ w.containers ∧ name.toList <:+: c.name.toList := by
  unfold get_container_by_name at h
  rcases ask_cases env.docker w with ⟨e, _, hask⟩ | ⟨a, _, hask⟩
  · rw [Eff.attempt_error (Eff.bind_run_error hask _)] at h
    cases h
    exact ⟨rfl, nofun⟩
  · rw [Eff.attempt_ok (Eff.bind_run_ok hask _)] at h
    cases h
    exact ⟨rfl, fun c hc => ⟨List.mem_of_find?_eq_some hc, of_decide_eq_true (List.find?_some hc :)⟩⟩

/-! ## Files and mods -/

/-- The rows but for those of the mods, the controllers and the containers are as they were. -/
def Prepared (w w' : World α) : Prop :=
  w'.db = { w.db with mods := w'.db.mods } ∧ w'.controllers = w.controllers ∧ w'.containers = w.containers

instance : Quiet (Prepared (α := α)) where
  refl _ := ⟨rfl, rfl, rfl⟩
  trans _ _ _ h₁ h₂ := ⟨h₂.1.trans (by rw [h₁.1]), h₂.2.1.trans h₁.2.1, h₂.2.2.trans h₁.2.2⟩
  tick _ _ := ⟨rfl, rfl, rfl⟩
  events _ _ := ⟨rfl, rfl, rfl⟩

theorem prepared_onDisk (f : Fs α β) : (onDisk f : Act α β).Within Prepared := fun _ => ⟨rfl, rfl, rfl⟩

theorem prepared_data (env : Env α) (id : Uuid4) : AllowsData env Prepared id fun _ => True where
  mkdirs := prepared_onDisk _
  write _ _ _ := prepared_onDisk _
  unlink _ _ := prepared_onDisk _
  answers _ _ := trivial
  rows h := h fun _ _ => trivial
  save_mod _ _ _ _ _ := ⟨rfl, rfl, rfl⟩
  add_mod _ _ _ := ⟨rfl, rfl, rfl⟩
  mkdirs_below _ _ := prepared_onDisk _
  write_below _ _ _ := prepared_onDisk _

/-! ## Starting a miniverse -/

theorem commit_returned {f : Database → Database} {a : Unit} (h : commit env f w = (.ok a, w')) :
    w'.db = f w.db ∧ w'.controllers = w.controllers ∧ w'.containers = w.containers := by
  rcases commit_cases env f w with ⟨e, hrun⟩ | hrun
  · rw [hrun] at h
    cases h
  · rw [hrun] at h
    cases h
    exact ⟨rfl, rfl, rfl⟩

theorem startController_returned {id : Uuid4} {a : Unit} (h : startController id w = (.ok a, w')) :
    ∃ k c, w.service id.str = some (k, c) ∧ w' = w.setController id c.start := by
  rw [startController, get_miniverse_controller, Eff.read_bind_run] at h
  obtain ⟨c, w₁, hget, h⟩ := Eff.bind_ok h
  obtain ⟨hservice, rfl⟩ := Eff.getOr_ok hget
  obtain ⟨⟨k, c'⟩, hfound, rfl⟩ := Option.map_eq_some_iff.mp hservice
  cases h
  exact ⟨k, c', hfound, rfl⟩

theorem create_miniverse_container_returned {r : Miniverse × Container}
    (h : create_miniverse_container env m w = (.ok r, w')) :
    r.2.name = container_name_of m.id ∧ r.1 = { m with container_id := some r.2.id } ∧
      w'.db = w.db.saveMiniverse r.1 ∧ w'.controllers = w.controllers ∧ w'.containers = r.2 :: w.containers := by
  obtain ⟨c, w₁, hcreate, h⟩ := Eff.bind_ok h
  obtain ⟨hname, hdb, hcontrollers, hcontainers⟩ := create_container_returned hcreate
  obtain ⟨_, w₂, hcommit, h⟩ := Eff.bind_ok h
  obtain ⟨hdb', hcontrollers', hcontainers'⟩ := commit_returned hcommit
  cases h
  exact ⟨hname, rfl, hdb'.trans (congrArg _ hdb), hcontrollers'.trans hcontrollers, hcontainers'.trans hcontainers⟩

theorem service_congr (h : w'.controllers = w.controllers) (miniverse_id : String) : w'.service miniverse_id = w.service miniverse_id :=
  congrArg (List.find? _) h

theorem setController_congr (h : w'.controllers = w.controllers) (id : Uuid4) (c : Controller) :
    (w'.setController id c).controllers = (w.setController id c).controllers :=
  congrArg (List.map _) h

/-- What a start that returns leaves behind. -/
structure StartReturned (m : Miniverse) (r : Miniverse × Container) (w w' : World α) : Prop where
  object : r.1 = { m with started := true, container_id := some r.2.id }
  rows : w'.db = { w.db with miniverses := (w.db.saveMiniverse r.1).miniverses, mods := w'.db.mods }
  serves : Serves w' r.2.id (container_name_of m.id)
  servers : ServersKept w w'
  controllers : w'.controllers = w.controllers ∨ ∃ k c, w.service m.id.str = some (k, c) ∧
    w'.controllers = (w.setController m.id c.start).controllers

/-- Two writes to the row of a miniverse, after its mods changed. -/
theorem rows_twice {db db₁ : Database} (hdb : db₁ = { db with mods := db₁.mods }) {m' m'' : Miniverse} (hid : m''.id = m'.id) :
    (db₁.saveMiniverse m').saveMiniverse m'' =
      { db with miniverses := (db.saveMiniverse m'').miniverses, mods := db₁.mods } := by
  rw [hdb]
  unfold Database.saveMiniverse
  simp only [List.map_map]
  refine congrArg (fun rows => ({ db with miniverses := rows, mods := db₁.mods } : Database)) (List.map_congr_left fun r _ => ?_)
  by_cases h : r.id = m'.id
  · simp [h, hid]
  · simp [h, hid]

theorem start_miniverse_returned {r : Miniverse × Container} (h : start_miniverse env m w = (.ok r, w')) :
    StartReturned m r w w' := by
  obtain ⟨_, w₁, hinit, h⟩ := Eff.bind_ok h
  obtain ⟨hdb₁, hcontrollers₁, hcontainers₁⟩ : Prepared w w₁ :=
    Eff.Within.of_run hinit (within_init_data_path (prepared_data env m.id))
  obtain ⟨_, w₂, hcommit, h⟩ := Eff.bind_ok h
  obtain ⟨hdb₂, hcontrollers₂, hcontainers₂⟩ := commit_returned hcommit
  obtain ⟨found, w₃, hfound, h⟩ := Eff.bind_ok h
  obtain ⟨rfl, hnamed⟩ := get_container_by_name_returned hfound
  have hbefore : w₂.containers = w.containers := hcontainers₂.trans hcontainers₁
  have hknown : w₂.controllers = w.controllers := hcontrollers₂.trans hcontrollers₁
  have hrows {m' : Miniverse} {db : Database} (hid : m'.id = m.id) (hdb : db = w₂.db.saveMiniverse m') :
      db = { w.db with miniverses := (w.db.saveMiniverse m').miniverses, mods := db.mods } := by
    rw [hdb, hdb₂]
    exact rows_twice hdb₁ hid
  cases found with
  | some c =>
      obtain ⟨hc, hname⟩ := hnamed c rfl
      obtain ⟨_, w₄, hcommit, h⟩ := Eff.bind_ok h
      obtain ⟨hdb₄, hcontrollers₄, hcontainers₄⟩ := commit_returned hcommit
      obtain ⟨_, w₅, hstart, h⟩ := Eff.bind_ok h
      obtain ⟨hdb₅, hcontrollers₅, hcontainers₅⟩ := start_container_returned hstart
      cases h
      have hcontainers : w'.containers = withStarted c.id w₂.containers := hcontainers₅.trans (congrArg _ hcontainers₄)
      exact {
        object := rfl
        rows := hrows rfl (hdb₅.trans hdb₄)
        serves := ⟨{ c with running := true }, hcontainers ▸ started_mem hc rfl, rfl, rfl, hname⟩
        servers := serversKept_started (hcontainers.trans (congrArg _ hbefore))
        controllers := Or.inl (hcontrollers₅.trans (hcontrollers₄.trans hknown)) }
  | none =>
      obtain ⟨⟨m', c⟩, w₄, hcreate, h⟩ := Eff.bind_ok h
      obtain ⟨hname, hm', hdb₄, hcontrollers₄, hcontainers₄⟩ := create_miniverse_container_returned hcreate
      dsimp only at hname hm' hdb₄ hcontainers₄
      obtain ⟨_, w₅, hstart, h⟩ := Eff.bind_ok h
      obtain ⟨hdb₅, hcontrollers₅, hcontainers₅⟩ := start_container_returned hstart
      obtain ⟨_, w₆, hcontrol, h⟩ := Eff.bind_ok h
      obtain ⟨k, control, hservice, hw₆⟩ := startController_returned hcontrol
      cases h
      subst hm' hw₆
      have hcontainers : w₅.containers = withStarted c.id (c :: w₂.containers) := hcontainers₅.trans (congrArg _ hcontainers₄)
      have hknown₅ : w₅.controllers = w.controllers := hcontrollers₅.trans (hcontrollers₄.trans hknown)
      have hadded : ServersKept w { w with containers := c :: w₂.containers } :=
        fun _ hd => Or.inl (List.mem_cons_of_mem _ (hbefore ▸ hd))
      exact {
        object := rfl
        rows := hrows rfl (hdb₅.trans hdb₄)
        serves := ⟨{ c with running := true }, hcontainers ▸ started_mem List.mem_cons_self rfl, rfl, rfl,
          hname ▸ List.infix_refl _⟩
        servers := hadded.trans (serversKept_started hcontainers)
        controllers := Or.inr ⟨k, control, (service_congr hknown₅ _).symm.trans hservice, setController_congr hknown₅ _ _⟩ }

end Backend
