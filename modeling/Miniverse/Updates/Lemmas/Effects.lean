import Miniverse.Calls.Lemmas.RoutesFile
import Miniverse.Updates.Service

/-!
# The effects of an update that returns
-/

namespace Backend

open Lib

variable {α β : Type} {env : Env α} {m m' : Miniverse} {data : MiniverseUpdate} {w w' : World α} {v : String}
  {force_update : Bool}

/-! ## The log -/

theorem logged_ok {step : UpdateStep} {f : Act α β} {b : β} (h : f w = (.ok b, w')) (l : List UpdateStep) :
    logged step f (w, l) = (.ok b, w', l ++ [step]) := by
  rw [logged, Eff.bind_run_ok (Eff.silent_ok h l)]
  rfl

theorem silent_when (c : Bool) (f : Act α Unit) : (Eff.when c (Eff.silent f) : LoggedAct α Unit) = Eff.silent (Eff.when c f) := by
  cases c with
  | true => rfl
  | false => rfl

theorem logged_upgrade_ok (h : update_miniverse_game_version env m v force_update w = (.ok m', w')) (l : List UpdateStep) :
    update_miniverse_game_version_logged env m v force_update (w, l) =
      (.ok m', w', l ++ [.stop_miniverse, .start_miniverse]) := by
  obtain ⟨_, w₁, hprepare, h⟩ := Eff.bind_ok h
  obtain ⟨stopped, w₂, hstop, h⟩ := Eff.bind_ok h
  obtain ⟨_, w₃, hcommit, h⟩ := Eff.bind_ok h
  obtain ⟨r, w₄, hstart, h⟩ := Eff.bind_ok h
  cases h
  rw [update_miniverse_game_version_logged, Eff.bind_run_ok (Eff.silent_ok hprepare l),
    Eff.bind_run_ok (logged_ok hstop l), Eff.bind_run_ok (Eff.silent_ok hcommit _), Eff.bind_run_ok (logged_ok hstart _),
    List.append_assoc]
  rfl

theorem logged_version_ok {version : Option String}
    (h : (version.elim (pure m) fun v => update_miniverse_game_version env m v false : Act α Miniverse) w = (.ok m', w'))
    (l : List UpdateStep) :
    (version.elim (pure m) fun v => update_miniverse_game_version_logged env m v false : LoggedAct α Miniverse) (w, l) =
      (.ok m', w', l ++ if version.isSome then [.stop_miniverse, .start_miniverse] else []) := by
  cases version with
  | none =>
      cases h
      rw [if_neg nofun, List.append_nil]
      rfl
  | some v => exact logged_upgrade_ok h l

theorem logged_when_ok {c : Bool} {step : UpdateStep} {f : Act α Unit} {a : Unit} (h : Eff.when c f w = (.ok a, w'))
    (l : List UpdateStep) : Eff.when c (logged step f) (w, l) = (.ok a, w', l ++ if c then [step] else []) := by
  cases c with
  | true => exact logged_ok h l
  | false =>
      cases h
      rw [if_neg nofun, List.append_nil]
      rfl

/-- The game version to change to. -/
def newVersion (m : Miniverse) (data : MiniverseUpdate) : Option String :=
  data.mc_version.filter fun v => decide ((data.apply m).mc_version ≠ v)

def routesChanged (m : Miniverse) (data : MiniverseUpdate) : Bool :=
  decide ((data.apply m).subdomain ≠ m.subdomain ∨ (data.apply m).allow_bedrock ≠ m.allow_bedrock)

/-- The server is stopped and started for a new game version only. -/
theorem updateLog_eq (h : update_miniverse env m data w = (.ok m', w')) :
    updateLog env m data w = (if (newVersion m data).isSome then [.stop_miniverse, .start_miniverse] else []) ++
      if routesChanged m data then [.update_proxy_config] else [] := by
  obtain ⟨_, w₁, hname, h⟩ := Eff.bind_ok h
  obtain ⟨_, w₂, hsubdomain, h⟩ := Eff.bind_ok h
  obtain ⟨_, w₃, hcommit, h⟩ := Eff.bind_ok h
  obtain ⟨m₁, w₄, hupgrade, h⟩ := Eff.bind_ok h
  rw [should_restart_eq_false, Eff.when_false] at h
  obtain ⟨_, w₅, hrestart, h⟩ := Eff.bind_ok h
  cases hrestart
  obtain ⟨_, w₆, hroutes, h⟩ := Eff.bind_ok h
  have hroutes : Eff.when (routesChanged m data) (update_proxy_config env) w₄ = (.ok (), w₆) := hroutes
  obtain ⟨_, w₇, hpublish, h⟩ := Eff.bind_ok h
  rw [updateLog, update_miniverse_logged, Eff.bind_run_ok (Eff.silent_ok hname []),
    Eff.bind_run_ok (Eff.silent_ok hsubdomain [])]
  rw [silent_when, Eff.bind_run_ok (Eff.silent_ok hcommit []), Eff.bind_run_ok (logged_version_ok hupgrade []),
    should_restart_eq_false, Eff.when_false, silent_when]
  show ((Eff.when (routesChanged m data) _ >>= _ : LoggedAct α Miniverse) (w₄, _)).2.2 = _
  rw [Eff.bind_run_ok (logged_when_ok hroutes _), Eff.bind_run_ok (Eff.silent_ok hpublish _)]
  rfl

/-! ## The values -/

/-- The fields that are given have the given values. -/
structure MiniverseUpdate.Holds (data : MiniverseUpdate) (r : Miniverse) : Prop where
  name : ∀ v, data.name = some v → r.name = v
  description : ∀ v, data.description = some v → r.description = some v
  subdomain : ∀ v, data.subdomain = some v → r.subdomain = v
  java_version : ∀ v, data.java_version = some v → r.java_version = some v
  allow_bedrock : ∀ v, data.allow_bedrock = some v → r.allow_bedrock = v
  online_mode : ∀ v, data.online_mode = some v → r.online_mode = v

theorem holds_apply (data : MiniverseUpdate) (m : Miniverse) : data.Holds (data.apply m) where
  name v h := by simp [MiniverseUpdate.apply, h]
  description v h := by simp [MiniverseUpdate.apply, h]
  subdomain v h := by simp [MiniverseUpdate.apply, h]
  java_version v h := by simp [MiniverseUpdate.apply, h]
  allow_bedrock v h := by simp [MiniverseUpdate.apply, h]
  online_mode v h := by simp [MiniverseUpdate.apply, h]

/-- The rest of the object does not matter. -/
theorem MiniverseUpdate.Holds.restarted (h : data.Holds m) (started : Bool) (container_id : Option String) (v : String) :
    data.Holds { m with started := started, container_id := container_id, mc_version := v } where
  name := h.name
  description := h.description
  subdomain := h.subdomain
  java_version := h.java_version
  allow_bedrock := h.allow_bedrock
  online_mode := h.online_mode

theorem returns_start_object (m : Miniverse) :
    (start_miniverse env m).Returns fun r => ∃ container_id, r.1 = { m with started := true, container_id := container_id } := by
  intro w r w' h
  obtain ⟨_, w₁, _, h⟩ := Eff.bind_ok h
  obtain ⟨_, w₂, _, h⟩ := Eff.bind_ok h
  obtain ⟨existing, w₃, _, h⟩ := Eff.bind_ok h
  cases existing with
  | some c =>
      obtain ⟨_, w₄, _, h⟩ := Eff.bind_ok h
      obtain ⟨_, w₅, _, h⟩ := Eff.bind_ok h
      cases h
      exact ⟨_, rfl⟩
  | none =>
      obtain ⟨_, w₄, hcreate, h⟩ := Eff.bind_ok h
      obtain ⟨_, w₅, _, hcreate⟩ := Eff.bind_ok hcreate
      obtain ⟨_, w₆, _, hcreate⟩ := Eff.bind_ok hcreate
      cases hcreate
      obtain ⟨_, w₇, _, h⟩ := Eff.bind_ok h
      obtain ⟨_, w₈, _, h⟩ := Eff.bind_ok h
      obtain ⟨_, w₉, _, h⟩ := Eff.bind_ok h
      cases h
      exact ⟨_, rfl⟩

theorem returns_upgrade_object (m : Miniverse) (v : String) :
    (update_miniverse_game_version env m v force_update).Returns fun m' =>
      ∃ container_id, m' = { m with started := true, container_id := container_id, mc_version := v } := by
  intro w m' w' h
  obtain ⟨_, w₁, _, h⟩ := Eff.bind_ok h
  obtain ⟨stopped, w₂, hstop, h⟩ := Eff.bind_ok h
  obtain rfl := returns_stop_miniverse m w₁ stopped w₂ hstop
  obtain ⟨_, w₃, _, h⟩ := Eff.bind_ok h
  obtain ⟨r, w₄, hstart, h⟩ := Eff.bind_ok h
  cases h
  exact returns_start_object _ w₃ r w' hstart

/-! ## The rows and the events -/

/-- There is a row of the miniverse, and it has the given values. -/
def HoldsAt (id : Uuid4) (data : MiniverseUpdate) (w : World α) : Prop :=
  (∃ r ∈ w.db.miniverses, r.id = id) ∧ ∀ r ∈ w.db.miniverses, r.id = id → data.Holds r

/-- No event is taken back, and the row keeps the given values. -/
def Effective (id : Uuid4) (data : MiniverseUpdate) : World α → World α → Prop := fun w w' =>
  w.events <+: w'.events ∧ (HoldsAt id data w → HoldsAt id data w')

variable {id : Uuid4}

instance : Calm (Effective (α := α) id data) where
  refl _ := ⟨List.prefix_refl _, fun h => h⟩
  trans _ _ _ h₁ h₂ := ⟨h₁.1.trans h₂.1, fun h => h₂.2 (h₁.2 h)⟩
  tick _ _ := ⟨List.prefix_refl _, fun h => h⟩
  events _ _ := ⟨List.prefix_append _ _, fun h => h⟩
  containers _ _ := ⟨List.prefix_refl _, fun h => h⟩

theorem holdsAt_saveMiniverse {db : Database} (hid : m.id = id) (hholds : data.Holds m) (hrow : ∃ r ∈ db.miniverses, r.id = id)
    (w : World α) : HoldsAt id data { w with db := db.saveMiniverse m } := by
  obtain ⟨r, hr, hrid⟩ := hrow
  refine ⟨⟨m, List.mem_map.mpr ⟨r, hr, if_pos (hrid.trans hid.symm)⟩, hid⟩, fun r hr hrid => ?_⟩
  obtain ⟨r', _, rfl⟩ := List.mem_map.mp hr
  by_cases h : r'.id = m.id
  · rw [if_pos h]
    exact hholds
  · rw [if_neg h] at hrid
    exact absurd (hrid.trans hid.symm) h

theorem effective_object (id : Uuid4) (data : MiniverseUpdate) : AllowsObject (Effective (α := α) id data) id data.Holds where
  save hid hholds := ⟨List.prefix_refl _, fun h => holdsAt_saveMiniverse hid hholds h.1 _⟩
  control _ _ := ⟨List.prefix_refl _, fun h => h⟩
  state started container_id hholds := hholds.restarted started container_id _

theorem effective_onDisk {f : Fs α β} : (onDisk f : Act α β).Within (Effective id data) :=
  fun _ => ⟨List.prefix_refl _, fun h => h⟩

theorem effective_data (env : Env α) (id : Uuid4) (data : MiniverseUpdate) :
    AllowsData env (Effective id data) id fun _ => True where
  mkdirs := effective_onDisk
  write _ _ _ := effective_onDisk
  unlink _ _ := effective_onDisk
  answers _ _ := trivial
  rows h := h fun _ _ => trivial
  save_mod _ _ _ _ _ := ⟨List.prefix_refl _, fun h => h⟩
  add_mod _ _ _ := ⟨List.prefix_refl _, fun h => h⟩
  mkdirs_below _ _ := effective_onDisk
  write_below _ _ _ := effective_onDisk

theorem effective_upgrade (hholds : data.Holds m) (v : String) :
    (update_miniverse_game_version env m v force_update).Within (Effective m.id data) :=
  within_upgrade_object (effective_object m.id data) (effective_data env m.id data) hholds force_update fun _ _ =>
    hholds.restarted false none v

/-! ## The routes -/

theorem update_proxy_config_returned {a : Unit} (h : update_proxy_config env w = (.ok a, w')) : InStep env w' := by
  rw [update_proxy_config, query, Eff.read_bind_run] at h
  obtain ⟨_, w₁, hmkdirs, h⟩ := Eff.bind_ok h
  obtain ⟨_, w₂, hwrite, h⟩ := Eff.bind_ok h
  obtain ⟨_, hw₁⟩ := onDisk_ok hmkdirs
  obtain ⟨hwritten, hw₂⟩ := onDisk_ok hwrite
  have hrest : (do
      (← get_container_by_name env "miniverse-router").elim (pure ()) fun router_container =>
        kill_container env router_container.id : Act α Unit).Within (Same World.store) :=
    (within_get_container_by_name _).bind fun _ => Eff.Within.elim (Eff.Within.pure _) fun _ _ => within_kill_container _
  have hstore : Same World.store w₂ w' := hrest.of_run h
  obtain ⟨hdb, hdisk⟩ : w'.db = w₂.db ∧ w'.disk = w₂.disk := Prod.ext_iff.mp hstore
  have hrows : w₂.db = w.db := by rw [hw₂, hw₁]
  unfold InStep
  rw [hdisk, hdb, hrows]
  exact Disk.write_returned hwritten

/-! ## An update that returns -/

/-- The upgrade, the routes and the event of an update. -/
theorem finish_update_returned (h : finish_update env m data w = (.ok m', w')) :
    ∃ w₁ w₂, ((newVersion m data).elim (pure (data.apply m)) fun v =>
        update_miniverse_game_version env (data.apply m) v false : Act α Miniverse) w = (.ok m', w₁) ∧
      Eff.when (routesChanged m data) (update_proxy_config env) w₁ = (.ok (), w₂) ∧
      w' = if data.apply m ≠ m ∨ (newVersion m data).isSome then
        { w₂ with events := w₂.events ++ [⟨.updated, m'.id.str, none⟩] } else w₂ := by
  obtain ⟨m₁, w₁, hupgrade, h⟩ := Eff.bind_ok h
  obtain ⟨_, w₂, hroutes, h⟩ := Eff.bind_ok h
  obtain ⟨_, w₃, hpublish, h⟩ := Eff.bind_ok h
  cases h
  refine ⟨w₁, w₂, hupgrade, hroutes, ?_⟩
  have hpublish : Eff.when (decide (data.apply m ≠ m) || (newVersion m data).isSome) (publish .updated m'.id.str none) w₂ =
      (.ok (), w') := hpublish
  by_cases hchanged : data.apply m ≠ m ∨ (newVersion m data).isSome = true
  · have hdue : (decide (data.apply m ≠ m) || (newVersion m data).isSome) = true := by simpa using hchanged
    rw [hdue, Eff.when_true] at hpublish
    rw [if_pos hchanged]
    exact (congrArg Prod.snd hpublish).symm
  · have hdue : (decide (data.apply m ≠ m) || (newVersion m data).isSome) = false := by simpa using hchanged
    rw [hdue] at hpublish
    rw [if_neg hchanged]
    exact (congrArg Prod.snd hpublish).symm

/-- The object after the upgrade. -/
inductive UpdatedObject (m : Miniverse) (data : MiniverseUpdate) : Miniverse → Prop
  | unchanged : newVersion m data = none → UpdatedObject m data (data.apply m)
  | started {v : String} {container_id : Option String} : newVersion m data = some v →
      UpdatedObject m data { data.apply m with started := true, container_id := container_id, mc_version := v }

theorem updatedObject_of_run {w₁ : World α} (h : ((newVersion m data).elim (pure (data.apply m)) fun v =>
    update_miniverse_game_version env (data.apply m) v false : Act α Miniverse) w = (.ok m', w₁)) : UpdatedObject m data m' := by
  cases hversion : newVersion m data with
  | none =>
      rw [hversion] at h
      cases h
      exact .unchanged hversion
  | some v =>
      rw [hversion] at h
      obtain ⟨container_id, rfl⟩ := returns_upgrade_object _ v w m' w₁ h
      exact .started hversion

theorem UpdatedObject.holds (h : UpdatedObject m data m') : data.Holds m' := by
  cases h with
  | unchanged _ => exact holds_apply data m
  | started _ => exact (holds_apply data m).restarted _ _ _

theorem UpdatedObject.same_id (h : UpdatedObject m data m') : m'.id = m.id := by
  cases h with
  | unchanged _ => rfl
  | started _ => rfl

theorem UpdatedObject.routes (h : UpdatedObject m data m')
    (hchanged : m'.subdomain ≠ m.subdomain ∨ m'.allow_bedrock ≠ m.allow_bedrock) : routesChanged m data = true := by
  cases h with
  | unchanged _ => exact decide_eq_true hchanged
  | started _ => exact decide_eq_true hchanged

/-- Without an effect on the fields and the game version, the object is the one before. -/
theorem UpdatedObject.eq (h : UpdatedObject m data m') (hno : ¬ (data.apply m ≠ m ∨ (newVersion m data).isSome = true)) : m' = m := by
  rw [not_or, not_not] at hno
  obtain ⟨hsame, hversion⟩ := hno
  cases h with
  | unchanged _ => exact hsame
  | started hnew =>
      rw [hnew] at hversion
      exact absurd rfl hversion

end Backend
