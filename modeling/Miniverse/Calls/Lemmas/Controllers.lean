import Miniverse.Calls.Lemmas.Addresses
import Miniverse.Miniverses.Lemmas.Answers

/-!
# The classes of the controllers

The class of a controller is chosen once, from the version that the row has then.
-/

namespace Backend

open Lib

variable {α β : Type} {env : Env α} {w w' : World α} {m : Miniverse} {id : Uuid4} {all_versions : List MinecraftVersion}

/-- The version is newer than the last one without a management server. -/
def SupportsWebSockets (all_versions : List MinecraftVersion) (mc_version : String) : Prop :=
  compare_versions (.ok all_versions) mc_version "1.21.9" = .ok (some 1)

/-- The class of the controller that is registered. -/
def registeredClass (w : World α) (m : Miniverse) : Option Bool := (w.service m.id.str).map fun e => e.2.isWebSocket

/-- The class that `add_miniverse` chooses in a process without controllers. -/
def chosenClass (env : Env α) (w : World α) (m : Miniverse) : Option Bool :=
  registeredClass (add_miniverse env m { w with controllers := [] }).2 m

/-- Every row has a controller, every controller a row, and its class fits the version of the row. -/
structure Fitting (all_versions : List MinecraftVersion) (w : World α) : Prop where
  registered : ∀ r ∈ w.db.miniverses, Registered w r.id
  owned : ∀ e ∈ w.controllers, ∃ r ∈ w.db.miniverses, r.id = e.1
  fits : ∀ r ∈ w.db.miniverses, ∀ c, (r.id, c) ∈ w.controllers →
    (c.isWebSocket = true ↔ SupportsWebSockets all_versions r.mc_version)

/-! ## Calls that keep the classes -/

/-- While the versions of the miniverse are on one side, the controllers fit. -/
def FittingKept (all_versions : List MinecraftVersion) (id : Uuid4) (side : Prop) : World α → World α → Prop := fun w w' =>
  (∀ r ∈ w.db.miniverses, r.id = id → (SupportsWebSockets all_versions r.mc_version ↔ side)) → Fitting all_versions w →
    (∀ r ∈ w'.db.miniverses, r.id = id → (SupportsWebSockets all_versions r.mc_version ↔ side)) ∧ Fitting all_versions w'

variable {side : Prop}

instance : Calm (FittingKept (α := α) all_versions id side) where
  refl _ hside h := ⟨hside, h⟩
  trans _ _ _ h₁ h₂ hside h := h₂ (h₁ hside h).1 (h₁ hside h).2
  tick _ _ hside h := ⟨hside, h.registered, h.owned, h.fits⟩
  events _ _ hside h := ⟨hside, h.registered, h.owned, h.fits⟩
  containers _ _ hside h := ⟨hside, h.registered, h.owned, h.fits⟩

theorem fittingKept_onDisk (f : Fs α β) : (onDisk f : Act α β).Within (FittingKept all_versions id side) :=
  fun _ hside h => ⟨hside, h.registered, h.owned, h.fits⟩

theorem Fitting.saveMiniverse (h : Fitting all_versions w)
    (hside : ∀ r ∈ w.db.miniverses, r.id = m.id →
      (SupportsWebSockets all_versions r.mc_version ↔ SupportsWebSockets all_versions m.mc_version)) :
    Fitting all_versions { w with db := w.db.saveMiniverse m } where
  registered r hr := by
    obtain ⟨r', hr', rfl⟩ := List.mem_map.mp hr
    have hreg := h.registered r' hr'
    split
    · rename_i hm
      exact hm ▸ hreg
    · exact hreg
  owned e he := by
    obtain ⟨r, hr, hid⟩ := h.owned e he
    refine ⟨if r.id = m.id then m else r, List.mem_map.mpr ⟨r, hr, rfl⟩, ?_⟩
    split
    · rename_i hm
      exact hm.symm.trans hid
    · exact hid
  fits r hr c hc := by
    obtain ⟨r', hr', rfl⟩ := List.mem_map.mp hr
    by_cases hm : r'.id = m.id
    · rw [if_pos hm] at hc ⊢
      rw [← hm] at hc
      exact (h.fits r' hr' c hc).trans (hside r' hr' hm)
    · rw [if_neg hm] at hc ⊢
      exact h.fits r' hr' c hc

theorem service_mem {miniverse_id : String} {c : Controller} (h : (w.service miniverse_id).map Prod.snd = some c) :
    ∃ k : Uuid4, k.str = miniverse_id ∧ (k, c) ∈ w.controllers := by
  obtain ⟨⟨k, c'⟩, hservice, rfl⟩ := Option.map_eq_some_iff.mp h
  unfold World.service at hservice
  exact ⟨k, by simpa using List.find?_some hservice, List.mem_of_find?_eq_some hservice⟩

theorem Fitting.setController (h : Fitting all_versions w) {c c' : Controller}
    (hservice : (w.service id.str).map Prod.snd = some c) (hclass : c'.isWebSocket = c.isWebSocket) :
    Fitting all_versions (w.setController id c') where
  registered r hr := (registered_setController c' id).mpr (h.registered r hr)
  owned e he := by
    obtain ⟨e', he', rfl⟩ := List.mem_map.mp he
    obtain ⟨r, hr, hid⟩ := h.owned e' he'
    refine ⟨r, hr, ?_⟩
    split
    · rename_i hid'
      exact hid.trans hid'
    · exact hid
  fits r hr d hd := by
    obtain ⟨e', he', heq⟩ := List.mem_map.mp hd
    by_cases hid : e'.1 = id
    · rw [if_pos hid, Prod.mk.injEq] at heq
      obtain ⟨k, hk, hmem⟩ := service_mem hservice
      obtain rfl := Uuid4.eq_of_str hk
      rw [← heq.2, hclass]
      exact h.fits r hr c (heq.1 ▸ hmem)
    · rw [if_neg hid] at heq
      exact h.fits r hr d (heq ▸ he')

theorem fittingKept_object (all_versions : List MinecraftVersion) (id : Uuid4) (side : Prop) :
    AllowsObject (FittingKept (α := α) all_versions id side) id fun m =>
      (SupportsWebSockets all_versions m.mc_version ↔ side) where
  save hid hm hside h := by
    refine ⟨fun r hr hrid => ?_, h.saveMiniverse fun r hr hrid => (hside r hr (hrid.trans hid)).trans hm.symm⟩
    obtain ⟨r', hr', rfl⟩ := List.mem_map.mp hr
    split
    · exact hm
    · rename_i hne
      rw [if_neg hne] at hrid
      exact hside r' hr' hrid
  control hservice hclass hside h := ⟨hside, h.setController hservice hclass⟩
  state _ _ hm := hm

theorem fittingKept_data (env : Env α) (all_versions : List MinecraftVersion) (id : Uuid4) (side : Prop) :
    AllowsData env (FittingKept all_versions id side) id fun _ => True where
  mkdirs := fittingKept_onDisk _
  write _ _ _ := fittingKept_onDisk _
  unlink _ _ := fittingKept_onDisk _
  answers _ _ := trivial
  rows h := h fun _ _ => trivial
  save_mod _ _ _ _ _ hside h := ⟨hside, h.registered, h.owned, h.fits⟩
  add_mod _ _ _ hside h := ⟨hside, h.registered, h.owned, h.fits⟩
  mkdirs_below _ _ := fittingKept_onDisk _
  write_below _ _ _ := fittingKept_onDisk _

theorem fittingKept_update_proxy_config : (update_proxy_config env).Within (FittingKept all_versions id side) := by
  refine (within_query _).bind fun _ => (fittingKept_onDisk _).bind fun _ => (fittingKept_onDisk _).bind fun _ => ?_
  exact (within_get_container_by_name _).bind fun _ => Eff.Within.elim (Eff.Within.pure _) fun _ _ => within_kill_container _

/-! ## Creating -/

/-- A first controller is of the class for the version. -/
theorem add_miniverse_first (hversions : ∀ n, env.get_minecraft_versions n = .ok all_versions) (hno : ¬ Registered w m.id) :
    (∃ e, add_miniverse env m w = (.error e, w.next)) ∨
      ∃ c : Controller, (c.isWebSocket = true ↔ SupportsWebSockets all_versions m.mc_version) ∧
        add_miniverse env m w = (.ok (), w.next.register m.id c) := by
  unfold add_miniverse get_miniverse_controller
  rw [Eff.read_bind_run]
  cases hservice : w.service m.id.str with
  | some kc =>
      obtain ⟨k, c⟩ := kc
      obtain ⟨hreg, hstr⟩ := registered_of_service hservice
      exact absurd (Uuid4.eq_of_str hstr ▸ hreg) hno
  | none =>
      rcases ask_cases (fun n => compare_versions (env.get_minecraft_versions n) m.mc_version "1.21.9") w with
        ⟨e, _, hrun⟩ | ⟨c, hc, hrun⟩
      · have hrun : compareVersions env m.mc_version "1.21.9" w = (.error e, w.next) := hrun
        exact Or.inl ⟨e, Eff.bind_run_error hrun _⟩
      · have hrun : compareVersions env m.mc_version "1.21.9" w = (.ok c, w.next) := hrun
        refine Or.inr ⟨_, ?_, Eff.bind_run_ok hrun _⟩
        rw [hversions] at hc
        rw [SupportsWebSockets, hc]
        by_cases hc1 : c = some 1
        · simp [hc1, Controller.isWebSocket]
        · simp [hc1, Controller.isWebSocket]

/-- What is chosen in a process without controllers is the class for the version. -/
theorem chosenClass_fits (hversions : ∀ n, env.get_minecraft_versions n = .ok all_versions) {b : Bool}
    (h : chosenClass env w m = some b) : b = true ↔ SupportsWebSockets all_versions m.mc_version := by
  unfold chosenClass at h
  rcases add_miniverse_first (w := { w with controllers := [] }) (m := m) hversions nofun with
    ⟨e, hrun⟩ | ⟨c, hclass, hrun⟩
  · rw [hrun] at h
    cases h
  · have hfind : (World.register m.id c { w with controllers := [] }.next).service m.id.str = some (m.id, c) := by
      simp [World.register, World.service]
    rw [hrun, registeredClass, hfind] at h
    cases h
    exact hclass

theorem Fitting.registeredClass (h : Fitting all_versions w) (hm : m ∈ w.db.miniverses) :
    ∃ b, registeredClass w m = some b ∧ (b = true ↔ SupportsWebSockets all_versions m.mc_version) := by
  obtain ⟨c, hc⟩ := service_of_registered (h.registered m hm)
  refine ⟨c.isWebSocket, ?_, h.fits m hm c ?_⟩
  · rw [Backend.registeredClass, hc]
    rfl
  · unfold World.service at hc
    exact List.mem_of_find?_eq_some hc

theorem row_unique (hids : (w.db.addresses.map Prod.fst).Nodup) (hm : m ∈ w.db.miniverses) :
    ∀ r ∈ w.db.miniverses, r.id = m.id → r = m := by
  rw [ids_addresses] at hids
  exact fun r hr hid => List.inj_on_of_nodup_map hids hr hm hid

theorem side_of_row (hrow : ∀ r ∈ w.db.miniverses, r.id = m.id → r = m) :
    ∀ r ∈ w.db.miniverses, r.id = m.id →
      (SupportsWebSockets all_versions r.mc_version ↔ SupportsWebSockets all_versions m.mc_version) := by
  intro r hr hid
  rw [hrow r hr hid]

/-- A new row that gets its controller fits, whatever comes after that. -/
theorem set_up_fitting {m' : Miniverse} (hversions : ∀ n, env.get_minecraft_versions n = .ok all_versions)
    (h : set_up_miniverse env m w = (.ok m', w')) (hno : ¬ Registered w m.id) (hrow : ∀ r ∈ w.db.miniverses, r.id = m.id → r = m) (hm : m ∈ w.db.miniverses)
    (hregistered : ∀ r ∈ w.db.miniverses, r.id = m.id ∨ Registered w r.id)
    (howned : ∀ e ∈ w.controllers, ∃ r ∈ w.db.miniverses, r.id = e.1)
    (hfits : ∀ r ∈ w.db.miniverses, ∀ c, (r.id, c) ∈ w.controllers →
      (c.isWebSocket = true ↔ SupportsWebSockets all_versions r.mc_version)) : Fitting all_versions w' := by
  obtain ⟨_, w₁, hmk, hrun⟩ := Eff.bind_ok h
  obtain ⟨_, w₂, hadd, hstart⟩ := Eff.bind_ok hrun
  have hw₁ : (onDisk (Disk.mkdirs (miniverse_data_path env.toPlatform m.id)) w : Except PyError Unit × World α).2 = w₁ :=
    congrArg Prod.snd hmk
  have hdb₁ : w₁.db = w.db := hw₁ ▸ rfl
  have hcontrollers₁ : w₁.controllers = w.controllers := hw₁ ▸ rfl
  obtain ⟨c, hclass, hw₂⟩ : ∃ c : Controller,
      (c.isWebSocket = true ↔ SupportsWebSockets all_versions m.mc_version) ∧ w₂ = w₁.next.register m.id c := by
    have hno₁ : ¬ Registered w₁ m.id := by rwa [Registered, hcontrollers₁]
    rcases add_miniverse_first hversions hno₁ with ⟨e, herror⟩ | ⟨c, hclass, hok⟩
    · cases herror.symm.trans hadd
    · exact ⟨c, hclass, (congrArg Prod.snd (hok.symm.trans hadd)).symm⟩
  have hdb : w₂.db = w.db := hw₂ ▸ hdb₁
  have hcontrollers : w₂.controllers = w.controllers ++ [(m.id, c)] := by
    rw [hw₂, World.register, World.next_controllers, hcontrollers₁]
  have hkept : FittingKept all_versions m.id (SupportsWebSockets all_versions m.mc_version) w₂ w' :=
    Eff.Within.of_run hstart ((within_start_object (fittingKept_object all_versions m.id _)
      (within_init_data_path (fittingKept_data env all_versions m.id _)) Iff.rfl).bind fun _ =>
        fittingKept_update_proxy_config.bind fun _ => (within_query _).bind fun _ => (within_publish _ _ _).bind fun _ =>
          Eff.Within.pure _)
  refine (hkept (hdb ▸ side_of_row hrow) ⟨?_, ?_, ?_⟩).2
  · rw [hdb]
    intro r hr
    rw [Registered, hcontrollers, List.map_append]
    rcases hregistered r hr with hid | hreg
    · exact List.mem_append_right _ (List.mem_singleton.mpr hid)
    · exact List.mem_append_left _ hreg
  · rw [hdb, hcontrollers]
    intro e he
    rcases List.mem_append.mp he with he | he
    · exact howned e he
    · rw [List.mem_singleton.mp he]
      exact ⟨m, hm, rfl⟩
  · rw [hdb, hcontrollers]
    intro r hr d hd
    rcases List.mem_append.mp hd with hd | hd
    · exact hfits r hr d hd
    · obtain ⟨hid, rfl⟩ := Prod.mk.injEq .. ▸ List.mem_singleton.mp hd
      rw [hrow r hr hid]
      exact hclass

theorem create_fitting (hversions : ∀ n, env.get_minecraft_versions n = .ok all_versions) (h : Fitting all_versions w)
    {data : MiniverseCreate} {creator : User} {m' : Miniverse} (hrun : create_miniverse env data creator w = (.ok m', w')) :
    Fitting all_versions w' := by
  rcases create_miniverse_cases env data creator w with ⟨e, _, herror, _⟩ | ⟨s, _, hfresh, _, hcreate⟩
  · rw [herror] at hrun
    cases hrun
  · rw [hcreate] at hrun
    generalize hm : data.toMiniverse (env.uuid4 w.tick) s (env.random_string (w.tick + 1)) = m at hrun
    have hid : m.id = env.uuid4 w.tick := hm ▸ rfl
    rw [← hid] at hfresh
    obtain ⟨_, w₁, hrole, hrun⟩ := Eff.bind_ok hrun
    rcases commit_cases env (fun db => { db with user_roles := db.user_roles ++ [⟨creator.id, env.uuid4 w.tick, .admin⟩] })
      { w.next.next.next with db := { w.db with miniverses := w.db.miniverses ++ [m] } } with ⟨e, herror⟩ | hcommit
    · rw [herror] at hrole
      cases hrole
    rw [hcommit] at hrole
    cases hrole
    -- no controller waits for the new identifier
    have hno : ¬ Registered w m.id := by
      intro hreg
      obtain ⟨e, he, heq⟩ := List.mem_map.mp hreg
      obtain ⟨r, hr, hrid⟩ := h.owned e he
      exact hfresh r hr (hrid.trans heq)
    refine set_up_fitting hversions hrun hno (fun r hr hrid => ?_) (List.mem_append_right _ (List.mem_singleton_self m))
      (fun r hr => ?_) (fun e he => ?_) (fun r hr c hc => ?_)
    · rcases List.mem_append.mp hr with hr | hr
      · exact absurd hrid (hfresh r hr)
      · exact List.mem_singleton.mp hr
    · rcases List.mem_append.mp hr with hr | hr
      · exact Or.inr (h.registered r hr)
      · exact Or.inl (congrArg Miniverse.id (List.mem_singleton.mp hr))
    · obtain ⟨r, hr, hrid⟩ := h.owned e he
      exact ⟨r, List.mem_append_left _ hr, hrid⟩
    · rcases List.mem_append.mp hr with hr | hr
      · exact h.fits r hr c hc
      · rw [List.mem_singleton.mp hr] at hc
        exact absurd (List.mem_map.mpr ⟨_, hc, rfl⟩) hno

/-! ## Deleting -/

/-- The rows stay, and controllers go only under the identifier. -/
def Fewer (id : Uuid4) (w w' : World α) : Prop :=
  w'.db = w.db ∧ w'.controllers.Sublist w.controllers ∧ ∀ e ∈ w.controllers, e.1 ≠ id → e ∈ w'.controllers

instance : Calm (Fewer (α := α) id) where
  refl _ := ⟨rfl, List.Sublist.refl _, fun _ he _ => he⟩
  trans _ _ _ h₁ h₂ := ⟨h₂.1.trans h₁.1, h₂.2.1.trans h₁.2.1, fun e he hne => h₂.2.2 e (h₁.2.2 e he hne) hne⟩
  tick _ _ := ⟨rfl, List.Sublist.refl _, fun _ he _ => he⟩
  events _ _ := ⟨rfl, List.Sublist.refl _, fun _ he _ => he⟩
  containers _ _ := ⟨rfl, List.Sublist.refl _, fun _ he _ => he⟩

theorem fewer_onDisk (f : Fs α β) : (onDisk f : Act α β).Within (Fewer id) :=
  fun _ => ⟨rfl, List.Sublist.refl _, fun _ he _ => he⟩

theorem fewer_unregister (w : World α) : Fewer id w (w.unregister id.str) := by
  refine ⟨rfl, List.filter_sublist, fun e he hne => List.mem_filter.mpr ⟨he, ?_⟩⟩
  exact decide_eq_true fun heq => hne (Uuid4.eq_of_str heq)

/-- Where a deletion gets to its commit, the controller is gone. -/
theorem dismantle_unregisters (h : dismantle env m w = (.ok (), w')) : ∀ e ∈ w'.controllers, e.1 ≠ m.id := by
  unfold dismantle remove_miniverse get_miniverse_controller at h
  rw [bind_assoc, Eff.read_bind_run, bind_assoc, Eff.modify_bind_run] at h
  have hrest : ∀ c : Option Controller, ((c.elim (pure ()) fun control => do
        let _ ← control.stop env m.id : Act α Unit) >>= fun _ => do
      (truthy m.container_id).elim (pure ()) (remove_container env)
      remove_volume env m.id).Within (Fewer m.id) := fun c =>
    (Eff.Within.elim (Eff.Within.pure _) fun c _ => (within_controller_stop c).bind fun _ => Eff.Within.pure _).bind fun _ =>
      (Eff.Within.elim (Eff.Within.pure _) fun _ _ => within_remove_container _).bind fun _ => fewer_onDisk _
  have hfewer := hrest ((w.service m.id.str).map Prod.snd) (w.unregister m.id.str)
  rw [h] at hfewer
  intro e he heq
  have hkept := (List.mem_filter.mp (hfewer.2.1.subset he)).2
  exact of_decide_eq_true hkept (congrArg Uuid4.str heq)

theorem delete_fitting (h : Fitting all_versions w) {a : Unit} (hrun : delete_miniverse env m w = (.ok a, w')) :
    Fitting all_versions w' := by
  rcases delete_miniverse_cases env m (R := Fewer m.id) fewer_unregister (fewer_onDisk _) w with
    ⟨e, _, herror, _⟩ | ⟨w₁, hfewer, hdismantled, _, hdelete⟩
  · rw [herror] at hrun
    cases hrun
  · obtain ⟨hdb, hsub, hother⟩ := hfewer
    have hgone := dismantle_unregisters hdismantled
    have hfinish : (finish_delete env m.id (w₁.db.rolesOf m.id)).Within (Fewer m.id) :=
      (within_ask _).bind fun _ => Eff.Within.bind ((within_query _).bind fun _ => (fewer_onDisk _).bind fun _ =>
        (fewer_onDisk _).bind fun _ => (within_get_container_by_name _).bind fun _ =>
          Eff.Within.elim (Eff.Within.pure _) fun _ _ => within_kill_container _) fun _ => within_publish _ _ _
    have hfewer' := hfinish { w₁.next with db := w₁.db.deleteMiniverse m.id }
    rw [hdelete] at hrun
    rw [hrun] at hfewer'
    obtain ⟨hdb', hsub', hother'⟩ := hfewer'
    replace hdb' : w'.db = w₁.db.deleteMiniverse m.id := hdb'
    have hkept : ∀ r ∈ w'.db.miniverses, r ∈ w.db.miniverses ∧ r.id ≠ m.id := by
      intro r hr
      rw [hdb', hdb] at hr
      exact ⟨(List.mem_filter.mp hr).1, of_decide_eq_true (List.mem_filter.mp hr).2⟩
    refine ⟨fun r hr => ?_, fun e he => ?_, fun r hr c hc => ?_⟩
    · obtain ⟨hr, hne⟩ := hkept r hr
      obtain ⟨e, he, hid⟩ := List.mem_map.mp (h.registered r hr)
      have hne' : e.1 ≠ m.id := hid ▸ hne
      exact List.mem_map.mpr ⟨e, hother' e (hother e he hne') hne', hid⟩
    · have he' := hsub'.subset he
      obtain ⟨r, hr, hid⟩ := h.owned e (hsub.subset he')
      refine ⟨r, ?_, hid⟩
      rw [hdb', hdb]
      exact List.mem_filter.mpr ⟨hr, decide_eq_true fun heq => hgone e he' (hid.symm.trans heq)⟩
    · exact h.fits r (hkept r hr).1 c (hsub.subset (hsub'.subset hc))

/-! ## Calls -/

/-- An update leaves the version on its side of the threshold. -/
def SameSide (all_versions : List MinecraftVersion) (w : World α) : MiniverseCall → Prop
  | .update_miniverse miniverse_id data => ∀ m, w.db.findMiniverse miniverse_id = some m → ∀ v, data.mc_version = some v →
      (SupportsWebSockets all_versions v ↔ SupportsWebSockets all_versions m.mc_version)
  | _ => True

/-- A call on a row that keeps the side of its version. -/
theorem fitting_of_kept (hids : (w.db.addresses.map Prod.fst).Nodup) (h : Fitting all_versions w) {miniverse_id : String}
    {k : Miniverse → Act α β} (hkept : ∀ m, w.db.findMiniverse miniverse_id = some m →
      (k m).Within (FittingKept all_versions m.id (SupportsWebSockets all_versions m.mc_version))) :
    Fitting all_versions (withRow miniverse_id (fun m => do let _ ← k m) w).2 := by
  rw [withRow, query, Eff.read_bind_run]
  cases hm : w.db.findMiniverse miniverse_id with
  | none => exact h
  | some m =>
      rw [Option.elim_some, bind_unit_state]
      exact (hkept m hm w (side_of_row (row_unique hids (List.mem_of_find?_eq_some hm))) h).2

/-- A call that returns keeps the classes, if it leaves the version on its side. -/
theorem call_fitting (hversions : ∀ n, env.get_minecraft_versions n = .ok all_versions)
    (hids : (w.db.addresses.map Prod.fst).Nodup) (h : Fitting all_versions w) {c : MiniverseCall}
    (hreturns : Succeeds (c.perform env) w) (hside : SameSide all_versions w c) :
    Fitting all_versions (c.perform env w).2 := by
  have hobject (m : Miniverse) := fittingKept_object (α := α) all_versions m.id (SupportsWebSockets all_versions m.mc_version)
  have hdata (m : Miniverse) := fittingKept_data env all_versions m.id (SupportsWebSockets all_versions m.mc_version)
  cases c with
  | create_miniverse data creator =>
      obtain ⟨_, w', hrun⟩ := hreturns
      rw [hrun]
      obtain ⟨m', w₁, hcreate, hrun⟩ := Eff.bind_ok hrun
      cases hrun
      exact create_fitting hversions h hcreate
  | update_miniverse miniverse_id data =>
      refine fitting_of_kept hids h fun m hm => ?_
      exact within_update_object (hobject m) (hdata m) fittingKept_update_proxy_config Iff.rfl fun v hv _ _ => hside m hm v hv
  | start_miniverse miniverse_id =>
      exact fitting_of_kept hids h fun m _ => within_start_object (hobject m) (within_init_data_path (hdata m)) Iff.rfl
  | stop_miniverse miniverse_id =>
      exact fitting_of_kept hids h fun m _ => within_stop_object (hobject m) Iff.rfl
  | restart_miniverse miniverse_id =>
      exact fitting_of_kept hids h fun m _ => within_restart_object (hobject m) (within_init_data_path (hdata m)) Iff.rfl
  | delete_miniverse miniverse_id =>
      obtain ⟨_, w', hrun⟩ := hreturns
      rw [hrun]
      rw [MiniverseCall.perform, withRow, query, Eff.read_bind_run] at hrun
      cases hm : w.db.findMiniverse miniverse_id with
      | none =>
          rw [hm] at hrun
          cases hrun
          exact h
      | some m =>
          rw [hm] at hrun
          exact delete_fitting h hrun

end Backend
