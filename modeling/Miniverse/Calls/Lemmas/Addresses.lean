import Miniverse.Calls.Service
import Miniverse.Miniverses.Lemmas.Cases
import Miniverse.Mods.Lemmas.Rows

/-!
# The subdomains of the rows

What each call does to the identifiers and the subdomains of the rows.
-/

namespace Backend

open Lib

variable {α β : Type} {env : Env α} {w w' : World α} {m : Miniverse} {id : Uuid4} {s : String}

/-- The identifier and the subdomain of every row. -/
def Database.addresses (db : Database) : List (Uuid4 × String) := db.miniverses.map fun r => (r.id, r.subdomain)

/-! ## Calls that move no row -/

/-- While the miniverse has the subdomain, the rows keep theirs. -/
def Settled (id : Uuid4) (s : String) : World α → World α → Prop := fun w w' =>
  (∀ a ∈ w.db.addresses, a.1 = id → a.2 = s) → w'.db.addresses = w.db.addresses

instance : Calm (Settled (α := α) id s) where
  refl _ _ := rfl
  trans w₁ w₂ w₃ h₁ h₂ h := by
    have hsame := h₁ h
    rw [h₂ (hsame ▸ h), hsame]
  tick _ _ _ := rfl
  events _ _ _ := rfl
  containers _ _ _ := rfl

theorem settled_onDisk (f : Fs α β) : (onDisk f : Act α β).Within (Settled id s) := fun _ _ => rfl

theorem addresses_saveMiniverse {db : Database} (h : ∀ a ∈ db.addresses, a.1 = m.id → a.2 = m.subdomain) :
    (db.saveMiniverse m).addresses = db.addresses := by
  rw [Database.addresses, Database.saveMiniverse, List.map_map]
  refine List.map_congr_left fun r hr => ?_
  by_cases hid : r.id = m.id
  · have hs : r.subdomain = m.subdomain := h (r.id, r.subdomain) (List.mem_map.mpr ⟨r, hr, rfl⟩) hid
    rw [Function.comp_apply, if_pos hid, hid, hs]
  · rw [Function.comp_apply, if_neg hid]

theorem settled_object (id : Uuid4) (s : String) : AllowsObject (Settled (α := α) id s) id fun m => m.subdomain = s where
  save hid hs h := addresses_saveMiniverse fun a ha haid => (h a ha (haid.trans hid)).trans hs.symm
  control _ _ _ := rfl
  state _ _ hs := hs

theorem settled_data (env : Env α) (id : Uuid4) (s : String) : AllowsData env (Settled id s) id fun _ => True where
  mkdirs := settled_onDisk _
  write _ _ _ := settled_onDisk _
  unlink _ _ := settled_onDisk _
  answers _ _ := trivial
  rows h := h fun _ _ => trivial
  save_mod _ _ _ _ _ _ := rfl
  add_mod _ _ _ _ := rfl
  mkdirs_below _ _ := settled_onDisk _
  write_below _ _ _ := settled_onDisk _

theorem settled_update_proxy_config : (update_proxy_config env).Within (Settled id s) := within_update_proxy_config settled_onDisk

theorem settled_start_miniverse (m : Miniverse) : (start_miniverse env m).Within (Settled m.id m.subdomain) :=
  within_start_object (settled_object _ _) (within_init_data_path (settled_data _ _ _)) rfl

theorem settled_upgrade (m : Miniverse) (new_mc_version : String) (force_update : Bool) :
    (update_miniverse_game_version env m new_mc_version force_update).Within (Settled m.id m.subdomain) :=
  within_upgrade_object (settled_object _ _) (settled_data _ _ _) rfl force_update fun _ _ => rfl

theorem settled_set_up (m : Miniverse) : (set_up_miniverse env m).Within (Settled m.id m.subdomain) :=
  within_set_up settled_update_proxy_config (fun _ _ _ => rfl) (settled_object _ _) (settled_data _ _ _) rfl

theorem settled_finish_update (m : Miniverse) (data : MiniverseUpdate) :
    (finish_update env m data).Within (Settled m.id (data.apply m).subdomain) := by
  refine Eff.Within.bind (Eff.Within.elim (Eff.Within.pure _) fun v _ => settled_upgrade (data.apply m) v false) fun m' => ?_
  exact (Eff.Within.when fun _ => settled_update_proxy_config).bind fun _ =>
    (Eff.Within.when fun _ => within_publish _ _ _).bind fun _ => Eff.Within.pure _

theorem settled_finish_delete (roles : List MiniverseUserRole) {k : Uuid4} :
    (finish_delete env k roles).Within (Settled id s) :=
  within_finish_delete settled_update_proxy_config k roles

/-! ## What each call does -/

/-- The subdomain that a creation asks for. -/
def MiniverseCall.created : MiniverseCall → Option String
  | create_miniverse data _ => data.subdomain
  | _ => none

/-- The steps of the addresses. -/
inductive AddressStep (created : Option String) : List (Uuid4 × String) → List (Uuid4 × String) → Prop
  | same (as : List (Uuid4 × String)) : AddressStep created as as
  | add {as : List (Uuid4 × String)} {id : Uuid4} {s : String} : created = some s → id ∉ as.map Prod.fst →
      AddressStep created as (as ++ [(id, s)])
  | move {as : List (Uuid4 × String)} (id : Uuid4) {s : String} : s ∉ as.map Prod.snd →
      AddressStep created as (as.map fun a => if a.1 = id then (id, s) else a)
  | remove (as : List (Uuid4 × String)) (id : Uuid4) : AddressStep created as (as.filter fun a => decide (a.1 ≠ id))

theorem ids_addresses (db : Database) : db.addresses.map Prod.fst = db.miniverses.map (·.id) := by
  simp [Database.addresses]

theorem subdomains_addresses (db : Database) : db.addresses.map Prod.snd = db.miniverses.map (·.subdomain) := by
  simp [Database.addresses]

/-- A row tells the subdomain of its identifier. -/
theorem subdomain_of_row {db : Database} (hids : (db.addresses.map Prod.fst).Nodup) (hm : m ∈ db.miniverses) :
    ∀ a ∈ db.addresses, a.1 = m.id → a.2 = m.subdomain := by
  intro a ha hid
  have hrow : (m.id, m.subdomain) ∈ db.addresses := List.mem_map.mpr ⟨m, hm, rfl⟩
  rw [List.inj_on_of_nodup_map hids ha hrow hid]

theorem create_addresses (data : MiniverseCreate) (creator : User) (w : World α) :
    AddressStep data.subdomain w.db.addresses (create_miniverse env data creator w).2.db.addresses := by
  rcases create_miniverse_cases env data creator w with ⟨e, w', hrun, hdb, _⟩ | ⟨s, hs, hfresh, _, hrun⟩
  · rw [hrun, hdb]
    exact .same _
  · rw [hrun]
    generalize hm : data.toMiniverse (env.uuid4 w.tick) s (env.random_string (w.tick + 1)) = m
    obtain ⟨hid, hsub⟩ : m.id = env.uuid4 w.tick ∧ m.subdomain = s := hm ▸ ⟨rfl, rfl⟩
    rw [← hid] at hfresh
    have hnew : m.id ∉ w.db.addresses.map Prod.fst := by
      rw [ids_addresses]
      intro hmem
      obtain ⟨r, hr, heq⟩ := List.mem_map.mp hmem
      exact hfresh r hr heq
    have hadded : ∀ (us : List MiniverseUserRole),
        Database.addresses { w.db with miniverses := w.db.miniverses ++ [m], user_roles := us } =
          w.db.addresses ++ [(m.id, m.subdomain)] := fun us => List.map_append
    have hsettled := Eff.Within.bind (R := Settled (α := α) m.id m.subdomain) (m := commit env fun db =>
      { db with user_roles := db.user_roles ++ [⟨creator.id, env.uuid4 w.tick, .admin⟩] }) (within_commit fun _ _ => rfl)
      fun _ => (settled_set_up m : (set_up_miniverse env m).Within _)
    rw [hsettled _ ?_]
    · show AddressStep data.subdomain w.db.addresses
        (Database.addresses { w.db with miniverses := w.db.miniverses ++ [m], user_roles := w.db.user_roles })
      rw [hadded]
      exact .add (hs.trans (congrArg some hsub.symm)) hnew
    · intro a ha haid
      rcases List.mem_append.mp ((hadded _) ▸ ha) with ha | ha
      · exact absurd (List.mem_map.mpr ⟨a, ha, haid⟩) hnew
      · rw [List.mem_singleton.mp ha]

theorem addresses_moved (db : Database) (m : Miniverse) :
    (db.saveMiniverse m).addresses = db.addresses.map fun a => if a.1 = m.id then (m.id, m.subdomain) else a := by
  rw [Database.addresses, Database.addresses, Database.saveMiniverse, List.map_map, List.map_map]
  refine List.map_congr_left fun r _ => ?_
  by_cases hid : r.id = m.id
  · simp [hid]
  · simp [hid]

theorem subdomain_of_saved {db : Database} : ∀ a ∈ (db.saveMiniverse m).addresses, a.1 = m.id → a.2 = m.subdomain := by
  intro a ha haid
  rw [addresses_moved] at ha
  obtain ⟨b, _, rfl⟩ := List.mem_map.mp ha
  by_cases hb : b.1 = m.id
  · rw [if_pos hb]
  · rw [if_neg hb] at haid
    exact absurd haid hb

theorem update_addresses (hids : (w.db.addresses.map Prod.fst).Nodup) (hm : m ∈ w.db.miniverses) (data : MiniverseUpdate) :
    AddressStep none w.db.addresses (update_miniverse env m data w).2.db.addresses := by
  have hrow := subdomain_of_row hids hm
  rcases update_miniverse_cases env m data w with ⟨e, w', hrun, hdb, _⟩ | ⟨hsame, hrun⟩ | ⟨hstores, hrun⟩
  · rw [hrun, hdb]
    exact .same _
  · rw [hrun, settled_finish_update m data w (hsame.symm ▸ hrow)]
    exact .same _
  · have hid : (data.apply m).id = m.id := rfl
    have hmoved := addresses_moved w.db (data.apply m)
    rw [hrun, settled_finish_update m data _ ?_]
    · show AddressStep none w.db.addresses (w.db.saveMiniverse (data.apply m)).addresses
      by_cases hsub : (data.apply m).subdomain = m.subdomain
      · rw [addresses_saveMiniverse (m := data.apply m) fun a ha haid => (hrow a ha haid).trans hsub.symm]
        exact .same _
      · rw [hmoved, hid]
        refine .move m.id ?_
        rw [subdomains_addresses]
        intro hmem
        obtain ⟨r, hr, heq⟩ := List.mem_map.mp hmem
        cases hnew : data.subdomain with
        | none => simp [MiniverseUpdate.apply, hnew] at hsub
        | some v =>
            have hv : (data.apply m).subdomain = v := by simp [MiniverseUpdate.apply, hnew]
            exact hstores.subdomain v hnew (fun h => hsub (hv.trans h.symm)) r hr (congrArg w.db.weight (heq.trans hv))
    · exact subdomain_of_saved

theorem delete_addresses (m : Miniverse) (w : World α) :
    AddressStep none w.db.addresses (delete_miniverse env m w).2.db.addresses := by
  rcases delete_miniverse_cases env m (R := Same World.db) (fun _ => rfl)
    (fun _ => rfl) w with ⟨e, w', hrun, hdb⟩ | ⟨w₁, hdb, _, _, hrun⟩
  · rw [hrun, hdb]
    exact .same _
  · have hdeleted : (w₁.db.deleteMiniverse m.id).addresses = w.db.addresses.filter fun a => decide (a.1 ≠ m.id) := by
      rw [hdb, Database.addresses, Database.addresses, Database.deleteMiniverse, List.filter_map]
      rfl
    have hgone : ∀ a ∈ (w₁.db.deleteMiniverse m.id).addresses, a.1 = m.id → a.2 = "" := by
      intro a ha haid
      rw [hdeleted] at ha
      have hne := (List.mem_filter.mp ha).2
      exact absurd haid (of_decide_eq_true hne)
    rw [hrun, settled_finish_delete _ { w₁.next with db := w₁.db.deleteMiniverse m.id } hgone]
    show AddressStep none w.db.addresses (w₁.db.deleteMiniverse m.id).addresses
    rw [hdeleted]
    exact .remove _ _

theorem bind_unit_state (k : Act α β) (w : World α) :
    ((do let _ ← k; pure () : Act α Unit) w).2 = (k w).2 := by
  rw [Eff.bind_run]
  rcases k w with ⟨_ | _, _⟩ <;> rfl

/-- A call without a row does nothing. -/
theorem withRow_cases (miniverse_id : String) (k : Miniverse → Act α Unit) (w : World α) :
    withRow miniverse_id k w = (.ok (), w) ∨ ∃ m ∈ w.db.miniverses, withRow miniverse_id k w = k m w := by
  unfold withRow
  rw [query, Eff.read_bind_run]
  cases hm : w.db.findMiniverse miniverse_id with
  | none => exact Or.inl rfl
  | some m => exact Or.inr ⟨m, List.mem_of_find?_eq_some hm, rfl⟩

/-- A call that keeps the addresses settled does not change them. -/
theorem same_addresses (hids : (w.db.addresses.map Prod.fst).Nodup) (hm : m ∈ w.db.miniverses) {k : Act α β}
    (hk : k.Within (Settled m.id m.subdomain)) : AddressStep none w.db.addresses (k w).2.db.addresses := by
  rw [hk w (subdomain_of_row hids hm)]
  exact .same _

theorem call_addresses (hids : (w.db.addresses.map Prod.fst).Nodup) (c : MiniverseCall) :
    AddressStep c.created w.db.addresses (c.perform env w).2.db.addresses := by
  cases c with
  | create_miniverse data creator =>
      rw [MiniverseCall.perform, bind_unit_state]
      exact create_addresses data creator w
  | update_miniverse miniverse_id data =>
      rcases withRow_cases miniverse_id (fun m => do let _ ← update_miniverse env m data) w with hrun | ⟨m, hm, hrun⟩
      · rw [MiniverseCall.perform, hrun]
        exact .same _
      · rw [MiniverseCall.perform, hrun, bind_unit_state]
        exact update_addresses hids hm data
  | start_miniverse miniverse_id =>
      rcases withRow_cases miniverse_id (fun m => do let _ ← start_miniverse env m) w with hrun | ⟨m, hm, hrun⟩
      · rw [MiniverseCall.perform, hrun]
        exact .same _
      · rw [MiniverseCall.perform, hrun, bind_unit_state]
        exact same_addresses hids hm (settled_start_miniverse m)
  | stop_miniverse miniverse_id =>
      rcases withRow_cases miniverse_id (fun m => do let _ ← stop_miniverse env m) w with hrun | ⟨m, hm, hrun⟩
      · rw [MiniverseCall.perform, hrun]
        exact .same _
      · rw [MiniverseCall.perform, hrun, bind_unit_state]
        exact same_addresses hids hm (within_stop_object (settled_object _ _) rfl)
  | restart_miniverse miniverse_id =>
      rcases withRow_cases miniverse_id (fun m => do let _ ← restart_miniverse env m) w with hrun | ⟨m, hm, hrun⟩
      · rw [MiniverseCall.perform, hrun]
        exact .same _
      · rw [MiniverseCall.perform, hrun, bind_unit_state]
        exact same_addresses hids hm (within_restart_object (settled_object _ _)
          (within_init_data_path (settled_data _ _ _)) rfl)
  | delete_miniverse miniverse_id =>
      rcases withRow_cases miniverse_id (delete_miniverse env) w with hrun | ⟨m, hm, hrun⟩
      · rw [MiniverseCall.perform, hrun]
        exact .same _
      · rw [MiniverseCall.perform, hrun]
        exact delete_addresses m w

/-! ## Distinct addresses -/

/-- Identifiers and subdomains are each used once. -/
structure Distinct (as : List (Uuid4 × String)) : Prop where
  ids : (as.map Prod.fst).Nodup
  subdomains : (as.map Prod.snd).Nodup

theorem ids_move (as : List (Uuid4 × String)) (id : Uuid4) (s : String) :
    (as.map fun a => if a.1 = id then (id, s) else a).map Prod.fst = as.map Prod.fst := by
  rw [List.map_map]
  refine List.map_congr_left fun a _ => ?_
  by_cases ha : a.1 = id
  · simp [ha]
  · simp [ha]

theorem subdomains_move {as : List (Uuid4 × String)} (hids : (as.map Prod.fst).Nodup) (hsubs : (as.map Prod.snd).Nodup)
    (id : Uuid4) {s : String} (hs : s ∉ as.map Prod.snd) :
    ((as.map fun a => if a.1 = id then (id, s) else a).map Prod.snd).Nodup := by
  induction as with
  | nil => exact List.nodup_nil
  | cons a as ih =>
      simp only [List.map_cons, List.nodup_cons, List.mem_cons, not_or] at hids hsubs hs ⊢
      refine ⟨fun hmem => ?_, ih hids.2 hsubs.2 hs.2⟩
      obtain ⟨b, hb, hba⟩ := List.mem_map.mp hmem
      obtain ⟨c, hc, rfl⟩ := List.mem_map.mp hb
      by_cases ha : a.1 = id
      · have hc' : c.1 ≠ id := fun h => hids.1 (List.mem_map.mpr ⟨c, hc, h.trans ha.symm⟩)
        rw [if_neg hc', if_pos ha] at hba
        exact hs.2 (List.mem_map.mpr ⟨c, hc, hba⟩)
      · rw [if_neg ha] at hba
        by_cases hc' : c.1 = id
        · rw [if_pos hc'] at hba
          exact hs.1 hba
        · rw [if_neg hc'] at hba
          exact hsubs.1 (List.mem_map.mpr ⟨c, hc, hba⟩)

theorem AddressStep.ids {created : Option String} {as as' : List (Uuid4 × String)} (hstep : AddressStep created as as')
    (h : (as.map Prod.fst).Nodup) : (as'.map Prod.fst).Nodup := by
  cases hstep with
  | same => exact h
  | add _ hid =>
      rw [List.map_append]
      exact h.append (List.nodup_singleton _) (List.disjoint_singleton.mpr hid)
  | move id => exact ids_move as id _ ▸ h
  | remove => exact h.sublist (List.filter_sublist.map _)

/-- A step keeps the addresses distinct, if a creation asks for an unused subdomain. -/
theorem Distinct.step {created : Option String} {as as' : List (Uuid4 × String)} (h : Distinct as)
    (hstep : AddressStep created as as') (hfresh : ∀ s, created = some s → s ∉ as.map Prod.snd) : Distinct as' := by
  refine ⟨hstep.ids h.ids, ?_⟩
  cases hstep with
  | same => exact h.subdomains
  | add hs hid =>
      rw [List.map_append]
      exact h.subdomains.append (List.nodup_singleton _) (List.disjoint_singleton.mpr (hfresh _ hs))
  | move id hs => exact subdomains_move h.ids h.subdomains id hs
  | remove id => exact h.subdomains.sublist (List.filter_sublist.map _)

end Backend
