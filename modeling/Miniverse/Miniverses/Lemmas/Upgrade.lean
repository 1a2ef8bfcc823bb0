import Miniverse.Miniverses.Lemmas.Rules
import Miniverse.Mods.Lemmas.Check

/-!
# The mods during an upgrade

The loop over the mods commits the row of each mod in its turn. `Progress` says what holds after the turns of the
mods in `done`.
-/

namespace Backend

open Lib

variable {α : Type} {env : Env α}

/-- The rows after the turns of the mods in `done`, where `Step` relates the row of a mod to the one it had. -/
structure Progress (Step : Mod → Mod → Prop) (db : Database) (done : List Mod) (db' : Database) : Prop where
  ids : db'.mods.map (·.id) = db.mods.map (·.id)
  others : ∀ id, (∀ mod ∈ done, mod.id ≠ id) → db'.findMod id = db.findMod id
  turns : ∀ mod ∈ done, ∃ r, db'.findMod mod.id = some r ∧ Step mod r
  rest : db' = { db with mods := db'.mods }

theorem Progress.start (Step : Mod → Mod → Prop) (db : Database) : Progress Step db [] db where
  ids := rfl
  others _ _ := rfl
  turns _ h := nomatch h
  rest := rfl

variable {Step : Mod → Mod → Prop} {db db' : Database} {done : List Mod} {mod : Mod}

/-- A turn that leaves the row alone. -/
theorem Progress.skip (h : Progress Step db done db') (hmod : db'.findMod mod.id = some mod) (hturn : Step mod mod) :
    Progress Step db (done ++ [mod]) db' where
  ids := h.ids
  others id hid := h.others id fun m hm => hid m (List.mem_append_left _ hm)
  turns m hm := by
    rcases List.mem_append.mp hm with hm | hm
    · exact h.turns m hm
    · obtain rfl := List.mem_singleton.mp hm
      exact ⟨m, hmod, hturn⟩
  rest := h.rest

/-- A turn that saves the row. -/
theorem Progress.save (h : Progress Step db done db') (hmod : db'.findMod mod.id = some mod)
    (hnew : ∀ m ∈ done, m.id ≠ mod.id) {r : Mod} (hid : r.id = mod.id) (hturn : Step mod r) :
    Progress Step db (done ++ [mod]) (db'.saveMod r) where
  ids := (ids_saveMod db' r).trans h.ids
  others id hother := by
    have hne : id ≠ r.id := fun he => hother mod (by simp) (hid ▸ he.symm)
    rw [findMod_saveMod, if_neg hne]
    exact h.others id fun m hm => hother m (List.mem_append_left _ hm)
  turns m hm := by
    rcases List.mem_append.mp hm with hm | hm
    · have hne : m.id ≠ r.id := hid ▸ hnew m hm
      rw [findMod_saveMod, if_neg hne]
      exact h.turns m hm
    · obtain rfl := List.mem_singleton.mp hm
      refine ⟨r, ?_, hturn⟩
      rw [findMod_saveMod, if_pos hid.symm, hmod]
      rfl
  rest := by
    rw [h.rest]
    rfl

/-- The mods of the miniverse that had no turn are as they were. -/
theorem Progress.untouched (h : Progress Step db done db') (hkeys : db.ModKeys) {id : Uuid4} {rest : List Mod}
    (hmods : db.modsOf id = done ++ mod :: rest) : db'.findMod mod.id = some mod ∧ ∀ m ∈ done, m.id ≠ mod.id := by
  have hnodup : ((db.modsOf id).map (·.id)).Nodup := hkeys.sublist (List.filter_sublist.map _)
  rw [hmods, List.map_append, List.map_cons, List.nodup_append] at hnodup
  have hnew : ∀ m ∈ done, m.id ≠ mod.id := fun m hm =>
    hnodup.2.2 m.id (List.mem_map_of_mem hm) mod.id List.mem_cons_self
  refine ⟨?_, hnew⟩
  have hmem : mod ∈ db.modsOf id := hmods ▸ List.mem_append_right _ List.mem_cons_self
  rw [h.others mod.id hnew]
  exact findMod_of_mem hkeys (mem_modsOf.mp hmem).1

theorem Progress.mono {Step' : Mod → Mod → Prop} (h : Progress Step db done db')
    (hstep : ∀ mod ∈ done, ∀ r, Step mod r → Step' mod r) : Progress Step' db done db' where
  ids := h.ids
  others := h.others
  turns mod hmod :=
    let ⟨r, hr, hs⟩ := h.turns mod hmod
    ⟨r, hr, hstep mod hmod r hs⟩
  rest := h.rest

/-- After the turns of all mods of the miniverse, its rows are those that the turns led to. -/
theorem Progress.mem_modsOf {id : Uuid4} (h : Progress Step db (db.modsOf id) db') (hkeys : db.ModKeys)
    (hstep : ∀ mod ∈ db.modsOf id, ∀ r, Step mod r → r.miniverse_id = id) {r : Mod} :
    r ∈ db'.modsOf id ↔ ∃ mod ∈ db.modsOf id, db'.findMod mod.id = some r := by
  constructor
  · intro hr
    obtain ⟨hmem, hid⟩ := Backend.mem_modsOf.mp hr
    have hkeys' : db'.ModKeys := by
      unfold Database.ModKeys
      rw [h.ids]
      exact hkeys
    have hfind := findMod_of_mem hkeys' hmem
    by_cases hdone : ∃ mod ∈ db.modsOf id, mod.id = r.id
    · obtain ⟨mod, hmod, hmodid⟩ := hdone
      exact ⟨mod, hmod, hmodid ▸ hfind⟩
    · rw [h.others r.id fun mod hmod he => hdone ⟨mod, hmod, he⟩] at hfind
      exact absurd ⟨r, Backend.mem_modsOf.mpr ⟨(mem_of_findMod hfind).1, hid⟩, rfl⟩ hdone
  · rintro ⟨mod, hmod, hfind⟩
    obtain ⟨r', hr', hturn⟩ := h.turns mod hmod
    rw [hfind] at hr'
    cases hr'
    exact Backend.mem_modsOf.mpr ⟨(mem_of_findMod hfind).1, hstep mod hmod r hturn⟩

/-! ## The loop -/

/-- What the turn of a mod does to its row. -/
def Turn (env : Env α) (updates : List (Uuid4 × ModUpdateInfo)) (mod r : Mod) : Prop :=
  ∃ info, updates.lookup mod.id = some info ∧
    (info.update_status ≠ .update_available ∧ r = mod ∨
      info.update_status = .update_available ∧ ∃ version_id project version,
        info.new_versions_ids.head? = some version_id ∧ Answered env version_id project version ∧
        r = mod.toVersion project version)

theorem progress_turn {updates : List (Uuid4 × ModUpdateInfo)} {w w' : World α}
    (h : Progress (Turn env updates) db done w.db) (hmod : w.db.findMod mod.id = some mod)
    (hnew : ∀ m ∈ done, m.id ≠ mod.id) (hrun : apply_mod_update env updates mod w = (.ok (), w')) :
    Progress (Turn env updates) db (done ++ [mod]) w'.db := by
  rcases apply_mod_update_cases env updates mod w with ⟨e, hcase⟩ | ⟨info, hinfo, hstatus, hcase⟩ |
    ⟨info, version_id, hinfo, hstatus, hhead, hcase⟩
  · rw [hcase] at hrun
    cases hrun
  · rw [hcase] at hrun
    cases hrun
    exact h.skip hmod ⟨info, hinfo, Or.inl ⟨hstatus, rfl⟩⟩
  · rw [hcase] at hrun
    obtain ⟨_, w₁, hupdate, hrun⟩ := Eff.bind_ok hrun
    cases hrun
    rcases update_mod_cases env mod version_id w with ⟨e, _, herror, _⟩ | ⟨project, version, _, hanswer, hok, hdb⟩
    · rw [herror] at hupdate
      cases hupdate
    · rw [hok] at hupdate
      cases hupdate
      rw [hdb]
      exact h.save hmod hnew rfl ⟨info, hinfo, Or.inr ⟨hstatus, version_id, project, version, hhead, hanswer, rfl⟩⟩

/-- The loop over the first mods of the miniverse. -/
theorem progress_loop {updates : List (Uuid4 × ModUpdateInfo)} {w w' : World α} {id : Uuid4} {rest : List Mod}
    (hkeys : w.db.ModKeys) (hmods : w.db.modsOf id = done ++ rest)
    (hrun : done.forM (apply_mod_update env updates) w = (.ok (), w')) :
    Progress (Turn env updates) w.db done w'.db := by
  refine Eff.forM_returned (P := fun done w₁ => Progress (Turn env updates) w.db done w₁.db)
    (fun before mod after hdone w₁ w₂ h hturn => ?_) (.start _ _) hrun
  have hall : w.db.modsOf id = before ++ mod :: (after ++ rest) := by
    rw [hmods, hdone, List.append_assoc]
    rfl
  obtain ⟨hmod, hnew⟩ := h.untouched hkeys hall
  exact progress_turn h hmod hnew hturn

/-! ## The files -/

/-- What an update of the mod may change. -/
def UpdateLocs (env : Env α) (mod : Mod) (q : Loc) : Prop :=
  ∃ version_id, ModLocs env mod.miniverse_id (UpdateName env mod version_id) q

theorem filesOff_turn {S : Loc → Prop} (updates : List (Uuid4 × ModUpdateInfo)) (hS : ∀ q, UpdateLocs env mod q → S q) :
    (apply_mod_update env updates mod).Within (FilesOff S) := by
  refine (Eff.Within.getOr _ _).bind fun info => Eff.Within.when fun _ => ?_
  refine (Eff.Within.getOr _ _).bind fun version_id => ?_
  exact (filesOff_update_mod fun q hq => hS q ⟨version_id, hq⟩).bind fun _ => Eff.Within.pure _

/-- A turn that raises has changed no row. -/
theorem same_of_turn_raised {updates : List (Uuid4 × ModUpdateInfo)} {w w' : World α} {e : PyError}
    (hrun : apply_mod_update env updates mod w = (.error e, w')) : w'.db = w.db := by
  rcases apply_mod_update_cases env updates mod w with ⟨e, hcase⟩ | ⟨_, _, _, hcase⟩ | ⟨_, version_id, _, _, _, hcase⟩
  · rw [hcase] at hrun
    cases hrun
    rfl
  · rw [hcase] at hrun
    cases hrun
  · rw [hcase] at hrun
    rcases Eff.bind_error hrun with hupdate | ⟨_, _, _, hrun⟩
    · rcases update_mod_cases env mod version_id w with ⟨_, _, herror, hdb⟩ | ⟨_, _, _, _, hok, _⟩
      · rw [herror] at hupdate
        cases hupdate
        exact hdb
      · rw [hok] at hupdate
        cases hupdate
    · cases hrun

/-! ## The versions -/

variable {catalog : String → List String} {game_version : String}

end Backend
