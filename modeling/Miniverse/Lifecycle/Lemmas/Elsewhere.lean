import Miniverse.Access.Lemmas.Sound
import Miniverse.Isolation.Lemmas.Requests

/-!
# What the requests about a miniverse leave alone

Everything but this miniverse: the rows, the controllers and the files of all others.
-/

namespace Backend

open Lib

variable {α β : Type} {env : Env α} {id : Uuid4} {u : User} {w w' : World α} {db db' : Database} {m : Miniverse}

/-! ## States that are the same elsewhere -/

/-- Where the files of a miniverse and the routes are, and the directories above them. -/
def TouchedPlace (env : Env α) (id : Uuid4) (q : Loc) : Prop :=
  get_miniverse_path env.toPlatform id <+: q ∨ q <+: get_miniverse_path env.toPlatform id ∨ q <+: routes_path env

structure SameElsewhere (env : Env α) (id : Uuid4) (w w' : World α) : Prop where
  rows : w'.db.deleteMiniverse id = w.db.deleteMiniverse id
  controllers : (w'.unregister id.str).controllers = (w.unregister id.str).controllers
  files : Disk.SameOff (TouchedPlace env id) w.disk w'.disk

/-- The identifiers of the mods are the key of their table, and the names of their files are plain. -/
def PlainMods (db : Database) : Prop := db.ModKeys ∧ ∀ mod ∈ db.mods, IsName mod.file_name

def Elsewhere (env : Env α) (id : Uuid4) (w w' : World α) : Prop := PlainMods w.db → PlainMods w'.db ∧ SameElsewhere env id w w'

theorem SameElsewhere.refl (w : World α) : SameElsewhere env id w w := ⟨rfl, rfl, fun _ _ => rfl⟩

theorem SameElsewhere.trans {w'' : World α} (h : SameElsewhere env id w w') (h' : SameElsewhere env id w' w'') :
    SameElsewhere env id w w'' where
  rows := h'.rows.trans h.rows
  controllers := h'.controllers.trans h.controllers
  files := trans_of (Disk.SameOff (TouchedPlace env id)) h.files h'.files

instance : Calm (Elsewhere env id) where
  refl w h := ⟨h, .refl w⟩
  trans _ _ _ h₁ h₂ h := ⟨(h₂ (h₁ h).1).1, (h₁ h).2.trans (h₂ (h₁ h).1).2⟩
  tick _ _ h := ⟨h, rfl, rfl, fun _ _ => rfl⟩
  events _ _ h := ⟨h, rfl, rfl, fun _ _ => rfl⟩
  containers _ _ h := ⟨h, rfl, rfl, fun _ _ => rfl⟩

/-! ## Rows -/

/-- Tables are the same but for one miniverse when the filters of their rows are. -/
theorem deleteMiniverse_congr (hothers : db'.users = db.users ∧ db'.weight = db.weight)
    (hrows : (db'.miniverses.filter fun r => decide (r.id ≠ id)) = db.miniverses.filter fun r => decide (r.id ≠ id))
    (hroles : (db'.user_roles.filter fun r => decide (r.miniverse_id ≠ id)) = db.user_roles.filter fun r => decide (r.miniverse_id ≠ id))
    (hmods : (db'.mods.filter fun r => decide (r.miniverse_id ≠ id)) = db.mods.filter fun r => decide (r.miniverse_id ≠ id)) :
    db'.deleteMiniverse id = db.deleteMiniverse id := by
  rw [Database.deleteMiniverse, Database.deleteMiniverse, hothers.1, hothers.2, hrows, hroles, hmods]

theorem rejected_of_eq {a b : Uuid4} (h : a = b) : decide (a ≠ b) = false := decide_eq_false (not_not_intro h)

theorem delete_saveMiniverse (hm : m.id = id) (db : Database) : (db.saveMiniverse m).deleteMiniverse id = db.deleteMiniverse id := by
  refine deleteMiniverse_congr ⟨rfl, rfl⟩ (filter_map_of_rejected fun r _ => ?_) rfl rfl
  by_cases hr : r.id = m.id
  · rw [if_pos hr]
    exact Or.inr ⟨rejected_of_eq (hr.trans hm), rejected_of_eq hm⟩
  · rw [if_neg hr]
    exact Or.inl rfl

theorem delete_addMiniverse (hm : m.id = id) (db : Database) :
    Database.deleteMiniverse id { db with miniverses := db.miniverses ++ [m] } = db.deleteMiniverse id :=
  deleteMiniverse_congr ⟨rfl, rfl⟩ (filter_concat_of_rejected (rejected_of_eq hm)) rfl rfl

theorem delete_addRole {role : MiniverseUserRole} (hrole : role.miniverse_id = id) (db : Database) :
    Database.deleteMiniverse id { db with user_roles := db.user_roles ++ [role] } = db.deleteMiniverse id :=
  deleteMiniverse_congr ⟨rfl, rfl⟩ rfl (filter_concat_of_rejected (rejected_of_eq hrole)) rfl

theorem delete_setRole {role : MiniverseUserRole} (hrole : role.miniverse_id = id) (db : Database) :
    (db.setRole role).deleteMiniverse id = db.deleteMiniverse id := by
  rcases db.setRole_cases role with ⟨_, hset⟩ | ⟨_, _, hset⟩ | ⟨_, _, hset⟩
  · rw [hset]
    refine deleteMiniverse_congr ⟨rfl, rfl⟩ rfl (filter_filter_of_rejected fun r _ hr => ?_) rfl
    exact decide_eq_true fun hpair => of_decide_eq_true hr (hpair.2.trans hrole)
  · rw [hset]
    exact delete_addRole hrole db
  · rw [hset]
    refine deleteMiniverse_congr ⟨rfl, rfl⟩ rfl (filter_map_of_rejected fun r _ => ?_) rfl
    by_cases hpair : r.SamePair role
    · rw [MiniverseUserRole.takes, if_pos hpair]
      exact Or.inr ⟨rejected_of_eq (hpair.2.trans hrole), rejected_of_eq hrole⟩
    · rw [MiniverseUserRole.takes, if_neg hpair]
      exact Or.inl rfl

/-- A mod of the miniverse shares its identifier with no mod of another one. -/
theorem own_mod (hkeys : db.ModKeys) {r mod : Mod} (hmod : mod ∈ db.mods) (hown : mod.miniverse_id = id) (hr : r ∈ db.mods)
    (hid : r.id = mod.id) : r.miniverse_id = id := by
  rw [List.inj_on_of_nodup_map hkeys hr hmod hid]
  exact hown

theorem delete_saveMod (hkeys : db.ModKeys) {r mod : Mod} (hr : r ∈ db.mods) (hid : r.id = mod.id) (hown : r.miniverse_id = id)
    (hmod : mod.miniverse_id = id) : (db.saveMod mod).deleteMiniverse id = db.deleteMiniverse id := by
  refine deleteMiniverse_congr ⟨rfl, rfl⟩ rfl rfl (filter_map_of_rejected fun r' hr' => ?_)
  by_cases heq : r'.id = mod.id
  · rw [if_pos heq]
    exact Or.inr ⟨rejected_of_eq (own_mod hkeys hr hown hr' (heq.trans hid.symm)), rejected_of_eq hmod⟩
  · rw [if_neg heq]
    exact Or.inl rfl

theorem delete_addMod {mod : Mod} (hmod : mod.miniverse_id = id) (db : Database) :
    Database.deleteMiniverse id { db with mods := db.mods ++ [mod] } = db.deleteMiniverse id :=
  deleteMiniverse_congr ⟨rfl, rfl⟩ rfl rfl (filter_concat_of_rejected (rejected_of_eq hmod))

theorem delete_removeMod (hkeys : db.ModKeys) {mod : Mod} (hmod : mod ∈ db.mods) (hown : mod.miniverse_id = id) :
    Database.deleteMiniverse id { db with mods := db.mods.filter fun r => decide (r.id ≠ mod.id) } = db.deleteMiniverse id := by
  refine deleteMiniverse_congr ⟨rfl, rfl⟩ rfl rfl (filter_filter_of_rejected fun r hr hother => decide_eq_true fun hid => ?_)
  exact of_decide_eq_true hother (own_mod hkeys hmod hown hr hid)

/-- A miniverse that has no row has no roles and no mods either. -/
theorem deleteMiniverse_of_fresh (hsound : db.Sound) (hfresh : ∀ r ∈ db.miniverses, r.id ≠ id) : db.deleteMiniverse id = db := by
  have hnone {i : Uuid4} (hi : i ∈ db.miniverses.map Miniverse.id) : i ≠ id := by
    obtain ⟨r, hr, rfl⟩ := List.mem_map.mp hi
    exact hfresh r hr
  have hrows : (db.miniverses.filter fun r => decide (r.id ≠ id)) = db.miniverses :=
    List.filter_eq_self.mpr fun r hr => decide_eq_true (hfresh r hr)
  have hroles : (db.user_roles.filter fun r => decide (r.miniverse_id ≠ id)) = db.user_roles :=
    List.filter_eq_self.mpr fun r hr => decide_eq_true (hnone (hsound.roles.rooted r hr))
  have hmods : (db.mods.filter fun r => decide (r.miniverse_id ≠ id)) = db.mods :=
    List.filter_eq_self.mpr fun r hr => decide_eq_true (hnone (hsound.rooted r hr))
  rw [Database.deleteMiniverse, hrows, hroles, hmods]

/-! ## What the miniverse may do -/

/-- A change of the tables that concerns the miniverse only. -/
theorem elsewhere_db (hrows : db.deleteMiniverse id = w.db.deleteMiniverse id) (hplain : PlainMods w.db → PlainMods db) :
    Elsewhere env id w { w with db } :=
  fun h => ⟨hplain h, hrows, rfl, fun _ _ => rfl⟩

/-- One that leaves the mods alone. -/
theorem elsewhere_rows (hrows : db.deleteMiniverse id = w.db.deleteMiniverse id) (hmods : db.mods = w.db.mods) :
    Elsewhere env id w { w with db } :=
  elsewhere_db hrows fun h => by rwa [PlainMods, Database.ModKeys, hmods]

theorem elsewhere_onDisk {f : Fs α β} (h : f.Within (Disk.SameOff (TouchedPlace env id))) :
    (onDisk f : Act α β).Within (Elsewhere env id) :=
  fun w hplain => ⟨hplain, rfl, rfl, h w.disk⟩

theorem elsewhere_control (w : World α) (c : Controller) : Elsewhere env id w (w.setController id c) := by
  refine fun hplain => ⟨hplain, rfl, filter_map_of_rejected fun entry _ => ?_, fun _ _ => rfl⟩
  by_cases hid : entry.1 = id
  · rw [if_pos hid]
    exact Or.inr ⟨decide_eq_false (not_not_intro (congrArg Uuid4.str hid)), decide_eq_false (not_not_intro rfl)⟩
  · rw [if_neg hid]
    exact Or.inl rfl

theorem elsewhere_register (w : World α) (c : Controller) : Elsewhere env id w (w.register id c) :=
  fun hplain => ⟨hplain, rfl, filter_concat_of_rejected (decide_eq_false (not_not_intro rfl)), fun _ _ => rfl⟩

theorem touched_of_data {p q : Loc} (hp : miniverse_data_path env.toPlatform id <+: p) (hq : q <+: p ∨ p <+: q) :
    TouchedPlace env id q := by
  have hp := (data_path_below env.toPlatform id).trans hp
  rcases hq with hq | hq
  · exact (List.prefix_or_prefix_of_prefix hp hq).imp_right Or.inl
  · exact Or.inl (hp.trans hq)

theorem elsewhere_routes : (update_proxy_config env).Within (Elsewhere env id) := by
  refine within_update_routes (elsewhere_onDisk (Disk.sameOff_mkdirs fun q hq => ?_)) fun x => elsewhere_onDisk (Disk.sameOff_write ?_)
  · exact Or.inr (Or.inr (hq.trans (List.dropLast_prefix _)))
  · exact Or.inr (Or.inr (List.prefix_refl _))

/-- Everything that the routes do to the miniverse. -/
theorem elsewhere_allows (hplain : PlainAnswers env) (id : Uuid4) :
    AllowsMiniverse env (Elsewhere env id) id IsName fun _ => True where
  mkdirs := elsewhere_onDisk (Disk.sameOff_mkdirs fun q hq => touched_of_data (List.prefix_append _ _) (Or.inl hq))
  write name x hname := by
    refine elsewhere_onDisk (Eff.Within.bind_returns (Fs.within_locate _ _) (returns_locate_mod_file env id name) ?_)
    rintro _ rfl
    rw [mod_file_loc_isName env id hname, mods_path, List.append_assoc]
    exact Disk.sameOff_write (touched_of_data (List.prefix_append _ _) (Or.inl (List.prefix_refl _)))
  unlink name hname := by
    refine elsewhere_onDisk (Eff.Within.bind_returns (Fs.within_locate _ _) (returns_locate_mod_file env id name) ?_)
    rintro _ rfl
    rw [mod_file_loc_isName env id hname, mods_path, List.append_assoc]
    exact Disk.sameOff_unlink (touched_of_data (List.prefix_append _ _) (Or.inl (List.prefix_refl _)))
  answers hproject hversion :=
    mod_file_name_isName (hplain.slugs hproject) (hplain.version_numbers hversion) (hplain.ids hversion)
  rows h hw := h hw.2 hw
  save_mod hr hrid hrin hin hname hw := by
    refine elsewhere_db (delete_saveMod hw.1 hr hrid hrin hin) (fun hw => ⟨?_, fun r hr => ?_⟩) hw
    · rw [Database.ModKeys, ids_saveMod]
      exact hw.1
    · obtain ⟨r', hr', rfl⟩ := List.mem_map.mp hr
      split
      · exact hname
      · exact hw.2 r' hr'
  add_mod hin hname hfresh hw := by
    refine elsewhere_db (delete_addMod hin _) (fun hw => ⟨?_, fun r hr => ?_⟩) hw
    · rw [Database.ModKeys, List.map_append]
      refine List.Nodup.append hw.1 (List.nodup_singleton _) (List.disjoint_singleton.mpr fun hmem => ?_)
      obtain ⟨r, hr, heq⟩ := List.mem_map.mp hmem
      exact hfresh r hr heq
    · rcases List.mem_append.mp hr with hr | hr
      · exact hw.2 r hr
      · exact List.mem_singleton.mp hr ▸ hname
  remove_mod hmem hin hw := by
    refine elsewhere_db (delete_removeMod hw.1 hmem hin) (fun hw => ⟨?_, fun r hr => hw.2 r (List.mem_of_mem_filter hr)⟩) hw
    exact hw.1.sublist (List.filter_sublist.map _)
  save_row hm _ := elsewhere_rows (delete_saveMiniverse hm _) rfl
  found _ _ h := h trivial
  compared _ _ := trivial
  control := elsewhere_control
  mkdirs_below p hp := elsewhere_onDisk (Disk.sameOff_mkdirs fun q hq => touched_of_data hp (Or.inl hq))
  write_below p x hp := elsewhere_onDisk (Disk.sameOff_write (touched_of_data hp (Or.inl (List.prefix_refl p))))
  routes := elsewhere_routes

end Backend
