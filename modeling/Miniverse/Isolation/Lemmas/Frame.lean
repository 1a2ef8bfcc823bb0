import Miniverse.Api.Lemmas.Routes
import Miniverse.Files.Lemmas.Apart
import Miniverse.Isolation.Lemmas.Rows

/-!
# What the miniverses of a user leave alone

The relation between two states in which a miniverse is the same, and the routes of the miniverses for a user who has no role
in it.
-/

namespace Backend

open Lib

variable {α β : Type} {env : Env α} {pf : Platform α} {target id : Uuid4} {u : User} {user_id : String} {w w' : World α}

/-! ## Directories -/

theorem data_path_below (pf : Platform α) (id : Uuid4) : get_miniverse_path pf id <+: miniverse_data_path pf id :=
  List.prefix_append _ _

/-- The directories of two miniverses are next to one another. -/
theorem not_below_other (hid : id ≠ target) {q : Loc} (hq : get_miniverse_path pf id <+: q ∨ q <+: get_miniverse_path pf id) :
    ¬ get_miniverse_path pf target <+: q := by
  intro htarget
  have hcomparable : get_miniverse_path pf id <+: get_miniverse_path pf target ∨
      get_miniverse_path pf target <+: get_miniverse_path pf id := by
    rcases hq with hq | hq
    · exact List.prefix_or_prefix_of_prefix hq htarget
    · exact Or.inr (htarget.trans hq)
  have hlength : (get_miniverse_path pf id).length = (get_miniverse_path pf target).length := by
    simp [get_miniverse_path]
  have heq : get_miniverse_path pf id = get_miniverse_path pf target := by
    rcases hcomparable with h | h
    · exact h.eq_of_length hlength
    · exact (h.eq_of_length hlength.symm).symm
  have hnames := List.append_cancel_left heq
  exact hid (Uuid4.eq_of_str (List.cons.inj (List.cons.inj hnames).2).1)

theorem not_below_of_data (hid : id ≠ target) {p : Loc} (hp : miniverse_data_path pf id <+: p) {q : Loc} (hq : q <+: p ∨ p <+: q) :
    ¬ get_miniverse_path pf target <+: q := by
  have hp := (data_path_below pf id).trans hp
  rcases hq with hq | hq
  · exact not_below_other hid (List.prefix_or_prefix_of_prefix hp hq)
  · exact not_below_other hid (Or.inl (hp.trans hq))

theorem routes_not_below (env : Env α) (target : Uuid4) {q : Loc} (hq : q <+: routes_path env) :
    ¬ get_miniverse_path env.toPlatform target <+: q := by
  intro htarget
  have h := htarget.trans hq
  rw [routes_path, get_miniverse_path, List.prefix_append_right_inj] at h
  simp at h

/-! ## States in which a miniverse is the same -/

/-- The commands that were sent to the container of a miniverse. -/
def World.commandsTo (w : World α) (id : Uuid4) : List (String × String) :=
  w.commands.filter fun c => decide (w.db.consoleOf id.str = some c.1)

/-- The rows and the files of a miniverse are the same, and no command was sent to its container. -/
structure Untouched (pf : Platform α) (target : Uuid4) (w w' : World α) : Prop where
  rows : w'.db.partOf target = w.db.partOf target
  files : ∀ p, get_miniverse_path pf target <+: p → w'.disk.tree.get p = w.disk.tree.get p
  commands : w'.commandsTo target = w.commandsTo target

/-- The miniverse exists and the user has no role in it. The identifiers of the mods are the key of their table, and the names of
their files are plain. -/
structure Outsider (target : Uuid4) (user_id : String) (w : World α) : Prop where
  present : (w.db.findMiniverse target.str).isSome = true
  role : w.db.get_miniverse_role user_id target.str = .none
  keys : w.db.ModKeys
  names : ∀ mod ∈ w.db.mods, IsName mod.file_name

/-- What an outsider may do. -/
def Isolated (pf : Platform α) (target : Uuid4) (user_id : String) (w w' : World α) : Prop :=
  Outsider target user_id w → Outsider target user_id w' ∧ Untouched pf target w w'

theorem Untouched.refl (w : World α) : Untouched pf target w w := ⟨rfl, fun _ _ => rfl, rfl⟩

theorem Untouched.trans {w'' : World α} (h : Untouched pf target w w') (h' : Untouched pf target w' w'') :
    Untouched pf target w w'' where
  rows := h'.rows.trans h.rows
  files p hp := (h'.files p hp).trans (h.files p hp)
  commands := h'.commands.trans h.commands

theorem consoleOf_congr {db db' : Database} (hrows : db'.partOf target = db.partOf target) :
    db'.consoleOf target.str = db.consoleOf target.str :=
  congrArg (fun row : Option Miniverse => row.bind fun m => truthy m.container_id) (Prod.mk.inj hrows).1

/-- Without commands, the commands to a container are the same as long as the row is. -/
theorem commandsTo_congr (hrows : w'.db.partOf target = w.db.partOf target) (h : w'.commands = w.commands) :
    w'.commandsTo target = w.commandsTo target := by
  rw [World.commandsTo, World.commandsTo, h, consoleOf_congr hrows]

instance : Calm (Isolated (α := α) pf target user_id) where
  refl w h := ⟨h, .refl w⟩
  trans _ _ _ h₁ h₂ h := ⟨(h₂ (h₁ h).1).1, (h₁ h).2.trans (h₂ (h₁ h).1).2⟩
  tick _ _ h := ⟨⟨h.present, h.role, h.keys, h.names⟩, ⟨rfl, fun _ _ => rfl, rfl⟩⟩
  events _ _ h := ⟨⟨h.present, h.role, h.keys, h.names⟩, ⟨rfl, fun _ _ => rfl, rfl⟩⟩
  containers _ _ h := ⟨⟨h.present, h.role, h.keys, h.names⟩, ⟨rfl, fun _ _ => rfl, rfl⟩⟩

/-- A change of the tables that leaves the part of the miniverse alone. -/
theorem Outsider.kept {db : Database} (h : Outsider target user_id w) (hrows : db.partOf target = w.db.partOf target)
    (hkeys : db.ModKeys) (hnames : ∀ mod ∈ db.mods, IsName mod.file_name) :
    Outsider target user_id { w with db } ∧ Untouched pf target w { w with db } := by
  refine ⟨⟨?_, (role_of_part hrows user_id).trans h.role, hkeys, hnames⟩, ⟨hrows, fun _ _ => rfl, commandsTo_congr hrows rfl⟩⟩
  rw [show db.findMiniverse target.str = w.db.findMiniverse target.str from (Prod.mk.inj hrows).1]
  exact h.present

/-- One that leaves the mods alone. -/
theorem isolated_db {db : Database} (hrows : db.partOf target = w.db.partOf target) (hmods : db.mods = w.db.mods) :
    Isolated pf target user_id w { w with db } := by
  intro h
  refine h.kept hrows ?_ (hmods ▸ h.names)
  rw [Database.ModKeys, hmods]
  exact h.keys

theorem isolated_controllers (w : World α) (cs : List (Uuid4 × Controller)) :
    Isolated pf target user_id w { w with controllers := cs } :=
  fun h => ⟨⟨h.present, h.role, h.keys, h.names⟩, ⟨rfl, fun _ _ => rfl, rfl⟩⟩

/-- A computation on the files that changes none of the miniverse. -/
theorem isolated_onDisk {m : Fs α β} (h : m.Within (Disk.SameOff fun q => ¬ get_miniverse_path pf target <+: q)) :
    (onDisk m : Act α β).Within (Isolated pf target user_id) :=
  fun w hout => ⟨⟨hout.present, hout.role, hout.keys, hout.names⟩, ⟨rfl, fun p hp => h w.disk p (not_not_intro hp), rfl⟩⟩

/-! ## Miniverses of the user -/

/-- Answers of Modrinth whose parts are plain names. -/
structure PlainAnswers (env : Env α) : Prop where
  slugs : ∀ {n project_id project}, env.get_project_details n project_id = .ok project → IsName project.slug
  version_numbers : ∀ {n version_id version}, env.get_version_details n version_id = .ok version →
    IsName version.version_number
  ids : ∀ {n version_id version}, env.get_version_details n version_id = .ok version → IsName version.id

theorem mod_file_name_isName {project : ModrinthProject} {version : ModrinthProjectVersion} (hslug : IsName project.slug)
    (hnumber : IsName version.version_number) (hid : IsName version.id) : IsName (mod_file_name project version ".jar") := by
  have hmem (c : Char) : c ∈ (mod_file_name project version ".jar").toList ↔ c ∈ project.slug.toList ∨ c = '-' ∨
      c ∈ version.version_number.toList ∨ c = '-' ∨ c ∈ version.id.toList ∨ c ∈ ".jar".toList := by
    simp [mod_file_name]
  have hdash : '-' ∈ (mod_file_name project version ".jar").toList := (hmem _).mpr (Or.inr (Or.inl rfl))
  have hne {s : String} (hs : '-' ∉ s.toList) : mod_file_name project version ".jar" ≠ s := fun heq => hs (heq ▸ hdash)
  refine ⟨hne (by decide), hne (by decide), hne (by decide), fun hmem' => ?_, fun hmem' => ?_⟩
  · rcases (hmem _).mp hmem' with h | h | h | h | h | h
    · exact hslug.2.2.2.1 h
    · cases h
    · exact hnumber.2.2.2.1 h
    · cases h
    · exact hid.2.2.2.1 h
    · exact absurd h (by decide)
  · rcases (hmem _).mp hmem' with h | h | h | h | h | h
    · exact hslug.2.2.2.2 h
    · cases h
    · exact hnumber.2.2.2.2 h
    · cases h
    · exact hid.2.2.2.2 h
    · exact absurd h (by decide)

theorem isolated_routes : (update_proxy_config env).Within (Isolated env.toPlatform target user_id) := by
  refine within_update_routes (isolated_onDisk (Disk.sameOff_mkdirs fun q hq => ?_)) fun x => isolated_onDisk (Disk.sameOff_write ?_)
  · exact routes_not_below env target (hq.trans (List.dropLast_prefix _))
  · exact routes_not_below env target (List.prefix_refl _)

/-- Everything that the routes do to another miniverse. -/
theorem isolated_allows (hplain : PlainAnswers env) (hid : id ≠ target) :
    AllowsMiniverse env (Isolated env.toPlatform target user_id) id IsName fun _ => True where
  mkdirs := isolated_onDisk (Disk.sameOff_mkdirs fun q hq => not_below_of_data hid (List.prefix_append _ _) (Or.inl hq))
  write name x hname := by
    refine isolated_onDisk (Eff.Within.bind_returns (Fs.within_locate _ _) (returns_locate_mod_file env id name) ?_)
    rintro _ rfl
    rw [mod_file_loc_isName env id hname, mods_path, List.append_assoc]
    exact Disk.sameOff_write (not_below_of_data hid (List.prefix_append _ _) (Or.inl (List.prefix_refl _)))
  unlink name hname := by
    refine isolated_onDisk (Eff.Within.bind_returns (Fs.within_locate _ _) (returns_locate_mod_file env id name) ?_)
    rintro _ rfl
    rw [mod_file_loc_isName env id hname, mods_path, List.append_assoc]
    exact Disk.sameOff_unlink (not_below_of_data hid (List.prefix_append _ _) (Or.inl (List.prefix_refl _)))
  answers hproject hversion :=
    mod_file_name_isName (hplain.slugs hproject) (hplain.version_numbers hversion) (hplain.ids hversion)
  rows h hout := h hout.names hout
  save_mod hr hrid hrin hin hname hout := by
    refine hout.kept (part_saveMod hout.keys hr hrid (hrin ▸ hid) (hin ▸ hid)) ?_ fun r hr => ?_
    · rw [Database.ModKeys, ids_saveMod]
      exact hout.keys
    · obtain ⟨r', hr', rfl⟩ := List.mem_map.mp hr
      split
      · exact hname
      · exact hout.names r' hr'
  add_mod hin hname hfresh hout := by
    refine hout.kept (part_addMod (hin ▸ hid) _) ?_ fun r hr => ?_
    · rw [Database.ModKeys, List.map_append]
      refine List.Nodup.append hout.keys (List.nodup_singleton _) (List.disjoint_singleton.mpr fun hmem => ?_)
      obtain ⟨r, hr, heq⟩ := List.mem_map.mp hmem
      exact hfresh r hr heq
    · rcases List.mem_append.mp hr with hr | hr
      · exact hout.names r hr
      · exact List.mem_singleton.mp hr ▸ hname
  remove_mod hmem hin hout := by
    refine hout.kept (part_removeMod hout.keys hmem (hin ▸ hid)) ?_ fun r hr => hout.names r (List.mem_of_mem_filter hr)
    exact hout.keys.sublist (List.filter_sublist.map _)
  save_row hm _ := isolated_db (part_saveMiniverse (hm ▸ hid) _) rfl
  found _ _ h := h trivial
  compared _ _ := trivial
  control _ _ := isolated_controllers _ _
  mkdirs_below p hp := isolated_onDisk (Disk.sameOff_mkdirs fun q hq => not_below_of_data hid hp (Or.inl hq))
  write_below p x hp := isolated_onDisk (Disk.sameOff_write (not_below_of_data hid hp (Or.inl (List.prefix_refl p))))
  routes := isolated_routes

/-- A miniverse in which an outsider has a role is another one. -/
theorem isolated_other {m : Miniverse} (hown : .none < w.db.get_miniverse_role user_id m.id.str)
    (h : m.id ≠ target → Isolated pf target user_id w w') : Isolated pf target user_id w w' := by
  intro hout
  refine h (fun hid => ?_) hout
  rw [hid, hout.role] at hown
  exact Nat.lt_irrefl _ hown

theorem isolated_guarded {miniverse_id detail : String} {role : Role} (hrole : .none < role) {missing : PyError}
    {k : Miniverse → Act α β} (hk : ∀ m, m.id ≠ target → (k m).Within (Isolated pf target u.id)) :
    (do requireRole u miniverse_id role detail
        let m ← getMiniverse miniverse_id missing
        k m : Act α β).Within (Isolated pf target u.id) :=
  within_guarded (P := fun m => m.id ≠ target) hrole (fun _ hown h => isolated_other hown h) hk

theorem setRole_mods (db : Database) (role : MiniverseUserRole) : (db.setRole role).mods = db.mods := by
  rcases db.setRole_cases role with ⟨_, hset⟩ | ⟨_, _, hset⟩ | ⟨_, _, hset⟩ <;> rw [hset]

theorem isolated_allowsUser (hplain : PlainAnswers env) (u : User) :
    AllowsUser env (Isolated env.toPlatform target u.id) u IsName fun _ => True where
  granted hown h hout := by
    refine h (isolated_allows hplain ?hid) (fun w role hin => isolated_db (part_setRole (hin ▸ ?hid) _) (setRole_mods _ _)) hout
    rintro rfl
    rw [hout.role] at hown
    exact Nat.lt_irrefl _ hown

/-! ## Creating and deleting -/

/-- A new miniverse is not the one that exists. -/
theorem isolated_create (hplain : PlainAnswers env) (data : MiniverseCreate) (creator : User) :
    (create_miniverse env data creator).Within (Isolated env.toPlatform target user_id) := by
  refine (within_ask _).bind fun id => (within_ask _).bind fun secret => (Eff.Within.getOr _ _).bind fun subdomain => ?_
  by_cases hid : id = target
  · intro w hout
    have htaken : (w.db.miniverses.any fun r => decide (r.id = id)) = true := by
      obtain ⟨m, hm⟩ := Option.isSome_iff_exists.mp hout.present
      obtain ⟨hmem, hstr⟩ := findMiniverse_some hm
      exact List.any_eq_true.mpr ⟨m, hmem, decide_eq_true ((Uuid4.eq_of_str hstr).trans hid.symm)⟩
    have hrun : addMiniverse env (data.toMiniverse id subdomain secret) w = (.error .integrityError, w) := by
      rw [addMiniverse, query, Eff.read_bind_run]
      show (Eff.raiseIf (w.db.miniverses.any fun r => decide (r.id = id)) _ >>= _) w = _
      rw [htaken, Eff.raiseIf_true_bind]
    rw [Eff.bind_run_error hrun]
    exact ⟨hout, .refl w⟩
  · have hallows : AllowsMiniverse env (Isolated env.toPlatform target user_id) id IsName fun _ => True := isolated_allows hplain hid
    refine Eff.Within.bind ?_ fun _ => Eff.Within.bind (within_commit fun w => isolated_db (part_addRole hid _) rfl) fun _ => ?_
    · exact (within_query _).bind fun _ => (Eff.Within.raiseIf _ _).bind fun _ =>
        within_commit fun w => isolated_db (part_addMiniverse hid _) rfl
    · exact within_set_up isolated_routes isolated_controllers hallows.toAllowsRow.toObject hallows.toData trivial

theorem isolated_delete {m : Miniverse} (hid : m.id ≠ target) :
    (delete_miniverse env m).Within (Isolated env.toPlatform target user_id) := by
  refine Eff.Within.bind (within_remove_miniverse fun w => isolated_controllers w _) fun _ => ?_
  refine (Eff.Within.elim (Eff.Within.pure _) fun _ _ => within_remove_container _).bind fun _ => ?_
  refine Eff.Within.bind (isolated_onDisk ?_) fun _ => (within_query _).bind fun users_roles => ?_
  · refine (Disk.within_look _).bind fun _ => Eff.Within.when fun _ => Disk.sameOff_rmtree fun q hq => ?_
    exact not_below_other hid (Or.inl hq)
  · refine Eff.Within.bind (within_commit fun w hout => ?_) fun _ => (within_ask _).bind fun _ => isolated_routes.bind fun _ =>
      within_publish _ _ _
    refine hout.kept (part_deleteMiniverse hid _) ?_ fun r hr => hout.names r (List.mem_of_mem_filter hr)
    exact hout.keys.sublist (List.filter_sublist.map _)

/-- What an outsider does through the routes of the miniverses. -/
theorem isolated_route (hplain : PlainAnswers env) (u : User) (route : MiniversesRoute) :
    (route.handle env u).Within (Isolated env.toPlatform target u.id) := by
  by_cases hcreate : ∃ data, route = .create_miniverse data
  · obtain ⟨data, rfl⟩ := hcreate
    exact (Eff.Within.raiseIf _ _).bind fun _ => (isolated_create hplain data u).bind fun _ => Eff.Within.pure _
  by_cases hdelete : ∃ miniverse_id, route = .delete_miniverse miniverse_id
  · obtain ⟨miniverse_id, rfl⟩ := hdelete
    exact isolated_guarded (by decide) fun m hid => (isolated_delete hid).bind fun _ => Eff.Within.pure _
  exact within_route (isolated_allowsUser hplain u) (fun data heq => hcreate ⟨data, heq⟩)
    fun miniverse_id heq => hdelete ⟨miniverse_id, heq⟩

end Backend
