import Miniverse.Files.Lemmas.Confine
import Miniverse.Mods.Lemmas.Rules

/-!
# The row and the files that an update of a mod changes
-/

namespace Backend

open Lib

variable {α β : Type} {env : Env α} {id : Uuid4}

/-! ## Rows by their identifiers -/

def Database.findMod (db : Database) (id : Uuid4) : Option Mod := db.mods.find? fun r => decide (r.id = id)

/-- The identifier is the primary key of the table. -/
def Database.ModKeys (db : Database) : Prop := (db.mods.map (·.id)).Nodup

theorem findMod_of_mem {db : Database} (h : db.ModKeys) {r : Mod} (hr : r ∈ db.mods) : db.findMod r.id = some r := by
  cases hfind : db.findMod r.id with
  | none =>
      have := List.find?_eq_none.mp hfind r hr
      simp at this
  | some r' =>
      have hid : r'.id = r.id := by simpa using List.find?_some hfind
      rw [List.inj_on_of_nodup_map h (List.mem_of_find?_eq_some hfind) hr hid]

theorem mem_of_findMod {db : Database} {r : Mod} (h : db.findMod id = some r) : r ∈ db.mods ∧ r.id = id :=
  ⟨List.mem_of_find?_eq_some h, by simpa using List.find?_some h⟩

theorem mem_modsOf {db : Database} {mod : Mod} : mod ∈ db.modsOf id ↔ mod ∈ db.mods ∧ mod.miniverse_id = id := by
  rw [Database.modsOf, List.mem_filter, decide_eq_true_eq]

theorem ids_saveMod (db : Database) (mod : Mod) : (db.saveMod mod).mods.map (·.id) = db.mods.map (·.id) := by
  rw [Database.saveMod, List.map_map]
  refine List.map_congr_left fun r _ => ?_
  by_cases h : r.id = mod.id
  · simp [h]
  · simp [h]

theorem findMod_saveMod (db : Database) (mod : Mod) (id : Uuid4) :
    (db.saveMod mod).findMod id = if id = mod.id then (db.findMod id).map fun _ => mod else db.findMod id := by
  unfold Database.findMod Database.saveMod
  induction db.mods with
  | nil => simp
  | cons r rows ih =>
      rw [List.map_cons, List.find?_cons, List.find?_cons]
      by_cases hr : r.id = mod.id
      · by_cases hid : id = mod.id
        · simp [hr, hid]
        · have hne : mod.id ≠ id := fun h => hid h.symm
          simpa [hr, hid, hne] using ih
      · by_cases hid : r.id = id
        · simp [hid, hid ▸ hr]
        · simpa [hr, hid] using ih

/-! ## The rows after an update -/

/-- The part of the state is the same. -/
abbrev Same (f : World α → β) : World α → World α → Prop := fun w w' => f w' = f w

instance : Calm (Same (α := α) World.db) where
  refl _ := rfl
  trans _ _ _ h₁ h₂ := h₂.trans h₁
  tick _ _ := rfl
  events _ _ := rfl
  containers _ _ := rfl

/-- The rows and the files. -/
def World.store (w : World α) : Database × Disk α := (w.db, w.disk)

instance : Calm (Same (α := α) World.store) where
  refl _ := rfl
  trans _ _ _ h₁ h₂ := h₂.trans h₁
  tick _ _ := rfl
  events _ _ := rfl
  containers _ _ := rfl

theorem same_allows (env : Env α) (id : Uuid4) : AllowsModFiles env (Same World.db) id fun _ => True where
  mkdirs _ := rfl
  write _ _ _ _ := rfl
  unlink _ _ _ := rfl

/-- The project and the version are answers of Modrinth. -/
def Answered (env : Env α) (version_id : String) (project : ModrinthProject) (version : ModrinthProjectVersion) : Prop :=
  (∃ n, env.get_version_details n version_id = .ok version) ∧ ∃ n, env.get_project_details n version.project_id = .ok project

/-- The row for an answered version. -/
def Mod.toVersion (mod : Mod) (project : ModrinthProject) (version : ModrinthProjectVersion) : Mod :=
  mod.withVersion project version (mod_file_name project version ".jar")

/-- An update that raises has changed no row, one that returns has changed its own. -/
theorem update_mod_cases (env : Env α) (mod : Mod) (new_version_id : String) (w : World α) :
    (∃ e w', update_mod env mod new_version_id w = (.error e, w') ∧ w'.db = w.db) ∨
      ∃ project version w', Answered env new_version_id project version ∧
        update_mod env mod new_version_id w = (.ok (mod.toVersion project version), w') ∧
        w'.db = w.db.saveMod (mod.toVersion project version) := by
  unfold update_mod get_version_details get_project_details
  rcases ask_cases (env.get_version_details · new_version_id) w with ⟨e, _, hrun⟩ | ⟨version, hversion, hrun⟩
  · exact Or.inl ⟨e, w.next, Eff.bind_run_error hrun _, rfl⟩
  rw [Eff.bind_run_ok hrun]
  rcases ask_cases (env.get_project_details · version.project_id) w.next with ⟨e, _, hrun⟩ | ⟨project, hproject, hrun⟩
  · exact Or.inl ⟨e, w.next.next, Eff.bind_run_error hrun _, rfl⟩
  rw [Eff.bind_run_ok hrun]
  have hdelete := within_delete_mod_file (same_allows env mod.miniverse_id) rfl trivial w.next.next
  rcases hrun : delete_mod_file env mod w.next.next with ⟨e | _, w₁⟩
  · rw [hrun] at hdelete
    exact Or.inl ⟨e, w₁, Eff.bind_run_error hrun _, hdelete⟩
  rw [hrun] at hdelete
  rw [Eff.bind_run_ok hrun]
  have hdownload : Same World.db w₁ (download_mod_file env project version mod.miniverse_id w₁).2 :=
    within_download_mod_file (same_allows env mod.miniverse_id) trivial w₁
  rcases hrun : download_mod_file env project version mod.miniverse_id w₁ with ⟨e | name, w₂⟩
  · rw [hrun] at hdownload
    exact Or.inl ⟨e, w₂, Eff.bind_run_error hrun _, hdownload.trans hdelete⟩
  rw [hrun] at hdownload
  rw [Eff.bind_run_ok hrun]
  obtain rfl := returns_download_mod_file w₁ name w₂ hrun
  have hdb : w₂.db = w.db := hdownload.trans hdelete
  rcases commit_cases env (·.saveMod (mod.toVersion project version)) w₂ with ⟨e, hrun⟩ | hrun
  · exact Or.inl ⟨e, w₂.next, Eff.bind_run_error hrun _, hdb⟩
  · refine Or.inr ⟨project, version, _, ⟨⟨_, hversion⟩, ⟨_, hproject⟩⟩, Eff.bind_run_ok hrun _, ?_⟩
    rw [← hdb]

/-! ## The files after an update -/

/-- The location of the file of a mod. -/
def mod_file_loc (env : Env α) (id : Uuid4) (file_name : String) : Loc :=
  resolveFrom [] (mod_file_path env id file_name).tail

/-- The files are the same at every location that does not satisfy `S`. -/
abbrev FilesOff (S : Loc → Prop) : World α → World α → Prop := fun w w' => Disk.SameOff S w.disk w'.disk

variable {S : Loc → Prop}

instance : Calm (FilesOff (α := α) S) where
  refl w := Std.Refl.refl w.disk
  trans _ _ _ h₁ h₂ := trans_of (Disk.SameOff S) h₁ h₂
  tick w _ := Std.Refl.refl w.disk
  events w _ := Std.Refl.refl w.disk
  containers w _ := Std.Refl.refl w.disk

theorem filesOff_onDisk {m : Fs α β} (h : m.Within (Disk.SameOff S)) : (onDisk m : Act α β).Within (FilesOff S) :=
  h.zoom fun _ _ h => h

theorem mod_file_path_root (env : Env α) (id : Uuid4) (file_name : String) :
    (mod_file_path env id file_name).root ≠ .relative := by
  unfold mod_file_path PurePath.join
  split
  · exact nofun
  · assumption

theorem returns_locate_mod_file (env : Env α) (id : Uuid4) (file_name : String) :
    (Fs.locate env.cwd (mod_file_path env id file_name) : Fs α Loc).Returns (· = mod_file_loc env id file_name) :=
  Fs.returns_locate env.cwd (mod_file_path_root env id file_name)

/-- What installing or updating a mod may change: the directory of the mods, where it is missing, and the files with
the names. -/
def ModLocs (env : Env α) (id : Uuid4) (Safe : String → Prop) (q : Loc) : Prop :=
  q <+: mods_path env id ∨ ∃ name, Safe name ∧ q = mod_file_loc env id name

theorem filesOff_allows (env : Env α) (id : Uuid4) (Safe : String → Prop)
    (hS : ∀ q, ModLocs env id Safe q → S q) : AllowsModFiles env (FilesOff S) id Safe where
  mkdirs := filesOff_onDisk (Disk.sameOff_mkdirs fun q hq => hS q (Or.inl hq))
  write name x hname := by
    refine filesOff_onDisk (Eff.Within.bind_returns (Fs.within_locate _ _) (returns_locate_mod_file env id name) ?_)
    rintro _ rfl
    exact Disk.sameOff_write (hS _ (Or.inr ⟨name, hname, rfl⟩))
  unlink name hname := by
    refine filesOff_onDisk (Eff.Within.bind_returns (Fs.within_locate _ _) (returns_locate_mod_file env id name) ?_)
    rintro _ rfl
    exact Disk.sameOff_unlink (hS _ (Or.inr ⟨name, hname, rfl⟩))

/-- The names of the files that an update of the mod to the version may remove and write. -/
def UpdateName (env : Env α) (mod : Mod) (version_id : String) (name : String) : Prop :=
  name = mod.file_name ∨ ∃ project version, Answered env version_id project version ∧ name = mod_file_name project version ".jar"

theorem filesOff_update_mod {mod : Mod} {new_version_id : String}
    (hS : ∀ q, ModLocs env mod.miniverse_id (UpdateName env mod new_version_id) q → S q) :
    (update_mod env mod new_version_id).Within (FilesOff S) := by
  have hfiles := filesOff_allows env mod.miniverse_id (UpdateName env mod new_version_id) hS
  refine Eff.Within.bind_returns (within_ask _) (returns_ask _) fun version ⟨_, hversion⟩ => ?_
  refine Eff.Within.bind_returns (within_ask _) (returns_ask _) fun project ⟨_, hproject⟩ => ?_
  refine (within_delete_mod_file hfiles rfl (Or.inl rfl)).bind fun _ => ?_
  refine Eff.Within.bind (within_download_mod_file hfiles
    (Or.inr ⟨project, version, ⟨⟨_, hversion⟩, ⟨_, hproject⟩⟩, rfl⟩)) fun name => ?_
  refine Eff.Within.bind (within_commit fun w => Std.Refl.refl w.disk) fun _ => ?_
  exact (within_publish _ _ _).bind fun _ => Eff.Within.pure _

end Backend
