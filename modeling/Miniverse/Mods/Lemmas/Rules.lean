import Miniverse.Core.Lemmas.Calm
import Miniverse.Mods.Service

/-!
# What the functions on mods do

The functions on the mods of a miniverse stay within every quiet relation that allows what they do to the files and the
rows of these mods. `Safe` are the file names for which the relation allows it.
-/

namespace Backend

open Lib

variable {α β : Type} {env : Env α} {R : World α → World α → Prop} {id : Uuid4} {Safe : String → Prop}

structure AllowsModFiles (env : Env α) (R : World α → World α → Prop) (id : Uuid4) (Safe : String → Prop) : Prop where
  mkdirs : (onDisk (Disk.mkdirs (mods_path env id)) : Act α Unit).Within R
  write : ∀ name x, Safe name → (onDisk (Fs.writePath env.cwd (mod_file_path env id name) x) : Act α Unit).Within R
  unlink : ∀ name, Safe name → (onDisk (Fs.unlinkPath env.cwd (mod_file_path env id name)) : Act α Unit).Within R

structure AllowsMods (env : Env α) (R : World α → World α → Prop) (id : Uuid4) (Safe : String → Prop) : Prop
    extends AllowsModFiles env R id Safe where
  /-- The names that Modrinth's answers lead to. -/
  answers : ∀ {m n project_id version_id project version}, env.get_project_details m project_id = .ok project →
    env.get_version_details n version_id = .ok version → Safe (mod_file_name project version ".jar")
  /-- Nothing is asked of the relation in a state with other names. -/
  rows : ∀ {w w' : World α}, ((∀ mod ∈ w.db.mods, Safe mod.file_name) → R w w') → R w w'
  save_mod : ∀ {w : World α} {r mod : Mod}, r ∈ w.db.mods → r.id = mod.id → r.miniverse_id = id → mod.miniverse_id = id →
    Safe mod.file_name → R w { w with db := w.db.saveMod mod }
  add_mod : ∀ {w : World α} {mod : Mod}, mod.miniverse_id = id → Safe mod.file_name → (∀ r ∈ w.db.mods, r.id ≠ mod.id) →
    R w { w with db := { w.db with mods := w.db.mods ++ [mod] } }

/-! ## Modrinth -/

theorem returns_ask (answer : Nat → Except PyError β) : (ask answer : Act α β).Returns fun b => ∃ n, answer n = .ok b := by
  intro w b w' h
  simp only [ask, Prod.mk.injEq] at h
  exact ⟨_, h.1⟩

section Quiet

variable [Quiet R]

theorem within_list_project_versions (project_id : String) (loader : MiniverseType) (mc_version : Option String) :
    (list_project_versions env project_id loader mc_version).Within R := within_ask _

theorem within_check_mod (loader : MiniverseType) (game_version : String) (mod : Mod) :
    (check_mod env loader game_version mod).Within R := by
  refine (within_list_project_versions _ _ _).bind fun versions => ?_
  refine Eff.Within.bind ((within_list_project_versions _ _ _).ite (Eff.Within.pure _)) fun versions => ?_
  exact (Eff.Within.pure _).ite ((Eff.Within.ofExcept _).bind fun _ => Eff.Within.pure _)

theorem within_list_possible_mod_updates (miniverse : Miniverse) (game_version : String) :
    (list_possible_mod_updates env miniverse game_version).Within R := by
  refine (within_query _).bind fun mods => Eff.Within.mapM fun mod _ => ?_
  exact ((within_check_mod _ _ _).attempt fun _ => Eff.Within.pure _).bind fun _ => Eff.Within.pure _

theorem within_installable_versions (mod_id : String) (miniverse : Miniverse) (retry_with_latest : Bool) :
    (installable_versions env mod_id miniverse retry_with_latest).Within R := by
  refine (within_list_project_versions _ _ _).bind fun versions => Eff.Within.ite ?_ (Eff.Within.pure _)
  refine Eff.Within.bind ((within_list_project_versions _ _ _).ite (Eff.Within.pure _)) fun _ => ?_
  exact (Eff.Within.raiseIf _ _).bind fun _ => Eff.Within.pure _

/-! ## Files -/

theorem within_download_mod_file (h : AllowsModFiles env R id Safe) {project : ModrinthProject}
    {version : ModrinthProjectVersion} (hname : Safe (mod_file_name project version ".jar")) :
    (download_mod_file env project version id).Within R := by
  refine Eff.Within.getOr_bind fun file _ => ?_
  by_cases hext : suffix (PurePath.parse file.filename).name = ".jar"
  · dsimp only
    rw [hext]
    refine (Eff.Within.raiseIf _ _).bind fun _ => h.mkdirs.bind fun _ => (within_ask _).bind fun content => ?_
    exact (h.write _ _ hname).bind fun _ => Eff.Within.pure _
  · dsimp only
    rw [decide_eq_true hext]
    exact Eff.Within.raise _

theorem returns_download_mod_file {project : ModrinthProject} {version : ModrinthProjectVersion} :
    (download_mod_file env project version id).Returns fun name => name = mod_file_name project version ".jar" := by
  refine Eff.Returns.bind fun file => ?_
  by_cases hext : suffix (PurePath.parse file.filename).name = ".jar"
  · dsimp only
    rw [hext]
    exact Eff.Returns.bind fun _ => Eff.Returns.bind fun _ => Eff.Returns.bind fun _ => Eff.Returns.bind fun _ =>
      Eff.Returns.pure rfl
  · dsimp only
    rw [decide_eq_true hext]
    intro w _ _ hw
    cases hw

theorem within_delete_mod_file (h : AllowsModFiles env R id Safe) {mod : Mod} (hid : mod.miniverse_id = id)
    (hname : Safe mod.file_name) : (delete_mod_file env mod).Within R := by
  subst hid
  intro w
  have hunlink := h.unlink _ hname w
  unfold delete_mod_file onDisk Eff.zoom
  dsimp only
  rw [Disk.look, Eff.read_bind_run]
  cases ((w.disk.tree.locate env.cwd (mod_file_path env mod.miniverse_id mod.file_name)).map w.disk.tree.isFile).getD false with
  | true => exact hunlink
  | false => exact Std.Refl.refl w

/-! ## Rows -/

/-- Within `R`, and the rows stay as they are. -/
def Fixed (db : Database) (R : World α → World α → Prop) : World α → World α → Prop :=
  fun w w' => w.db = db → R w w' ∧ w'.db = db

instance (db : Database) : Quiet (Fixed db R) where
  refl w h := ⟨Std.Refl.refl w, h⟩
  trans _ _ _ h₁ h₂ h := ⟨trans_of R (h₁ h).1 (h₂ (h₁ h).2).1, (h₂ (h₁ h).2).2⟩
  tick w n h := ⟨Quiet.tick w n, h⟩
  events w e h := ⟨Quiet.events w e, h⟩

omit [Quiet R] in
theorem AllowsModFiles.fixed (h : AllowsModFiles env R id Safe) (db : Database) :
    AllowsModFiles env (Fixed db R) id Safe where
  mkdirs w hw := ⟨h.mkdirs w, hw⟩
  write name x hname w hw := ⟨h.write name x hname w, hw⟩
  unlink name hname w hw := ⟨h.unlink name hname w, hw⟩

/-- After a part that leaves the rows alone, they are still known. -/
theorem fixed_bind {db : Database} {γ : Type} {Q : β → Prop} {m : Act α β} {k : β → Act α γ} (hm : m.Within (Fixed db R))
    (hq : m.Returns Q) (hk : ∀ a, Q a → ∀ w, w.db = db → R w (k a w).2) {w : World α} (hw : w.db = db) :
    R w ((m >>= k) w).2 := by
  obtain ⟨hr, hdb⟩ := hm w hw
  rw [Eff.bind_run]
  rcases hs : m w with ⟨e | a, w'⟩
  · simpa only [hs] using hr
  · rw [hs] at hr hdb
    exact trans_of R hr (hk a (hq w a w' hs) w' hdb)

omit [Quiet R] in
theorem returns_true (m : Act α β) : m.Returns fun _ => True := fun _ _ _ _ => trivial

/-- The miniverse has a row for the mod. -/
def HasMod (id : Uuid4) (mod : Mod) (w : World α) : Prop := ∃ r ∈ w.db.mods, r.id = mod.id ∧ r.miniverse_id = id

/-- An update of a mod that is there. -/
theorem update_mod_at (h : AllowsMods env R id Safe) {mod : Mod} (hid : mod.miniverse_id = id) (new_version_id : String)
    {w : World α} (hmem : HasMod id mod w) (hname : Safe mod.file_name) : R w (update_mod env mod new_version_id w).2 := by
  refine fixed_bind (within_ask _) (returns_ask _) (fun version ⟨_, hversion⟩ w₁ hw₁ => ?_) rfl
  refine fixed_bind (within_ask _) (returns_ask _) (fun project ⟨_, hproject⟩ w₂ hw₂ => ?_) hw₁
  have hnew := h.answers hproject hversion
  have hfiles := h.toAllowsModFiles.fixed w.db
  refine fixed_bind (within_delete_mod_file hfiles hid hname) (returns_true _) (fun _ _ w₃ hw₃ => ?_) hw₂
  refine fixed_bind (hid ▸ within_download_mod_file hfiles hnew) returns_download_mod_file (fun name hname w₄ hw₄ => ?_) hw₃
  subst hname
  obtain ⟨r, hr, hrid, hrin⟩ : HasMod id mod w₄ := by
    rw [HasMod, hw₄]
    exact hmem
  have hsave : R w₄ { w₄ with db := w₄.db.saveMod (mod.withVersion project version (mod_file_name project version ".jar")) } :=
    h.save_mod hr hrid hrin hid hnew
  rcases commit_cases env (·.saveMod (mod.withVersion project version (mod_file_name project version ".jar"))) w₄ with
    ⟨e, hrun⟩ | hrun
  · rw [Eff.bind_run_error hrun]
    exact Quiet.tick w₄ _
  · rw [Eff.bind_run_ok hrun]
    exact trans_of R (trans_of R hsave (Quiet.tick _ _)) (within_publish _ _ _ _)

theorem within_addMod (h : AllowsMods env R id Safe) {mod : Mod} (hid : mod.miniverse_id = id) (hname : Safe mod.file_name) :
    (addMod env mod).Within R := by
  refine Eff.Within.read_bind fun w => ?_
  dsimp only
  cases htaken : w.db.mods.any fun r => decide (r.id = mod.id) with
  | true => exact Std.Refl.refl (r := R) w
  | false =>
      have hfresh : ∀ r ∈ w.db.mods, r.id ≠ mod.id := fun r hr heq => List.any_eq_false.mp htaken r hr (decide_eq_true heq)
      rw [Eff.raiseIf_false_bind]
      rcases commit_cases env (fun db => { db with mods := db.mods ++ [mod] }) w with ⟨e, hrun⟩ | hrun
      · rw [hrun]
        exact Quiet.tick w _
      · rw [hrun]
        exact trans_of R (h.add_mod hid hname hfresh) (Quiet.tick _ _)

theorem within_install_new_mod (h : AllowsMods env R id Safe) {project : ModrinthProject}
    {version : ModrinthProjectVersion} (hname : Safe (mod_file_name project version ".jar")) :
    (install_new_mod env project version id).Within R := by
  refine Eff.Within.bind_returns (within_download_mod_file h.toAllowsModFiles hname) returns_download_mod_file ?_
  rintro _ rfl
  refine (within_ask _).bind fun _ => ?_
  exact (within_addMod h rfl hname).bind fun _ => (within_publish _ _ _).bind fun _ => Eff.Within.pure _

theorem within_install_mod (h : AllowsMods env R id Safe) (mod_version_id : String) :
    (install_mod env mod_version_id id).Within R := by
  refine Eff.Within.bind_returns (within_ask _) (returns_ask _) fun version ⟨_, hversion⟩ => ?_
  refine Eff.Within.bind_returns (within_ask _) (returns_ask _) fun project ⟨_, hproject⟩ => ?_
  refine Eff.Within.read_bind fun w => ?_
  dsimp only
  cases hfind : (w.db.modsOf id).find? fun mod => decide (mod.project_id = some project.id) with
  | some existing_mod =>
      have hmem := List.mem_of_find?_eq_some hfind
      rw [Database.modsOf, List.mem_filter, decide_eq_true_eq] at hmem
      exact h.rows fun hsafe => update_mod_at h hmem.2 _ ⟨_, hmem.1, rfl, hmem.2⟩ (hsafe _ hmem.1)
  | none => exact within_install_new_mod h (h.answers hproject hversion) w

theorem uninstall_mod_at (h : AllowsModFiles env R id Safe) {mod : Mod} (hid : mod.miniverse_id = id) {w : World α}
    (hname : Safe mod.file_name) (hremove : ∀ w₁ : World α, w₁.db = w.db →
      R w₁ { w₁ with db := { w₁.db with mods := w₁.db.mods.filter fun r => decide (r.id ≠ mod.id) } }) :
    R w (uninstall_mod env mod w).2 := by
  refine fixed_bind (within_delete_mod_file (h.fixed w.db) hid hname) (returns_true _) (fun _ _ w₁ hw₁ => ?_) rfl
  have hremove := hremove w₁ hw₁
  rcases commit_cases env (fun db => { db with mods := db.mods.filter fun r => decide (r.id ≠ mod.id) }) w₁ with
    ⟨e, hrun⟩ | hrun
  · rw [Eff.bind_run_error hrun]
    exact Quiet.tick w₁ _
  · rw [Eff.bind_run_ok hrun]
    exact trans_of R (trans_of R hremove (Quiet.tick _ _)) (within_publish _ _ _ _)

theorem within_automatic_mod_install {miniverse : Miniverse} (h : AllowsMods env R miniverse.id Safe) (mod_id : String)
    (prioritize_release retry_with_latest : Bool) :
    (automatic_mod_install env mod_id miniverse prioritize_release retry_with_latest).Within R :=
  (within_installable_versions _ _ _).bind fun _ => (Eff.Within.ofExcept _).bind fun _ =>
    (Eff.Within.getOr _ _).bind fun _ => within_install_mod h _

end Quiet

end Backend
