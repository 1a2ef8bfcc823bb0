import Miniverse.Calls.Lemmas.Addresses
import Miniverse.Files.Lemmas.Upload
import Miniverse.Miniverses.Lemmas.Answers
import Miniverse.Mods.Calls
import Miniverse.Mods.Lemmas.Downloads

/-!
# The files of the rows

Each call on the mods removes and writes files at the locations of two rows at most. The row that it changes gets its new
file, and the others keep theirs when they name other files.
-/

namespace Backend

open Lib

variable {α β : Type} {env : Env α} {id : Uuid4} {w w' : World α} {mod : Mod} {project : ModrinthProject}
  {version : ModrinthProjectVersion}

/-- The content is that of the primary file of the version. -/
def Downloaded (env : Env α) (version : ModrinthProjectVersion) (content : α) : Prop :=
  ∃ file n, version.files.find? (·.primary) = some file ∧ env.download n file.url = .ok content

/-- The file that the row names is there, with what was downloaded for the version of the row. -/
def HasFile (env : Env α) (w : World α) (r : Mod) : Prop :=
  ∃ content version asked n, w.disk.tree.get (mod_file_loc env r.miniverse_id r.file_name) = some (.file content) ∧
    r.version_id = some version.id ∧ env.get_version_details n asked = .ok version ∧ Downloaded env version content

/-- A plain name is that of a file in the directory of the mods. -/
theorem mod_file_loc_isName (env : Env α) (id : Uuid4) {file_name : String} (h : IsName file_name) :
    mod_file_loc env id file_name = mods_path env id ++ [file_name] := by
  obtain ⟨hroot, htail⟩ := parse_isName h
  have hpath : (mod_file_path env id file_name).tail = mods_path env id ++ [file_name] := by
    unfold mod_file_path PurePath.join
    rw [hroot]
    dsimp only
    rw [htail]
    rfl
  rw [mod_file_loc, hpath, resolveFrom_of_forall_ne, List.nil_append]
  intro c hc
  rcases List.mem_append.mp hc with hc | hc
  · exact (mods_path_isName env id c hc).2.2.1
  · exact List.mem_singleton.mp hc ▸ h.2.2.1

/-- The files at the locations that do not satisfy `S` keep their contents. -/
def FilesAlive (S : Loc → Prop) (w w' : World α) : Prop := Disk.FilesKept S w.disk w'.disk

instance (S : Loc → Prop) : Calm (FilesAlive (α := α) S) where
  refl w := Std.Refl.refl w.disk
  trans _ _ _ h₁ h₂ := trans_of (Disk.FilesKept S) h₁ h₂
  tick w _ := Std.Refl.refl w.disk
  events w _ := Std.Refl.refl w.disk
  containers w _ := Std.Refl.refl w.disk

theorem HasFile.kept {S : Loc → Prop} {r : Mod} (h : HasFile env w r) (hkept : FilesAlive S w w')
    (hr : ¬ S (mod_file_loc env r.miniverse_id r.file_name)) : HasFile env w' r := by
  obtain ⟨content, version, asked, n, hget, hrest⟩ := h
  exact ⟨content, version, asked, n, hkept _ content hr hget, hrest⟩

/-! ## Writing and removing -/

/-- The mods of the miniverse have their files. -/
structure ModsStored (env : Env α) (id : Uuid4) (w : World α) : Prop where
  keys : w.db.ModKeys
  files : ∀ r ∈ w.db.modsOf id, HasFile env w r

theorem ModsStored.of_store (h : ModsStored env id w) (hstore : w'.store = w.store) : ModsStored env id w' := by
  obtain ⟨hdb, hdisk⟩ : w'.db = w.db ∧ w'.disk = w.disk := Prod.ext_iff.mp hstore
  refine ⟨hdb ▸ h.keys, fun r hr => ?_⟩
  rw [hdb] at hr
  have hfile := h.files r hr
  unfold HasFile at hfile ⊢
  rwa [hdisk]

end Backend
