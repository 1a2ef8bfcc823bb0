import Miniverse.Files.Lemmas.Extract
import Miniverse.Files.Lemmas.Upload

/-!
# Requests to the file service
-/

namespace Backend

open Lib

variable {α : Type}

/-- An identifier of an upload, a plain file name. -/
structure UploadId where
  str : String
  ok : IsName str

/-- The requests that change files. -/
inductive WriteRequest where
  | upload (file_id : UploadId) (filename : String) (destination : PurePath)
  | compress (paths : List PurePath)
  | extract (path : PurePath)
  | copy (paths : List PurePath) (destination_path : PurePath)
  | rename (path : PurePath) (new_name : String)
  | delete (paths : List PurePath)
  | setContent (path : PurePath) (content : Option String)

namespace WriteRequest

def run (pf : Platform α) (id : Uuid4) : WriteRequest → Fs α Unit
  | upload file_id filename destination => upload_miniverse_file pf id file_id.str filename destination
  | compress paths => compress_miniverse_files pf id paths
  | extract path => extract_miniverse_archive pf id path
  | copy paths destination_path => copy_miniverse_files pf id paths destination_path
  | rename path new_name => rename_file pf id path new_name
  | delete paths => delete_miniverse_files pf id paths
  | setContent path content => set_file_content pf id path content

/-- Where a request may write: in the data directory, and an upload also at its temporary files. -/
def MayWrite (pf : Platform α) (id : Uuid4) : WriteRequest → Loc → Prop
  | upload file_id _ _, p => UploadWrites pf id file_id.str p
  | _, p => miniverse_data_path pf id <+: p

instance (pf : Platform α) (id : Uuid4) (r : WriteRequest) (p : Loc) : Decidable (r.MayWrite pf id p) :=
  match r with
  | upload _ _ _ => inferInstanceAs (Decidable (_ ∨ _ ∨ _))
  | compress _ | extract _ | copy _ _ | rename _ _ | delete _ | setContent _ _ => inferInstanceAs (Decidable (_ <+: _))

/-- The requests that write elsewhere. An upload does when the directory of the miniverse is missing or its target
is the data directory, a compression when only the data directory is selected, and an extraction of an archive
directly in the data directory when its container denotes the data directory. -/
def Escapes (pf : Platform α) (t : FileTree α) (id : Uuid4) : WriteRequest → Prop
  | upload file_id filename destination => UploadEscapes pf t id file_id.str filename destination
  | compress paths => paths ≠ [] ∧
      (∀ p ∈ paths, safe_user_path (miniverse_data_path pf id) p = .ok (miniverse_data_path pf id)) ∧
      t.isDir (get_miniverse_path pf id) = true
  | extract path => ∃ file members, safe_user_path (miniverse_data_path pf id) path = .ok file ∧
      file.parent = miniverse_data_path pf id ∧
      (suffix file.name).toList.map Char.toLower = ".zip".toList ∧
      AsksFor pf t file (miniverse_data_path pf id) members (miniverse_data_path pf id)
  | _ => False

end WriteRequest

/-- An extraction writes elsewhere exactly when the archive is directly in the data directory and its container
denotes the data directory. -/
theorem extract_confined_iff {pf : Platform α} (t : FileTree α) (id : Uuid4) (path : PurePath) :
    Disk.Confined (miniverse_data_path pf id <+: ·) (extract_miniverse_archive pf id path ⟨t, []⟩).2 ↔
      ¬ WriteRequest.Escapes pf t id (.extract path) := by
  have hempty : Disk.Confined (miniverse_data_path pf id <+: ·) (⟨t, []⟩ : Disk α) := fun _ h => nomatch h
  unfold extract_miniverse_archive
  rcases hsafe : safe_user_path (miniverse_data_path pf id) path with e | file
  · rw [Eff.ofExcept_error_bind]
    refine iff_of_true hempty ?_
    rintro ⟨_, _, h, _⟩
    rw [hsafe] at h
    cases h
  have hin := safe_user_path_below (miniverse_data_path_ne id) hsafe
  have hescapes : WriteRequest.Escapes pf t id (.extract path) ↔ file.parent = miniverse_data_path pf id ∧
      (suffix file.name).toList.map Char.toLower = ".zip".toList ∧
      ∃ members, AsksFor pf t file (miniverse_data_path pf id) members (miniverse_data_path pf id) := by
    constructor
    · rintro ⟨file', members, h, hpar, hzip, hasks⟩
      rw [hsafe, Except.ok.injEq] at h
      subst h
      exact ⟨hpar, hzip, members, hasks⟩
    · rintro ⟨hpar, hzip, members, hasks⟩
      exact ⟨file, members, hsafe, hpar, hzip, hasks⟩
  rw [hescapes, Eff.ofExcept_ok_bind, Disk.look, Eff.read_bind_run]
  cases hfile : t.isFile file with
  | false =>
      rw [Bool.not_false, Eff.raiseIf_true_bind]
      refine iff_of_true hempty ?_
      rintro ⟨_, _, _, content, hget, _⟩
      rw [FileTree.isFile_iff.mpr ⟨content, hget⟩] at hfile
      cases hfile
  | true =>
      rw [Bool.not_true, Eff.raiseIf_false_bind]
      by_cases hzip : (suffix file.name).toList.map Char.toLower = ".zip".toList
      · rw [if_pos hzip]
        -- an archive is not the data directory itself, whose name has no suffix
        have hne : file ≠ miniverse_data_path pf id := by
          rintro rfl
          rw [show Loc.name (miniverse_data_path pf id) = "data" from Loc.name_concat _ _] at hzip
          exact absurd hzip (by decide)
        have hpar := Loc.prefix_parent hin hne
        have hname : ∀ c ∈ file.parent, IsName c := fun c hc =>
          safe_user_path_isName (miniverse_data_path_isName id) hsafe c ((List.dropLast_sublist _).subset hc)
        have hdirpar := FileTree.isDir_parent (FileTree.exists_of_isFile hfile)
        have hdir : t.isDir (miniverse_data_path pf id) = true :=
          FileTree.isDir_above hin (Ne.symm hne) (FileTree.exists_of_isFile hfile)
        by_cases hcond : file.parent = miniverse_data_path pf id ∧
            ∃ members, AsksFor pf t file (miniverse_data_path pf id) members (miniverse_data_path pf id)
        · obtain ⟨heq, members, hasks⟩ := hcond
          rw [heq]
          obtain ⟨c, hc, htouched⟩ := extract_zip_escapes (d := ⟨t, []⟩) hdir hasks
          refine iff_of_false (fun h => ?_) fun h => h ⟨rfl, hzip, members, hasks⟩
          exact not_prefix_sibling (miniverse_data_path_ne_nil id) hc (h _ htouched)
        · refine iff_of_true ?_ fun h => hcond ⟨h.1, h.2.2⟩
          refine (inside_extract_zip hname hpar (fun q hq _ => hq) ⟨hdir, hempty⟩ ?_).2
          by_cases heq : miniverse_data_path pf id = file.parent
          · rw [← heq]
            exact Or.inr (Or.inr fun h => hcond ⟨heq.symm, h⟩)
          · exact Or.inl heq
      · rw [if_neg hzip]
        exact iff_of_true hempty fun h => hzip h.2.1

end Backend
