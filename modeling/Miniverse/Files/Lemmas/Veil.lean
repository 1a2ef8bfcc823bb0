import Miniverse.Files.Lemmas.Apart
import Miniverse.Files.Lemmas.Outcomes
import Miniverse.Lib.Veil

/-!
# The file service on trees with hidden contents

What the operations do on two file trees that differ in the contents below a location. Only copies, archives and the routes that
send contents read any.
-/

namespace Backend

open Lib

variable {α : Type} {pf : Platform α} {root : Loc}

theorem change_path_name_veiled {t t' : FileTree α} (h : t.veiled root = t'.veiled root) (path : Loc) :
    change_path_name_if_exists t path = change_path_name_if_exists t' path := by
  have hcandidate : candidate t path = candidate t' path := by
    funext i
    rw [candidate, candidate, FileTree.isDir_veiled h]
  have hexists : t.exists = t'.exists := funext fun p => FileTree.exists_veiled h p
  have hfree : freeName t path = freeName t' path := by
    rw [freeName, freeName, hcandidate, hexists, FileTree.length_veiled h]
  simp only [change_path_name_if_exists, hfree]

namespace Fs

theorem veiled_locate (cwd : Loc) (path : PurePath) : (locate cwd path : Fs α Loc).Alike (Disk.Veiled root) :=
  (Eff.Alike.raiseIf _ _).bind fun _ => (Disk.veiled_look fun _ _ h => FileTree.locate_veiled h cwd path).bind fun _ =>
    Eff.Alike.getOr _ _

theorem veiled_unlinkPath (cwd : Loc) (path : PurePath) : (unlinkPath cwd path : Fs α Unit).Alike (Disk.Veiled root) :=
  (veiled_locate cwd path).bind fun p => Disk.veiled_unlink p

theorem veiled_writePath (cwd : Loc) (path : PurePath) (x : α) :
    (writePath cwd path x : Fs α Unit).Alike (Disk.Veiled root) :=
  (veiled_locate cwd path).bind fun p => Disk.veiled_write p x

theorem veiled_makedirsRev (rev : List String) : (makedirsRev rev : Fs α Unit).Alike (Disk.Veiled root) := by
  induction rev with
  | nil => exact Disk.veiled_mkdir []
  | cons c up ih =>
      refine (Disk.veiled_look fun _ _ h => FileTree.exists_veiled h _).bind fun b => ?_
      dsimp only
      split
      · refine (ih.attempt fun e => ?_).bind fun _ => Disk.veiled_mkdir _
        exact (Eff.Alike.pure ()).ite (Eff.Alike.raise e)
      · exact Disk.veiled_mkdir _

theorem veiled_scandir (p : Loc) : (scandir p : Fs α _).Alike (Disk.Veiled root) := by
  refine (Disk.veiled_look fun _ _ h => FileTree.isDir_veiled h p).bind fun _ => Eff.Alike.ite ?_ ?_
  · refine Disk.veiled_look fun t t' h => ?_
    rw [FileTree.children_veiled h]
    exact List.map_congr_left fun n _ => by rw [FileTree.isDir_veiled h]
  · refine (Disk.veiled_look fun _ _ h => FileTree.exists_veiled h p).bind fun _ => (Eff.Alike.raise _).ite ?_
    exact (Disk.veiled_look fun _ _ h => FileTree.lookupError_veiled h p).bind fun e => Eff.Alike.raise _

theorem veiled_copy2 {src : Loc} (dst : Loc) (hsrc : ¬ root <+: src) : (copy2 src dst : Fs α Unit).Alike (Disk.Veiled root) :=
  (Disk.veiled_look fun _ _ h => FileTree.isDir_veiled h dst).bind fun _ => (Eff.Alike.raiseIf _ _).bind fun _ =>
    (Disk.veiled_readFile hsrc).bind fun x => Disk.veiled_write _ x

theorem veiled_copyEntries {copy : String × Bool → Fs α Unit} (h : ∀ e, (copy e).Alike (Disk.Veiled root))
    (es : List (String × Bool)) : (copyEntries copy es).Alike (Disk.Veiled root) := by
  induction es with
  | nil => exact Eff.Alike.pure _
  | cons e es ih =>
      refine Eff.Alike.bind (Eff.Alike.attempt ((h e).bind fun _ => Eff.Alike.pure _) fun err => ?_) fun _ =>
        ih.bind fun _ => Eff.Alike.pure _
      exact (Eff.Alike.pure _).ite (Eff.Alike.raise _)

theorem veiled_copytree {depth : Nat} {src : Loc} (dst : Loc) (hsrc : ∀ q, src <+: q → ¬ root <+: q) :
    (copytree depth src dst : Fs α Unit).Alike (Disk.Veiled root) := by
  induction depth generalizing src dst with
  | zero => exact Eff.Alike.raise _
  | succ depth ih =>
      refine (veiled_scandir src).bind fun es => (veiled_makedirsRev _).bind fun _ => ?_
      refine (veiled_copyEntries (fun e => ?_) es).bind fun _ => Eff.Alike.raiseIf _ _
      have hsrc' (q : Loc) (hq : src ++ [e.1] <+: q) : ¬ root <+: q := hsrc q ((List.prefix_append _ _).trans hq)
      exact (ih _ hsrc').ite (veiled_copy2 _ (hsrc' _ (List.prefix_refl _)))

end Fs

/-! ## Files of the user -/

section Clear

variable {id : Uuid4} (hclear : ∀ q, miniverse_data_path pf id <+: q → ¬ root <+: q)

include hclear

theorem clear_below {p : Loc} (hp : miniverse_data_path pf id <+: p) : ∀ q, p <+: q → ¬ root <+: q :=
  fun q hq => hclear q (hp.trans hq)

theorem veiled_list (times : Loc → Times) (user_path : PurePath) :
    (list_miniverse_files pf times id user_path).Alike (Disk.Veiled root) := by
  refine Eff.Alike.ofExcept_bind fun safe_path hsafe => ?_
  have hin := safe_user_path_below (miniverse_data_path_ne id) hsafe
  refine (Disk.veiled_look fun _ _ h => FileTree.exists_veiled h _).bind fun _ => (Eff.Alike.raiseIf _ _).bind fun _ => ?_
  refine (Disk.veiled_look fun _ _ h => FileTree.isFile_veiled h _).bind fun _ => (Eff.Alike.pure none).ite ?_
  refine Disk.veiled_look fun t t' h => ?_
  rw [FileTree.children_veiled h]
  refine congrArg some (List.map_congr_left fun n _ => ?_)
  dsimp only
  rw [FileTree.isDir_veiled h, FileTree.get_off h (hclear _ (hin.trans (List.prefix_append _ _)))]

theorem veiled_content (path : PurePath) : (get_file_content pf id path).Alike (Disk.Veiled root) := by
  refine Eff.Alike.ofExcept_bind fun file hsafe => ?_
  have hin := safe_user_path_below (miniverse_data_path_ne id) hsafe
  refine (Disk.veiled_look fun _ _ h => FileTree.isDir_veiled h file).bind fun _ => (Eff.Alike.raiseIf _ _).bind fun _ => ?_
  refine (Disk.veiled_look fun _ _ h => FileTree.isFile_veiled h file).bind fun _ => Eff.Alike.ite ?_ (Eff.Alike.raise _)
  exact (Disk.veiled_readFile (hclear file hin)).bind fun x => (Eff.Alike.raiseIf _ _).bind fun _ => Eff.Alike.pure x

theorem veiled_copy (paths : List PurePath) (destination : PurePath) :
    (copy_miniverse_files pf id paths destination).Alike (Disk.Veiled root) := by
  refine Eff.Alike.ofExcept_bind fun files hfiles => Eff.Alike.ofExcept_bind fun dest _ => Eff.Alike.forM fun src hsrc => ?_
  have hsrc := clear_below hclear (safe_user_paths_below (miniverse_data_path_ne id) hfiles src hsrc)
  refine (Disk.veiled_look fun _ _ h => FileTree.exists_veiled h src).bind fun _ => Eff.Alike.ite ?_ (Eff.Alike.pure _)
  refine (Disk.veiled_look fun _ _ h => change_path_name_veiled h _).bind fun dst => ?_
  refine (Disk.veiled_look fun _ _ h => FileTree.isDir_veiled h src).bind fun _ => ?_
  exact (Fs.veiled_copytree dst hsrc).ite (Fs.veiled_copy2 dst (hsrc src (List.prefix_refl src)))

theorem veiled_extract (path : PurePath) : (extract_miniverse_archive pf id path).Alike (Disk.Veiled root) := by
  refine Eff.Alike.ofExcept_bind fun file hfile => ?_
  have hin := safe_user_path_below (miniverse_data_path_ne id) hfile
  refine (Disk.veiled_look fun _ _ h => FileTree.isFile_veiled h file).bind fun _ => (Eff.Alike.raiseIf _ _).bind fun _ => ?_
  refine Eff.Alike.ite ?_ (Eff.Alike.raise _)
  refine (Disk.veiled_readFile (hclear file hin)).bind fun content => (Eff.Alike.getOr _ _).bind fun members => ?_
  refine (Eff.Alike.ofExcept _).bind fun container => (Disk.veiled_look fun _ _ h => change_path_name_veiled h _).bind fun dir => ?_
  refine (Disk.veiled_mkdirs dir).bind fun _ => Eff.Alike.forM fun member _ => (Eff.Alike.pure _).ite ?_
  refine (Eff.Alike.ofExcept _).bind fun target => (Disk.veiled_mkdirs _).bind fun _ => (Eff.Alike.raiseIf _ _).bind fun _ => ?_
  exact (Disk.veiled_write target _).bind fun _ => Eff.Alike.raiseIf _ _

theorem veiled_rename_file (path : PurePath) (new_name : String) : (rename_file pf id path new_name).Alike (Disk.Veiled root) := by
  refine Eff.Alike.ofExcept_bind fun file hfile => (Eff.Alike.getOr _ _).bind fun new_path => ?_
  refine (Eff.Alike.ofExcept _).bind fun new_safe => ?_
  refine (Disk.veiled_look fun _ _ h => FileTree.exists_veiled h new_safe).bind fun _ => (Eff.Alike.raiseIf _ _).bind fun _ => ?_
  exact Disk.veiled_rename (Or.inr (clear_below hclear (safe_user_path_below (miniverse_data_path_ne id) hfile)))

end Clear

theorem veiled_delete (id : Uuid4) (paths : List PurePath) : (delete_miniverse_files pf id paths).Alike (Disk.Veiled root) := by
  refine (Eff.Alike.ofExcept _).bind fun files => Eff.Alike.forM fun file _ => ?_
  refine (Disk.veiled_look fun _ _ h => FileTree.exists_veiled h file).bind fun _ => Eff.Alike.ite ?_ (Eff.Alike.pure _)
  refine (Disk.veiled_look fun _ _ h => FileTree.isDir_veiled h file).bind fun _ => ?_
  exact (Disk.veiled_rmtree file).ite (Disk.veiled_unlink file)

theorem veiled_set_content (id : Uuid4) (path : PurePath) (content : Option String) :
    (set_file_content pf id path content).Alike (Disk.Veiled root) := by
  refine (Eff.Alike.ofExcept _).bind fun file => ?_
  refine (Disk.veiled_look fun _ _ h => FileTree.isDir_veiled h file).bind fun _ => (Eff.Alike.raiseIf _ _).bind fun _ => ?_
  refine (Disk.veiled_look fun _ _ h => FileTree.isFile_veiled h file).bind fun _ => Eff.Alike.ite ?_ (Eff.Alike.raise _)
  exact (Eff.Alike.getOr _ _).bind fun text => (Disk.veiled_write file _).bind fun _ => Eff.Alike.raiseIf _ _

/-! ## Archives -/

/-- The request makes an archive, and a path as it is given leads to a file at or below the location. -/
def ArchivesFrom (pf : Platform α) (root : Loc) (t : FileTree α) (id : Uuid4) (paths : List PurePath) : Prop :=
  ∃ files parent, safe_user_paths (miniverse_data_path pf id) paths = .ok files ∧ (files.map Loc.parent).dedup = [parent] ∧
    t.isDir parent = true ∧
    ∃ path ∈ paths, ∃ p q, t.locate pf.cwd path = some p ∧ p <+: q ∧ root <+: q ∧ t.isFile q = true

theorem zip_entries_veiled {t t' : FileTree α} {path : PurePath} (h : t.veiled root = t'.veiled root)
    (hread : ∀ p q, t.locate pf.cwd path = some p → p <+: q → root <+: q → t.isFile q = false) :
    zip_entries pf t path = zip_entries pf t' path := by
  unfold zip_entries
  dsimp only
  rw [← FileTree.locate_veiled h]
  cases hlocate : t.locate pf.cwd path with
  | none => rfl
  | some p =>
      dsimp only
      have hread := hread p
      rcases FileTree.kind_veiled (p := p) h with ⟨hm, hn⟩ | ⟨hm, hn⟩ | ⟨x, x', hm, hn⟩
      · rw [hm, hn]
      · rw [hm, hn, FileTree.below_veiled h fun q hq hroot => hread q hlocate hq hroot]
      · have hout : ¬ root <+: p := fun hroot => by
          have hfile := hread p hlocate (List.prefix_refl p) hroot
          rw [FileTree.isFile_iff.mpr ⟨x, hm⟩] at hfile
          cases hfile
        rw [hm, ← FileTree.get_off h hout, hm]

theorem compress_veiled {id : Uuid4} {paths : List PurePath} {d d' : Disk α} (h : Disk.Veiled root d d')
    (hshow : ¬ ArchivesFrom pf root d.tree id paths) :
    (compress_miniverse_files pf id paths).AlikeAt (Disk.Veiled root) d d' := by
  unfold Eff.AlikeAt
  rcases hsafe : safe_user_paths (miniverse_data_path pf id) paths with e | files
  · have hraise := Eff.Alike.raise (R := Disk.Veiled root) (α := Unit) e d d' h
    unfold compress_miniverse_files
    rw [hsafe]
    exact hraise
  · by_cases hparent : ∃ parent, (files.map Loc.parent).dedup = [parent]
    · obtain ⟨parent, hparent⟩ := hparent
      rw [compress_run d hsafe hparent, compress_run d' hsafe hparent, ← change_path_name_veiled h]
      cases hdir : d.tree.isDir parent with
      | true =>
          have hread : ∀ path ∈ paths, zip_entries pf d.tree path = zip_entries pf d'.tree path := by
            refine fun path hpath => zip_entries_veiled h fun p q hlocate hq hroot => ?_
            cases hfile : d.tree.isFile q with
            | false => rfl
            | true => exact absurd ⟨files, parent, hsafe, hparent, hdir, path, hpath, p, q, hlocate, hq, hroot, hfile⟩ hshow
          rw [List.flatMap_congr hread]
          exact Disk.veiled_write _ _ d d' h
      | false =>
          -- nothing is written, whatever was read
          have hpar := change_path_name_parent d.tree (parent ++ [destination_name files])
          have hfree := (change_path_name_cases d.tree (parent ++ [destination_name files])).1
          rw [Loc.parent_concat] at hpar
          rw [Disk.write_fails_of_parent _ hfree (hpar.symm ▸ hdir), Disk.write_fails_of_parent _
            (FileTree.exists_veiled h _ ▸ hfree) (hpar.symm ▸ FileTree.isDir_veiled h _ ▸ hdir), FileTree.lookupError_veiled h]
          exact ⟨rfl, h⟩
    · have hno : ∀ parent, (files.map Loc.parent).dedup ≠ [parent] := fun parent h => hparent ⟨parent, h⟩
      rw [compress_raises d hsafe hno, compress_raises d' hsafe hno]
      exact ⟨rfl, h⟩

/-! ## Downloads -/

/-- What the server has at the location depends on contents at or below `root`. -/
def Nginx.Shows (nginx : Nginx pf) (root : Loc) (t : FileTree α) (location : List UInt8) : Prop :=
  ∃ t' : FileTree α, t.veiled root = t'.veiled root ∧ nginx.serves t location ≠ nginx.serves t' location

/-- The unquoted location of a file by itself, or a line that a name adds to a manifest, shows contents at or below `root`. -/
def SendsFrom (nginx : Nginx pf) (root : Loc) (t : FileTree α) (id : Uuid4) (paths : String) : Prop :=
  ∃ safe_paths, transform_safe_miniverse_files pf id (selectedPaths paths) = .ok safe_paths ∧
    ((∃ path, safe_paths = [path] ∧ t.isFile path = true ∧
        nginx.Shows root t (decodedPath (utf8 (internal_path pf path).toList))) ∨
      (∀ path, safe_paths = [path] → t.isFile path = false) ∧
        (∀ line, ForgedLine nginx.passes_empty t safe_paths line → ∃ e, readEntry line = some e) ∧
        ∃ line e, ForgedLine nginx.passes_empty t safe_paths line ∧ readEntry line = some e ∧ nginx.Shows root t e.location)

theorem sameServed_veiled {nginx : Nginx pf} {t t' : FileTree α} {id : Uuid4} {paths : String} {safe_paths : List Loc}
    (h : t.veiled root = t'.veiled root) (hsafe : transform_safe_miniverse_files pf id (selectedPaths paths) = .ok safe_paths)
    (hshow : ¬ SendsFrom nginx root t id paths) : SameServed nginx t t' safe_paths where
  single path hpath hfile := by
    by_contra hne
    exact hshow ⟨safe_paths, hsafe, Or.inl ⟨path, hpath, hfile, t', h, hne⟩⟩
  archive hnot hreadable line e hline hentry := by
    by_contra hne
    exact hshow ⟨safe_paths, hsafe, Or.inr ⟨hnot, hreadable, line, e, hline, hentry, t', h, hne⟩⟩

theorem download_veiled {nginx : Nginx pf} {id : Uuid4} (hclear : ∀ q, miniverse_data_path pf id <+: q → ¬ root <+: q) (own : Role)
    {paths : String} {d d' : Disk α} (h : Disk.Veiled root d d') (hshow : ¬ SendsFrom nginx root d.tree id paths) :
    (do
      let response ← FilesController.download_files pf own id paths
      Disk.look fun t => received nginx t response : Fs α _).AlikeAt (Disk.Veiled root) d d' := by
  unfold Eff.AlikeAt
  rcases download_cases pf own id paths with ⟨e, hrun, _⟩ | ⟨safe_paths, _, hsafe, hrun⟩
  · rw [Eff.bind_run_error (hrun d), Eff.bind_run_error (hrun d')]
    exact ⟨rfl, h⟩
  · have hin := safe_user_paths_below (miniverse_data_path_ne id) hsafe
    have hinside := FileTree.inside_veiled h hclear
    have hdata : pf.DATA_PATH ++ ["miniverses"] <+: miniverse_data_path pf id := by
      simp [miniverse_data_path, get_miniverse_path, List.append_assoc]
    rw [Eff.bind_run_ok (hrun d), Eff.bind_run_ok (hrun d'), ← download_files_congr hinside hin]
    refine ⟨?_, h⟩
    simp only [Disk.look, Eff.read_run]
    rw [(received_iff hinside hdata hin).mpr (sameServed_veiled h hsafe hshow)]

/-! ## Uploads -/

/-- The temporary file is not among what is hidden, or cannot be moved. -/
theorem veiled_upload {id : Uuid4} {file_id : String}
    (hfile : upload_loc pf file_id <+: get_miniverse_path pf id ∨ ∀ q, upload_loc pf file_id <+: q → ¬ root <+: q)
    (filename : String) (destination : PurePath) :
    (upload_miniverse_file pf id file_id filename destination).Alike (Disk.Veiled root) := by
  refine Eff.Alike.ofExcept_bind fun dest hdest => ?_
  refine (Disk.veiled_look fun _ _ h => FileTree.isFile_veiled h dest).bind fun _ => (Eff.Alike.raiseIf _ _).bind fun _ => ?_
  refine (Disk.veiled_mkdirs dest).bind fun _ => Eff.Alike.ofExcept_bind fun target htarget => ?_
  obtain ⟨hin, hne⟩ := upload_target_below hdest htarget
  refine (Disk.veiled_mkdirs _).bind fun _ => ?_
  refine Eff.Alike.bind_returns (Q := (get_miniverse_path pf id <+: ·))
    (Disk.veiled_look fun _ _ h => change_path_name_veiled h target) ?_ fun target' htarget' => ?_
  · intro d target' d' hlook
    cases hlook
    exact (change_path_name_below hin hne).1
  · refine (Eff.Alike.getOr _ _).bind fun info => (Fs.veiled_unlinkPath _ info).bind fun _ => ?_
    refine Eff.Alike.bind_returns (Fs.veiled_locate _ _) (Fs.returns_locate _ (upload_path_absolute pf file_id)) ?_
    rintro _ rfl
    exact Disk.veiled_rename (hfile.imp_left fun h => h.trans htarget')

end Backend
