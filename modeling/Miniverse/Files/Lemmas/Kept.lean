import Mathlib.Data.List.TakeWhile
import Miniverse.Files.Lemmas.Extract
import Miniverse.Files.Lemmas.Upload

/-!
# The files that are kept

Every operation that creates files looks for a free name first, and writes at or below it. What was there before is not
among what it writes.
-/

namespace Backend

open Lib

variable {α : Type} {pf : Platform α} {S : Loc → Prop}

/-- Every file keeps its content. -/
abbrev Kept (d d' : Disk α) : Prop := Disk.FilesKept (fun _ => False) d d'

/-- What writes only where nothing was keeps every file. -/
theorem kept_of_fresh {p : Loc} {d d' : Disk α} (hnew : d.tree.exists p = false)
    (h : Disk.FilesKept (p <+: ·) d d') : Kept d d' :=
  Disk.FilesKept.of_fresh hnew (h.mono fun _ => Or.inl)

/-! ## Copies -/

theorem filesKept_makedirs (S : Loc → Prop) (p : Loc) : (Fs.makedirs p : Fs α Unit).Within (Disk.FilesKept S) :=
  Fs.within_makedirsRev fun q _ => Disk.filesKept_mkdir S q

theorem filesKept_copytree {depth : Nat} {src dst : Loc} (hS : ∀ q, dst <+: q → S q) :
    (Fs.copytree depth src dst : Fs α Unit).Within (Disk.FilesKept S) := by
  induction depth generalizing src dst with
  | zero => exact Eff.Within.raise _
  | succ depth ih =>
      refine (Fs.within_scandir src).bind fun es => (filesKept_makedirs S dst).bind fun _ => ?_
      refine (Fs.within_copyEntries (fun e => ?_) es).bind fun _ => Eff.Within.raiseIf _ _
      have hbelow : ∀ q, dst ++ [e.1] <+: q → S q := fun q hq => hS q ((List.prefix_append _ _).trans hq)
      exact (ih hbelow).ite (Fs.within_copy2 fun q x hq => Disk.filesKept_write (hbelow q hq))

theorem kept_copy_source (dest src : Loc) : (copy_source pf dest src).Within Kept := by
  intro d
  unfold copy_source
  rw [Disk.look, Eff.read_bind_run]
  cases hsrc : d.tree.exists src with
  | false => exact Std.Refl.refl d
  | true =>
      have hnew := (change_path_name_cases d.tree (dest ++ [src.name])).1
      refine kept_of_fresh hnew ?_
      simp only [if_true, Disk.look, Eff.read_bind_run]
      cases hdir : d.tree.isDir src with
      | true => exact filesKept_copytree (fun q hq => hq) d
      | false => exact Fs.within_copy2 (fun q x hq => Disk.filesKept_write hq) d

theorem kept_copy (id : Uuid4) (paths : List PurePath) (destination : PurePath) :
    (copy_miniverse_files pf id paths destination).Within Kept :=
  (Eff.Within.ofExcept _).bind fun _ => (Eff.Within.ofExcept _).bind fun dest =>
    Eff.Within.forM fun src _ => kept_copy_source dest src

/-! ## Archives -/

theorem filesKept_extract_member {single_root : Bool} {container_dir : Loc} {member : ZipMember α}
    (hname : ∀ c ∈ container_dir, c ≠ "..") (hS : ∀ q, container_dir <+: q → S q) :
    (extract_member single_root container_dir member).Within (Disk.FilesKept S) := by
  refine (Eff.Within.pure _).ite (Eff.Within.ofExcept_bind fun target htarget => ?_)
  have hin := safe_user_path_below hname htarget
  refine (Disk.filesKept_mkdirs S _).bind fun _ => (Eff.Within.raiseIf _ _).bind fun _ => ?_
  exact (Disk.filesKept_write (hS target hin)).bind fun _ => Eff.Within.raiseIf _ _

theorem kept_extract_members {members : List (ZipMember α)} {container : Loc} (hname : ∀ c ∈ container, IsName c) :
    (extract_members members container).Within Kept := by
  intro d
  unfold extract_members
  rw [Disk.look, Eff.read_bind_run]
  have hcdir : ∀ c ∈ change_path_name_if_exists d.tree container, c ≠ ".." :=
    fun c hc => (change_path_name_isName hname c hc).2.2.1
  refine kept_of_fresh (change_path_name_cases d.tree container).1 ?_
  refine ((Disk.filesKept_mkdirs _ _).bind fun _ => Eff.Within.forM fun m _ => ?_) d
  exact filesKept_extract_member hcdir fun q hq => hq

theorem kept_extract (id : Uuid4) (path : PurePath) : (extract_miniverse_archive pf id path).Within Kept := by
  refine Eff.Within.ofExcept_bind fun file hfile => (Disk.within_look _).bind fun _ => (Eff.Within.raiseIf _ _).bind fun _ => ?_
  have hname : ∀ c ∈ file.parent, IsName c := fun c hc =>
    safe_user_path_isName (miniverse_data_path_isName id) hfile c ((List.dropLast_sublist _).subset hc)
  refine Eff.Within.ite ?_ (Eff.Within.raise _)
  refine (Disk.within_readFile _).bind fun content => (Eff.Within.getOr _ _).bind fun members => ?_
  exact Eff.Within.ofExcept_bind fun container hcontainer => kept_extract_members (safe_user_path_isName hname hcontainer)

theorem kept_compress (id : Uuid4) (paths : List PurePath) : (compress_miniverse_files pf id paths).Within Kept := by
  refine (Eff.Within.ofExcept _).bind fun files => ?_
  dsimp only
  split
  · intro d
    simp only [Disk.look, Eff.read_bind_run]
    exact kept_of_fresh (change_path_name_cases d.tree _).1 (Disk.filesKept_write (List.prefix_refl _) d)
  · exact Eff.Within.raise _

/-! ## Uploads -/

/-- The temporary files of an upload. -/
def OwnUpload (pf : Platform α) (file_id : String) (q : Loc) : Prop :=
  upload_file pf file_id <+: q ∨ q = pf.DATA_PATH ++ ["uploads", file_id ++ ".info"]

theorem stem_of_plain {name : String} (h : '.' ∉ name.toList) : stem name = name := by
  have hdrop : name.toList.reverse.dropWhile (· ≠ '.') = [] := by
    refine List.dropWhile_eq_nil_iff.mpr fun c hc => ?_
    have hne : c ≠ '.' := by
      rintro rfl
      exact h (List.mem_reverse.mp hc)
    simpa using hne
  unfold stem splitSuffix
  rw [hdrop]
  exact String.ofList_toList

theorem filesKept_move_upload {file_id : String} (hid : IsName file_id) (hplain : '.' ∉ file_id.toList) {target : Loc} :
    (move_upload pf file_id target).Within (Disk.FilesKept fun q => target <+: q ∨ OwnUpload pf file_id q) := by
  obtain ⟨info, hinfo, hroot, htail⟩ := upload_info_eq pf hid
  obtain ⟨hfroot, hftail⟩ := upload_path_eq pf hid
  refine Eff.Within.getOr_bind fun path hpath => Eff.Within.bind (fun d => ?_) fun _ d => ?_
  · obtain rfl := Option.some.inj (hinfo.symm.trans hpath)
    rcases Fs.locate_cases pf.cwd hroot (htail ▸ isName_uploads (isName_info hid)) d with hl | ⟨⟨e, hl⟩, _⟩
    · rw [Fs.unlinkPath, Eff.bind_run_ok hl]
      refine Disk.filesKept_unlink (Or.inr (Or.inr ?_)) d
      rw [htail, upload_info, stem_of_plain hplain]
    · rw [Fs.unlinkPath, Eff.bind_run_error hl]
      exact Std.Refl.refl d
  · rcases Fs.locate_cases pf.cwd hfroot (hftail ▸ isName_uploads hid) d with hl | ⟨⟨e, hl⟩, _⟩
    · rw [Fs.renamePath, Eff.bind_run_ok hl]
      refine Disk.filesKept_rename (fun q hq => Or.inr (Or.inl ?_)) (fun q hq => Or.inl hq) d
      exact hftail ▸ hq
    · rw [Fs.renamePath, Eff.bind_run_error hl]
      exact Std.Refl.refl d

theorem filesKept_upload {file_id : String} (hid : IsName file_id) (hplain : '.' ∉ file_id.toList) (id : Uuid4)
    (filename : String) (destination : PurePath) :
    (upload_miniverse_file pf id file_id filename destination).Within (Disk.FilesKept (OwnUpload pf file_id)) := by
  refine (Eff.Within.ofExcept _).bind fun dest => (Disk.within_look _).bind fun _ => (Eff.Within.raiseIf _ _).bind fun _ => ?_
  refine (Disk.filesKept_mkdirs _ _).bind fun _ => (Eff.Within.ofExcept _).bind fun target => ?_
  refine (Disk.filesKept_mkdirs _ _).bind fun _ => Eff.Within.read_bind fun d => ?_
  exact Disk.FilesKept.of_fresh (change_path_name_cases d.tree target).1 (filesKept_move_upload hid hplain d)

/-! ## Renames -/

variable (pf) in
/-- A rename moves the tree to its new path, or changes nothing. -/
theorem rename_moves (id : Uuid4) (path : PurePath) (new_name : String) (d : Disk α) :
    (∃ e, rename_file pf id path new_name d = (.error e, d)) ∨
      ∃ a b new_path d', rename_file pf id path new_name d = (.ok (), d') ∧ path.withName new_name = some new_path ∧
        safe_user_path (miniverse_data_path pf id) path = .ok a ∧
        safe_user_path (miniverse_data_path pf id) new_path = .ok b ∧ Disk.Moved a b d d' := by
  unfold rename_file
  rcases ha : safe_user_path (miniverse_data_path pf id) path with e | a
  · exact Or.inl ⟨e, rfl⟩
  rw [Eff.ofExcept_ok_bind]
  rcases hpath : path.withName new_name with _ | new_path
  · exact Or.inl ⟨_, rfl⟩
  rw [Eff.getOr_some_bind]
  rcases hb : safe_user_path (miniverse_data_path pf id) new_path with e | b
  · exact Or.inl ⟨e, rfl⟩
  rw [Eff.ofExcept_ok_bind, Disk.look, Eff.read_bind_run]
  cases hnew : d.tree.exists b with
  | true => exact Or.inl ⟨_, rfl⟩
  | false =>
      rw [Eff.raiseIf_false_bind]
      rcases hrun : d.tree.rename a b with e | t
      · exact Or.inl ⟨_, Disk.call_error hrun⟩
      · have hok : (Disk.rename a b : Fs α Unit) d = _ := Disk.call_ok hrun
        exact Or.inr ⟨a, b, new_path, _, hok, rfl, rfl, hb, Disk.rename_moved hnew hok⟩

end Backend
