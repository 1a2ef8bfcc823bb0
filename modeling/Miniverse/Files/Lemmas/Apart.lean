import Miniverse.Files.Lemmas.Kept
import Miniverse.Files.Requests

/-!
# What the file service leaves alone

Every request writes below the directory of its miniverse, or makes it. An upload also removes and moves what the paths of its
temporary files lead to, which need not be temporary files.
-/

namespace Backend

open Lib

variable {α : Type} {pf : Platform α} {S : Loc → Prop}

namespace Fs

theorem sameOff_makedirs {p : Loc} (h : ∀ q, q <+: p → S q) : (makedirs p : Fs α Unit).Within (Disk.SameOff S) :=
  within_makedirsRev fun q hq => Disk.sameOff_mkdir (h q (by rwa [List.reverse_reverse] at hq))

theorem sameOff_copytree {depth : Nat} {src dst : Loc} (habove : ∀ q, q <+: dst → S q) (hbelow : ∀ q, dst <+: q → S q) :
    (copytree depth src dst : Fs α Unit).Within (Disk.SameOff S) := by
  induction depth generalizing src dst with
  | zero => exact Eff.Within.raise _
  | succ depth ih =>
      refine (within_scandir src).bind fun es => (sameOff_makedirs habove).bind fun _ => ?_
      refine (within_copyEntries (fun e => ?_) es).bind fun _ => Eff.Within.raiseIf _ _
      have hbelow' (q : Loc) (hq : dst ++ [e.1] <+: q) : S q := hbelow q ((List.prefix_append _ _).trans hq)
      have habove' (q : Loc) (hq : q <+: dst ++ [e.1]) : S q :=
        (List.prefix_concat_iff.mp hq).elim (fun h => hbelow q (h ▸ List.prefix_append _ _)) (habove q)
      exact (ih habove' hbelow').ite (within_copy2 fun q x hq => Disk.sameOff_write (hbelow' q hq))

/-- Of an absolute path only the location that it names is removed. -/
theorem sameOff_unlinkPath (cwd : Loc) {path : PurePath} (hroot : path.root ≠ .relative) (h : S (resolveFrom [] path.tail)) :
    (unlinkPath cwd path : Fs α Unit).Within (Disk.SameOff S) := by
  refine Eff.Within.bind_returns (within_locate _ _) (returns_locate cwd hroot) ?_
  rintro _ rfl
  exact Disk.sameOff_unlink h

end Fs

/-! ## Temporary files -/

theorem upload_path_absolute (pf : Platform α) (file_id : String) : (upload_path pf file_id).root ≠ .relative := by
  unfold upload_path PurePath.join
  split
  · exact nofun
  · assumption

/-- Where the path of a temporary file leads. -/
def upload_loc (pf : Platform α) (file_id : String) : Loc := resolveFrom [] (upload_path pf file_id).tail

/-- Where the path of the metadata leads that an upload removes, when there is one. -/
def metadata_loc (pf : Platform α) (file_id : String) : Option Loc :=
  ((upload_path pf file_id).withSuffix ".info").map fun path => resolveFrom [] path.tail

theorem metadata_absolute {file_id : String} {path : PurePath} (h : (upload_path pf file_id).withSuffix ".info" = some path) :
    path.root ≠ .relative := by
  unfold PurePath.withSuffix PurePath.withName at h
  split at h
  · cases h
    exact upload_path_absolute pf file_id
  · cases h

/-- The target of an upload is strictly below the directory of the miniverse. -/
theorem upload_target_below {id : Uuid4} {destination : PurePath} {dest target : Loc} {filename : String}
    (hdest : safe_user_path (miniverse_data_path pf id) destination = .ok dest)
    (htarget : safe_user_path dest (.parse filename) = .ok target) :
    get_miniverse_path pf id <+: target ∧ target ≠ get_miniverse_path pf id := by
  have hin := (safe_user_path_below (miniverse_data_path_ne id) hdest).trans
    (safe_user_path_below (safe_user_path_ne (miniverse_data_path_ne id) hdest) htarget)
  exact ⟨get_miniverse_path_above hin, fun h => Loc.concat_not_prefix _ _ (h ▸ hin)⟩

/-! ## Requests -/

section Apart

variable {id : Uuid4} (hS : ∀ q, get_miniverse_path pf id <+: q ∨ q <+: get_miniverse_path pf id → S q)

include hS

theorem allowed_below {p : Loc} (hp : get_miniverse_path pf id <+: p) : ∀ q, p <+: q → S q := fun q hq => hS q (Or.inl (hp.trans hq))

theorem allowed_above {p : Loc} (hp : get_miniverse_path pf id <+: p) : ∀ q, q <+: p → S q :=
  fun q hq => hS q (List.prefix_or_prefix_of_prefix hp hq)

theorem allowed_at {p : Loc} (hp : get_miniverse_path pf id <+: p) : S p := hS p (Or.inl hp)

theorem sameOff_delete (paths : List PurePath) : (delete_miniverse_files pf id paths).Within (Disk.SameOff S) := by
  refine Eff.Within.ofExcept_bind fun files hfiles => Eff.Within.forM fun p hp => ?_
  have hin := get_miniverse_path_above (safe_user_paths_below (miniverse_data_path_ne id) hfiles p hp)
  refine (Disk.within_look _).bind fun _ => Eff.Within.ite ?_ (Eff.Within.pure _)
  exact (Disk.within_look _).bind fun _ =>
    (Disk.sameOff_rmtree (allowed_below hS hin)).ite (Disk.sameOff_unlink (allowed_at hS hin))

theorem sameOff_copy (paths : List PurePath) (destination : PurePath) :
    (copy_miniverse_files pf id paths destination).Within (Disk.SameOff S) := by
  refine (Eff.Within.ofExcept _).bind fun files => Eff.Within.ofExcept_bind fun dest hdest => Eff.Within.forM fun src _ => ?_
  have hin := get_miniverse_path_above (safe_user_path_below (miniverse_data_path_ne id) hdest)
  refine (Disk.within_look _).bind fun _ => Eff.Within.ite ?_ (Eff.Within.pure _)
  refine Eff.Within.bind_returns (Q := (get_miniverse_path pf id <+: ·)) (Disk.within_look _) ?_ fun dst hdst => ?_
  · intro d dst d' hlook
    cases hlook
    exact (change_path_name_below (hin.trans (List.prefix_append _ _)) fun h => Loc.concat_not_prefix _ _ (h ▸ hin)).1
  · refine (Disk.within_look _).bind fun _ => ?_
    refine (Fs.sameOff_copytree (allowed_above hS hdst) (allowed_below hS hdst)).ite ?_
    exact Fs.within_copy2 fun q x hq => Disk.sameOff_write (allowed_below hS hdst q hq)

theorem sameOff_rename_file (path : PurePath) (new_name : String) :
    (rename_file pf id path new_name).Within (Disk.SameOff S) := by
  refine Eff.Within.ofExcept_bind fun file hfile => (Eff.Within.getOr _ _).bind fun new_path => ?_
  refine Eff.Within.ofExcept_bind fun new_safe hnew => (Disk.within_look _).bind fun _ => (Eff.Within.raiseIf _ _).bind fun _ => ?_
  have hfile := get_miniverse_path_above (safe_user_path_below (miniverse_data_path_ne id) hfile)
  have hnew := get_miniverse_path_above (safe_user_path_below (miniverse_data_path_ne id) hnew)
  exact Disk.sameOff_rename (Or.inr (allowed_below hS hfile)) (allowed_below hS hnew)

theorem sameOff_set_content (path : PurePath) (content : Option String) :
    (set_file_content pf id path content).Within (Disk.SameOff S) := by
  refine Eff.Within.ofExcept_bind fun file hfile => (Disk.within_look _).bind fun _ => (Eff.Within.raiseIf _ _).bind fun _ => ?_
  have hin := get_miniverse_path_above (safe_user_path_below (miniverse_data_path_ne id) hfile)
  refine (Disk.within_look _).bind fun _ => Eff.Within.ite ?_ (Eff.Within.raise _)
  exact (Eff.Within.getOr _ _).bind fun text => (Disk.sameOff_write (allowed_at hS hin)).bind fun _ => Eff.Within.raiseIf _ _

/-- The archive is not the data directory, whose name has no suffix, so that a directory for its members is below that of the
miniverse. -/
theorem sameOff_extract (path : PurePath) : (extract_miniverse_archive pf id path).Within (Disk.SameOff S) := by
  refine Eff.Within.ofExcept_bind fun file hfile => (Disk.within_look _).bind fun _ => (Eff.Within.raiseIf _ _).bind fun _ => ?_
  dsimp only
  by_cases hzip : (suffix file.name).toList.map Char.toLower = ".zip".toList
  · rw [if_pos hzip]
    have hne : file ≠ miniverse_data_path pf id := by
      rintro rfl
      rw [show Loc.name (miniverse_data_path pf id) = "data" from Loc.name_concat _ _] at hzip
      exact absurd hzip (by decide)
    have hparent := Loc.prefix_parent (safe_user_path_below (miniverse_data_path_ne id) hfile) hne
    have hnames : ∀ c ∈ file.parent, IsName c := fun c hc =>
      safe_user_path_isName (miniverse_data_path_isName id) hfile c ((List.dropLast_sublist _).subset hc)
    refine (Disk.within_readFile _).bind fun content => (Eff.Within.getOr _ _).bind fun members => ?_
    refine Eff.Within.ofExcept_bind fun container hcontainer => ?_
    have hin := hparent.trans (safe_user_path_below (fun c hc => (hnames c hc).2.2.1) hcontainer)
    refine Eff.Within.bind_returns (Q := fun dir => get_miniverse_path pf id <+: dir ∧ ∀ c ∈ dir, c ≠ "..") (Disk.within_look _) ?_
      fun dir hdir => ?_
    · intro d dir d' hlook
      cases hlook
      refine ⟨(change_path_name_below (get_miniverse_path_above hin) fun h => Loc.concat_not_prefix _ _ (h ▸ hin)).1, fun c hc => ?_⟩
      exact (change_path_name_isName (safe_user_path_isName hnames hcontainer) c hc).2.2.1
    · refine (Disk.sameOff_mkdirs (allowed_above hS hdir.1)).bind fun _ => Eff.Within.forM fun member _ => ?_
      refine (Eff.Within.pure _).ite (Eff.Within.ofExcept_bind fun target htarget => ?_)
      have hin := hdir.1.trans (safe_user_path_below hdir.2 htarget)
      refine (Disk.sameOff_mkdirs fun q hq => allowed_above hS hin q (hq.trans (List.dropLast_prefix _))).bind fun _ => ?_
      refine (Eff.Within.raiseIf _ _).bind fun _ => (Disk.sameOff_write (allowed_at hS hin)).bind fun _ => Eff.Within.raiseIf _ _
  · rw [if_neg hzip]
    exact Eff.Within.raise _

/-- An archive is written next to the selected files. -/
theorem sameOff_compress (paths : List PurePath) : (compress_miniverse_files pf id paths).Within (Disk.SameOff S) := by
  refine Eff.Within.ofExcept_bind fun files hfiles => ?_
  dsimp only
  split
  · rename_i parent hparent
    obtain ⟨file, hmem, rfl⟩ : ∃ file ∈ files, Loc.parent file = parent := by
      have hmem : parent ∈ (files.map Loc.parent).dedup := hparent ▸ List.mem_singleton_self parent
      exact List.mem_map.mp (List.mem_dedup.mp hmem)
    have hin := safe_user_paths_below (miniverse_data_path_ne id) hfiles file hmem
    have hparent := Loc.prefix_parent (get_miniverse_path_above hin) fun h => Loc.concat_not_prefix _ _ (h ▸ hin)
    refine Eff.Within.bind_returns (Q := (get_miniverse_path pf id <+: ·)) (Disk.within_look _) ?_ fun target htarget => ?_
    · intro d target d' hlook
      cases hlook
      exact (change_path_name_below (hparent.trans (List.prefix_append _ _)) fun h => Loc.concat_not_prefix _ _ (h ▸ hparent)).1
    · exact (Disk.within_look _).bind fun entries => Disk.sameOff_write (allowed_at hS htarget)
  · exact Eff.Within.raise _

/-- An upload may remove what the path of the metadata leads to, and move what the path of the temporary file leads to. -/
theorem sameOff_upload {file_id : String} (hmetadata : ∀ p, metadata_loc pf file_id = some p → S p)
    (hfile : upload_loc pf file_id <+: get_miniverse_path pf id ∨ ∀ q, upload_loc pf file_id <+: q → S q)
    (filename : String) (destination : PurePath) :
    (upload_miniverse_file pf id file_id filename destination).Within (Disk.SameOff S) := by
  refine Eff.Within.ofExcept_bind fun dest hdest => (Disk.within_look _).bind fun _ => (Eff.Within.raiseIf _ _).bind fun _ => ?_
  have hindest := get_miniverse_path_above (safe_user_path_below (miniverse_data_path_ne id) hdest)
  refine (Disk.sameOff_mkdirs (allowed_above hS hindest)).bind fun _ => Eff.Within.ofExcept_bind fun target htarget => ?_
  obtain ⟨hin, hne⟩ := upload_target_below hdest htarget
  refine (Disk.sameOff_mkdirs fun q hq => allowed_above hS hin q (hq.trans (List.dropLast_prefix _))).bind fun _ => ?_
  refine Eff.Within.bind_returns (Q := (get_miniverse_path pf id <+: ·)) (Disk.within_look _) ?_ fun target' htarget' => ?_
  · intro d target' d' hlook
    cases hlook
    exact (change_path_name_below hin hne).1
  · refine Eff.Within.getOr_bind fun info hinfo => Eff.Within.bind ?_ fun _ => ?_
    · exact Fs.sameOff_unlinkPath _ (metadata_absolute hinfo) (hmetadata _ (by rw [metadata_loc, hinfo]; rfl))
    · refine Eff.Within.bind_returns (Fs.within_locate _ _) (Fs.returns_locate _ (upload_path_absolute pf file_id)) ?_
      rintro _ rfl
      exact Disk.sameOff_rename (hfile.imp_left fun h => h.trans htarget') (allowed_below hS htarget')

end Apart

end Backend
