import Miniverse.Files.Lemmas.Confine
import Miniverse.Files.Reads

/-!
# Runs on file systems that agree

What the operations do on two file systems with the same data directory.
-/

namespace Backend

open Lib

variable {α : Type} {pf : Platform α} {root : Loc}

/-! ## Free names -/

theorem candidate_below {t : FileTree α} {path : Loc} (hp : root <+: path) (hne : path ≠ root) (i : Nat) :
    root <+: candidate t path i := by
  have hparent := Loc.prefix_parent hp hne
  unfold candidate
  split
  · exact hp
  · split
    · exact hparent.trans (List.prefix_append _ _)
    · exact hparent.trans (List.prefix_append _ _)

theorem change_path_name_congr {t t' : FileTree α} {path : Loc} (h : t.inside root = t'.inside root) (hp : root <+: path)
    (hne : path ≠ root) : change_path_name_if_exists t path = change_path_name_if_exists t' path := by
  have hcandidate : candidate t path = candidate t' path := by
    funext i
    rw [candidate, candidate, FileTree.isDir_congr h hp]
  have hexists (i : Nat) : t.exists (candidate t path i) = t'.exists (candidate t' path i) := by
    rw [← hcandidate]
    exact FileTree.exists_congr h (candidate_below hp hne i)
  obtain ⟨b, hb⟩ := Option.isSome_iff_exists.mp (freeName_isSome t path)
  obtain ⟨b', hb'⟩ := Option.isSome_iff_exists.mp (freeName_isSome t' path)
  -- with the fuel of both, the searches are the same
  have hlong := firstFree_mono hb (Nat.le_add_right (t.entries.length + 2) (t'.entries.length + 2))
  have hlong' := firstFree_mono hb' (Nat.le_add_left (t'.entries.length + 2) (t.entries.length + 2))
  have hsame := firstFree_map id id hexists (fun j => congrFun hcandidate j) (t.entries.length + 2 + (t'.entries.length + 2)) 1
  rw [hlong, hlong'] at hsame
  simp only [change_path_name_if_exists, hb, hb', Option.get_some]
  exact Option.some.inj hsame

/-! ## Copies -/

namespace Fs

theorem alike_makedirsRev {rev : List String} (h : root <+: rev.reverse) :
    (makedirsRev rev : Fs α Unit).Alike (Disk.Agree root) := by
  induction rev with
  | nil => exact Disk.alike_mkdir h
  | cons c up ih =>
      have hself : (Disk.mkdir (c :: up).reverse : Fs α Unit).Alike (Disk.Agree root) := Disk.alike_mkdir h
      rw [List.reverse_cons] at h
      rcases List.prefix_concat_iff.mp h with hroot | hup
      · -- the directory above the location is there
        have habove (d : Disk α) (hd : d.tree.exists root = true) : d.tree.exists up.reverse = true := by
          have hparent := FileTree.isDir_parent hd
          rw [hroot, Loc.parent_concat] at hparent
          exact FileTree.exists_of_isDir hparent
        have hrun (d : Disk α) (hd : d.tree.exists root = true) :
            (makedirsRev (c :: up) : Fs α Unit) d = (Disk.mkdir (c :: up).reverse : Fs α Unit) d := by
          rw [makedirsRev, Disk.look, Eff.read_bind_run, habove d hd]
          rfl
        intro d d' hagree
        have hexists' : d'.tree.exists root = true :=
          (FileTree.exists_congr hagree.2 (List.prefix_refl root)).symm.trans hagree.1
        rw [hrun d hagree.1, hrun d' hexists']
        exact hself d d' hagree
      · refine (Disk.alike_look_agree fun t t' ht => FileTree.exists_congr ht hup).bind fun b => ?_
        dsimp only
        split
        · refine ((ih hup).attempt fun e => ?_).bind fun _ => hself
          exact (Eff.Alike.pure ()).ite (Eff.Alike.raise e)
        · exact hself

theorem alike_makedirs {p : Loc} (h : root <+: p) : (makedirs p : Fs α Unit).Alike (Disk.Agree root) :=
  alike_makedirsRev (by rwa [List.reverse_reverse])

theorem alike_scandir {p : Loc} (h : root <+: p) : (scandir p : Fs α _).Alike (Disk.Agree root) := by
  have hchild (n : String) : root <+: p ++ [n] := h.trans (List.prefix_append _ _)
  refine (Disk.alike_look_agree fun t t' ht => FileTree.isDir_congr ht h).bind fun _ => Eff.Alike.ite ?_ ?_
  · refine Disk.alike_look_agree fun t t' ht => ?_
    rw [FileTree.children_congr ht h]
    exact List.map_congr_left fun n _ => by rw [FileTree.isDir_congr ht (hchild n)]
  · refine (Disk.alike_look_agree fun t t' ht => FileTree.exists_congr ht h).bind fun _ => Eff.Alike.ite (Eff.Alike.raise _) ?_
    intro d d' hagree
    simp only [Disk.look, Eff.read_bind_run]
    rw [FileTree.lookupError_congr hagree.2 hagree.1 h]
    exact ⟨rfl, hagree⟩

theorem alike_copy2 {src dst : Loc} (hsrc : root <+: src) (hdst : root <+: dst) :
    (copy2 src dst : Fs α Unit).Alike (Disk.Agree root) := by
  refine (Disk.alike_look_agree fun t t' ht => FileTree.isDir_congr ht hdst).bind fun b => ?_
  refine (Eff.Alike.raiseIf _ _).bind fun _ => (Disk.alike_readFile hsrc).bind fun x => Disk.alike_write ?_ x
  split
  · exact hdst.trans (List.prefix_append _ _)
  · exact hdst

theorem alike_copyEntries {copy : String × Bool → Fs α Unit} (h : ∀ e, (copy e).Alike (Disk.Agree root))
    (es : List (String × Bool)) : (copyEntries copy es).Alike (Disk.Agree root) := by
  induction es with
  | nil => exact Eff.Alike.pure _
  | cons e es ih =>
      refine Eff.Alike.bind (Eff.Alike.attempt ((h e).bind fun _ => Eff.Alike.pure _) fun err => ?_) fun _ =>
        ih.bind fun _ => Eff.Alike.pure _
      exact (Eff.Alike.pure _).ite (Eff.Alike.raise _)

theorem alike_copytree {depth : Nat} {src dst : Loc} (hsrc : root <+: src) (hdst : root <+: dst) :
    (copytree depth src dst : Fs α Unit).Alike (Disk.Agree root) := by
  induction depth generalizing src dst with
  | zero => exact Eff.Alike.raise _
  | succ depth ih =>
      refine (alike_scandir hsrc).bind fun es => (alike_makedirs hdst).bind fun _ => ?_
      refine (alike_copyEntries (fun e => ?_) es).bind fun _ => Eff.Alike.raiseIf _ _
      have hsrc' : root <+: src ++ [e.1] := hsrc.trans (List.prefix_append _ _)
      have hdst' : root <+: dst ++ [e.1] := hdst.trans (List.prefix_append _ _)
      exact (ih hsrc' hdst').ite (alike_copy2 hsrc' hdst')

end Fs

theorem alike_copy_source {dest src : Loc} (hsrc : root <+: src) (hdest : root <+: dest) :
    (copy_source pf dest src).Alike (Disk.Agree root) := by
  have hpath : root <+: dest ++ [src.name] := hdest.trans (List.prefix_append _ _)
  have hne : dest ++ [src.name] ≠ root := fun h => Loc.concat_not_prefix _ _ (h ▸ hdest)
  refine (Disk.alike_look_agree fun t t' ht => FileTree.exists_congr ht hsrc).bind fun _ => Eff.Alike.ite ?_ (Eff.Alike.pure _)
  refine Eff.Alike.bind_returns (Q := (root <+: ·)) (Disk.alike_look_agree fun t t' ht => change_path_name_congr ht hpath hne) ?_ ?_
  · intro d dst d' hlook
    cases hlook
    exact (change_path_name_below hpath hne).1
  · intro dst hdst
    refine (Disk.alike_look_agree fun t t' ht => FileTree.isDir_congr ht hsrc).bind fun _ => ?_
    exact (Fs.alike_copytree hsrc hdst).ite (Fs.alike_copy2 hsrc hdst)

/-- The trees agree at and below a location where nothing is. -/
def Absent (root : Loc) (d d' : Disk α) : Prop := d.tree.exists root = false ∧ Disk.SameInside root d d'

/-- Where nothing is, nothing is copied. -/
theorem absent_copy_source {dest src : Loc} (hsrc : root <+: src) : (copy_source pf dest src).Alike (Absent root) := by
  have hmissing {t : FileTree α} (ht : t.exists root = false) : t.exists src = false := by
    by_contra hex
    have hex : t.exists src = true := by simpa using hex
    by_cases hne : root = src
    · rw [hne, hex] at ht
      cases ht
    · rw [FileTree.exists_of_isDir (FileTree.isDir_above hsrc hne hex)] at ht
      cases ht
  have hrun (d : Disk α) (hd : d.tree.exists root = false) : copy_source pf dest src d = (.ok (), d) := by
    rw [copy_source, Disk.look, Eff.read_bind_run, hmissing hd]
    rfl
  intro d d' h
  have hexists' : d'.tree.exists root = false := (FileTree.exists_congr h.2 (List.prefix_refl root)).symm.trans h.1
  rw [hrun d h.1, hrun d' hexists']
  exact ⟨rfl, h⟩

theorem alike_copy (id : Uuid4) (paths : List PurePath) (destination : PurePath) :
    (copy_miniverse_files pf id paths destination).Alike (Disk.SameInside (miniverse_data_path pf id)) := by
  refine Eff.Alike.ofExcept_bind fun files hsafe => Eff.Alike.ofExcept_bind fun dest hdest => ?_
  have hin := safe_user_paths_below (miniverse_data_path_ne id) hsafe
  intro d d' h
  cases hexists : d.tree.exists (miniverse_data_path pf id) with
  | true =>
      have hcopied := Eff.Alike.forM (R := Disk.Agree (miniverse_data_path pf id)) (fun src hsrc =>
        @alike_copy_source α pf _ dest src (hin src hsrc) (safe_user_path_below (miniverse_data_path_ne id) hdest))
      obtain ⟨hanswer, hagree⟩ := hcopied d d' ⟨hexists, h⟩
      exact ⟨hanswer, hagree.2⟩
  | false =>
      have hcopied := Eff.Alike.forM (R := Absent (miniverse_data_path pf id)) (fun src hsrc =>
        @absent_copy_source α pf _ dest src (hin src hsrc))
      obtain ⟨hanswer, habsent⟩ := hcopied d d' ⟨hexists, h⟩
      exact ⟨hanswer, habsent.2⟩

/-! ## Reading -/

theorem alike_list (times : Loc → Times) (id : Uuid4) (user_path : PurePath) :
    (list_miniverse_files pf times id user_path).Alike (Disk.SameInside (miniverse_data_path pf id)) := by
  refine Eff.Alike.ofExcept_bind fun safe_path hsafe => ?_
  have hin := safe_user_path_below (miniverse_data_path_ne id) hsafe
  have hchild (n : String) : miniverse_data_path pf id <+: safe_path ++ [n] := hin.trans (List.prefix_append _ _)
  refine (Disk.alike_look (fun _ _ h => h) fun t t' ht => FileTree.exists_congr ht hin).bind fun _ => ?_
  refine (Eff.Alike.raiseIf _ _).bind fun _ => ?_
  refine (Disk.alike_look (fun _ _ h => h) fun t t' ht => FileTree.isFile_congr ht hin).bind fun _ => Eff.Alike.ite ?_ ?_
  · exact Eff.Alike.pure none
  · refine Disk.alike_look (fun _ _ h => h) fun t t' ht => ?_
    rw [FileTree.children_congr ht hin]
    refine congrArg some (List.map_congr_left fun n _ => ?_)
    dsimp only
    rw [FileTree.isDir_congr ht (hchild n), FileTree.get_congr ht (hchild n)]

/-- Only times of the data directory are listed. -/
theorem list_times {times times' : Loc → Times} (id : Uuid4) (user_path : PurePath)
    (h : ∀ path, miniverse_data_path pf id <+: path → times path = times' path) :
    (list_miniverse_files pf times id user_path : Fs α _) = list_miniverse_files pf times' id user_path := by
  unfold list_miniverse_files
  dsimp only
  rcases hsafe : safe_user_path (miniverse_data_path pf id) user_path with e | safe_path
  · rfl
  · have hin := safe_user_path_below (miniverse_data_path_ne id) hsafe
    have htimes (n : String) : times (safe_path ++ [n]) = times' (safe_path ++ [n]) := h _ (hin.trans (List.prefix_append _ _))
    funext d
    rw [Eff.ofExcept_ok_bind, Eff.ofExcept_ok_bind]
    simp only [htimes]

theorem alike_content (id : Uuid4) (path : PurePath) :
    (get_file_content pf id path).Alike (Disk.SameInside (miniverse_data_path pf id)) := by
  refine Eff.Alike.ofExcept_bind fun file hsafe => ?_
  have hin := safe_user_path_below (miniverse_data_path_ne id) hsafe
  refine (Disk.alike_look (fun _ _ h => h) fun t t' ht => FileTree.isDir_congr ht hin).bind fun _ => ?_
  refine (Eff.Alike.raiseIf _ _).bind fun _ => ?_
  intro d d' h
  simp only [Disk.look, Eff.read_bind_run]
  rw [← FileTree.isFile_congr h hin]
  cases hfile : d.tree.isFile file with
  | false => exact Eff.Alike.raise _ d d' h
  | true =>
      obtain ⟨x, hx⟩ := FileTree.isFile_iff.mp hfile
      have hread : (Disk.readFile file : Fs α α) d = (.ok x, d) := by rw [Disk.readFile, hx]
      have hread' : (Disk.readFile file : Fs α α) d' = (.ok x, d') := by rw [Disk.readFile, ← FileTree.get_congr h hin, hx]
      simp only [if_true]
      rw [Eff.bind_run_ok hread, Eff.bind_run_ok hread']
      exact (Eff.Alike.raiseIf _ _).bind (fun _ => Eff.Alike.pure x) d d' h

theorem listedFiles_congr {t t' : FileTree α} {path : Loc} (h : t.inside root = t'.inside root) (hp : root <+: path) :
    listedFiles t path = listedFiles t' path := by
  unfold listedFiles
  rw [FileTree.get_congr h hp, FileTree.below_congr h hp]

theorem manifest_congr {t t' : FileTree α} {paths : List Loc} (h : t.inside root = t'.inside root)
    (hpaths : ∀ path ∈ paths, root <+: path) : manifest pf t paths = manifest pf t' paths :=
  List.flatMap_congr fun path hpath => by rw [listedFiles_congr h (hpaths path hpath)]

theorem download_files_congr {t t' : FileTree α} {paths : List Loc} (h : t.inside root = t'.inside root)
    (hpaths : ∀ path ∈ paths, root <+: path) : download_files pf t paths = download_files pf t' paths := by
  have harchive : archive_response pf t paths = archive_response pf t' paths := by
    rw [archive_response, archive_response, manifest_congr h hpaths]
  unfold download_files
  split
  · rename_i path
    rw [FileTree.isFile_congr h (hpaths path List.mem_cons_self), harchive]
  · exact harchive

end Backend
