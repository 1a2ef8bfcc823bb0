import Mathlib.Data.List.Dedup
import Miniverse.Files.Lemmas.Paths

/-!
# What the operations write to

Every operation confines the path of the user, but writes to a path derived from it. The rules here follow the
operations down to the calls; `Confined` and `Inside` are the invariants carried through.
-/

namespace Backend

open Lib

variable {α : Type} {pf : Platform α} {r : Loc} {S : Loc → Prop}

/-! ## Copies -/

namespace Fs

theorem within_locate {R : Disk α → Disk α → Prop} [Std.Refl R] [IsTrans (Disk α) R] (cwd : Loc)
    (path : PurePath) : (locate cwd path : Fs α Loc).Within R :=
  (Eff.Within.raiseIf _ _).bind fun _ => (Disk.within_look _).bind fun _ => Eff.Within.getOr _ _

/-- A path from the root leads where its components lead, `..` read without the file system. -/
theorem returns_locate (cwd : Loc) {path : PurePath} (hroot : path.root ≠ .relative) :
    (locate cwd path : Fs α Loc).Returns (· = resolveFrom [] path.tail) := by
  intro d p d' h
  obtain ⟨_, _, _, h⟩ := Eff.bind_ok h
  obtain ⟨o, _, hlook, h⟩ := Eff.bind_ok h
  cases hlook
  obtain ⟨hlocate, _⟩ := Eff.getOr_ok h
  unfold FileTree.locate at hlocate
  split at hlocate
  · exact absurd ‹_› hroot
  · exact FileTree.walk_eq_resolveFrom hlocate

/-- What holds of making each directory on the way holds of `os.makedirs`. -/
theorem within_makedirsRev {R : Disk α → Disk α → Prop} [Std.Refl R] [IsTrans (Disk α) R] {rev : List String}
    (h : ∀ q, q <+: rev.reverse → (Disk.mkdir q : Fs α Unit).Within R) : (makedirsRev rev : Fs α Unit).Within R := by
  induction rev with
  | nil => exact h [] List.nil_prefix
  | cons c up ih =>
      have hup := ih fun q hq => h q (hq.trans (by simp))
      have hself := h _ (List.prefix_refl _)
      refine (Disk.within_look _).bind fun b => ?_
      dsimp only
      split
      · refine (hup.attempt fun e => ?_).bind fun _ => hself
        exact (Eff.Within.pure _).ite (Eff.Within.raise _)
      · exact hself

theorem inside_makedirs {p : Loc} (hp : r <+: p) (hS : ∀ q, r <+: q → q ≠ r → q <+: p → S q) :
    (makedirs p : Fs α Unit).Keeps (Disk.Inside r S) := by
  refine within_makedirsRev fun q hq => Disk.inside_mkdir fun hne hnot => ?_
  rw [List.reverse_reverse] at hq
  exact hS q ((List.prefix_or_prefix_of_prefix hp hq).resolve_right hnot) hne hq

theorem within_scandir {R : Disk α → Disk α → Prop} [Std.Refl R] [IsTrans (Disk α) R] (p : Loc) :
    (scandir p : Fs α _).Within R := by
  refine (Disk.within_look _).bind fun _ => (Disk.within_look _).ite ?_
  refine (Disk.within_look _).bind fun _ => (Eff.Within.raise _).ite ?_
  exact (Disk.within_look _).bind fun _ => Eff.Within.raise _

/-- A copy of a file writes at its destination or directly below. -/
theorem within_copy2 {R : Disk α → Disk α → Prop} [Std.Refl R] [IsTrans (Disk α) R] {src dst : Loc}
    (h : ∀ q x, dst <+: q → (Disk.write q x : Fs α Unit).Within R) : (copy2 src dst : Fs α Unit).Within R := by
  refine (Disk.within_look _).bind fun isdir => (Eff.Within.raiseIf _ _).bind fun _ => ?_
  refine (Disk.within_readFile _).bind fun x => h _ x ?_
  split
  · exact List.prefix_append _ _
  · exact List.prefix_refl _

theorem within_copyEntries {R : Disk α → Disk α → Prop} [Std.Refl R] [IsTrans (Disk α) R]
    {copy : String × Bool → Fs α Unit} (h : ∀ e, (copy e).Within R) (es : List (String × Bool)) :
    (copyEntries copy es).Within R := by
  induction es with
  | nil => exact Eff.Within.pure _
  | cons e es ih =>
      refine Eff.Within.bind (Eff.Within.attempt ((h e).bind fun _ => Eff.Within.pure _) fun err => ?_) fun _ =>
        ih.bind fun _ => Eff.Within.pure _
      exact (Eff.Within.pure _).ite (Eff.Within.raise _)

/-- A copy of a directory changes nothing but locations at or below its destination, when the directory above
is there. -/
theorem inside_copytree {depth : Nat} {src dst : Loc} (hdst : r <+: dst) (hS : ∀ q, r <+: q → S q) :
    (copytree depth src dst : Fs α Unit).Keeps (Disk.Inside r S) := by
  induction depth generalizing src dst with
  | zero => exact Eff.Within.raise _
  | succ depth ih =>
      refine (within_scandir src).bind fun es => ?_
      refine (inside_makedirs hdst fun q hq _ _ => hS q hq).bind fun _ => ?_
      refine (within_copyEntries (fun e => ?_) es).bind fun _ => Eff.Within.raiseIf _ _
      have hdst' : r <+: dst ++ [e.1] := hdst.trans (List.prefix_append _ _)
      exact (ih hdst').ite (within_copy2 fun q x hq => Disk.inside_write (hS q (hdst'.trans hq)))

end Fs

/-! ## The data directory -/

theorem miniverse_data_path_ne (id : Uuid4) : ∀ c ∈ miniverse_data_path pf id, c ≠ ".." :=
  fun c hc => (miniverse_data_path_isName id c hc).2.2.1

theorem miniverse_data_path_ne_nil (id : Uuid4) : miniverse_data_path pf id ≠ [] := by
  simp [miniverse_data_path]

/-- The temporary files of an upload are not below the data directory. -/
theorem not_prefix_uploads (id : Uuid4) (name : String) :
    ¬ miniverse_data_path pf id <+: pf.DATA_PATH ++ ["uploads", name] := by
  intro h
  simp only [miniverse_data_path, get_miniverse_path, List.append_assoc] at h
  have := (List.prefix_append_right_inj _).mp h
  simp at this

/-- Another name next to the data directory is not below it. -/
theorem not_prefix_next_to {id : Uuid4} {c : String} (hc : c ≠ "data") :
    ¬ miniverse_data_path pf id <+: get_miniverse_path pf id ++ [c] := by
  intro h
  have := (List.prefix_append_right_inj (get_miniverse_path pf id)).mp h
  exact hc (List.cons_prefix_cons.mp this).1.symm

theorem parent_not_below {d : Loc} (h : d ≠ []) : ¬ d <+: d.parent := by
  intro hp
  have := hp.length_le
  have := List.length_pos_iff.mpr h
  simp at *
  omega

/-- A name next to a location is not below it, unless it is the location itself. -/
theorem not_prefix_sibling {d : Loc} {c : String} (h : d ≠ []) (hc : d.parent ++ [c] ≠ d) :
    ¬ d <+: d.parent ++ [c] := by
  intro hp
  refine hc (hp.eq_of_length ?_).symm
  have := List.length_pos_iff.mpr h
  simp
  omega

/-! ## Operations that stay inside -/

variable {D : Loc}

theorem keeps_delete (id : Uuid4) (paths : List PurePath) :
    (delete_miniverse_files pf id paths).Keeps (Disk.Confined (miniverse_data_path pf id <+: ·)) := by
  refine Eff.Within.ofExcept_bind fun safe_paths hsafe => Eff.Within.forM fun p hp => ?_
  have hin := safe_user_paths_below (miniverse_data_path_ne id) hsafe p hp
  refine (Disk.within_look _).bind fun _ => Eff.Within.ite ?_ (Eff.Within.pure _)
  exact (Disk.within_look _).bind fun _ => (Disk.keeps_rmtree hin).ite (Disk.keeps_unlink hin)

/-- Copying one source: a file is written at the destination alone; for a directory the data directory is
there, and the directories above it are not made. -/
theorem keeps_copy_source {src dest : Loc} (hsrc : D <+: src) (hdest : D <+: dest) :
    (copy_source pf dest src).Keeps (Disk.Confined (D <+: ·)) := by
  have hdst : ∀ t : FileTree α, D <+: change_path_name_if_exists t (dest ++ [src.name]) := fun t => by
    refine (change_path_name_below (hdest.trans (List.prefix_append _ _)) ?_).1
    intro h
    exact Loc.concat_not_prefix _ _ (h ▸ hdest)
  intro d hd
  simp only [copy_source, Disk.look, Eff.read_bind_run]
  by_cases hex : d.tree.exists src = true
  · by_cases hdir : d.tree.isDir src = true
    · simp only [hex, hdir, if_true, Eff.read_bind_run]
      have hD : d.tree.isDir D = true := by
        by_cases h : D = src
        · exact h ▸ hdir
        · exact FileTree.isDir_above hsrc h hex
      exact (Fs.inside_copytree (hdst d.tree) (fun q hq => hq) d ⟨hD, hd⟩).2
    · simp only [hex, hdir, if_true, Eff.read_bind_run]
      refine (Fs.within_copy2 (R := Eff.Keeping (Disk.Confined (D <+: ·))) (fun q x hq => ?_)) d hd
      exact Disk.keeps_write ((hdst d.tree).trans hq)
  · simpa [hex] using hd

theorem keeps_copy (id : Uuid4) (paths : List PurePath) (destination : PurePath) :
    (copy_miniverse_files pf id paths destination).Keeps (Disk.Confined (miniverse_data_path pf id <+: ·)) := by
  refine Eff.Within.ofExcept_bind fun safe_paths hsafe => Eff.Within.ofExcept_bind fun dest hdest => ?_
  refine Eff.Within.forM fun src hsrc => keeps_copy_source ?_ ?_
  · exact safe_user_paths_below (miniverse_data_path_ne id) hsafe src hsrc
  · exact safe_user_path_below (miniverse_data_path_ne id) hdest

theorem keeps_rename (id : Uuid4) (path : PurePath) (new_name : String) :
    (rename_file pf id path new_name).Keeps (Disk.Confined (miniverse_data_path pf id <+: ·)) := by
  refine Eff.Within.ofExcept_bind fun file hfile => Eff.Within.getOr_bind fun new_path _ => ?_
  refine Eff.Within.ofExcept_bind fun new_safe hnew => ?_
  refine (Disk.within_look _).bind fun _ => (Eff.Within.raiseIf _ _).bind fun _ => Disk.keeps_rename ?_ ?_
  · exact safe_user_path_below (miniverse_data_path_ne id) hfile
  · exact safe_user_path_below (miniverse_data_path_ne id) hnew

theorem keeps_set_content (id : Uuid4) (path : PurePath) (content : Option String) :
    (set_file_content pf id path content).Keeps (Disk.Confined (miniverse_data_path pf id <+: ·)) := by
  refine Eff.Within.ofExcept_bind fun file hfile => (Disk.within_look _).bind fun _ => ?_
  refine (Eff.Within.raiseIf _ _).bind fun _ => (Disk.within_look _).bind fun _ => Eff.Within.ite ?_ ?_
  · refine (Eff.Within.getOr _ _).bind fun text => Eff.Within.bind ?_ fun _ => Eff.Within.raiseIf _ _
    exact Disk.keeps_write (safe_user_path_below (miniverse_data_path_ne id) hfile)
  · exact Eff.Within.raise _

/-! ## Compression -/

theorem dedup_eq_singleton {β : Type} [DecidableEq β] {l : List β} {a : β} (hne : l ≠ []) (h : ∀ x ∈ l, x = a) :
    l.dedup = [a] := by
  rw [List.eq_replicate_of_mem h]
  exact List.replicate_dedup (by simpa using hne)

/-- One parent: the archive is written next to the selected files, under a free name. -/
theorem compress_run {id : Uuid4} {paths : List PurePath} {files : List Loc} {parent : Loc} (d : Disk α)
    (hsafe : safe_user_paths (miniverse_data_path pf id) paths = .ok files)
    (hparent : (files.map Loc.parent).dedup = [parent]) :
    compress_miniverse_files pf id paths d =
      (Disk.write (change_path_name_if_exists d.tree (parent ++ [destination_name files]))
        (pf.zipstream (paths.flatMap (zip_entries pf d.tree))) : Fs α Unit) d := by
  unfold compress_miniverse_files
  rw [hsafe, Eff.ofExcept_ok_bind, hparent]
  rfl

theorem compress_raises {id : Uuid4} {paths : List PurePath} {files : List Loc} (d : Disk α)
    (hsafe : safe_user_paths (miniverse_data_path pf id) paths = .ok files)
    (hparent : ∀ parent, (files.map Loc.parent).dedup ≠ [parent]) :
    compress_miniverse_files pf id paths d = (.error (.valueError "Files to compress must have same parent"), d) := by
  unfold compress_miniverse_files
  rw [hsafe, Eff.ofExcept_ok_bind]
  rcases hps : (files.map Loc.parent).dedup with _ | ⟨a, _ | ⟨b, l⟩⟩
  · rfl
  · exact absurd hps (hparent a)
  · rfl

theorem destination_name_cases (files : List Loc) (h : ∀ f ∈ files, f.name = "data") :
    IsName (destination_name files) ∧ destination_name files ≠ "data" := by
  unfold destination_name
  split
  · rw [h _ List.mem_cons_self]
    decide
  · decide

/-- The archive is written inside, or the data directory itself is selected and the archive is next to it. -/
theorem archive_next_to {id : Uuid4} {files : List Loc} {parent : Loc} (hin : ∀ f ∈ files, miniverse_data_path pf id <+: f)
    (hne : files ≠ []) (hmem : ∀ f ∈ files, f.parent = parent) (hout : ¬ miniverse_data_path pf id <+: parent) :
    (∀ f ∈ files, f = miniverse_data_path pf id) ∧ parent = get_miniverse_path pf id ∧ ∀ t : FileTree α, ∃ c, IsName c ∧
      c ≠ "data" ∧ change_path_name_if_exists t (parent ++ [destination_name files]) = get_miniverse_path pf id ++ [c] := by
  have hD : ∀ f ∈ files, f = miniverse_data_path pf id := fun f hf => by
    by_contra h
    exact hout (hmem f hf ▸ Loc.prefix_parent (hin f hf) h)
  have hparent : parent = get_miniverse_path pf id := by
    obtain ⟨f, hf⟩ := List.exists_mem_of_ne_nil files hne
    rw [← hmem f hf, hD f hf]
    exact Loc.parent_concat _ _
  obtain ⟨hname, hnedata⟩ := destination_name_cases files fun f hf => by
    rw [hD f hf]
    exact Loc.name_concat _ _
  refine ⟨hD, hparent, fun t => ?_⟩
  rw [hparent]
  rcases (change_path_name_cases t (get_miniverse_path pf id ++ [destination_name files])).2 with
    ⟨_, h⟩ | ⟨_, c, ⟨hc, hparen⟩, h⟩
  · exact ⟨_, hname, hnedata, h⟩
  · rw [Loc.parent_concat] at h
    refine ⟨c, hc, fun h => ?_, h⟩
    rw [h] at hparen
    exact absurd hparen (by decide)

theorem forall_parent_eq {files : List Loc} {parent : Loc} (h : (files.map Loc.parent).dedup = [parent]) :
    ∀ f ∈ files, f.parent = parent := by
  intro f hf
  have hmem : f.parent ∈ (files.map Loc.parent).dedup := List.mem_dedup.mpr (List.mem_map_of_mem hf)
  rw [h] at hmem
  exact List.mem_singleton.mp hmem

/-- The archive of the selected files is written next to the data directory exactly when every selected path
denotes the data directory. -/
theorem compress_confined_iff (t : FileTree α) (id : Uuid4) (paths : List PurePath) :
    Disk.Confined (miniverse_data_path pf id <+: ·) (compress_miniverse_files pf id paths ⟨t, []⟩).2 ↔
      ¬ (paths ≠ [] ∧ (∀ p ∈ paths, safe_user_path (miniverse_data_path pf id) p = .ok (miniverse_data_path pf id)) ∧
        t.isDir (get_miniverse_path pf id) = true) := by
  have hempty : Disk.Confined (miniverse_data_path pf id <+: ·) (⟨t, []⟩ : Disk α) := fun _ h => nomatch h
  have hpar : (miniverse_data_path pf id).parent = get_miniverse_path pf id := Loc.parent_concat _ _
  rcases hsafe : safe_user_paths (miniverse_data_path pf id) paths with e | files
  · refine iff_of_true ?_ ?_
    · rw [compress_miniverse_files, hsafe, Eff.ofExcept_error_bind]
      exact hempty
    · rintro ⟨_, hall, _⟩
      have : safe_user_paths (miniverse_data_path pf id) paths = .ok (paths.map fun _ => miniverse_data_path pf id) := by
        rw [safe_user_paths_ok, List.forall₂_map_right_iff, List.forall₂_same]
        exact hall
      rw [hsafe] at this
      cases this
  · have hin := safe_user_paths_below (miniverse_data_path_ne id) hsafe
    have hall := safe_user_paths_ok.mp hsafe
    have hself : (∀ p ∈ paths, safe_user_path (miniverse_data_path pf id) p = .ok (miniverse_data_path pf id)) ↔
        ∀ f ∈ files, f = miniverse_data_path pf id := by
      clear hin hsafe
      induction hall with
      | nil => simp
      | cons h _ ih => simp [ih, h]
    have hnil : paths ≠ [] ↔ files ≠ [] := by
      cases hall <;> simp
    rw [hself, hnil]
    by_cases hone : ∃ parent, (files.map Loc.parent).dedup = [parent]
    · obtain ⟨parent, hparent⟩ := hone
      rw [compress_run ⟨t, []⟩ hsafe hparent]
      have hmem := forall_parent_eq hparent
      have hne : files ≠ [] := by
        rintro rfl
        simp at hparent
      obtain ⟨f, hf⟩ := List.exists_mem_of_ne_nil files hne
      by_cases hinpar : miniverse_data_path pf id <+: parent
      · refine iff_of_true (Disk.keeps_write ?_ _ hempty) fun h => ?_
        · refine (change_path_name_below (hinpar.trans (List.prefix_append _ _)) fun h => ?_).1
          exact Loc.concat_not_prefix _ _ (h ▸ hinpar)
        · rw [← hmem f hf, h.2.1 f hf] at hinpar
          exact parent_not_below (miniverse_data_path_ne_nil id) hinpar
      · obtain ⟨hD, rfl, harchive⟩ := archive_next_to hin hne hmem hinpar
        -- the archive has a free name next to the data directory
        obtain ⟨c, hc, hcne, heq⟩ := harchive t
        have hfree := (change_path_name_cases t (get_miniverse_path pf id ++ [destination_name files])).1
        rw [heq] at hfree ⊢
        by_cases hdir : t.isDir (get_miniverse_path pf id) = true
        · obtain ⟨t', ht'⟩ := FileTree.write_succeeds (x := pf.zipstream (paths.flatMap (zip_entries pf t))) hfree
            (by rw [Loc.parent_concat]; exact hdir) (by rw [Loc.name_concat]; exact hc)
          rw [Disk.write, Disk.call_ok ht']
          exact iff_of_false (fun h => not_prefix_next_to hcne (h _ (by simp))) fun h => h ⟨hne, hD, hdir⟩
        · refine iff_of_true ?_ fun h => hdir h.2.2
          intro p hp
          unfold Disk.write Disk.call at hp
          split at hp
          · rename_i t' ht'
            have := (FileTree.write_ok ht').2.1
            rw [Loc.parent_concat] at this
            exact absurd this hdir
          · cases hp
    · rw [compress_raises _ hsafe fun parent h => hone ⟨parent, h⟩]
      refine iff_of_true hempty fun ⟨hne, hD, _⟩ => hone ⟨get_miniverse_path pf id, ?_⟩
      refine dedup_eq_singleton (by simpa using hne) fun x hx => ?_
      obtain ⟨f, hf, rfl⟩ := List.mem_map.mp hx
      rw [hD f hf, hpar]

end Backend
