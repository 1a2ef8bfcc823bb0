import Miniverse.Files.Lemmas.Confine

/-!
# Uploads

An upload makes its destination, finds a free name for its target there, removes the metadata of the temporary
file and moves the file to the target.
-/

namespace Backend

open Lib

variable {α : Type} {pf : Platform α}

namespace Fs

/-- An absolute path of proper names is found at its names, or there is nothing there. -/
theorem locate_cases (cwd : Loc) {path : PurePath} (hroot : path.root = .slash) (hname : ∀ c ∈ path.tail, IsName c)
    (d : Disk α) : (locate cwd path : Fs α Loc) d = (.ok path.tail, d) ∨
      (∃ e, (locate cwd path : Fs α Loc) d = (.error e, d)) ∧ d.tree.exists path.tail = false := by
  have hnul : path.hasNul = false := by
    simp only [PurePath.hasNul, List.any_eq_false, decide_eq_true_eq]
    exact fun c hc => (hname c hc).2.2.2.2
  have hloc : d.tree.locate cwd path = d.tree.walk [] path.tail := by rw [FileTree.locate, hroot]
  unfold locate
  rw [hnul, Eff.raiseIf_false_bind, Disk.look, Eff.read_bind_run, hloc]
  rcases FileTree.walk_cases (t := d.tree) (p := []) fun c hc => (hname c hc).2.2.1 with h | ⟨h, hex⟩
  · left
    rw [h, List.nil_append, Eff.getOr_some]
  · right
    rw [h, Eff.getOr_none]
    exact ⟨⟨_, rfl⟩, by simpa using hex⟩

theorem keeps_unlinkPath {S : Loc → Prop} {cwd : Loc} {path : PurePath} (hroot : path.root = .slash)
    (hname : ∀ c ∈ path.tail, IsName c) (h : S path.tail) :
    (unlinkPath cwd path : Fs α Unit).Keeps (Disk.Confined S) := by
  intro d hd
  rcases locate_cases cwd hroot hname d with hl | ⟨⟨e, hl⟩, _⟩
  · rw [unlinkPath, Eff.bind_run_ok hl]
    exact Disk.keeps_unlink h d hd
  · rw [unlinkPath, Eff.bind_run_error hl]
    exact hd

theorem keeps_renamePath {S : Loc → Prop} {cwd : Loc} {path : PurePath} {target : Loc} (hroot : path.root = .slash)
    (hname : ∀ c ∈ path.tail, IsName c) (h : S path.tail) (htarget : S target) :
    (renamePath cwd path target : Fs α Unit).Keeps (Disk.Confined S) := by
  intro d hd
  rcases locate_cases cwd hroot hname d with hl | ⟨⟨e, hl⟩, _⟩
  · rw [renamePath, Eff.bind_run_ok hl]
    exact Disk.keeps_rename h htarget d hd
  · rw [renamePath, Eff.bind_run_error hl]
    exact hd

/-- A path with nothing at it is not renamed. -/
theorem renamePath_missing (cwd : Loc) {path : PurePath} (target : Loc) {d : Disk α} (hroot : path.root = .slash)
    (hname : ∀ c ∈ path.tail, IsName c) (hmiss : d.tree.exists path.tail = false) :
    ((renamePath cwd path target : Fs α Unit) d).2 = d := by
  rcases locate_cases cwd hroot hname d with hl | ⟨⟨e, hl⟩, _⟩
  · obtain ⟨e, he⟩ := FileTree.rename_fails (b := target) hmiss
    rw [renamePath, Eff.bind_run_ok hl, Disk.rename, Disk.call_error he]
  · rw [renamePath, Eff.bind_run_error hl]

end Fs

/-! ## The temporary files -/

/-- Where the uploaded bytes are. -/
def upload_file (pf : Platform α) (file_id : String) : Loc := pf.DATA_PATH ++ ["uploads", file_id]

/-- Where the metadata of the upload is. -/
def upload_info (pf : Platform α) (file_id : String) : Loc := pf.DATA_PATH ++ ["uploads", stem file_id ++ ".info"]

theorem isName_uploads {c : String} (h : IsName c) : ∀ x ∈ pf.DATA_PATH ++ ["uploads", c], IsName x := by
  intro x hx
  simp only [List.mem_append, List.mem_cons, List.not_mem_nil, or_false] at hx
  rcases hx with hx | rfl | rfl
  · exact pf.data_path_ok x hx
  · decide
  · exact h

theorem parse_isName {c : String} (h : IsName c) : (PurePath.parse c).root = .relative ∧ (PurePath.parse c).tail = [c] := by
  refine ⟨?_, components_of_isComponent h.isComponent⟩
  show Root.ofChars c.toList = .relative
  have hslash := h.2.2.2.1
  unfold Root.ofChars
  split
  · simp_all
  · simp_all
  · simp_all
  · rfl

theorem isName_info {c : String} (h : IsName c) : IsName (stem c ++ ".info") := by
  have hmem : 'f' ∈ (stem c ++ ".info").toList := by simp
  refine ⟨?_, ?_, ?_, ?_, ?_⟩
  · intro h
    rw [h] at hmem
    exact absurd hmem (by decide)
  · intro h
    rw [h] at hmem
    exact absurd hmem (by decide)
  · intro h
    rw [h] at hmem
    exact absurd hmem (by decide)
  · simp only [String.toList_append, List.mem_append, not_or]
    exact ⟨fun hs => h.2.2.2.1 (mem_stem hs), by decide⟩
  · simp only [String.toList_append, List.mem_append, not_or]
    exact ⟨fun hs => h.2.2.2.2 (mem_stem hs), by decide⟩

/-- The path of the upload of a plain identifier. -/
theorem upload_path_eq (pf : Platform α) {file_id : String} (h : IsName file_id) :
    (upload_path pf file_id).root = .slash ∧ (upload_path pf file_id).tail = upload_file pf file_id := by
  obtain ⟨hroot, htail⟩ := parse_isName h
  unfold upload_path PurePath.join
  simp only [hroot, PurePath.ofLoc, htail, upload_file]
  simp

theorem upload_info_eq (pf : Platform α) {file_id : String} (h : IsName file_id) :
    ∃ path, (upload_path pf file_id).withSuffix ".info" = some path ∧ path.root = .slash ∧
      path.tail = upload_info pf file_id := by
  obtain ⟨hroot, htail⟩ := upload_path_eq pf h
  have hlast : (upload_path pf file_id).name = file_id := by
    simp [PurePath.name, htail, upload_file]
  obtain ⟨path, hpath, hr, ht⟩ := PurePath.withName_of (p := upload_path pf file_id) (by simp [htail, upload_file])
    (isName_info h).isComponent
  refine ⟨path, by rw [PurePath.withSuffix, hlast, hpath], hr.trans hroot, ?_⟩
  simp [ht, htail, upload_file, upload_info]

/-! ## Where an upload writes -/

/-- An upload may write below the data directory and at its own temporary files. -/
def UploadWrites (pf : Platform α) (id : Uuid4) (file_id : String) (p : Loc) : Prop :=
  miniverse_data_path pf id <+: p ∨ p = upload_file pf file_id ∨ p = upload_info pf file_id

/-- The directory of the miniverse is missing, and can be made. -/
def DirectoryMissing (pf : Platform α) (t : FileTree α) (id : Uuid4) : Prop :=
  t.exists (get_miniverse_path pf id) = false ∧ ∀ q, q <+: get_miniverse_path pf id → t.isFile q = false

/-- Destination and filename both denote the data directory, and the temporary files are there. -/
def TargetsDirectory (pf : Platform α) (t : FileTree α) (id : Uuid4) (file_id filename : String) (dest : Loc) : Prop :=
  dest = miniverse_data_path pf id ∧ t.isDir (get_miniverse_path pf id) = true ∧
    t.isFile (miniverse_data_path pf id) = false ∧
    safe_user_path (miniverse_data_path pf id) (.parse filename) = .ok (miniverse_data_path pf id) ∧
    t.isFile (upload_info pf file_id) = true ∧ t.exists (upload_file pf file_id) = true ∧
    upload_file pf file_id ≠ upload_info pf file_id

/-- The uploads that write elsewhere. -/
def UploadEscapes (pf : Platform α) (t : FileTree α) (id : Uuid4) (file_id filename : String)
    (destination : PurePath) : Prop :=
  ∃ dest, safe_user_path (miniverse_data_path pf id) destination = .ok dest ∧
    (DirectoryMissing pf t id ∨ TargetsDirectory pf t id file_id filename dest)

variable {id : Uuid4} {file_id filename : String} {target : Loc}

theorem keeps_move_upload (hid : IsName file_id) (htarget : miniverse_data_path pf id <+: target) :
    (move_upload pf file_id target).Keeps (Disk.Confined (UploadWrites pf id file_id)) := by
  obtain ⟨info, hinfo, hroot, htail⟩ := upload_info_eq pf hid
  obtain ⟨hfroot, hftail⟩ := upload_path_eq pf hid
  refine Eff.Within.getOr_bind fun path hpath => Eff.Within.bind ?_ fun _ => ?_
  · obtain rfl := Option.some.inj (hinfo.symm.trans hpath)
    refine Fs.keeps_unlinkPath hroot ?_ (Or.inr (Or.inr htail))
    exact htail ▸ isName_uploads (isName_info hid)
  · refine Fs.keeps_renamePath hfroot ?_ (Or.inr (Or.inl hftail)) (Or.inl htarget)
    exact hftail ▸ isName_uploads hid

/-- Removing the metadata leaves the file in place, when they are not one file. -/
theorem get_unlink_info {t t' : FileTree α} (h : t.unlink (upload_info pf file_id) = .ok t') {q : Loc}
    (hq : q.length ≤ (upload_info pf file_id).length) (hne : q ≠ upload_info pf file_id) : t'.get q = t.get q := by
  rw [(FileTree.unlink_ok h).2, if_neg]
  intro hp
  exact hne (hp.eq_of_length (Nat.le_antisymm hp.length_le hq)).symm

/-- A target next to the data directory is written when metadata and file are there, and are not one file. -/
theorem move_upload_escapes_iff (hid : IsName file_id) {d : Disk α} {c : String} (hc : IsName c)
    (hdir : d.tree.isDir (get_miniverse_path pf id) = true)
    (hfree : d.tree.exists (get_miniverse_path pf id ++ [c]) = false)
    (hout : ¬ UploadWrites pf id file_id (get_miniverse_path pf id ++ [c]))
    (hd : Disk.Confined (UploadWrites pf id file_id) d) :
    Disk.Confined (UploadWrites pf id file_id) (move_upload pf file_id (get_miniverse_path pf id ++ [c]) d).2 ↔
      ¬ (d.tree.isFile (upload_info pf file_id) = true ∧ d.tree.exists (upload_file pf file_id) = true ∧
        upload_file pf file_id ≠ upload_info pf file_id) := by
  obtain ⟨info, hinfo, hroot, htail⟩ := upload_info_eq pf hid
  obtain ⟨hfroot, hftail⟩ := upload_path_eq pf hid
  have hiname : ∀ x ∈ info.tail, IsName x := htail ▸ isName_uploads (isName_info hid)
  have hfname : ∀ x ∈ (upload_path pf file_id).tail, IsName x := hftail ▸ isName_uploads hid
  unfold move_upload
  rw [hinfo, Eff.getOr_some_bind]
  by_cases hfile : d.tree.isFile (upload_info pf file_id) = true
  · -- the metadata is removed
    obtain ⟨t, ht⟩ := FileTree.unlink_succeeds hfile
    have hun : (Fs.unlinkPath pf.cwd info : Fs α Unit) d = (.ok (), ⟨t, d.touched ++ [upload_info pf file_id]⟩) := by
      rcases Fs.locate_cases pf.cwd hroot hiname d with hl | ⟨_, hl⟩
      · rw [Fs.unlinkPath, Eff.bind_run_ok hl, htail]
        exact Disk.call_ok ht
      · rw [htail, FileTree.exists_of_isFile hfile] at hl
        cases hl
    rw [Eff.bind_run_ok hun]
    have hd' : Disk.Confined (UploadWrites pf id file_id) ⟨t, d.touched ++ [upload_info pf file_id]⟩ := by
      intro p hp
      rcases List.mem_append.mp hp with hp | hp
      · exact hd p hp
      · exact Or.inr (Or.inr (List.mem_singleton.mp hp))
    by_cases hex : t.exists (upload_file pf file_id) = true
    · -- and the file is moved
      have hne : upload_file pf file_id ≠ upload_info pf file_id := by
        intro heq
        rw [heq, FileTree.exists, (FileTree.unlink_ok ht).2, if_pos (List.prefix_refl _)] at hex
        cases hex
      have hexd : d.tree.exists (upload_file pf file_id) = true := by
        rwa [FileTree.exists, get_unlink_info ht (by simp [upload_file, upload_info]) hne] at hex
      have hget : ∀ q, ¬ upload_info pf file_id <+: q → t.get q = d.tree.get q := fun q hq => by
        rw [(FileTree.unlink_ok ht).2, if_neg hq]
      have hup : ∀ name rest, ¬ pf.DATA_PATH ++ ["uploads", name] <+: get_miniverse_path pf id ++ rest := by
        intro name rest h
        simp only [get_miniverse_path, List.append_assoc] at h
        have := (List.prefix_append_right_inj _).mp h
        simp at this
      obtain ⟨t', ht'⟩ := FileTree.rename_succeeds (t := t) (b := get_miniverse_path pf id ++ [c]) hex
        (by rw [FileTree.exists, hget _ (hup _ _)]; exact hfree)
        (by
          have := hget (get_miniverse_path pf id) (by simpa [upload_info] using hup (stem file_id ++ ".info") [])
          rw [Loc.parent_concat, FileTree.isDir_iff, this]
          exact FileTree.isDir_iff.mp hdir)
        (by rw [Loc.name_concat]; exact hc) (hup _ _)
      have hren : (Fs.renamePath pf.cwd (upload_path pf file_id) (get_miniverse_path pf id ++ [c]) : Fs α Unit)
          ⟨t, d.touched ++ [upload_info pf file_id]⟩ = (.ok (), ⟨t', d.touched ++ [upload_info pf file_id] ++
            [upload_file pf file_id, get_miniverse_path pf id ++ [c]]⟩) := by
        rcases Fs.locate_cases pf.cwd hfroot hfname ⟨t, d.touched ++ [upload_info pf file_id]⟩ with hl | ⟨_, hl⟩
        · rw [Fs.renamePath, Eff.bind_run_ok hl, hftail]
          exact Disk.call_ok ht'
        · rw [hftail] at hl
          simp [hex] at hl
      rw [hren]
      refine iff_of_false (fun h => hout (h _ (by simp))) fun h => h ⟨hfile, hexd, hne⟩
    · -- the file is not there, or was the metadata
      refine iff_of_true ?_ fun h => hex ?_
      · have hren := Fs.renamePath_missing pf.cwd (get_miniverse_path pf id ++ [c])
          (d := ⟨t, d.touched ++ [upload_info pf file_id]⟩) hfroot hfname (by rw [hftail]; simpa using hex)
        rw [hren]
        exact hd'
      · rw [FileTree.exists, get_unlink_info ht (by simp [upload_file, upload_info]) h.2.2]
        exact h.2.1
  · refine iff_of_true ?_ fun h => hfile h.1
    obtain ⟨e, he⟩ := FileTree.unlink_fails (t := d.tree) (p := upload_info pf file_id) (by simpa using hfile)
    have hun : ∃ e, (Fs.unlinkPath pf.cwd info : Fs α Unit) d = (.error e, d) := by
      rcases Fs.locate_cases pf.cwd hroot hiname d with hl | ⟨⟨e, hl⟩, _⟩
      · rw [Fs.unlinkPath, Eff.bind_run_ok hl, htail]
        exact ⟨_, Disk.call_error he⟩
      · exact ⟨e, by rw [Fs.unlinkPath, Eff.bind_run_error hl]⟩
    obtain ⟨e, hun⟩ := hun
    rw [Eff.bind_run_error hun]
    exact hd

/-! ## The three states of the directory of the miniverse -/

variable {t : FileTree α} {destination : PurePath} {dest : Loc}

theorem get_miniverse_path_above (hin : miniverse_data_path pf id <+: dest) : get_miniverse_path pf id <+: dest :=
  (List.prefix_append _ _).trans hin

/-- It is missing: making the destination makes it. -/
theorem upload_missing (hmiss : DirectoryMissing pf t id)
    (hdest : safe_user_path (miniverse_data_path pf id) destination = .ok dest) :
    get_miniverse_path pf id ∈ (upload_miniverse_file pf id file_id filename destination ⟨t, []⟩).2.touched := by
  have hin := get_miniverse_path_above (safe_user_path_below (miniverse_data_path_ne id) hdest)
  have hnofile : ∀ q, q <+: dest → t.isFile q = false := by
    intro q hq
    rcases List.prefix_or_prefix_of_prefix hin hq with h | h
    · -- nothing is below a missing directory
      by_contra hfile
      have hex := FileTree.exists_of_isFile (by simpa using hfile : t.isFile q = true)
      have : t.exists (get_miniverse_path pf id) = true := by
        by_cases hqe : get_miniverse_path pf id = q
        · exact hqe ▸ hex
        · exact FileTree.exists_of_isDir (FileTree.isDir_above h hqe hex)
      rw [hmiss.1] at this
      cases this
    · exact hmiss.2 q h
  obtain ⟨d, hd, htouched⟩ := Disk.mkdirs_succeeds (ε := PyError) (d := ⟨t, []⟩)
    (safe_user_path_isName (miniverse_data_path_isName id) hdest) hnofile
  unfold upload_miniverse_file
  rw [hdest, Eff.ofExcept_ok_bind, Disk.look, Eff.read_bind_run, hnofile dest (List.prefix_refl _),
    Eff.raiseIf_false_bind, Eff.bind_run_ok hd]
  refine Disk.Frame.subset ?_ (htouched _ hin hmiss.1)
  refine Eff.Within.ofExcept_bind (R := Disk.Frame) (fun target _ => ?_) d
  refine (Disk.frame_mkdirs _).bind fun _ => (Disk.within_look _).bind fun target => ?_
  refine Eff.Within.getOr_bind fun info _ => Eff.Within.bind ?_ fun _ => ?_
  · exact (Fs.within_locate _ _).bind fun _ => Disk.frame_unlink _
  · exact (Fs.within_locate _ _).bind fun _ => Disk.frame_rename _ _

/-- A file is at or above it: the destination cannot be made. -/
theorem upload_under_file {q : Loc} (hq : q <+: get_miniverse_path pf id) (hfile : t.isFile q = true)
    (hdest : safe_user_path (miniverse_data_path pf id) destination = .ok dest) :
    (upload_miniverse_file pf id file_id filename destination ⟨t, []⟩).2 = ⟨t, []⟩ := by
  have hin := safe_user_path_below (miniverse_data_path_ne id) hdest
  have hlen := hin.length_le
  have hne : q ≠ dest := by
    rintro rfl
    have := hq.length_le
    simp only [miniverse_data_path, List.length_append, List.length_singleton] at hlen
    omega
  obtain ⟨e, he⟩ := Disk.mkdirs_fails (ε := PyError) (hq.trans (get_miniverse_path_above hin)) hne
    (d := ⟨t, []⟩) hfile
  unfold upload_miniverse_file
  rw [hdest, Eff.ofExcept_ok_bind, Disk.look, Eff.read_bind_run]
  cases t.isFile dest with
  | true => rw [Eff.raiseIf_true_bind]
  | false => rw [Eff.raiseIf_false_bind, Eff.bind_run_error he]

/-- Below the directory and on the way to a location in the data directory, everything is in the data directory. -/
theorem below_of_directory {p : Loc} (hp : miniverse_data_path pf id <+: p) : ∀ q, get_miniverse_path pf id <+: q →
    q ≠ get_miniverse_path pf id → q <+: p → miniverse_data_path pf id <+: q := by
  intro q hq hne hqp
  rcases List.prefix_or_prefix_of_prefix hp hqp with h | h
  · exact h
  · rcases List.prefix_concat_iff.mp h with rfl | h
    · exact List.prefix_refl _
    · exact absurd (h.eq_of_length (Nat.le_antisymm h.length_le hq.length_le)) hne

/-- The second half of an upload, with the destination made. -/
theorem upload_target (hid : IsName file_id) (hfile : t.isFile dest = false)
    (hdir : t.isDir (get_miniverse_path pf id) = true)
    (hdest : safe_user_path (miniverse_data_path pf id) destination = .ok dest) {d : Disk α}
    (hmade : Disk.Inside (get_miniverse_path pf id) (miniverse_data_path pf id <+: ·) d)
    (hframe : Disk.Frame ⟨t, []⟩ d) (hdestdir : d.tree.isDir dest = true) :
    Disk.Confined (UploadWrites pf id file_id) ((do
      let target ← Eff.ofExcept (safe_user_path dest (.parse filename))
      Disk.mkdirs target.parent
      let target ← Disk.look (change_path_name_if_exists · target)
      move_upload pf file_id target : Fs α Unit) d).2 ↔ ¬ TargetsDirectory pf t id file_id filename dest := by
  have hin := safe_user_path_below (miniverse_data_path_ne id) hdest
  have hweaken : ∀ d : Disk α, Disk.Inside (get_miniverse_path pf id) (miniverse_data_path pf id <+: ·) d →
      Disk.Confined (UploadWrites pf id file_id) d := fun d hd p hp => Or.inl (hd.2 p hp)
  rcases htarget : safe_user_path dest (.parse filename) with e | target
  · rw [Eff.ofExcept_error_bind]
    refine iff_of_true (hweaken d hmade) ?_
    rintro ⟨rfl, _, _, h, _⟩
    rw [htarget] at h
    cases h
  rw [Eff.ofExcept_ok_bind]
  have htin := safe_user_path_below (safe_user_path_ne (miniverse_data_path_ne id) hdest) htarget
  by_cases heq : target = miniverse_data_path pf id
  · -- the target is the data directory, which is there: the file gets a name next to it
    subst heq
    have hdd : dest = miniverse_data_path pf id := htin.eq_of_length (Nat.le_antisymm htin.length_le hin.length_le)
    subst hdd
    have hsame : ∀ name, d.tree.get (pf.DATA_PATH ++ ["uploads", name]) = t.get (pf.DATA_PATH ++ ["uploads", name]) := by
      intro name
      obtain ⟨new, hnew, hget⟩ := hframe
      refine hget _ fun p hp hpre => not_prefix_uploads id name ((hmade.2 p ?_).trans hpre)
      rw [hnew]
      exact List.mem_append_right _ hp
    have hiff : TargetsDirectory pf t id file_id filename (miniverse_data_path pf id) ↔
        (d.tree.isFile (upload_info pf file_id) = true ∧ d.tree.exists (upload_file pf file_id) = true ∧
          upload_file pf file_id ≠ upload_info pf file_id) := by
      have hinfo : d.tree.isFile (upload_info pf file_id) = t.isFile (upload_info pf file_id) := by
        simp only [FileTree.isFile, upload_info, hsame]
      have hupload : d.tree.exists (upload_file pf file_id) = t.exists (upload_file pf file_id) := by
        simp only [FileTree.exists, upload_file, hsame]
      unfold TargetsDirectory
      simp only [hfile, hdir, htarget, true_and, hinfo, hupload]
    have hpar : (miniverse_data_path pf id).parent = get_miniverse_path pf id := Loc.parent_concat _ _
    have hex := FileTree.exists_of_isDir hdestdir
    rw [hiff, hpar, Eff.bind_run_ok (Disk.mkdirs_of_isDir hmade.1), Disk.look, Eff.read_bind_run]
    obtain ⟨hfree, ⟨hnew, _⟩ | ⟨_, c, ⟨hc, _⟩, hname⟩⟩ := change_path_name_cases d.tree (miniverse_data_path pf id)
    · rw [hex] at hnew
      cases hnew
    · have hne := change_path_name_ne d.tree (miniverse_data_path pf id) hex
      rw [hname] at hfree hne ⊢
      have hout := not_prefix_sibling (miniverse_data_path_ne_nil id) hne
      rw [hpar] at hfree hout ⊢
      refine move_upload_escapes_iff hid hc hmade.1 hfree ?_ (hweaken d hmade)
      rintro (h | h | h)
      · exact hout h
      · simp [get_miniverse_path, upload_file] at h
      · simp [get_miniverse_path, upload_info] at h
  · -- the target is strictly below the data directory, and so is its free name
    have hpar : miniverse_data_path pf id <+: target.parent := Loc.prefix_parent (hin.trans htin) heq
    refine iff_of_true ?_ ?_
    · have hmade' := Disk.inside_mkdirs (ε := PyError) (get_miniverse_path_above hpar) (below_of_directory hpar) _ hmade
      rcases hd' : (Disk.mkdirs target.parent : Fs α Unit) d with ⟨e | ⟨⟩, d'⟩
      · rw [hd'] at hmade'
        rw [Eff.bind_run_error hd']
        exact hweaken d' hmade'
      · rw [hd'] at hmade'
        rw [Eff.bind_run_ok hd', Disk.look, Eff.read_bind_run]
        exact keeps_move_upload hid (change_path_name_below (hin.trans htin) heq).1 d' (hweaken d' hmade')
    · rintro ⟨rfl, _, _, h, _⟩
      rw [htarget, Except.ok.injEq] at h
      exact heq h

/-- It is there: everything made is below the data directory, and only the target can be next to it. -/
theorem upload_there (hid : IsName file_id) (hdir : t.isDir (get_miniverse_path pf id) = true)
    (hdest : safe_user_path (miniverse_data_path pf id) destination = .ok dest) :
    Disk.Confined (UploadWrites pf id file_id) (upload_miniverse_file pf id file_id filename destination ⟨t, []⟩).2 ↔
      ¬ TargetsDirectory pf t id file_id filename dest := by
  have hin := safe_user_path_below (miniverse_data_path_ne id) hdest
  have hempty : Disk.Inside (get_miniverse_path pf id) (miniverse_data_path pf id <+: ·) (⟨t, []⟩ : Disk α) :=
    ⟨hdir, fun _ h => nomatch h⟩
  have hweaken : ∀ d : Disk α, Disk.Inside (get_miniverse_path pf id) (miniverse_data_path pf id <+: ·) d →
      Disk.Confined (UploadWrites pf id file_id) d := fun d hd p hp => Or.inl (hd.2 p hp)
  unfold upload_miniverse_file
  rw [hdest, Eff.ofExcept_ok_bind, Disk.look, Eff.read_bind_run]
  cases hfile : t.isFile dest with
  | true =>
      rw [Eff.raiseIf_true_bind]
      refine iff_of_true (hweaken _ hempty) ?_
      rintro ⟨rfl, _, hnofile, _⟩
      rw [hfile] at hnofile
      cases hnofile
  | false =>
      rw [Eff.raiseIf_false_bind]
      have hmade := Disk.inside_mkdirs (ε := PyError) (get_miniverse_path_above hin) (below_of_directory hin) _ hempty
      have hframe := Disk.frame_mkdirs (ε := PyError) dest (⟨t, []⟩ : Disk α)
      rcases hd : (Disk.mkdirs dest : Fs α Unit) ⟨t, []⟩ with ⟨e | ⟨⟩, d⟩
      · -- the destination is under a file, so it is not the data directory
        rw [hd] at hmade
        rw [Eff.bind_run_error hd]
        refine iff_of_true (hweaken d hmade) ?_
        rintro ⟨rfl, _, hnofile, _⟩
        obtain ⟨_, hok, _⟩ := Disk.mkdirs_succeeds (ε := PyError) (d := ⟨t, []⟩) (miniverse_data_path_isName id)
          fun q hq => by
            rcases List.prefix_concat_iff.mp hq with rfl | hq
            · exact hnofile
            · exact FileTree.isFile_eq_false_above hq hdir
        rw [hd] at hok
        cases hok
      · rw [hd] at hmade hframe
        rw [Eff.bind_run_ok hd]
        exact upload_target hid hfile hdir hdest hmade hframe (Disk.isDir_of_mkdirs hd)

/-- An upload writes elsewhere exactly when the directory of the miniverse gets made, or its target is the data
directory itself. -/
theorem upload_confined_iff (t : FileTree α) (hid : IsName file_id) (destination : PurePath) :
    Disk.Confined (UploadWrites pf id file_id) (upload_miniverse_file pf id file_id filename destination ⟨t, []⟩).2 ↔
      ¬ UploadEscapes pf t id file_id filename destination := by
  have hempty : Disk.Confined (UploadWrites pf id file_id) (⟨t, []⟩ : Disk α) := fun _ h => nomatch h
  rcases hdest : safe_user_path (miniverse_data_path pf id) destination with e | dest
  · refine iff_of_true ?_ ?_
    · rw [upload_miniverse_file, hdest, Eff.ofExcept_error_bind]
      exact hempty
    · rintro ⟨_, h, _⟩
      rw [hdest] at h
      cases h
  · have hescapes : UploadEscapes pf t id file_id filename destination ↔
        DirectoryMissing pf t id ∨ TargetsDirectory pf t id file_id filename dest := by
      constructor
      · rintro ⟨dest', h, hcase⟩
        rw [hdest, Except.ok.injEq] at h
        exact h ▸ hcase
      · exact fun h => ⟨dest, hdest, h⟩
    rw [hescapes, not_or]
    by_cases hfile : ∃ q, q <+: get_miniverse_path pf id ∧ t.isFile q = true
    · obtain ⟨q, hq, hfile⟩ := hfile
      rw [upload_under_file hq hfile hdest]
      refine iff_of_true hempty ⟨fun h => ?_, fun h => ?_⟩
      · rw [h.2 q hq] at hfile
        cases hfile
      · rw [FileTree.isFile_eq_false_above hq h.2.1] at hfile
        cases hfile
    · by_cases hex : t.exists (get_miniverse_path pf id) = true
      · have hdir : t.isDir (get_miniverse_path pf id) = true := by
          rw [FileTree.exists_eq, Bool.or_eq_true] at hex
          exact hex.resolve_right fun h => hfile ⟨_, List.prefix_refl _, h⟩
        rw [upload_there hid hdir hdest]
        refine ⟨fun h => ⟨fun hm => ?_, h⟩, And.right⟩
        rw [hm.1] at hex
        cases hex
      · have hmiss : DirectoryMissing pf t id :=
          ⟨by simpa using hex, fun q hq => by_contra fun h => hfile ⟨q, hq, by simpa using h⟩⟩
        refine iff_of_false (fun h => ?_) fun h => h.1 hmiss
        rcases h _ (upload_missing hmiss hdest) with h | h | h
        · exact Loc.concat_not_prefix _ _ h
        · simp [get_miniverse_path, upload_file] at h
        · simp [get_miniverse_path, upload_info] at h

end Backend
