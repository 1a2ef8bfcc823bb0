import Miniverse.Files.Lemmas.Confine

/-!
# Extraction

Where `_extract_zip` writes is decided by the location of its container directory: strictly below a directory
it stays there; but a container that denotes the directory of the archive itself is replaced by a directory
next to it.
-/

namespace Backend

open Lib

variable {α : Type} {pf : Platform α} {r : Loc} {S : Loc → Prop}

/-- A member lands below the container directory. The directory above may be the container's own, when the
member denotes the container. -/
theorem inside_extract_member {single_root : Bool} {container_dir : Loc} {member : ZipMember α}
    (hname : ∀ c ∈ container_dir, c ≠ "..") (hr : r <+: container_dir) (hne : container_dir ≠ r)
    (hS : ∀ q, r <+: q → q ≠ r → S q) :
    (extract_member single_root container_dir member).Keeps (Disk.Inside r S) := by
  refine (Eff.Within.pure _).ite ?_
  refine Eff.Within.ofExcept_bind fun target htarget => ?_
  have hin := safe_user_path_below hname htarget
  have htne : target ≠ r := by
    rintro rfl
    exact hne (hin.eq_of_length (Nat.le_antisymm hin.length_le hr.length_le))
  have hpar : r <+: target.parent := Loc.prefix_parent (hr.trans hin) htne
  refine (Disk.inside_mkdirs hpar fun q hq hne _ => hS q hq hne).bind fun _ => ?_
  refine (Eff.Within.raiseIf _ _).bind fun _ => Eff.Within.bind ?_ fun _ => Eff.Within.raiseIf _ _
  exact Disk.inside_write (hS target (hr.trans hin) htne)

/-- The archive can be read, and the container that its members or its name ask for is accepted. -/
def AsksFor (pf : Platform α) (t : FileTree α) (archive_path extract_dir : Loc) (members : List (ZipMember α))
    (container : Loc) : Prop :=
  ∃ content, t.get archive_path = some (.file content) ∧ pf.zipfile content = some members ∧
    safe_user_path extract_dir (.parse (container_name (get_zip_roots members) archive_path)) = .ok container

variable {archive extract_dir container : Loc} {members : List (ZipMember α)} {d : Disk α}

theorem extract_zip_of_asksFor (h : AsksFor pf d.tree archive extract_dir members container) :
    _extract_zip pf archive extract_dir d = extract_members members container d := by
  obtain ⟨content, hget, hzip, hsafe⟩ := h
  have hread : (Disk.readFile archive : Fs α α) d = (.ok content, d) := by simp only [Disk.readFile, hget]
  unfold _extract_zip
  rw [Eff.bind_run_ok hread, hzip, Eff.getOr_some_bind, hsafe, Eff.ofExcept_ok_bind]

/-- Otherwise nothing is changed. -/
theorem extract_zip_of_not_asksFor (h : ∀ members container, ¬ AsksFor pf d.tree archive extract_dir members container) :
    (_extract_zip pf archive extract_dir d).2 = d := by
  unfold _extract_zip
  rcases hget : d.tree.get archive with _ | node
  · rw [Eff.bind_run]
    simp only [Disk.readFile, hget]
  · cases node with
    | dir =>
        rw [Eff.bind_run]
        simp only [Disk.readFile, hget]
    | file content =>
        have hread : (Disk.readFile archive : Fs α α) d = (.ok content, d) := by simp only [Disk.readFile, hget]
        rw [Eff.bind_run_ok hread]
        rcases hzip : pf.zipfile content with _ | members
        · rw [Eff.getOr_none_bind]
        · rw [Eff.getOr_some_bind]
          rcases hsafe : safe_user_path extract_dir (.parse (container_name (get_zip_roots members) archive))
            with e | container
          · rw [Eff.ofExcept_error_bind]
          · exact absurd ⟨content, hget, hzip, hsafe⟩ (h members container)

/-- With a container directory strictly below `r`, everything written is. -/
theorem inside_extract_members (hname : ∀ c ∈ container, IsName c) (hS : ∀ q, r <+: q → q ≠ r → S q)
    (hd : Disk.Inside r S d) (hr : r <+: change_path_name_if_exists d.tree container)
    (hne : change_path_name_if_exists d.tree container ≠ r) :
    Disk.Inside r S (extract_members members container d).2 := by
  have hcdir : ∀ c ∈ change_path_name_if_exists d.tree container, c ≠ ".." :=
    fun c hc => (change_path_name_isName hname c hc).2.2.1
  unfold extract_members
  rw [Disk.look, Eff.read_bind_run]
  refine Eff.Within.bind (R := Eff.Keeping (Disk.Inside r S)) ?_ (fun _ => ?_) d hd
  · exact Disk.inside_mkdirs hr fun q hq hne _ => hS q hq hne
  · exact Eff.Within.forM fun m _ => inside_extract_member hcdir hr hne hS

/-- An extraction stays strictly below `r`, unless `r` is the directory to extract to and the container denotes
it. The root of the file system has no directory next to it. -/
theorem inside_extract_zip (hname : ∀ c ∈ extract_dir, IsName c) (hr : r <+: extract_dir)
    (hS : ∀ q, r <+: q → q ≠ r → S q) (hd : Disk.Inside r S d)
    (hc : r ≠ extract_dir ∨ extract_dir = [] ∨
      ¬ ∃ members, AsksFor pf d.tree archive extract_dir members extract_dir) :
    Disk.Inside r S (_extract_zip pf archive extract_dir d).2 := by
  by_cases hasks : ∃ members container, AsksFor pf d.tree archive extract_dir members container
  · obtain ⟨members, container, hasks⟩ := hasks
    rw [extract_zip_of_asksFor hasks]
    obtain ⟨_, hget, hzip, hsafe⟩ := id hasks
    have hcont := safe_user_path_below (fun c hc => (hname c hc).2.2.1) hsafe
    have hcname := safe_user_path_isName hname hsafe
    by_cases hcr : container = r
    · -- then `r` is the directory to extract to, and it is the root
      subst hcr
      have hre : container = extract_dir := hr.eq_of_length (Nat.le_antisymm hr.length_le hcont.length_le)
      have hroot : container = [] := by
        rcases hc with hc | hc | hc
        · exact absurd hre hc
        · exact hre.trans hc
        · exact absurd ⟨members, by rw [hre] at hasks; exact hasks⟩ hc
      have hex := FileTree.exists_of_isDir hd.1
      exact inside_extract_members hcname hS hd (hroot ▸ List.nil_prefix) (change_path_name_ne d.tree container hex)
    · obtain ⟨hbelow, hne⟩ := change_path_name_below (t := d.tree) (hr.trans hcont) hcr
      exact inside_extract_members hcname hS hd hbelow hne
  · rw [extract_zip_of_not_asksFor fun members container h => hasks ⟨members, container, h⟩]
    exact hd

/-- The container denotes the directory to extract to: a directory next to it is made. -/
theorem extract_zip_escapes (hdir : d.tree.isDir extract_dir = true)
    (hasks : AsksFor pf d.tree archive extract_dir members extract_dir) : ∃ c, extract_dir.parent ++ [c] ≠ extract_dir ∧
      extract_dir.parent ++ [c] ∈ (_extract_zip pf archive extract_dir d).2.touched := by
  have hex := FileTree.exists_of_isDir hdir
  obtain ⟨hfree, ⟨hnew, _⟩ | ⟨_, c, ⟨hcname, _⟩, hc⟩⟩ := change_path_name_cases d.tree extract_dir
  · rw [hex] at hnew
    cases hnew
  · refine ⟨c, hc ▸ change_path_name_ne d.tree extract_dir hex, ?_⟩
    rw [extract_zip_of_asksFor hasks, extract_members, Disk.look, Eff.read_bind_run]
    rw [hc] at hfree ⊢
    obtain ⟨d', hd', htouched⟩ := Disk.mkdirs_of_parent (ε := PyError) (FileTree.isDir_parent hex) hcname hfree
    rw [Eff.bind_run_ok hd']
    refine Disk.Frame.subset ?_ htouched
    refine Eff.Within.forM (R := Disk.Frame) (fun m _ => ?_) d'
    refine (Eff.Within.pure _).ite (Eff.Within.ofExcept_bind fun target _ => ?_)
    refine (Disk.frame_mkdirs _).bind fun _ => (Eff.Within.raiseIf _ _).bind fun _ => ?_
    exact (Disk.frame_write _ _).bind fun _ => Eff.Within.raiseIf _ _

end Backend
