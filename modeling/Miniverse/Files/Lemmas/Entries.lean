import Miniverse.Files.Entries
import Miniverse.Files.Lemmas.Zips

/-!
# What listed paths denote

The path of an entry in a listing is confined to the entry, so that every operation which confines its paths works on it.
-/

namespace Backend

open Lib

variable {α : Type} {pf : Platform α} {id : Uuid4} {t : FileTree α} {entry : Loc}

/-! ## Paths of entries -/

theorem entry_path_eq (h : IsEntry pf id t entry) :
    ∃ rel, rel ≠ [] ∧ entry = miniverse_data_path pf id ++ rel ∧ (∀ c ∈ rel, IsName c) ∧
      (entry_path pf id entry).tail = rel := by
  obtain ⟨rel, rfl⟩ := h.below
  have hnames : ∀ c ∈ rel, IsName c := fun c hc => FileTree.isName_of_exists h.present c (List.mem_append_right _ hc)
  refine ⟨rel, ?_, rfl, hnames, ?_⟩
  · rintro rfl
    exact h.inside (List.append_nil _)
  · show components (relativePosix _ _).toList = rel
    rw [relativePosix_append]
    exact components_relativePosix fun c hc => (hnames c hc).isComponent

theorem safe_entry_path (h : IsEntry pf id t entry) :
    safe_user_path (miniverse_data_path pf id) (entry_path pf id entry) = .ok entry := by
  obtain ⟨rel, _, hentry, hnames, htail⟩ := entry_path_eq h
  have hdots : ∀ c ∈ miniverse_data_path pf id, c ≠ ".." := miniverse_data_path_ne id
  rw [safe_user_path_append hdots (by rwa [htail]), htail, hentry]

theorem safe_entry_paths {entries : List Loc} (h : ∀ entry ∈ entries, IsEntry pf id t entry) :
    safe_user_paths (miniverse_data_path pf id) (entries.map (entry_path pf id)) = .ok entries := by
  rw [safe_user_paths_ok, List.forall₂_map_left_iff, List.forall₂_same]
  exact fun entry hentry => safe_entry_path (h entry hentry)

/-! ## Listings -/

/-- A listing has the entries of a directory with their paths. -/
theorem listing_entries {times : Loc → Times} {user_path : PurePath} {d d' : Disk α} {files : List FileInfo}
    (h : list_miniverse_files pf times id user_path d = (.ok (some files), d')) :
    ∃ dir, safe_user_path (miniverse_data_path pf id) user_path = .ok dir ∧
      ∀ file ∈ files, IsEntry pf id d.tree (dir ++ [file.name]) ∧ file.path = listed_path pf id (dir ++ [file.name]) := by
  unfold list_miniverse_files at h
  rcases hsafe : safe_user_path (miniverse_data_path pf id) user_path with e | dir
  · rw [hsafe, Eff.ofExcept_error_bind] at h
    cases h
  · rw [hsafe, Eff.ofExcept_ok_bind] at h
    obtain ⟨present, _, hlook, hrest⟩ := Eff.bind_ok h
    cases hlook
    obtain ⟨_, _, hexists, hlisted⟩ := Eff.bind_ok hrest
    obtain ⟨_, rfl⟩ := Eff.raiseIf_ok hexists
    obtain ⟨is_file, _, hfile, hfiles⟩ := Eff.bind_ok hlisted
    cases hfile
    refine ⟨dir, rfl, ?_⟩
    split at hfiles
    · cases hfiles
    · cases hfiles
      intro file hfile
      obtain ⟨n, hn, rfl⟩ := List.mem_map.mp hfile
      have hbelow := safe_user_path_below (miniverse_data_path_ne id) hsafe
      refine ⟨⟨hbelow.trans (List.prefix_append _ _), fun heq => ?_, FileTree.mem_children.mp hn⟩, rfl⟩
      exact Loc.concat_not_prefix _ _ (heq ▸ hbelow)

/-! ## Operations -/

section Operations

variable {d : Disk α}

theorem list_denotes (times : Loc → Times) (h : IsEntry pf id d.tree entry) :
    list_miniverse_files pf times id (entry_path pf id entry) d = list_entry pf times id entry d := by
  unfold list_miniverse_files
  rw [safe_entry_path h, Eff.ofExcept_ok_bind, Disk.look, Eff.read_bind_run, h.present, Bool.not_true, Eff.raiseIf_false_bind]
  rfl

theorem content_denotes (h : IsEntry pf id d.tree entry) :
    get_file_content pf id (entry_path pf id entry) d = entry_content pf entry d := by
  unfold get_file_content
  rw [safe_entry_path h, Eff.ofExcept_ok_bind]
  rfl

theorem delete_denotes {entries : List Loc} (h : ∀ entry ∈ entries, IsEntry pf id d.tree entry) :
    delete_miniverse_files pf id (entries.map (entry_path pf id)) d = delete_entries entries d := by
  unfold delete_miniverse_files
  rw [safe_entry_paths h, Eff.ofExcept_ok_bind]
  rfl

theorem copy_denotes {entries : List Loc} {destination : Loc} (h : ∀ entry ∈ entries, IsEntry pf id d.tree entry)
    (hdest : IsEntry pf id d.tree destination) :
    copy_miniverse_files pf id (entries.map (entry_path pf id)) (entry_path pf id destination) d =
      copy_entries pf entries destination d := by
  unfold copy_miniverse_files
  rw [safe_entry_paths h, Eff.ofExcept_ok_bind, safe_entry_path hdest, Eff.ofExcept_ok_bind]
  rfl

theorem extract_denotes (h : IsEntry pf id d.tree entry) :
    extract_miniverse_archive pf id (entry_path pf id entry) d = extract_entry pf entry d := by
  unfold extract_miniverse_archive
  rw [safe_entry_path h, Eff.ofExcept_ok_bind]
  rfl

theorem rename_denotes (h : IsEntry pf id d.tree entry) (new_name : String) :
    rename_file pf id (entry_path pf id entry) new_name d = rename_entry pf id entry new_name d := by
  unfold rename_file
  rw [safe_entry_path h, Eff.ofExcept_ok_bind]
  rfl

theorem setContent_denotes (h : IsEntry pf id d.tree entry) (text : Option String) :
    set_file_content pf id (entry_path pf id entry) text d = set_entry_content pf entry text d := by
  unfold set_file_content
  rw [safe_entry_path h, Eff.ofExcept_ok_bind]
  rfl

theorem upload_denotes (h : IsEntry pf id d.tree entry) (file_id filename : String) :
    upload_miniverse_file pf id file_id filename (entry_path pf id entry) d = upload_to_entry pf file_id filename entry d := by
  unfold upload_miniverse_file
  rw [safe_entry_path h, Eff.ofExcept_ok_bind]
  rfl

/-! ## Downloads -/

/-- The selected locations are the entries exactly when no path has a comma. -/
theorem download_denotes_iff {entries : List Loc} (hne : entries ≠ []) (h : ∀ entry ∈ entries, IsEntry pf id t entry) :
    transform_safe_miniverse_files pf id (selectedPaths (entry_paths pf id entries)) = .ok entries ↔
      ∀ entry ∈ entries, ',' ∉ (listed_path pf id entry).toList := by
  have htexts : entries.map (fun entry => (listed_path pf id entry).toList) ≠ [] := by simpa using hne
  have hselected : selectedPaths (entry_paths pf id entries) =
      ((entries.map fun entry => (listed_path pf id entry).toList).flatMap (·.splitOn ',')).map
        fun text => PurePath.parse (String.ofList text) := by
    rw [selectedPaths, entry_paths, String.toList_ofList, splitOn_joined htexts]
  constructor
  · intro hsafe
    have hlength := (safe_user_paths_ok.mp hsafe).length_eq
    rw [hselected, List.length_map] at hlength
    rw [← List.length_map fun entry => (listed_path pf id entry).toList] at hlength
    exact fun entry hentry => forall_not_mem_of_length hlength _ (List.mem_map_of_mem hentry)
  · intro hcommas
    have hpieces : (entries.map fun entry => (listed_path pf id entry).toList).flatMap (·.splitOn ',') =
        entries.map fun entry => (listed_path pf id entry).toList := by
      rw [← splitOn_joined htexts]
      refine List.splitOn_intercalate ',' (fun text htext => ?_) htexts
      obtain ⟨entry, hentry, rfl⟩ := List.mem_map.mp htext
      exact hcommas entry hentry
    have hpaths : selectedPaths (entry_paths pf id entries) = entries.map (entry_path pf id) := by
      rw [hselected, hpieces, List.map_map]
      refine List.map_congr_left fun entry _ => ?_
      rw [Function.comp_apply, String.ofList_toList]
      rfl
    rw [hpaths]
    exact safe_entry_paths h

/-! ## Archives -/

theorem isName_entry_name (h : IsEntry pf id t entry) : IsName entry.name := by
  obtain ⟨rel, hne, rfl, hnames, _⟩ := entry_path_eq h
  obtain ⟨init, c, rfl⟩ := (Loc.eq_nil_or_concat rel).resolve_left hne
  rw [← List.append_assoc, Loc.name_concat]
  exact hnames c (by simp)

theorem isName_entryFiles (hname : IsName entry.name) : ∀ f ∈ entryFiles t entry, ∀ c ∈ f.1, IsName c := by
  intro f hf c hc
  obtain ⟨g, hg, rfl⟩ := List.mem_map.mp hf
  rcases List.mem_cons.mp hc with rfl | hc
  · exact hname
  · exact FileTree.isName_of_exists (FileTree.exists_iff.mpr ⟨_, (mem_listedFiles.mp hg).2⟩) c (List.mem_of_mem_drop hc)

theorem archiveName_entryFiles (hname : IsName entry.name) : ∀ f ∈ entryFiles t entry, ArchiveName (relativePosix [] f.1) := by
  intro f hf
  have hnames := isName_entryFiles hname f hf
  obtain ⟨g, _, rfl⟩ := List.mem_map.mp hf
  exact ⟨_, _, Or.inl hname, fun c hc => hnames c (List.mem_cons_of_mem _ hc), rfl⟩

/-- The archive has the files of the entries exactly when the process finds them. -/
theorem compress_denotes_iff (hzip : ReadsBack pf) {entries : List Loc} (h : ∀ entry ∈ entries, IsEntry pf id d.tree entry) :
    compress_miniverse_files pf id (entries.map (entry_path pf id)) d = compress_entries pf entries d ↔
      ((∃ parent, ∀ entry ∈ entries, entry.parent = parent) →
        found pf d.tree (entries.map (entry_path pf id)) = entries.flatMap (entryFiles d.tree)) := by
  have hsafe := safe_entry_paths h
  by_cases hnil : entries = []
  · subst hnil
    exact iff_of_true rfl fun _ => rfl
  by_cases hone : ∃ parent, ∀ entry ∈ entries, entry.parent = parent
  · obtain ⟨parent, hparent⟩ := hone
    have hparents := parents_eq hnil hparent
    have hown : compress_entries pf entries d =
        (Disk.write (change_path_name_if_exists d.tree (parent ++ [destination_name entries]))
          (pf.zipstream ((entries.flatMap (entryFiles d.tree)).map fun f => (relativePosix [] f.1, f.2))) : Fs α Unit) d := by
      unfold compress_entries
      rw [hparents]
      rfl
    have hdir : d.tree.isDir parent = true := by
      obtain ⟨entry, hentry⟩ := List.exists_mem_of_ne_nil entries hnil
      exact hparent entry hentry ▸ FileTree.isDir_parent (h entry hentry).present
    obtain ⟨archive, harchive, hpar, hfree, hname⟩ := archive_free (fun entry hentry => isName_entry_name (h entry hentry)) hdir
    rw [compress_run d hsafe hparents, hown, harchive, flatMap_zip_entries]
    constructor
    · intro hsame _
      have hcontent := Disk.write_new_injective hfree (hpar ▸ hdir) hname hsame
      have hnames := hzip.injective ?_ ?_ hcontent
      · refine map_names_injective isComponent_found (fun f hf c hc => ?_) hnames
        obtain ⟨entry, hentry, hf⟩ := List.mem_flatMap.mp hf
        exact (isName_entryFiles (isName_entry_name (h entry hentry)) f hf c hc).isComponent
      · intro e he
        rw [← flatMap_zip_entries] at he
        obtain ⟨path, hpath, he⟩ := List.mem_flatMap.mp he
        obtain ⟨entry, hentry, rfl⟩ := List.mem_map.mp hpath
        exact archiveName_zip_entries (miniverse_data_path_ne id) (safe_entry_path (h entry hentry)) (h entry hentry).inside _ e he
      · intro e he
        obtain ⟨f, hf, rfl⟩ := List.mem_map.mp he
        obtain ⟨entry, hentry, hf⟩ := List.mem_flatMap.mp hf
        exact archiveName_entryFiles (isName_entry_name (h entry hentry)) f hf
    · intro hfound
      rw [hfound ⟨parent, hparent⟩]
  · -- without a common parent both are refused
    have hparents (parent : Loc) : (entries.map Loc.parent).dedup ≠ [parent] := fun heq => hone ⟨parent, forall_parent_eq heq⟩
    refine iff_of_true ?_ fun hparent => absurd hparent hone
    rw [compress_raises d hsafe hparents]
    unfold compress_entries
    rcases hps : (entries.map Loc.parent).dedup with _ | ⟨a, _ | ⟨b, l⟩⟩
    · rfl
    · exact absurd hps (hparents a)
    · rfl

end Operations

end Backend
