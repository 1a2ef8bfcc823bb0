import Miniverse.Lib.Normalize
import Miniverse.Files.Lemmas.Entries
import Miniverse.Files.Theorems

/-!
# Confined paths and listings

A confined path is the normal form of the path below the root. The paths of a listing are confined to the entries that are listed,
and the operations work on these, but for those that take the paths otherwise.
-/

namespace Backend

open Lib

variable {α : Type}

/-- `t.relative_to(root)` of a location at or below `root`. -/
def relative_to (t root : Loc) (h : ∀ c ∈ t, IsName c) : PurePath :=
  .ofTail (t.drop root.length) fun c hc => (h c (List.mem_of_mem_drop hc)).isComponent

theorem hasNul_parse {text : String} (h : Char.ofNat 0 ∉ text.toList) : (PurePath.parse text).hasNul = false := by
  rw [PurePath.hasNul, List.any_eq_false]
  intro c hc
  obtain ⟨hc, _⟩ := List.mem_filter.mp hc
  obtain ⟨piece, hpiece, rfl⟩ := List.mem_map.mp hc
  rw [String.toList_ofList, decide_eq_true_eq]
  exact fun hmem => h (mem_of_mem_splitOn hpiece hmem)

/-- What is accepted is the normal form of the path below the root, when the root is at or above it. -/
theorem safe_user_path_exact {root : Loc} (hroot : ∀ c ∈ root, IsName c) {text : String} (hnul : Char.ofNat 0 ∉ text.toList)
    (t : Loc) : safe_user_path root (.parse text) = .ok t ↔
      NormalForm (pieces (root.str ++ "/" ++ text).toList) t ∧ root <+: t := by
  have hdots : ∀ c ∈ root, c ≠ ".." := fun c hc => (hroot c hc).2.2.1
  have hbase : resolveFrom [] root = root := by simpa using @resolveFrom_of_forall_ne [] root hdots
  rw [safe_user_path_ok hdots, normalForm_join_iff (fun c hc => (hroot c hc).isComponent), resolveFrom_append, hbase]
  exact ⟨fun h => h.2, fun h => ⟨hasNul_parse hnul, h⟩⟩

theorem safe_user_path_relative {root t : Loc} (ht : ∀ c ∈ t, IsName c) (h : root <+: t) :
    safe_user_path root (relative_to t root ht) = .ok t := by
  obtain ⟨rel, rfl⟩ := h
  have htail : (relative_to (root ++ rel) root ht).tail = rel := List.drop_left
  have hrel : ∀ c ∈ rel, IsName c := fun c hc => ht c (List.mem_append_right _ hc)
  rw [safe_user_path_append (fun c hc => (ht c (List.mem_append_left _ hc)).2.2.1) (by rwa [htail]), htail]

variable (pf : Platform α)

/-- Only downloads and archives can miss the entries that listed paths name. -/
theorem denotes_iff (hzip : ReadsBack pf) (times : Loc → Times) (id : Uuid4) (d : Disk α) (r : EntryRequest)
    (h : ∀ entry ∈ r.entries, IsEntry pf id d.tree entry) : r.Denotes pf times id d ↔ r.FindsEntries pf id d.tree := by
  cases r with
  | list entry => exact iff_of_true (list_denotes times (h entry (List.mem_singleton_self _))) trivial
  | content entry => exact iff_of_true (content_denotes (h entry (List.mem_singleton_self _))) trivial
  | download entry more => exact download_denotes_iff (List.cons_ne_nil _ _) h
  | delete entries => exact iff_of_true (delete_denotes h) trivial
  | copy entries destination =>
      have hsplit := List.forall_mem_cons.mp h
      exact iff_of_true (copy_denotes hsplit.2 hsplit.1) trivial
  | extract entry => exact iff_of_true (extract_denotes (h entry (List.mem_singleton_self _))) trivial
  | compress entries => exact compress_denotes_iff hzip h
  | rename entry new_name => exact iff_of_true (rename_denotes (h entry (List.mem_singleton_self _)) new_name) trivial
  | setContent entry text => exact iff_of_true (setContent_denotes (h entry (List.mem_singleton_self _)) text) trivial
  | upload file_id filename entry =>
      exact iff_of_true (upload_denotes (h entry (List.mem_singleton_self _)) file_id filename) trivial

/-- Confinement is the lexical normal form, a relative path leads back, and a listed path is confined to the listed entry. Fed back,
it denotes the entry exactly when the request does not take it otherwise. -/
theorem listed_paths_denote_iff (hzip : ReadsBack pf) :
    (∀ (root : Loc) (text : String), (∀ c ∈ root, IsName c) → Char.ofNat 0 ∉ text.toList → ∀ t : Loc,
      (safe_user_path root (.parse text) = .ok t ↔ NormalForm (pieces (root.str ++ "/" ++ text).toList) t ∧ root <+: t)) ∧
    (∀ (root t : Loc) (ht : ∀ c ∈ t, IsName c), root <+: t → safe_user_path root (relative_to t root ht) = .ok t) ∧
    (∀ times id user_path d d' files, list_miniverse_files pf times id user_path d = (.ok (some files), d') →
      ∃ dir, safe_user_path (miniverse_data_path pf id) user_path = .ok dir ∧
        ∀ file ∈ files, IsEntry pf id d.tree (dir ++ [file.name]) ∧ file.path = listed_path pf id (dir ++ [file.name]) ∧
          safe_user_path (miniverse_data_path pf id) (.parse file.path) = .ok (dir ++ [file.name])) ∧
    ∀ times id d (r : EntryRequest), (∀ entry ∈ r.entries, IsEntry pf id d.tree entry) →
      (r.Denotes pf times id d ↔ r.FindsEntries pf id d.tree) := by
  refine ⟨fun root text hroot hnul => safe_user_path_exact hroot hnul, fun root t ht => safe_user_path_relative ht, ?_,
    fun times id d r => denotes_iff pf hzip times id d r⟩
  intro times id user_path d d' files hlist
  obtain ⟨dir, hsafe, hfiles⟩ := listing_entries hlist
  refine ⟨dir, hsafe, fun file hfile => ?_⟩
  obtain ⟨hentry, hpath⟩ := hfiles file hfile
  refine ⟨hentry, hpath, ?_⟩
  rw [hpath]
  exact safe_entry_path hentry

theorem listed_paths_denote_sample : (EntryRequest.compress [sampleData ++ ["a"]]).Denotes (sampleZips sampleData) (fun _ => ⟨0, 0⟩)
    sampleId ⟨sampleZipTree, []⟩ := by
  have hall := (listed_paths_denote_iff (sampleZips sampleData) (sampleZips_readsBack sampleData)).2.2.2
  refine (hall _ sampleId _ _ ?_).mpr fun _ => by decide
  exact List.forall_mem_singleton.mpr ⟨by decide, by decide, by decide⟩

/-- A process that works elsewhere does not find the listed directory `a`, and makes an archive without its file. -/
theorem listed_path_not_found :
    (list_miniverse_files (sampleZips []) (fun _ => ⟨0, 0⟩) sampleId (.parse "/") ⟨sampleZipTree, []⟩).1 =
      .ok (some [⟨true, "a", "a", 0, 0, none⟩]) ∧
    listed_path (sampleZips []) sampleId (sampleData ++ ["a"]) = "a" ∧
    ¬ (EntryRequest.compress [sampleData ++ ["a"]]).Denotes (sampleZips []) (fun _ => ⟨0, 0⟩) sampleId ⟨sampleZipTree, []⟩ := by
  refine ⟨by decide +kernel, by decide +kernel, fun hdenotes => ?_⟩
  have hentry : IsEntry (sampleZips []) sampleId sampleZipTree (sampleData ++ ["a"]) := ⟨by decide, by decide, by decide⟩
  have hfound := (compress_denotes_iff (sampleZips_readsBack []) (List.forall_mem_singleton.mpr hentry)).mp hdenotes
  exact absurd (hfound ⟨_, List.forall_mem_singleton.mpr rfl⟩) (by decide)

end Backend
