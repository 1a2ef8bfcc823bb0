import Miniverse.Files.Theorems
import Miniverse.Files.Lemmas.Outcomes

/-!
# What requests read

Two file systems with the same data directory are compared by what a request leads to on them. Most requests cannot tell them
apart; downloads and archives can, by what names and paths lead to outside.
-/

namespace Backend

open Lib

variable {α : Type}

/-! ## A server for the internal files -/

/-- A server that has the files of miniverses under `/internal/`, and nothing else. -/
def internalServer (pf : Platform α) : Nginx pf where
  serves t location :=
    match (t.entries.find? fun e =>
      decide (pf.DATA_PATH ++ ["miniverses"] <+: e.1 ∧
        utf8 ("/internal/" ++ relativePosix pf.DATA_PATH e.1).toList = location)).map Prod.snd with
    | some (.file x) => some x
    | _ => none
  passes_empty := true
  internal t path hdata hnames := by
    have hsame : ∀ e ∈ t.entries, decide (pf.DATA_PATH ++ ["miniverses"] <+: e.1 ∧
        utf8 ("/internal/" ++ relativePosix pf.DATA_PATH e.1).toList =
          utf8 ("/internal/" ++ relativePosix pf.DATA_PATH path).toList) = decide (e.1 = path) := by
      intro e he
      refine decide_eq_decide.mpr ⟨?_, fun heq => by rw [heq]; exact ⟨hdata, rfl⟩⟩
      rintro ⟨hin, htext⟩
      obtain ⟨rel, hrel⟩ := (List.prefix_append _ _).trans hin
      obtain ⟨rel', rfl⟩ := (List.prefix_append _ _).trans hdata
      have hentry := FileTree.isName_of_exists (FileTree.exists_iff.mpr ⟨e.2, FileTree.get_eq_some.mpr he⟩)
      rw [← hrel, relativePosix_append, relativePosix_append] at htext
      have htext : relativePosix [] rel = relativePosix [] rel' := by
        simpa [← String.toList_inj] using utf8_injective htext
      rw [← hrel] at hentry ⊢
      rw [relativePosix_injective (fun c hc => (hentry c (List.mem_append_right _ hc)).isComponent)
        (fun c hc => (hnames c (List.mem_append_right _ hc)).isComponent) htext]
    rw [← List.head?_filter, List.filter_congr hsame, List.head?_filter]
    rfl

/-! ## Reading -/

variable {pf : Platform α} (nginx : Nginx pf) {id : Uuid4} {f f' : FileSystem pf}

/-- On file systems with the same data directory a request leads to the same exactly when what it reads elsewhere is the same. -/
theorem reads_inside_iff (hzip : ReadsBack pf) (hagree : f.Agree (miniverse_data_path pf id) f') (r : ReadRequest) :
    SameOutcome nginx id r f f' ↔ r.SameOutside nginx id f.tree f'.tree := by
  cases r with
  | list user_path => exact iff_of_true (sameOutcome_list hagree user_path) trivial
  | content path => exact iff_of_true (sameOutcome_content hagree path) trivial
  | copy paths destination => exact iff_of_true (sameOutcome_copy hagree paths destination) trivial
  | download own paths => exact sameOutcome_download_iff hagree own paths
  | compress paths => exact sameOutcome_compress_iff hzip hagree paths

/-- The file `x` is at the root of the file system, and the process works in the data directory. -/
def sampleSystem (text : String) : FileSystem (sampleZips sampleData) where
  tree := sampleZipTree.insert ["x"] (.file (.text text)) (by decide) (by decide) (by decide)
  times _ := ⟨0, 0⟩
  cwd_dir := by
    rw [FileTree.isDir_iff, FileTree.get_insert, if_neg (by decide)]
    decide

theorem sampleSystem_agree (text text' : String) :
    (sampleSystem text).Agree (miniverse_data_path (sampleZips sampleData) sampleId) (sampleSystem text') where
  tree := by
    have hout : ¬ miniverse_data_path (sampleZips sampleData) sampleId <+: ["x"] := by decide
    rw [sampleSystem, sampleSystem, FileTree.inside_insert_off hout, FileTree.inside_insert_off hout]
  times _ _ := rfl

theorem reads_inside_sample : SameOutcome (internalServer (sampleZips sampleData)) sampleId (.compress [.parse "a"]) (sampleSystem "1")
    (sampleSystem "2") := by
  refine (reads_inside_iff _ (sampleZips_readsBack sampleData) (sampleSystem_agree "1" "2") _).mpr ?_
  intro files parent hfiles hparent _
  have hsafe : safe_user_paths (miniverse_data_path (sampleZips sampleData) sampleId) [.parse "a"] = .ok [sampleData ++ ["a"]] := by
    decide
  rw [hsafe] at hfiles
  cases hfiles
  obtain rfl := hparent _ (List.mem_singleton.mpr rfl)
  exact ⟨by decide, fun _ => by decide⟩

/-- The archive of `/x` has the file at the root of the file system. -/
theorem archive_reads_outside :
    (sampleSystem "1").Agree (miniverse_data_path (sampleZips sampleData) sampleId) (sampleSystem "2") ∧
      ¬ SameOutcome (internalServer (sampleZips sampleData)) sampleId (.compress [.parse "/x"]) (sampleSystem "1")
        (sampleSystem "2") := by
  refine ⟨sampleSystem_agree "1" "2", fun hsame => ?_⟩
  rw [sameOutcome_compress_iff (sampleZips_readsBack sampleData) (sampleSystem_agree "1" "2")] at hsame
  have hfound := (hsame [sampleData ++ ["x"]] sampleData (by decide) (by simp) (by simp)).2 (by decide)
  exact absurd hfound (by decide)

end Backend
