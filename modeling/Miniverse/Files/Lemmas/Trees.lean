import Miniverse.Files.Lemmas.Confine
import Miniverse.Lib.Subtree

/-!
# What deletions and copies lead to
-/

namespace Backend

open Lib

variable {α : Type} {pf : Platform α}

/-! ## Deletions -/

/-- The body of the loop over the confined paths. -/
theorem delete_one {f : Loc} (hf : f ≠ []) (d : Disk α) :
    ∃ d', (do
      if ← Disk.look (·.exists f) then
        if ← Disk.look (·.isDir f) then Disk.rmtree f else Disk.unlink f : Fs α Unit) d = (.ok (), d') ∧
      FileTree.Pruned [f] d.tree d'.tree := by
  rw [Disk.look, Eff.read_bind_run]
  cases hex : d.tree.exists f with
  | false => exact ⟨d, rfl, FileTree.pruned_missing hex⟩
  | true =>
      have hremoved := FileTree.pruned_remove d.tree hf
      rw [if_pos rfl, Disk.look, Eff.read_bind_run]
      cases hdir : d.tree.isDir f with
      | true =>
          have hrun : d.tree.rmtree f = .ok (d.tree.remove f hf) := by
            rw [FileTree.rmtree, dif_neg hf, if_pos hdir]
          rw [if_pos rfl]
          exact ⟨_, Disk.call_ok hrun, hremoved⟩
      | false =>
          have hfile : d.tree.isFile f = true := by
            have := FileTree.exists_eq d.tree f
            rw [hex, hdir, Bool.false_or] at this
            exact this.symm
          have hrun : d.tree.unlink f = .ok (d.tree.remove f hf) := by
            rw [FileTree.unlink, dif_pos hfile]
          rw [if_neg Bool.false_ne_true]
          exact ⟨_, Disk.call_ok hrun, hremoved⟩

theorem delete_run {id : Uuid4} {paths : List PurePath} {files : List Loc}
    (hsafe : safe_user_paths (miniverse_data_path pf id) paths = .ok files) (d : Disk α) :
    ∃ d', delete_miniverse_files pf id paths d = (.ok (), d') ∧ FileTree.Pruned files d.tree d'.tree := by
  unfold delete_miniverse_files
  rw [hsafe, Eff.ofExcept_ok_bind]
  have hne : ∀ f ∈ files, f ≠ [] := by
    rintro f hf rfl
    have := safe_user_paths_below (miniverse_data_path_ne id) hsafe [] hf
    exact miniverse_data_path_ne_nil id (List.prefix_nil.mp this)
  clear hsafe
  induction files generalizing d with
  | nil => exact ⟨d, rfl, FileTree.Pruned.nil d.tree⟩
  | cons f files ih =>
      obtain ⟨d₁, hrun, hpruned⟩ := delete_one (hne f List.mem_cons_self) d
      obtain ⟨d', hrest, hpruned'⟩ := ih d₁ fun g hg => hne g (List.mem_cons_of_mem _ hg)
      refine ⟨d', ?_, hpruned.cons hpruned'⟩
      rw [List.forM_eq_forM, List.forM_cons, Eff.bind_run_ok hrun]
      exact hrest

end Backend
