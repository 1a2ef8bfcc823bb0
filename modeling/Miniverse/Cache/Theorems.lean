import Mathlib.Tactic.NormNum
import Miniverse.Cache.Service
import Miniverse.Status.Theorems

/-!
# Theorems about the cache of the version list
-/

namespace Backend

open Lib

variable {json : Json (List VersionData)} {fromisoformat : String → Except PyError DateTime}

/-- A call that is made before what an earlier call has fetched expires does not ask Modrinth, and returns the same. -/
def ReusesList (replies : List VersionsReply) : Prop := replies.Pairwise fun earlier later =>
  earlier.fetched = true → later.time < earlier.time + 600 → later.fetched = false ∧ later.result = earlier.result

/-- Nothing is stored under the key that is read. -/
def VersionCache.Unread (w : VersionCache) : Prop := ∀ time, w.store.get time "versions" = none

/-- A call asks Modrinth, and stores the answer under a key that no call reads. -/
theorem get_minecraft_versions_unread {w : VersionCache} (h : w.Unread) (c : VersionsCall) :
    ∃ w', get_minecraft_versions json fromisoformat c w =
        (c.answer.mapM (MinecraftVersion.from_dict fromisoformat), w') ∧
      w'.requests = w.requests + 1 ∧ w'.Unread := by
  refine ⟨⟨w.store.set c.time "minecraft_versions" (json.dumps c.answer) 600, w.requests + 1⟩, ?_, rfl, fun time => ?_⟩
  · unfold get_minecraft_versions
    rw [Eff.read_bind_run, h]
    cases hversions : c.answer.mapM (MinecraftVersion.from_dict fromisoformat) with
    | error e => simp [hversions]
    | ok versions => simp [hversions]
  · exact (CacheStore.get_set_ne (by decide) _ _ _ _ _).trans (h time)

/-- Every call of a run asks Modrinth. -/
theorem versionsReplies_eq (calls : List VersionsCall) {w : VersionCache} (h : w.Unread) :
    versionsReplies json fromisoformat calls w =
      calls.map fun c => ⟨c.time, true, c.answer.mapM (MinecraftVersion.from_dict fromisoformat)⟩ := by
  induction calls generalizing w with
  | nil => rfl
  | cons c cs ih =>
      obtain ⟨w', hrun, hrequests, hunread⟩ := @get_minecraft_versions_unread json fromisoformat w h c
      have hfetched : decide (w.requests < w'.requests) = true := decide_eq_true (by omega)
      rw [versionsReplies, hrun]
      dsimp only
      rw [hfetched, ih hunread, List.map_cons]

/-- The list is reused exactly in the runs in which no call could reuse it. -/
theorem reuses_list_iff (json : Json (List VersionData)) (fromisoformat : String → Except PyError DateTime)
    (calls : List VersionsCall) : ReusesList (versionsReplies json fromisoformat calls ⟨CacheStore.empty, 0⟩) ↔
      calls.Pairwise fun earlier later => earlier.time + 600 ≤ later.time := by
  rw [versionsReplies_eq calls fun _ => rfl, ReusesList, List.pairwise_map]
  refine List.Pairwise.iff fun earlier later => ⟨fun h => not_lt.mp fun hlt => ?_, fun hle _ hlt => absurd hlt (not_lt.mpr hle)⟩
  obtain ⟨hfetched, _⟩ := h rfl hlt
  cases hfetched

/-! ## Samples -/

def versionsOf : List (List Char) → List VersionData
  | version :: version_type :: date :: major :: texts =>
      ⟨String.ofList version, String.ofList version_type, String.ofList date, !major.isEmpty⟩ :: versionsOf texts
  | _ => []

def textsOfVersions (data : List VersionData) : List (List Char) :=
  data.flatMap fun v => [v.version.toList, v.version_type.toList, v.date.toList, if v.major then ['m'] else []]

theorem versionsOf_textsOfVersions (data : List VersionData) : versionsOf (textsOfVersions data) = data := by
  induction data with
  | nil => rfl
  | cons v data ih =>
      obtain ⟨version, version_type, date, major⟩ := v
      show VersionData.mk (String.ofList version.toList) (String.ofList version_type.toList) (String.ofList date.toList)
        (!(if major then ['m'] else []).isEmpty) :: versionsOf (textsOfVersions data) = _
      rw [ih, String.ofList_toList, String.ofList_toList, String.ofList_toList]
      cases major <;> rfl

def sampleVersionsJson : Json (List VersionData) where
  dumps data := String.ofList (writeTexts (textsOfVersions data))
  loads text := versionsOf (readTexts [] text.toList)
  loads_dumps data := by rw [String.toList_ofList, readTexts_write, versionsOf_textsOfVersions]

/-- Two calls a second apart ask Modrinth twice. -/
theorem list_fetched_again : ¬ ∀ (json : Json (List VersionData)) (fromisoformat : String → Except PyError DateTime)
    (calls : List VersionsCall), calls.Pairwise (fun earlier later => earlier.time ≤ later.time) →
    ReusesList (versionsReplies json fromisoformat calls ⟨CacheStore.empty, 0⟩) := by
  intro h
  have hreuses := h sampleVersionsJson (fun _ => .ok ⟨0, true⟩)
    [⟨0, [⟨"1.21", "release", "2024-06-13T08:24:03+00:00", true⟩]⟩, ⟨1, []⟩] (by simp)
  rw [versionsReplies_eq _ fun _ => rfl] at hreuses
  have hsoon : (1 : ℚ) < 0 + 600 := by norm_num
  obtain ⟨hfetched, _⟩ := (List.pairwise_cons.mp hreuses).1 _ List.mem_cons_self rfl hsoon
  cases hfetched

end Backend
