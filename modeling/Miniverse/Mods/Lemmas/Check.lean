import Mathlib.Data.List.Forall2
import Miniverse.Mods.Lemmas.Rows

/-!
# What the check for updates finds

The check asks for the versions for the game version, and only when there are none for all versions. A mod is `Behind`
when the second answer leads to the installed version, and that version does not list the game version.
-/

namespace Backend

open Lib

variable {α : Type} {env : Env α} {catalog : String → List String} {loader : MiniverseType} {game_version : String}
  {mod : Mod}

/-- Where the loop over the versions stops. -/
def Stops (game_version : String) (mod : Mod) (v : ModrinthProjectVersion) : Prop :=
  game_version ∈ v.game_versions ∨ some v.id = mod.version_id

instance (v : ModrinthProjectVersion) : Decidable (Stops game_version mod v) := inferInstanceAs (Decidable (_ ∨ _))

def fullListing (env : Env α) (loader : MiniverseType) (mod : Mod) (n : Nat) : Except PyError (List ModrinthProjectVersion) :=
  env.list_project_versions n (mod.project_id.getD "None") (some loader) none

/-- The result for a mod, which may be behind. -/
inductive Checked (catalog : String → List String) (game_version : String) (behind : Prop) (mod : Mod) :
    ModUpdateInfo → Prop
  | failed {info : ModUpdateInfo} (status : info.update_status = .error ∨ info.update_status = .no_compatible_versions) :
      Checked catalog game_version behind mod info
  | available {info : ModUpdateInfo} {version_id : String} (status : info.update_status = .update_available)
      (first : info.new_versions_ids.head? = some version_id) (lists : game_version ∈ catalog version_id)
      (ahead : ¬ behind) : Checked catalog game_version behind mod info
  | installed {info : ModUpdateInfo} {version_id : String} (status : info.update_status = .already_up_to_date)
      (recorded : mod.version_id = some version_id) (lists : game_version ∈ catalog version_id ↔ ¬ behind) :
      Checked catalog game_version behind mod info

/-! ## One mod -/

/-- `check_mod` with its `try`. -/
abbrev tryCheck (env : Env α) (loader : MiniverseType) (game_version : String) (mod : Mod) : Act α ModUpdateInfo :=
  (check_mod env loader game_version mod).attempt fun _ => pure ⟨.error, [], []⟩

/-- The recorded version lists the game version. -/
def Recorded (catalog : String → List String) (game_version : String) (r : Mod) : Prop :=
  ∃ version_id, r.version_id = some version_id ∧ game_version ∈ catalog version_id

def AllRecorded (catalog : String → List String) (game_version : String) (id : Uuid4) (w : World α) : Prop :=
  ∀ r ∈ w.db.modsOf id, Recorded catalog game_version r

variable {id : Uuid4}

instance : Calm (Eff.Keeping (AllRecorded (α := α) catalog game_version id)) where
  tick _ _ h := h
  events _ _ h := h
  containers _ _ h := h

theorem AllRecorded.of_same {w w' : World α} (h : AllRecorded catalog game_version id w) (hdb : w'.db.mods = w.db.mods) :
    AllRecorded catalog game_version id w' := by
  unfold AllRecorded Database.modsOf at h ⊢
  rwa [hdb]

end Backend
