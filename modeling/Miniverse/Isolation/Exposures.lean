import Miniverse.Files.Lemmas.Veil
import Miniverse.Isolation.Service

/-!
# Requests that reach a miniverse past its roles

The session of the logs checks no role. The files of another miniverse are reached by the raw paths of an archive, by the
locations of a download as the server decodes them, and by the identifier of an upload.
-/

namespace Backend

open Lib

variable {α : Type} {env : Env α}

/-- The identifier of an upload leads into the directory of the miniverse: with what a rejection removes, or with what is removed
and moved otherwise. -/
def LeadsInto (pf : Platform α) (target : Uuid4) (rejected : Bool) (file_id : String) : Prop :=
  get_miniverse_path pf target <+: upload_loc pf file_id ∨
    if rejected then get_miniverse_path pf target <+: upload_loc pf (file_id ++ ".info")
    else ∃ p, metadata_loc pf file_id = some p ∧ get_miniverse_path pf target <+: p

def HookRequest.Exposes (pf : Platform α) (target : Uuid4) (u : User) (db : Database) (data : HookRequest) : Prop :=
  data.type = .post_finish ∧ ∃ upload file_id metadata miniverse_id, data.Upload = some upload ∧ upload.ID = some file_id ∧
    upload.MetaData = some metadata ∧ metadata.lookup "miniverseId" = some miniverse_id ∧
    LeadsInto pf target (decide (db.get_miniverse_role u.id miniverse_id < .moderator)) file_id

/-- The user may use the files of the miniverse. -/
def GrantsFiles (u : User) (db : Database) (miniverse_id : String) (m : Miniverse) : Prop :=
  .moderator ≤ db.get_miniverse_role u.id miniverse_id ∧ db.findMiniverse miniverse_id = some m

def FilesRoute.Exposes (server : FilesServer env.toPlatform) (target : Uuid4) (u : User) (w : World α) : FilesRoute → Prop
  | confirm_upload data => data.Exposes env.toPlatform target u w.db
  | compress_miniverse_files miniverse_id paths => ∃ m, GrantsFiles u w.db miniverse_id m ∧
      ArchivesFrom env.toPlatform (get_miniverse_path env.toPlatform target) w.disk.tree m.id paths
  | download_files miniverse_id paths => ∃ m, GrantsFiles u w.db miniverse_id m ∧
      SendsFrom server.nginx (get_miniverse_path env.toPlatform target) w.disk.tree m.id paths
  | _ => False

/-- The session of the logs is one of the container of the miniverse, and sends a line or gets an input. -/
def ExposesLogs (target : Uuid4) (db : Database) (miniverse_id : String) (chunks : Nat) (inputs : List String) : Prop :=
  (∃ container_id, db.consoleOf miniverse_id = some container_id ∧ db.consoleOf target.str = some container_id) ∧
    (0 < chunks ∨ (inputs.takeWhile fun input => decide (input ≠ "")) ≠ [])

def ServiceRequest.Exposes (sur : Surroundings env.toPlatform) (target : Uuid4) (u : User) (l : Live α) : ServiceRequest → Prop
  | files route => route.Exposes sur.toFilesServer target u l.world
  | open_logs miniverse_id chunks inputs => ExposesLogs target l.world.db miniverse_id chunks inputs
  | _ => False

end Backend
