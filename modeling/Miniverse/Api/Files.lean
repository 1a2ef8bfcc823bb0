import Miniverse.Api.Miniverses
import Miniverse.Files.Reads

/-!
# The routes of the files

The handlers of `files.py`. Each checks the role of the user, looks the miniverse up and calls the file service; the hook of the
upload server is told which miniverse an upload is for.
-/

namespace Backend

open Lib

variable {α : Type}

/-! ## Requests -/

inductive HookType where
  | pre_create
  | post_finish
deriving DecidableEq

/-- `Event["Upload"]`, with the texts that are there. -/
structure HookUpload where
  ID : Option String
  MetaData : Option (List (String × String))

structure HookRequest where
  type : HookType
  Upload : Option HookUpload

/-- The body of a request to set a content: without the field, no object, or the field, which may be no text. -/
inductive ContentData where
  | missing
  | unreadable
  | content (content : Option String)

inductive FilesRoute where
  | list_miniverse_files (miniverse_id : String) (path : PurePath)
  | delete_miniverse_files (miniverse_id : String) (paths : List PurePath)
  | copy_miniverse_files (miniverse_id : String) (paths : List PurePath) (destination : PurePath)
  | download_files (miniverse_id paths : String)
  | confirm_upload (data : HookRequest)
  | extract_miniverse_archive (miniverse_id : String) (path : PurePath)
  | compress_miniverse_files (miniverse_id : String) (paths : List PurePath)
  | rename_miniverse_file (miniverse_id : String) (path : PurePath) (new_name : String)
  | get_file_content (miniverse_id : String) (path : PurePath)
  | set_file_content (miniverse_id : String) (path : PurePath) (data : ContentData)

inductive FilesReply (α : Type) where
  | answer (answer : Answer α)
  /-- `Body` is the text of a rejection. -/
  | hook (StatusCode : Nat) (Body : Option String) (RejectUpload : Bool)

/-- The server that sends the files, and the times that the system keeps at each tick. -/
structure FilesServer (pf : Platform α) where
  nginx : Nginx pf
  times : Nat → Loc → Times

/-! ## The hook -/

variable {env : Env α} (server : FilesServer env.toPlatform)

/-- Whether the role is lower than the one that files need. -/
def lacksRole (current_user : User) (miniverse_id : String) : Act α Bool :=
  query fun db => decide (db.get_miniverse_role current_user.id miniverse_id < .moderator)

/-- The rejected upload and its metadata. -/
def remove_upload (env : Env α) (file_id : String) : Act α Unit :=
  onDisk do
    Fs.unlinkPath env.cwd (upload_path env.toPlatform file_id)
    Fs.unlinkPath env.cwd (upload_path env.toPlatform (file_id ++ ".info"))

def HookUpload.pre_create (current_user : User) (upload : HookUpload) : Act α (FilesReply α) := do
  let metadata ← Eff.getOr upload.MetaData (.keyError "MetaData")
  let miniverse_id ← Eff.getOr (metadata.lookup "miniverseId") (.keyError "miniverseId")
  if ← lacksRole current_user miniverse_id then
    return .hook 401 (some "You are not authorized to upload files in this miniverse") true
  else
    let _ ← Eff.getOr (metadata.lookup "filename") (.keyError "filename")
    return .hook 204 none false

def HookUpload.post_finish (env : Env α) (current_user : User) (upload : HookUpload) : Act α (FilesReply α) := do
  let file_id ← Eff.getOr upload.ID (.keyError "ID")
  let metadata ← Eff.getOr upload.MetaData (.keyError "MetaData")
  let miniverse_id ← Eff.getOr (metadata.lookup "miniverseId") (.keyError "miniverseId")
  if ← lacksRole current_user miniverse_id then
    remove_upload env file_id
    return .answer .done
  else
    let filename ← Eff.getOr (metadata.lookup "filename") (.keyError "filename")
    let destination ← Eff.getOr (metadata.lookup "destination") (.keyError "destination")
    let miniverse ← getMiniverse miniverse_id .attributeError
    onDisk (upload_miniverse_file env.toPlatform miniverse.id file_id filename (.parse destination))
    return .answer .done

def confirm_upload (env : Env α) (current_user : User) (data : HookRequest) : Act α (FilesReply α) := do
  let upload ← Eff.getOr data.Upload (.keyError "Upload")
  match data.type with
  | .pre_create => upload.pre_create current_user
  | .post_finish => upload.post_finish env current_user

/-! ## Handlers -/

/-- Behind the role and the look-up, without which the service has no identifier to use. -/
def withFiles {β : Type} (current_user : User) (miniverse_id action : String) (service : Uuid4 → Act α β) : Act α β := do
  requireRole current_user miniverse_id .moderator ("You are not authorized to " ++ action ++ " files in this miniverse")
  let miniverse ← getMiniverse miniverse_id .attributeError
  service miniverse.id

/-- The body is looked at before the miniverse is used. -/
def readContent : ContentData → Except PyError (Option String)
  | .missing => .error (.valueError "Missing 'content' field")
  | .unreadable => .error .typeError
  | .content content => .ok content

namespace FilesRoute

def handle (current_user : User) : FilesRoute → Act α (FilesReply α)
  | list_miniverse_files miniverse_id path => withFiles current_user miniverse_id "view" fun id => do
      let times ← Eff.read fun w => server.times w.tick
      return .answer (.listing (← onDisk (Backend.list_miniverse_files env.toPlatform times id path)))
  | delete_miniverse_files miniverse_id paths => withFiles current_user miniverse_id "delete" fun id => do
      onDisk (Backend.delete_miniverse_files env.toPlatform id paths)
      return .answer .done
  | copy_miniverse_files miniverse_id paths destination => withFiles current_user miniverse_id "copy" fun id => do
      onDisk (Backend.copy_miniverse_files env.toPlatform id paths destination)
      return .answer .done
  | download_files miniverse_id paths => withFiles current_user miniverse_id "view" fun id => do
      return .answer (.files (← onDisk do
        -- the role was checked
        let response ← FilesController.download_files env.toPlatform .moderator id paths
        Disk.look fun t => received server.nginx t response))
  | confirm_upload data => Backend.confirm_upload env current_user data
  | extract_miniverse_archive miniverse_id path => withFiles current_user miniverse_id "upload" fun id => do
      onDisk (Backend.extract_miniverse_archive env.toPlatform id path)
      return .answer .done
  | compress_miniverse_files miniverse_id paths => withFiles current_user miniverse_id "compress" fun id => do
      onDisk (Backend.compress_miniverse_files env.toPlatform id paths)
      return .answer .done
  | rename_miniverse_file miniverse_id path new_name => withFiles current_user miniverse_id "rename" fun id => do
      onDisk (rename_file env.toPlatform id path new_name)
      return .answer .done
  | get_file_content miniverse_id path => withFiles current_user miniverse_id "read" fun id => do
      return .answer (.content (← onDisk (Backend.get_file_content env.toPlatform id path)))
  | set_file_content miniverse_id path data => do
      requireRole current_user miniverse_id .moderator "You are not authorized to write files in this miniverse"
      let miniverse ← query (·.findMiniverse miniverse_id)
      let content ← Eff.ofExcept (readContent data)
      let miniverse ← Eff.getOr miniverse .attributeError
      onDisk (Backend.set_file_content env.toPlatform miniverse.id path content)
      return .answer .done

end FilesRoute

end Backend
