import Miniverse.Isolation.Lemmas.Blind
import Miniverse.Isolation.Lemmas.Requests

/-!
# What the files and the sessions of a user do not show

The requests of an outsider, on two states that differ only in the contents of the files of a miniverse and in the lines of its
console.
-/

namespace Backend

open Lib

variable {α β γ : Type} {env : Env α} {target id : Uuid4} {u : User} {w w' : World α} {root : Loc}

theorem World.Veiled.db (h : World.Veiled root w w') : w'.db = w.db := by
  have hdb := congrArg World.db h.1
  exact hdb

theorem blindAt_onDisk {m : Fs α β} (h : World.Veiled root w w') (hm : m.AlikeAt (Disk.Veiled root) w.disk w'.disk) :
    (onDisk m).AlikeAt (World.Veiled root) w w' := by
  refine Eff.AlikeAt.zoom hm fun d d' hd => ⟨?_, hd⟩
  rw [h.1]

/-! ## Files -/

section Files

variable (hout : Outsider target u.id w) (h : World.Veiled root w w')

include hout h

/-- Behind the role and the look-up there is another miniverse. -/
theorem blindAt_granted {miniverse_id : String} (hown : .moderator ≤ w.db.get_miniverse_role u.id miniverse_id) {missing : PyError}
    {k : Miniverse → Act α β}
    (hk : ∀ m, m.id ≠ target → w.db.findMiniverse miniverse_id = some m → (k m).AlikeAt (World.Veiled root) w w') :
    (getMiniverse miniverse_id missing >>= k).AlikeAt (World.Veiled root) w w' := by
  unfold Eff.AlikeAt getMiniverse
  rw [bind_assoc, query, Eff.read_bind_run, Eff.read_bind_run, h.db]
  cases hm : w.db.findMiniverse miniverse_id with
  | none => exact ⟨rfl, h⟩
  | some m =>
      rw [Eff.getOr_some_bind, Eff.getOr_some_bind]
      refine hk m ?_ hm
      rintro rfl
      rw [← (findMiniverse_some hm).2, hout.role] at hown
      exact absurd hown (by decide)

theorem blindAt_withFiles {service : Uuid4 → Act α β} {miniverse_id : String} (action : String)
    (hservice : ∀ m, m.id ≠ target → GrantsFiles u w.db miniverse_id m → (service m.id).AlikeAt (World.Veiled root) w w') :
    (withFiles u miniverse_id action service).AlikeAt (World.Veiled root) w w' := by
  unfold Eff.AlikeAt withFiles requireRole
  rw [bind_assoc, query, Eff.read_bind_run, Eff.read_bind_run, h.db]
  by_cases hguard : w.db.get_miniverse_role u.id miniverse_id < .moderator
  · rw [decide_eq_true hguard, Eff.raiseIf_true_bind, Eff.raiseIf_true_bind]
    exact ⟨rfl, h⟩
  · rw [decide_eq_false hguard, Eff.raiseIf_false_bind, Eff.raiseIf_false_bind]
    exact blindAt_granted hout h (Role.not_lt.mp hguard) fun m hid hm => hservice m hid ⟨Role.not_lt.mp hguard, hm⟩

/-- A service on the files, whose answer is returned. -/
theorem blindAt_service {service : Uuid4 → Fs α β} {answer : β → γ} {miniverse_id : String} (action : String)
    (hservice : ∀ m, m.id ≠ target → GrantsFiles u w.db miniverse_id m →
      (service m.id).AlikeAt (Disk.Veiled root) w.disk w'.disk) :
    (withFiles u miniverse_id action fun id => do
      return answer (← onDisk (service id))).AlikeAt (World.Veiled root) w w' :=
  blindAt_withFiles hout h action fun m hid hgrants =>
    (blindAt_onDisk h (hservice m hid hgrants)).bind fun _ => Eff.Alike.pure _

end Files

theorem blind_pre_create (upload : HookUpload) : Blind root (upload.pre_create u : Act α (FilesReply α)) := by
  refine (Eff.Alike.getOr _ _).bind fun _ => (Eff.Alike.getOr _ _).bind fun _ => (blind_query _).bind fun rejected => ?_
  exact (Eff.Alike.pure _).ite ((Eff.Alike.getOr _ _).bind fun _ => Eff.Alike.pure _)

section Requests

variable (hout : Outsider target u.id w) (h : World.Veiled (get_miniverse_path env.toPlatform target) w w')

include hout h

theorem blindAt_post_finish {upload : HookUpload}
    (hleads : ∀ file_id metadata miniverse_id, upload.ID = some file_id → upload.MetaData = some metadata →
      metadata.lookup "miniverseId" = some miniverse_id →
      ¬ LeadsInto env.toPlatform target (decide (w.db.get_miniverse_role u.id miniverse_id < .moderator)) file_id) :
    (upload.post_finish env u).AlikeAt (World.Veiled (get_miniverse_path env.toPlatform target)) w w' := by
  unfold HookUpload.post_finish
  cases hfile : upload.ID with
  | none => exact ⟨rfl, h⟩
  | some file_id =>
      cases hmeta : upload.MetaData with
      | none => exact ⟨rfl, h⟩
      | some metadata =>
          cases hminiverse : metadata.lookup "miniverseId" with
          | none => exact ⟨by simp [hminiverse], by simpa [hminiverse] using h⟩
          | some miniverse_id =>
              have hleads := hleads file_id metadata miniverse_id hfile hmeta hminiverse
              unfold Eff.AlikeAt
              simp only [Eff.getOr_some_bind, hminiverse, lacksRole, query, Eff.read_bind_run, h.db]
              by_cases hrole : w.db.get_miniverse_role u.id miniverse_id < .moderator
              · have hremove : Blind (get_miniverse_path env.toPlatform target) (remove_upload env file_id) :=
                  blind_onDisk ((Fs.veiled_unlinkPath _ _).bind fun _ => Fs.veiled_unlinkPath _ _)
                simp only [decide_eq_true hrole, if_true]
                exact hremove.bind (fun _ => Eff.Alike.pure _) w w' h
              · rw [decide_eq_false hrole] at hleads
                simp only [decide_eq_false hrole, Bool.false_eq_true, if_false]
                cases metadata.lookup "filename" with
                | none => exact ⟨rfl, h⟩
                | some filename =>
                    cases metadata.lookup "destination" with
                    | none => exact ⟨rfl, h⟩
                    | some destination =>
                        refine blindAt_granted hout h (Role.not_lt.mp hrole) fun m hid _ => ?_
                        have hmoved := movable_apart m.id (not_or.mp hleads).1
                        exact (blindAt_onDisk h (veiled_upload hmoved filename _ _ _ h.2)).bind fun _ => Eff.Alike.pure _

theorem blindAt_confirm_upload {data : HookRequest} (hexposes : ¬ data.Exposes env.toPlatform target u w.db) :
    (confirm_upload env u data).AlikeAt (World.Veiled (get_miniverse_path env.toPlatform target)) w w' := by
  unfold confirm_upload
  cases hupload : data.Upload with
  | none => exact ⟨rfl, h⟩
  | some upload =>
      cases htype : data.type with
      | pre_create =>
          exact blind_pre_create upload w w' h
      | post_finish =>
          exact blindAt_post_finish hout h fun file_id metadata miniverse_id hfile hmeta hminiverse hleads =>
            hexposes ⟨htype, upload, file_id, metadata, miniverse_id, hupload, hfile, hmeta, hminiverse, hleads⟩

/-- The routes of the files show an outsider nothing of the contents. -/
theorem blindAt_files (server : FilesServer env.toPlatform) {route : FilesRoute} (hexposes : ¬ route.Exposes server target u w) :
    (route.handle server u).AlikeAt (World.Veiled (get_miniverse_path env.toPlatform target)) w w' := by
  have hclear {m : Miniverse} (hid : m.id ≠ target) (q : Loc) (hq : miniverse_data_path env.toPlatform m.id <+: q) :
      ¬ get_miniverse_path env.toPlatform target <+: q := not_below_of_data hid (List.prefix_refl _) (Or.inr hq)
  cases route with
  | list_miniverse_files miniverse_id path =>
      rw [FilesRoute.handle]
      refine blindAt_withFiles hout h "view" fun m hid _ => Eff.Alike.bind (blind_read fun _ _ => rfl) (fun times => ?_) w w' h
      exact (blind_onDisk (veiled_list (hclear hid) times path)).bind fun _ => Eff.Alike.pure _
  | delete_miniverse_files miniverse_id paths =>
      rw [FilesRoute.handle]
      exact blindAt_service hout h "delete" fun m hid _ => veiled_delete m.id paths _ _ h.2
  | copy_miniverse_files miniverse_id paths destination =>
      rw [FilesRoute.handle]
      exact blindAt_service hout h "copy" fun m hid _ => veiled_copy (hclear hid) paths destination _ _ h.2
  | download_files miniverse_id paths =>
      rw [FilesRoute.handle]
      exact blindAt_service hout h "view" fun m hid hgrants =>
        download_veiled (hclear hid) _ h.2 fun hsends => hexposes ⟨m, hgrants, hsends⟩
  | confirm_upload data => exact blindAt_confirm_upload hout h hexposes
  | extract_miniverse_archive miniverse_id path =>
      rw [FilesRoute.handle]
      exact blindAt_service hout h "upload" fun m hid _ => veiled_extract (hclear hid) path _ _ h.2
  | compress_miniverse_files miniverse_id paths =>
      rw [FilesRoute.handle]
      exact blindAt_service hout h "compress" fun m hid hgrants =>
        compress_veiled h.2 fun harchives => hexposes ⟨m, hgrants, harchives⟩
  | rename_miniverse_file miniverse_id path new_name =>
      rw [FilesRoute.handle]
      exact blindAt_service hout h "rename" fun m hid _ => veiled_rename_file (hclear hid) path new_name _ _ h.2
  | get_file_content miniverse_id path =>
      rw [FilesRoute.handle]
      exact blindAt_service hout h "read" fun m hid _ => veiled_content (hclear hid) path _ _ h.2
  | set_file_content miniverse_id path data =>
      rcases hdata : readContent data with e | content
      · rw [set_content_refused server u miniverse_id path hdata]
        exact (blind_requireRole _ _ _).bind (fun _ => (blind_query _).bind fun _ => Eff.Alike.raise _) w w' h
      · rw [set_content_behind_guard server u miniverse_id path hdata]
        exact blindAt_service hout h "write" fun m hid _ => veiled_set_content m.id path content _ _ h.2

end Requests

/-! ## The logs -/

/-- The consoles of all containers but that of the miniverse have shown the same lines. -/
def SameLogs (target : Uuid4) (db : Database) (logs logs' : Nat → String → List String) : Prop :=
  ∀ n container_id, db.consoleOf target.str ≠ some container_id → logs n container_id = logs' n container_id

theorem blind_logs (logs : Nat → String → List String) (miniverse_id : String) (chunks : Nat) (inputs : List String) :
    Blind root (websocket_miniverse_logs_handler env logs miniverse_id chunks inputs) := by
  refine (blind_getMiniverse _ _).bind fun m => (Eff.Alike.pure _).elim fun container_id => ?_
  refine Eff.Alike.bind (blind_read fun _ _ => rfl) fun lines => Eff.Alike.bind ?_ fun _ => Eff.Alike.pure _
  refine Eff.Alike.attempt (Eff.Alike.bind ?_ fun _ => Eff.Alike.pure _) fun _ => Eff.Alike.pure _
  exact Eff.Alike.forM fun input _ => blind_send_command container_id input

/-- A session that sends no line of the console does not depend on them. -/
theorem logs_handler_congr {logs logs' : Nat → String → List String} {miniverse_id : String} {chunks : Nat} {inputs : List String}
    (hexposes : ¬ ExposesLogs target w.db miniverse_id chunks inputs) (hlogs : SameLogs target w.db logs logs') :
    websocket_miniverse_logs_handler env logs miniverse_id chunks inputs w =
      websocket_miniverse_logs_handler env logs' miniverse_id chunks inputs w := by
  unfold websocket_miniverse_logs_handler getMiniverse
  rw [bind_assoc, bind_assoc, query, Eff.read_bind_run, Eff.read_bind_run]
  cases hm : w.db.findMiniverse miniverse_id with
  | none => rfl
  | some m =>
      rw [Eff.getOr_some_bind, Eff.getOr_some_bind]
      cases hc : truthy m.container_id with
      | none => rfl
      | some container_id =>
          have hlines : (logs w.tick container_id).take chunks = (logs' w.tick container_id).take chunks := by
            by_cases hother : w.db.consoleOf target.str = some container_id
            · have hconsole : w.db.consoleOf miniverse_id = some container_id := by rw [Database.consoleOf, hm]; exact hc
              have hzero : chunks = 0 := by
                by_contra hne
                exact hexposes ⟨⟨container_id, hconsole, hother⟩, Or.inl (Nat.pos_of_ne_zero hne)⟩
              rw [hzero, List.take_zero, List.take_zero]
            · rw [hlogs w.tick container_id hother]
          rw [Option.elim_some, Option.elim_some, Eff.read_bind_run, Eff.read_bind_run, hlines]

/-! ## All requests -/

/-- Two states with the same sessions that differ only in contents. -/
def Live.Veiled (root : Loc) (l l' : Live α) : Prop := l'.sessions = l.sessions ∧ World.Veiled root l.world l'.world

theorem blind_onWorld {m : Act α β} (h : Blind root m) : (onWorld m).Alike (Live.Veiled root) :=
  h.zoom (fun _ _ h => h.2) fun _ _ _ _ h hw => ⟨h.1, hw⟩

theorem blindAt_onWorld {m : Act α β} {l l' : Live α} (h : Live.Veiled root l l')
    (hm : m.AlikeAt (World.Veiled root) l.world l'.world) : (onWorld m).AlikeAt (Live.Veiled root) l l' :=
  hm.zoom fun _ _ hw => ⟨h.1, hw⟩

theorem blind_updates_handler (sur : Surroundings env.toPlatform) (user_id : String) :
    Blind root (websocket_miniverse_updates_handler sur user_id) := by
  refine (blind_query _).bind fun user => ?_
  cases user with
  | none => exact (blind_query _).bind fun _ => (Eff.Alike.raiseIf _ _).bind fun _ => Eff.Alike.pure _
  | some user =>
      refine blind_visibleMiniverses.bind fun ms => Eff.Alike.mapM fun m _ => ?_
      refine (blind_get_miniverse_controller _).bind fun _ => (Eff.Alike.getOr _ _).bind fun c => ?_
      refine (blind_ask _).bind fun _ => (blind_ask _).bind fun _ => Eff.Alike.ite ?_ (Eff.Alike.pure _)
      exact (blind_ask _).bind fun _ => (blind_ask _).bind fun _ => Eff.Alike.pure _

/-- A session handles its next event by the rows and the events. -/
theorem session_handle_congr (h : World.Veiled root w w') (s : Session) : s.handle w' = s.handle w := by
  have hevents : w'.events = w.events := by
    have hevents := congrArg World.events h.1
    exact hevents
  rw [Session.handle, Session.handle, hevents, h.db]

theorem live_turn_congr (env : Env α) {l l' : Live α} (h : Live.Veiled root l l') (i : Nat) :
    Live.Veiled root (Live.turn env (.handle i) l) (Live.turn env (.handle i) l') := by
  refine ⟨?_, h.2⟩
  show l'.sessions.modify i (·.handle l'.world) = l.sessions.modify i (·.handle l.world)
  rw [h.1, funext (session_handle_congr h.2)]

/-- One request of an outsider is answered the same, whatever the contents and the lines are. -/
theorem request_answered_alike (sur : Surroundings env.toPlatform) {logs : Nat → String → List String} {r : ServiceRequest}
    {l l' : Live α} (hout : Outsider target u.id l.world) (h : Live.Veiled (get_miniverse_path env.toPlatform target) l l')
    (hlogs : SameLogs target l.world.db sur.logs logs) (hexposes : ¬ r.Exposes sur target u l) :
    (r.handle sur u l).1 = (r.handle { sur with logs } u l').1 ∧
      Live.Veiled (get_miniverse_path env.toPlatform target) (r.handle sur u l).2 (r.handle { sur with logs } u l').2 := by
  cases r with
  | miniverses route => exact blind_onWorld ((blind_route u route).bind fun _ => Eff.Alike.pure _) l l' h
  | files route =>
      exact blindAt_onWorld h ((blindAt_files hout h.2 sur.toFilesServer hexposes).bind fun _ => Eff.Alike.pure _)
  | open_updates =>
      refine (blind_onWorld (blind_updates_handler sur u.id)).bind (fun data => ?_) l l' h
      refine Eff.Alike.bind (Eff.Alike.modify fun l l' h => ⟨?_, h.2⟩) fun _ => Eff.Alike.pure _
      have hevents := congrArg World.events h.2.1
      have hnew : Session.new l'.world u.id = Session.new l.world u.id := by
        rw [Session.new, Session.new, h.2.db, show l'.world.events = l.world.events from hevents]
      rw [h.1, hnew]
  | next_event session =>
      have hturn := live_turn_congr env h session
      refine ⟨?_, hturn⟩
      exact congrArg (fun ss : List Session => Except.ok (ServiceReply.events ((ss[session]?.map Session.sent).getD [])))
        hturn.1.symm
  | receive_text session => exact ⟨rfl, congrArg (·.eraseIdx session) h.1, h.2⟩
  | open_logs miniverse_id chunks inputs =>
      have hsame : websocket_miniverse_logs_handler env sur.logs miniverse_id chunks inputs l.world =
          websocket_miniverse_logs_handler env logs miniverse_id chunks inputs l.world := logs_handler_congr hexposes hlogs
      have hlogs : Blind (get_miniverse_path env.toPlatform target)
          (websocket_miniverse_logs_handler env logs miniverse_id chunks inputs) := blind_logs logs miniverse_id chunks inputs
      have hblind := blind_onWorld hlogs l l' h
      have hrun : onWorld (websocket_miniverse_logs_handler env sur.logs miniverse_id chunks inputs) l =
          onWorld (websocket_miniverse_logs_handler env logs miniverse_id chunks inputs) l := by
        unfold onWorld Eff.zoom
        dsimp only
        rw [hsame]
      show (onWorld _ l).1 = _ ∧ Live.Veiled _ (onWorld _ l).2 _
      rw [hrun]
      exact hblind

end Backend
