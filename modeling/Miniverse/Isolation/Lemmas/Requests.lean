import Miniverse.Isolation.Exposures
import Miniverse.Isolation.Lemmas.Frame

/-!
# What the files and the sessions of a user leave alone
-/

namespace Backend

open Lib

variable {α β : Type} {env : Env α} {pf : Platform α} {target id : Uuid4} {u : User} {user_id : String} {w w' : World α}

/-! ## Files -/

/-- Where the role was checked before. -/
theorem isolated_granted {miniverse_id : String} (hown : .moderator ≤ w.db.get_miniverse_role user_id miniverse_id)
    {missing : PyError} {k : Miniverse → Act α β} (hk : ∀ m, m.id ≠ target → (k m).Within (Isolated pf target user_id)) :
    Isolated pf target user_id w ((getMiniverse miniverse_id missing >>= k) w).2 := by
  unfold getMiniverse
  rw [bind_assoc, query, Eff.read_bind_run]
  cases hm : w.db.findMiniverse miniverse_id with
  | none => exact Std.Refl.refl w
  | some m =>
      rw [Eff.getOr_some_bind]
      obtain ⟨_, rfl⟩ := findMiniverse_some hm
      exact isolated_other (Nat.lt_of_lt_of_le (by decide) hown) fun hid => hk m hid w

theorem isolated_withFiles {service : Uuid4 → Act α β} (hservice : ∀ id, id ≠ target → (service id).Within (Isolated pf target u.id))
    (miniverse_id action : String) : (withFiles u miniverse_id action service).Within (Isolated pf target u.id) :=
  isolated_guarded (by decide) fun m hid => hservice m.id hid

/-- A service on the files, whose answer is returned. -/
theorem isolated_service {γ : Type} {service : Uuid4 → Fs α β} {answer : β → γ}
    (hservice : ∀ id, id ≠ target → (service id).Within (Disk.SameOff fun q => ¬ get_miniverse_path pf target <+: q))
    (miniverse_id action : String) : (withFiles u miniverse_id action fun id => do
      return answer (← onDisk (service id))).Within (Isolated pf target u.id) :=
  isolated_withFiles (fun id hid => (isolated_onDisk (hservice id hid)).bind fun _ => Eff.Within.pure _) _ _

theorem within_download (own : Role) (id : Uuid4) (paths : String) {S : Loc → Prop} :
    (FilesController.download_files pf own id paths).Within (Disk.SameOff S) :=
  (Eff.Within.raiseIf _ _).bind fun _ => (Eff.Within.ofExcept _).bind fun _ => (Eff.Within.raiseIf _ _).bind fun _ =>
    Disk.within_look _

theorem within_list (times : Loc → Times) (id : Uuid4) (path : PurePath) {S : Loc → Prop} :
    (list_miniverse_files pf times id path).Within (Disk.SameOff S) :=
  (Eff.Within.ofExcept _).bind fun _ => (Disk.within_look _).bind fun _ => (Eff.Within.raiseIf _ _).bind fun _ =>
    (Disk.within_look _).bind fun _ => (Eff.Within.pure _).ite (Disk.within_look _)

theorem within_content (id : Uuid4) (path : PurePath) {S : Loc → Prop} :
    (get_file_content pf id path).Within (Disk.SameOff S) :=
  (Eff.Within.ofExcept _).bind fun _ => (Disk.within_look _).bind fun _ => (Eff.Within.raiseIf _ _).bind fun _ =>
    (Disk.within_look _).bind fun _ => Eff.Within.ite
      ((Disk.within_readFile _).bind fun _ => (Eff.Within.raiseIf _ _).bind fun _ => Eff.Within.pure _) (Eff.Within.raise _)

/-- A body without a content is refused after the role was checked. -/
theorem set_content_refused (server : FilesServer env.toPlatform) (u : User) (miniverse_id : String) (path : PurePath)
    {data : ContentData} {e : PyError} (hdata : readContent data = .error e) :
    (FilesRoute.set_file_content miniverse_id path data).handle server u = (do
      requireRole u miniverse_id .moderator "You are not authorized to write files in this miniverse"
      let _ ← query (·.findMiniverse miniverse_id)
      Eff.raise e) := by
  simp only [FilesRoute.handle, hdata]
  rfl

theorem set_content_behind_guard (server : FilesServer env.toPlatform) (u : User) (miniverse_id : String) (path : PurePath)
    {data : ContentData} {content : Option String} (hdata : readContent data = .ok content) :
    (FilesRoute.set_file_content miniverse_id path data).handle server u = withFiles u miniverse_id "write" fun id => do
      onDisk (set_file_content env.toPlatform id path content)
      return .answer .done := by
  simp only [FilesRoute.handle, hdata]
  rfl

/-! ## The hook -/

theorem isolated_remove_upload {file_id : String} (h : ¬ LeadsInto env.toPlatform target true file_id) :
    (remove_upload env file_id).Within (Isolated env.toPlatform target user_id) := by
  obtain ⟨hfile, hmetadata⟩ := not_or.mp h
  exact isolated_onDisk ((Fs.sameOff_unlinkPath _ (upload_path_absolute _ _) hfile).bind fun _ =>
    Fs.sameOff_unlinkPath _ (upload_path_absolute _ _) hmetadata)

/-- A location from which nothing of the miniverse can be moved to another one. -/
theorem movable_apart (id : Uuid4) {p : Loc} (h : ¬ get_miniverse_path pf target <+: p) :
    p <+: get_miniverse_path pf id ∨ ∀ q, p <+: q → ¬ get_miniverse_path pf target <+: q := by
  by_cases habove : p <+: get_miniverse_path pf target
  · -- above one directory is above the other
    left
    have hparent : p <+: pf.DATA_PATH ++ ["miniverses"] := by
      have hconcat : get_miniverse_path pf target = (pf.DATA_PATH ++ ["miniverses"]) ++ [target.str] := by simp [get_miniverse_path]
      rcases List.prefix_concat_iff.mp (hconcat ▸ habove) with heq | hp
      · rw [← hconcat] at heq
        exact absurd (heq ▸ List.prefix_refl _) h
      · exact hp
    exact hparent.trans ⟨[id.str], by simp [get_miniverse_path]⟩
  · right
    intro q hpq htarget
    exact (List.prefix_or_prefix_of_prefix hpq htarget).elim habove h

theorem isolated_upload (hid : id ≠ target) {file_id : String} (h : ¬ LeadsInto env.toPlatform target false file_id)
    (filename : String) (destination : PurePath) :
    (onDisk (upload_miniverse_file env.toPlatform id file_id filename destination) : Act α Unit).Within
      (Isolated env.toPlatform target user_id) := by
  obtain ⟨hfile, hmetadata⟩ := not_or.mp h
  refine isolated_onDisk (sameOff_upload (fun q hq => not_below_other hid hq) (fun p hp hbelow => ?_) (movable_apart id hfile) _ _)
  exact hmetadata (by simpa using ⟨p, hp, hbelow⟩)

/-- The end of an upload, with the texts of the request. -/
theorem isolated_post_finish {upload : HookUpload}
    (h : ∀ file_id metadata miniverse_id, upload.ID = some file_id → upload.MetaData = some metadata →
      metadata.lookup "miniverseId" = some miniverse_id →
      ¬ LeadsInto env.toPlatform target (decide (w.db.get_miniverse_role u.id miniverse_id < .moderator)) file_id) :
    Isolated env.toPlatform target u.id w (upload.post_finish env u w).2 := by
  unfold HookUpload.post_finish
  cases hfile : upload.ID with
  | none => exact Std.Refl.refl w
  | some file_id =>
      rw [Eff.getOr_some_bind]
      cases hmeta : upload.MetaData with
      | none => exact Std.Refl.refl w
      | some metadata =>
          rw [Eff.getOr_some_bind]
          cases hminiverse : metadata.lookup "miniverseId" with
          | none => exact Std.Refl.refl w
          | some miniverse_id =>
              have h := h file_id metadata miniverse_id hfile hmeta hminiverse
              rw [Eff.getOr_some_bind, lacksRole, query, Eff.read_bind_run]
              by_cases hrole : w.db.get_miniverse_role u.id miniverse_id < .moderator
              · rw [decide_eq_true hrole] at h ⊢
                exact (isolated_remove_upload h).bind (fun _ => Eff.Within.pure _) w
              · rw [decide_eq_false hrole] at h ⊢
                cases metadata.lookup "filename" with
                | none => exact Std.Refl.refl w
                | some filename =>
                    cases metadata.lookup "destination" with
                    | none => exact Std.Refl.refl w
                    | some destination => exact isolated_granted (Role.not_lt.mp hrole) fun m hid =>
                        (isolated_upload hid h filename _).bind fun _ => Eff.Within.pure _

theorem isolated_confirm_upload {data : HookRequest} (h : ¬ data.Exposes env.toPlatform target u w.db) :
    Isolated env.toPlatform target u.id w (confirm_upload env u data w).2 := by
  unfold confirm_upload
  cases hupload : data.Upload with
  | none => exact Std.Refl.refl w
  | some upload =>
      rw [Eff.getOr_some_bind]
      cases htype : data.type with
      | pre_create =>
          refine Eff.Within.bind (Eff.Within.getOr _ _) (fun _ => (Eff.Within.getOr _ _).bind fun _ => ?_) w
          exact (within_query _).bind fun _ => (Eff.Within.pure _).ite ((Eff.Within.getOr _ _).bind fun _ => Eff.Within.pure _)
      | post_finish =>
          exact isolated_post_finish fun file_id metadata miniverse_id hfile hmeta hminiverse hleads =>
            h ⟨htype, upload, file_id, metadata, miniverse_id, hupload, hfile, hmeta, hminiverse, hleads⟩

/-! ## The routes of the files -/

/-- What an outsider does through the routes of the files. Archives and downloads show other files, and change none. -/
theorem isolated_files (server : FilesServer env.toPlatform) {route : FilesRoute} (h : ¬ route.Exposes server target u w) :
    Isolated env.toPlatform target u.id w (route.handle server u w).2 := by
  have hapart {id : Uuid4} (hid : id ≠ target) (q : Loc)
      (hq : get_miniverse_path env.toPlatform id <+: q ∨ q <+: get_miniverse_path env.toPlatform id) :
      ¬ get_miniverse_path env.toPlatform target <+: q := not_below_other hid hq
  cases route with
  | list_miniverse_files miniverse_id path =>
      rw [FilesRoute.handle]
      refine isolated_withFiles (fun id hid => (Eff.Within.read _).bind fun times => ?_) _ _ w
      exact (isolated_onDisk (within_list times id path)).bind fun _ => Eff.Within.pure _
  | delete_miniverse_files miniverse_id paths =>
      rw [FilesRoute.handle]
      exact isolated_service (fun id hid => sameOff_delete (hapart hid) paths) _ _ w
  | copy_miniverse_files miniverse_id paths destination =>
      rw [FilesRoute.handle]
      exact isolated_service (fun id hid => sameOff_copy (hapart hid) paths destination) _ _ w
  | download_files miniverse_id paths =>
      rw [FilesRoute.handle]
      exact isolated_service (fun id hid => (within_download _ id paths).bind fun _ => Disk.within_look _) _ _ w
  | confirm_upload data => exact isolated_confirm_upload h
  | extract_miniverse_archive miniverse_id path =>
      rw [FilesRoute.handle]
      exact isolated_service (fun id hid => sameOff_extract (hapart hid) path) _ _ w
  | compress_miniverse_files miniverse_id paths =>
      rw [FilesRoute.handle]
      exact isolated_service (fun id hid => sameOff_compress (hapart hid) paths) _ _ w
  | rename_miniverse_file miniverse_id path new_name =>
      rw [FilesRoute.handle]
      exact isolated_service (fun id hid => sameOff_rename_file (hapart hid) path new_name) _ _ w
  | get_file_content miniverse_id path =>
      rw [FilesRoute.handle]
      exact isolated_service (fun id hid => within_content id path) _ _ w
  | set_file_content miniverse_id path data =>
      rcases hdata : readContent data with e | content
      · rw [set_content_refused server u miniverse_id path hdata]
        exact (within_requireRole _ _ _).bind (fun _ => (within_query _).bind fun _ => Eff.Within.raise _) w
      · rw [set_content_behind_guard server u miniverse_id path hdata]
        exact isolated_service (fun id hid => sameOff_set_content (hapart hid) path content) _ _ w

/-! ## The logs -/

/-- Only commands to the container were sent. -/
def SentTo (container_id : String) (w w' : World α) : Prop :=
  w'.db = w.db ∧ w'.disk = w.disk ∧ ∃ cs : List (String × String), w'.commands = w.commands ++ cs ∧ ∀ c ∈ cs, c.1 = container_id

instance (container_id : String) : Quiet (SentTo (α := α) container_id) where
  refl _ := ⟨rfl, rfl, [], by simp, nofun⟩
  trans w₁ w₂ w₃ h₁ h₂ := by
    obtain ⟨hdb₁, hdisk₁, cs₁, hcs₁, hto₁⟩ := h₁
    obtain ⟨hdb₂, hdisk₂, cs₂, hcs₂, hto₂⟩ := h₂
    refine ⟨hdb₂.trans hdb₁, hdisk₂.trans hdisk₁, cs₁ ++ cs₂, by rw [hcs₂, hcs₁, List.append_assoc], fun c hc => ?_⟩
    exact (List.mem_append.mp hc).elim (hto₁ c) (hto₂ c)
  tick _ _ := ⟨rfl, rfl, [], by simp, nofun⟩
  events _ _ := ⟨rfl, rfl, [], by simp, nofun⟩

theorem sentTo_command (env : Env α) (container_id command : String) :
    (send_command_to_container env container_id command).Within (SentTo container_id) := by
  refine Eff.Within.bind_returns (Q := fun c : Container => c.id = container_id) (within_getContainer _) ?_ fun c hc => ?_
  · exact fun w c w' hrun => (getContainer_returned hrun).2.1
  · exact (within_ask _).bind fun _ => Eff.Within.modify fun w =>
      ⟨rfl, rfl, [(c.id, command ++ "\n")], rfl, fun x hx => List.mem_singleton.mp hx ▸ hc⟩

/-- Commands to another container. -/
theorem SentTo.isolated {container_id : String} (h : SentTo container_id w w')
    (hother : w.db.consoleOf target.str ≠ some container_id) : Isolated pf target user_id w w' := by
  obtain ⟨hdb, hdisk, cs, hcs, hto⟩ := h
  refine fun hout => ⟨⟨hdb ▸ hout.present, hdb ▸ hout.role, hdb ▸ hout.keys, hdb ▸ hout.names⟩, ?_⟩
  refine ⟨by rw [hdb], fun p _ => by rw [hdisk], ?_⟩
  have hnone : (cs.filter fun c => decide (w.db.consoleOf target.str = some c.1)) = [] :=
    List.filter_eq_nil_iff.mpr fun c hc hto' => hother ((of_decide_eq_true hto').trans (congrArg some (hto c hc)))
  rw [World.commandsTo, World.commandsTo, hdb, hcs, List.filter_append, hnone, List.append_nil]

theorem isolated_logs {logs : Nat → String → List String} {miniverse_id : String} {chunks : Nat} {inputs : List String}
    (h : ¬ ExposesLogs target w.db miniverse_id chunks inputs) :
    Isolated pf target user_id w (websocket_miniverse_logs_handler env logs miniverse_id chunks inputs w).2 := by
  unfold websocket_miniverse_logs_handler getMiniverse
  rw [bind_assoc, query, Eff.read_bind_run]
  cases hm : w.db.findMiniverse miniverse_id with
  | none => exact Std.Refl.refl w
  | some m =>
      rw [Eff.getOr_some_bind]
      cases hc : truthy m.container_id with
      | none => exact Std.Refl.refl w
      | some container_id =>
          have hconsole : w.db.consoleOf miniverse_id = some container_id := by rw [Database.consoleOf, hm]; exact hc
          by_cases hother : w.db.consoleOf target.str = some container_id
          · -- without an input nothing is sent
            have hnone : (inputs.takeWhile fun input => decide (input ≠ "")) = [] := by
              by_contra hsome
              exact h ⟨⟨container_id, hconsole, hother⟩, Or.inr hsome⟩
            have hsend : send_inputs env container_id inputs = pure () := by rw [send_inputs, hnone]; rfl
            rw [Option.elim_some, hsend]
            exact Std.Refl.refl w
          · have hsession : (do
                let lines ← Eff.read fun w : World α => (logs w.tick container_id).take chunks
                let error ← (do
                  send_inputs env container_id inputs
                  return none : Act α (Option PyError)).attempt fun e => pure (some e)
                return .console lines error : Act α (ServiceReply α)).Within (SentTo container_id) := by
              refine (Eff.Within.read _).bind fun lines => Eff.Within.bind ?_ fun _ => Eff.Within.pure _
              refine Eff.Within.attempt (Eff.Within.bind ?_ fun _ => Eff.Within.pure _) fun _ => Eff.Within.pure _
              exact Eff.Within.forM fun input _ => sentTo_command env container_id input
            exact SentTo.isolated (hsession w) hother

/-! ## All requests -/

theorem within_updates_handler (sur : Surroundings env.toPlatform) (user_id : String) {R : World α → World α → Prop} [Calm R] :
    (websocket_miniverse_updates_handler sur user_id).Within R := by
  refine (within_query _).bind fun user => ?_
  cases user with
  | none => exact (within_query _).bind fun _ => (Eff.Within.raiseIf _ _).bind fun _ => Eff.Within.pure _
  | some user =>
      refine within_visibleMiniverses.bind fun ms => Eff.Within.mapM fun m _ => ?_
      refine (Eff.Within.read _).bind fun _ => (Eff.Within.getOr _ _).bind fun c => ?_
      refine (within_ask _).bind fun _ => (within_ask _).bind fun _ => Eff.Within.ite ?_ (Eff.Within.pure _)
      exact (within_ask _).bind fun _ => (within_ask _).bind fun _ => Eff.Within.pure _

/-- The same, next to the open sessions. -/
def IsolatedLive (pf : Platform α) (target : Uuid4) (user_id : String) (l l' : Live α) : Prop :=
  Isolated pf target user_id l.world l'.world

instance : Std.Refl (IsolatedLive (α := α) pf target user_id) := ⟨fun l => Std.Refl.refl l.world⟩

instance : IsTrans (Live α) (IsolatedLive pf target user_id) := ⟨fun _ _ _ h₁ h₂ => trans_of (Isolated pf target user_id) h₁ h₂⟩

theorem isolated_onWorld {m : Act α β} (h : m.Within (Isolated pf target user_id)) :
    (onWorld m).Within (IsolatedLive pf target user_id) := h.zoom fun _ _ h => h

/-- What an outsider does with one request. -/
theorem isolated_request (hplain : PlainAnswers env) (sur : Surroundings env.toPlatform) {r : ServiceRequest} {l : Live α}
    (h : ¬ r.Exposes sur target u l) : IsolatedLive env.toPlatform target u.id l (r.handle sur u l).2 := by
  cases r with
  | miniverses route => exact isolated_onWorld ((isolated_route hplain u route).bind fun _ => Eff.Within.pure _) l
  | files route =>
      show Isolated env.toPlatform target u.id l.world ((_ >>= fun reply => pure (ServiceReply.files reply) : Act α _) l.world).2
      rw [Eff.bind_pure_state]
      exact isolated_files sur.toFilesServer h
  | open_updates =>
      refine (isolated_onWorld (within_updates_handler sur u.id)).bind (fun data => ?_) l
      exact Eff.Within.bind (Eff.Within.modify fun l => Std.Refl.refl l.world) fun _ => Eff.Within.pure _
  | next_event session => exact Std.Refl.refl l.world
  | receive_text session => exact Std.Refl.refl l.world
  | open_logs miniverse_id chunks inputs => exact isolated_logs h

end Backend
