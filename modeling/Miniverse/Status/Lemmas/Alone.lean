import Miniverse.Lib.Alone
import Miniverse.Status.Lemmas.Refresh

/-!
# Calls that run alone

What a call on the status store, a refresh and a webhook do when nothing interrupts them.
-/

namespace Backend

open Lib

variable {V : Type} {json : Json V} {miniverse_id method_name : String}

/-! ## The store -/

/-- Only a missing value that replaces a missing value is not written and published. -/
theorem set_run (hmethod : method_name ∈ event_types) (value : Option V) (w : StatusWorld V) :
    (ServerStatusStore.set json miniverse_id method_name value true).run w =
      (.ok (), if w.redis (status_key miniverse_id method_name) = none ∧ value = none then w else
        { w with
          redis := Function.update w.redis (status_key miniverse_id method_name) (value.map json.dumps)
          published := w.published ++ [⟨miniverse_id, method_name, value⟩] }) := by
  rw [ServerStatusStore.set_eq, Async.run_step, ServerStatusStore.writing_eq, ServerStatusStore.publishing_eq hmethod]
  cases hstored : w.redis (status_key miniverse_id method_name) with
  | none =>
      cases value with
      | none => rfl
      | some v => simp [differs]
  | some text => simp [differs]

theorem get_run (miniverse_id method_name : String) (w : StatusWorld V) :
    (ServerStatusStore.get json miniverse_id method_name).run w =
      ((w.redis (status_key miniverse_id method_name)).map json.loads, w) := by
  unfold ServerStatusStore.get redis_get
  rw [Async.run_bind, Async.run_look]
  simp [Function.comp_def]

/-- A name without a dot is found at the end of the key. -/
theorem status_key_inj {id id' name name' : String} (hname : '.' ∉ name.toList) (hname' : '.' ∉ name'.toList)
    (h : status_key id name = status_key id' name') : id = id' ∧ name = name' := by
  have hcut {cs ds : List Char} (hcs : '.' ∉ cs) : (cs ++ '.' :: ds).takeWhile (fun c => decide (c ≠ '.')) = cs := by
    have hne : ∀ c ∈ cs, decide (c ≠ '.') = true := by
      intro c hc
      have hne : c ≠ '.' := fun heq => hcs (heq ▸ hc)
      simp [hne]
    rw [List.takeWhile_append_of_pos hne, List.takeWhile_cons_of_neg (by simp), List.append_nil]
  have htexts : name.toList.reverse ++ '.' :: id.toList.reverse = name'.toList.reverse ++ '.' :: id'.toList.reverse := by
    have hreverse := congrArg (List.reverse ∘ String.toList) h
    simpa [status_key] using hreverse
  have hnames : name.toList.reverse = name'.toList.reverse := by
    rw [← @hcut name.toList.reverse _ (by simpa using hname), htexts, hcut (by simpa using hname')]
  rw [hnames] at htexts
  have hids := (List.cons.inj (List.append_cancel_left htexts)).2
  exact ⟨String.toList_inj.mp (List.reverse_injective hids), String.toList_inj.mp (List.reverse_injective hnames)⟩

namespace BaseMiniverseService

variable {msmp : MSMPJson V} {source : Source V}

/-- A refresh whose source has a list stores the list, and puts its players into the dictionary. -/
theorem get_msmp_player_list_run {raw_player_list : V} (hsource : ∀ tick, source tick "minecraft:players" = .ok (some raw_player_list))
    (w : StatusWorld V) : ∃ w', (get_msmp_player_list msmp source miniverse_id true).run w = (.ok raw_player_list, w') ∧
      w'.redis (players_key miniverse_id) = some (msmp.dumps raw_player_list) ∧
      w'.redis (seen_key miniverse_id) =
        some (msmp.dumps (msmp.add_seen ((w.redis (seen_key miniverse_id)).map msmp.loads) raw_player_list)) := by
  have hset := @set_run V msmp.toJson miniverse_id "minecraft:players" (by decide) (some raw_player_list) { w with tick := w.tick + 1 }
  rw [if_neg (fun h => Option.some_ne_none _ h.2)] at hset
  rw [get_msmp_player_list_eq, Async.run_step]
  simp only [hsource, storeList, Async.run_bind, hset]
  simp only [afterSet, Option.elim_some, readSeen, checkSeen, storeSeen, Async.run_step, Async.run_bind, redis_put, Async.run_act,
    Async.run_pure, id]
  refine ⟨_, rfl, ?_, ?_⟩
  · dsimp only
    rw [Function.update_of_ne seen_key_ne_players_key.symm]
    exact Function.update_self _ _ _
  · have hother := Function.update_of_ne (@seen_key_ne_players_key miniverse_id) (some (msmp.dumps raw_player_list)) w.redis
    dsimp only
    rw [Function.update_self]
    exact congrArg (fun seen => some (msmp.dumps (msmp.add_seen (seen.map msmp.loads) raw_player_list))) hother

end BaseMiniverseService

theorem RouterWorld.onStatus_run {β : Type} (p : Async (StatusWorld PlayerData) β) (w : RouterWorld) :
    (RouterWorld.onStatus p).run w = ((p.run w.status).1, RouterWorld.setStatus (p.run w.status).2 w) :=
  @Async.run_zoom _ _ _ RouterWorld.status RouterWorld.setStatus (fun _ _ => rfl) (fun _ _ _ => rfl) (fun _ => rfl) p w

namespace MCRouterMiniverseService

/-- A webhook with a player changes the memory, and stores the players who are online then. -/
theorem process_webhook_run {json : Json PlayerData} {payload : WebhookPayload} {p_id p_name : String}
    (hplayer : payload.player = some ⟨some p_id, some p_name⟩) (w : RouterWorld) :
    ∃ status, (process_webhook json miniverse_id payload).run w =
        (.ok (), ⟨status, playersAfter payload ⟨p_id, p_name⟩ w.online_players⟩) ∧
      status.redis (players_key miniverse_id) =
        some (json.dumps (.list (playersAfter payload ⟨p_id, p_name⟩ w.online_players))) ∧
      status.redis (seen_key miniverse_id) = some (json.dumps (PlayerData.add_seen
        ((w.status.redis (seen_key miniverse_id)).map json.loads) (.list (playersAfter payload ⟨p_id, p_name⟩ w.online_players)))) := by
  obtain ⟨status, hrun, hplayers, hseen⟩ := @BaseMiniverseService.get_msmp_player_list_run _ miniverse_id (playersJson json)
    (get_data_from_source (playersAfter payload ⟨p_id, p_name⟩ w.online_players)) _ (fun _ => rfl) w.status
  refine ⟨status, ?_, hplayers, hseen⟩
  unfold process_webhook
  rw [hplayer]
  unfold handle_player
  rw [Async.run_bind, Async.run_step, Async.run_done, Async.run_bind, RouterWorld.onStatus_run]
  dsimp only
  rw [hrun]
  rfl

end MCRouterMiniverseService

end Backend
