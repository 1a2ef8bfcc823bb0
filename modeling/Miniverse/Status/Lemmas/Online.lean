import Miniverse.Status.Players

/-!
# The players who are online

The memory of a controller as a dictionary, and what a dictionary of players becomes when the list is put into it.
-/

namespace Backend

open Lib

variable {online_players : List MSMPPlayer} {player : MSMPPlayer}

/-! ## Joining -/

theorem any_id_iff {p_id : String} : online_players.any (fun p => decide (p.id = p_id)) = true ↔
    p_id ∈ online_players.map MSMPPlayer.id := by
  simp

theorem mem_putPlayer {q : MSMPPlayer} :
    q ∈ putPlayer online_players player ↔ q = player ∨ q ∈ online_players ∧ q.id ≠ player.id := by
  unfold putPlayer
  by_cases hany : online_players.any (fun p => decide (p.id = player.id)) = true
  · rw [if_pos hany, List.mem_map]
    constructor
    · rintro ⟨p, hp, rfl⟩
      by_cases hid : p.id = player.id
      · exact Or.inl (if_pos hid)
      · rw [if_neg hid]
        exact Or.inr ⟨hp, hid⟩
    · rintro (rfl | ⟨hq, hid⟩)
      · obtain ⟨p, hp, hid⟩ := List.mem_map.mp (any_id_iff.mp hany)
        exact ⟨p, hp, if_pos hid⟩
      · exact ⟨q, hq, if_neg hid⟩
  · have hid : ∀ p ∈ online_players, p.id ≠ player.id := fun p hp heq => hany (any_id_iff.mpr (List.mem_map.mpr ⟨p, hp, heq⟩))
    rw [if_neg hany, List.mem_append, List.mem_singleton]
    exact ⟨fun h => h.symm.imp_right fun hq => ⟨hq, hid q hq⟩, fun h => h.symm.imp_left And.left⟩

theorem nodup_putPlayer (h : (online_players.map MSMPPlayer.id).Nodup) :
    ((putPlayer online_players player).map MSMPPlayer.id).Nodup := by
  unfold putPlayer
  by_cases hany : online_players.any (fun p => decide (p.id = player.id)) = true
  · have hids : (online_players.map fun p => if p.id = player.id then player else p).map MSMPPlayer.id =
        online_players.map MSMPPlayer.id := by
      rw [List.map_map]
      refine List.map_congr_left fun p _ => ?_
      by_cases hid : p.id = player.id <;> simp [hid]
    rw [if_pos hany, hids]
    exact h
  · rw [if_neg hany, List.map_append, List.map_singleton, List.nodup_append]
    refine ⟨h, List.nodup_singleton _, fun i hi j hj => ?_⟩
    rintro rfl
    exact hany (any_id_iff.mpr (List.mem_singleton.mp hj ▸ hi))

/-! ## Events -/

theorem nodup_playersAfter {payload : WebhookPayload} (h : (online_players.map MSMPPlayer.id).Nodup) :
    ((playersAfter payload player online_players).map MSMPPlayer.id).Nodup := by
  unfold playersAfter
  split
  · exact nodup_putPlayer h
  · split
    · exact h.sublist (List.filter_sublist.map _)
    · exact h

/-- Other players stay as they are. -/
theorem mem_playersAfter_other {payload : WebhookPayload} {q : MSMPPlayer} (hid : q.id ≠ player.id) :
    q ∈ playersAfter payload player online_players ↔ q ∈ online_players := by
  unfold playersAfter
  split
  · rw [mem_putPlayer]
    exact ⟨fun h => h.elim (fun heq => absurd (congrArg MSMPPlayer.id heq) hid) And.left, fun h => Or.inr ⟨h, hid⟩⟩
  · split
    · rw [List.mem_filter]
      exact and_iff_left (decide_eq_true hid)
    · exact Iff.rfl

theorem mem_playersAfter_connect {payload : WebhookPayload} {q : MSMPPlayer} (hid : q.id = player.id)
    (hconnect : payload.event = some "connect" ∧ payload.status = some "success") :
    q ∈ playersAfter payload player online_players ↔ q = player := by
  rw [playersAfter, if_pos hconnect, mem_putPlayer]
  exact or_iff_left fun h => h.2 hid

theorem not_mem_playersAfter_disconnect {payload : WebhookPayload} {q : MSMPPlayer} (hid : q.id = player.id)
    (hdisconnect : payload.event = some "disconnect") : q ∉ playersAfter payload player online_players := by
  have hconnect : ¬ (payload.event = some "connect" ∧ payload.status = some "success") := by
    rw [hdisconnect]
    exact fun h => absurd h.1 (by decide)
  rw [playersAfter, if_neg hconnect, if_pos hdisconnect, List.mem_filter]
  exact fun h => of_decide_eq_true h.2 hid

/-! ## Dictionaries of players -/

theorem keys_of_players (online_players : List MSMPPlayer) :
    Dict.keys (online_players.map fun p => (p.id, p)) = online_players.map MSMPPlayer.id := by
  simp [Dict.keys, Function.comp_def]

theorem by_id_list (h : (online_players.map MSMPPlayer.id).Nodup) :
    (PlayerData.list online_players).by_id = online_players.map fun p => (p.id, p) := by
  rw [PlayerData.by_id, PlayerData.players, Dict.update_new ((keys_of_players _).symm ▸ h) (by simp [Dict.keys])]
  rfl

/-- A player of the list hides one who was seen. -/
theorem get_add_seen {seen_player_dict : Option PlayerData} (h : (online_players.map MSMPPlayer.id).Nodup) (p_id : String) :
    Dict.get (PlayerData.seen_or_empty (some (PlayerData.add_seen seen_player_dict (.list online_players)))) p_id =
      (Dict.get (online_players.map fun p => (p.id, p)) p_id).or
        (Dict.get (PlayerData.seen_or_empty seen_player_dict) p_id) := by
  have hnodup : (Dict.keys (online_players.map fun p => (p.id, p))).Nodup := (keys_of_players online_players).symm ▸ h
  rw [PlayerData.add_seen, PlayerData.seen_or_empty, by_id_list h, Dict.get_update hnodup]

theorem mem_of_get {p_id : String} (h : Dict.get (online_players.map fun p => (p.id, p)) p_id = some player) :
    player ∈ online_players ∧ player.id = p_id := by
  obtain ⟨p, hp, heq⟩ := List.mem_map.mp (Dict.mem_of_get h)
  cases heq
  exact ⟨hp, rfl⟩

end Backend
