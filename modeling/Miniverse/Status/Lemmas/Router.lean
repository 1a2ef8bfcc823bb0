import Miniverse.Status.Lemmas.Refresh

/-!
# Webhooks of the router

What is left of a webhook, and what its steps do to the memory of the controller and to the stored list.
-/

namespace Backend

open Lib

variable {json : Json PlayerData} {miniverse_id : String} {payload : WebhookPayload}

/-- The webhook names a player. -/
def WebhookPayload.Carries (payload : WebhookPayload) : Prop :=
  ∃ p_id p_name, payload.player = some ⟨some p_id, some p_name⟩

namespace MCRouterMiniverseService

/-- What is left of a webhook when the memory has changed. -/
def refreshing (p : Async (StatusWorld PlayerData) (Except PyError PlayerData)) : Async RouterWorld (Except PyError Unit) := do
  let players ← RouterWorld.onStatus p
  return players.map fun _ => ()

theorem once_refreshing (p : Async (StatusWorld PlayerData) (Except PyError PlayerData)) (w : RouterWorld) :
    (refreshing p).once w = ({ w with status := (p.once w.status).1 }, refreshing (p.once w.status).2) := by
  cases p with
  | done r => rfl
  | step f next => rfl

theorem isDone_refreshing (p : Async (StatusWorld PlayerData) (Except PyError PlayerData)) :
    (refreshing p).isDone = p.isDone := by
  cases p with
  | done r => rfl
  | step f next => rfl

variable (json miniverse_id) in
/-- The first step of a webhook with a player changes the memory and takes the list. -/
theorem once_process_webhook (h : payload.Carries) (w : RouterWorld) :
    ∃ online_players, (process_webhook json miniverse_id payload).once w =
      ({ w with online_players := online_players },
        refreshing (BaseMiniverseService.get_msmp_player_list (playersJson json) (get_data_from_source online_players)
          miniverse_id true)) := by
  obtain ⟨p_id, p_name, hplayer⟩ := h
  unfold process_webhook
  rw [hplayer]
  exact ⟨playersAfter payload ⟨p_id, p_name⟩ w.online_players, rfl⟩

variable (json miniverse_id) in
/-- A webhook without a player ends at once. -/
theorem process_webhook_done (h : ¬ payload.Carries) : ∃ r, process_webhook json miniverse_id payload = .done r := by
  unfold process_webhook
  cases hplayer : payload.player with
  | none => exact ⟨_, rfl⟩
  | some player_data =>
      obtain ⟨uuid, name⟩ := player_data
      cases uuid with
      | none => exact ⟨_, rfl⟩
      | some p_id =>
          cases name with
          | none => exact ⟨_, rfl⟩
          | some p_name => exact absurd ⟨p_id, p_name, hplayer⟩ h

/-! ## Webhooks that overlap -/

variable {ι : Type} [DecidableEq ι]

/-- A webhook has the current list and is yet to write it. -/
def HasCurrent (json : Json PlayerData) (miniverse_id : String) (c : Arrivals RouterWorld ι (Except PyError Unit)) (i : ι) :
    Prop :=
  ∃ source p, c.thread i = some (refreshing p) ∧
    BaseMiniverseService.Unwritten (playersJson json) source miniverse_id (.list c.shared.online_players) p

def webhooks (json : Json PlayerData) (miniverse_id : String) (payload : ι → WebhookPayload) (i : ι) :
    Async RouterWorld (Except PyError Unit) :=
  process_webhook json miniverse_id (payload i)

/-- A webhook that writes a list writes the current one, unless another one has that and is yet to write it. -/
def WritesCurrent (json : Json PlayerData) (miniverse_id : String) (payload : ι → WebhookPayload)
    (c : Arrivals RouterWorld ι (Except PyError Unit)) (i : ι) : Prop :=
  ∀ raw_player_list, c.program (webhooks json miniverse_id payload) i =
      refreshing (BaseMiniverseService.writeList (playersJson json) miniverse_id raw_player_list) →
    raw_player_list = some (.list c.shared.online_players) ∨ ∃ j, j ≠ i ∧ HasCurrent json miniverse_id c j

/-- Where a webhook is. -/
inductive Stage (json : Json PlayerData) (miniverse_id : String) (payload : WebhookPayload) :
    Option (Async RouterWorld (Except PyError Unit)) → Prop
  | waiting : Stage json miniverse_id payload none
  | refreshing {source : Source PlayerData} {p : Async (StatusWorld PlayerData) (Except PyError PlayerData)} :
      BaseMiniverseService.Refreshing (playersJson json) source miniverse_id p →
      Stage json miniverse_id payload (some (refreshing p))
  | ignored (r : Except PyError Unit) : ¬ payload.Carries → Stage json miniverse_id payload (some (.done r))

/-- The current list is stored, or a webhook is yet to write it, or no webhook has named a player. -/
structure Converging (json : Json PlayerData) (miniverse_id : String) (payload : ι → WebhookPayload)
    (c : Arrivals RouterWorld ι (Except PyError Unit)) : Prop where
  stages : ∀ i, Stage json miniverse_id (payload i) (c.thread i)
  current : (∃ i, HasCurrent json miniverse_id c i) ∨
    c.shared.status.redis (players_key miniverse_id) = some (json.dumps (.list c.shared.online_players)) ∨
    ∀ i, (payload i).Carries → c.thread i = none

variable {payloads : ι → WebhookPayload} {c : Arrivals RouterWorld ι (Except PyError Unit)} {i j : ι}

theorem HasCurrent.turn (h : HasCurrent json miniverse_id c j) (hne : j ≠ i)
    (hplayers : (c.turn (webhooks json miniverse_id payloads) i).shared.online_players = c.shared.online_players) :
    HasCurrent json miniverse_id (c.turn (webhooks json miniverse_id payloads) i) j := by
  obtain ⟨source, p, hp, hunwritten⟩ := h
  exact ⟨source, p, (Arrivals.turn_thread_ne hne c).trans hp, hplayers ▸ hunwritten⟩

theorem stages_turn (h : ∀ j, Stage json miniverse_id (payloads j) (c.thread j))
    (hnext : Stage json miniverse_id (payloads i)
      (some ((c.program (webhooks json miniverse_id payloads) i).once c.shared).2)) (j : ι) :
    Stage json miniverse_id (payloads j) ((c.turn (webhooks json miniverse_id payloads) i).thread j) := by
  by_cases hj : j = i
  · subst hj
    rw [Arrivals.turn_thread_self]
    exact hnext
  · rw [Arrivals.turn_thread_ne hj]
    exact h j

/-- A turn of a webhook that is ignored. -/
theorem Converging.ignored (h : Converging json miniverse_id payloads c) (hcarries : ¬ (payloads i).Carries)
    {r : Except PyError Unit} (hdone : c.program (webhooks json miniverse_id payloads) i = .done r) :
    Converging json miniverse_id payloads (c.turn (webhooks json miniverse_id payloads) i) := by
  have honce : (c.program (webhooks json miniverse_id payloads) i).once c.shared = (c.shared, .done r) := by
    rw [hdone, Async.once_done]
  have hshared : (c.turn (webhooks json miniverse_id payloads) i).shared = c.shared := congrArg Prod.fst honce
  refine ⟨stages_turn h.stages (honce ▸ .ignored r hcarries), ?_⟩
  rw [hshared]
  rcases h.current with ⟨j, hj⟩ | hstored | hnone
  · refine Or.inl ⟨j, hj.turn ?_ (by rw [hshared])⟩
    rintro rfl
    obtain ⟨source, p, hp, hunwritten⟩ := hj
    have hended : (refreshing p).isDone = true := by
      rw [← Arrivals.program_of_thread hp, hdone]
      rfl
    rw [isDone_refreshing, hunwritten.isDone] at hended
    cases hended
  · exact Or.inr (Or.inl hstored)
  · refine Or.inr (Or.inr fun j hj => ?_)
    have hne : j ≠ i := by
      rintro rfl
      exact hcarries hj
    rw [Arrivals.turn_thread_ne hne]
    exact hnone j hj

variable (json miniverse_id payloads) in
theorem turn_refreshing {p : Async (StatusWorld PlayerData) (Except PyError PlayerData)}
    (hthread : c.thread i = some (refreshing p)) :
    (c.turn (webhooks json miniverse_id payloads) i).shared = { c.shared with status := (p.once c.shared.status).1 } ∧
      (c.turn (webhooks json miniverse_id payloads) i).thread i = some (refreshing (p.once c.shared.status).2) := by
  have honce := once_refreshing p c.shared
  have hprogram : c.program (webhooks json miniverse_id payloads) i = refreshing p := Arrivals.program_of_thread hthread
  rw [← hprogram] at honce
  exact ⟨congrArg Prod.fst honce, (Arrivals.turn_thread_self i c).trans (congrArg (some ·.2) honce)⟩

/-- A webhook that has the current list keeps it, or writes it. -/
theorem HasCurrent.turn_self (h : HasCurrent json miniverse_id c i) :
    HasCurrent json miniverse_id (c.turn (webhooks json miniverse_id payloads) i) i ∨
      (c.turn (webhooks json miniverse_id payloads) i).shared.status.redis (players_key miniverse_id) =
        some (json.dumps (.list (c.turn (webhooks json miniverse_id payloads) i).shared.online_players)) := by
  obtain ⟨source, p, hp, hunwritten⟩ := h
  obtain ⟨hshared, hthread⟩ := turn_refreshing json miniverse_id payloads hp
  rw [hshared]
  rcases hunwritten.once c.shared.status with ⟨_, hnext⟩ | rfl
  · exact Or.inl ⟨source, _, hthread, hshared ▸ hnext⟩
  · exact Or.inr (BaseMiniverseService.writeList_once _ _)

/-- A turn of a webhook that refreshes the players. -/
theorem Converging.refreshed {source : Source PlayerData}
    {p : Async (StatusWorld PlayerData) (Except PyError PlayerData)} (hwrites : WritesCurrent json miniverse_id payloads c i)
    (h : Converging json miniverse_id payloads c)
    (hp : BaseMiniverseService.Refreshing (playersJson json) source miniverse_id p)
    (hthread : c.thread i = some (refreshing p)) :
    Converging json miniverse_id payloads (c.turn (webhooks json miniverse_id payloads) i) := by
  obtain ⟨hshared, hnext⟩ := turn_refreshing json miniverse_id payloads hthread
  have hplayers : (c.turn (webhooks json miniverse_id payloads) i).shared.online_players = c.shared.online_players := by
    rw [hshared]
  constructor
  · refine stages_turn h.stages ?_
    rw [← Arrivals.turn_thread_self, hnext]
    exact .refreshing (BaseMiniverseService.refreshing_once hp c.shared.status).1
  · rcases h.current with ⟨j, hj⟩ | hstored | hnone
    · by_cases hji : j = i
      · subst hji
        exact hj.turn_self.imp (fun hj => ⟨j, hj⟩) Or.inl
      · exact Or.inl ⟨j, hj.turn hji hplayers⟩
    · rcases BaseMiniverseService.refreshing_players hp c.shared.status with hsame | ⟨raw_player_list, rfl⟩
      · right
        left
        rw [hplayers, hshared]
        exact hsame.trans hstored
      · rcases hwrites raw_player_list (Arrivals.program_of_thread hthread) with rfl | ⟨j, hji, hj⟩
        · right
          left
          rw [hplayers, hshared]
          exact BaseMiniverseService.writeList_once _ _
        · exact Or.inl ⟨j, hj.turn hji hplayers⟩
    · refine Or.inr (Or.inr fun j hj => ?_)
      have hne : j ≠ i := by
        rintro rfl
        rw [hnone j hj] at hthread
        cases hthread
      rw [Arrivals.turn_thread_ne hne]
      exact hnone j hj

theorem Converging.turn (hwrites : WritesCurrent json miniverse_id payloads c i)
    (h : Converging json miniverse_id payloads c) :
    Converging json miniverse_id payloads (c.turn (webhooks json miniverse_id payloads) i) := by
  have hstage := h.stages i
  generalize hthread : c.thread i = t at hstage
  cases hstage with
  | waiting =>
      have hprogram : c.program (webhooks json miniverse_id payloads) i =
          process_webhook json miniverse_id (payloads i) := Arrivals.program_of_none hthread
      by_cases hcarries : (payloads i).Carries
      · -- the memory changes, and the webhook takes the list
        obtain ⟨online_players, honce⟩ := once_process_webhook json miniverse_id hcarries c.shared
        rw [← hprogram] at honce
        refine ⟨stages_turn h.stages (honce ▸ .refreshing .start), Or.inl ⟨i, get_data_from_source online_players, _,
          (Arrivals.turn_thread_self i c).trans (congrArg (some ·.2) honce), ?_⟩⟩
        have hshared : (c.turn (webhooks json miniverse_id payloads) i).shared = _ := congrArg Prod.fst honce
        rw [hshared]
        exact .start fun _ => rfl
      · obtain ⟨r, hr⟩ := process_webhook_done json miniverse_id hcarries
        exact h.ignored hcarries (hprogram.trans hr)
  | refreshing hp => exact h.refreshed hwrites hp hthread
  | ignored r hcarries => exact h.ignored hcarries (Arrivals.program_of_thread hthread)

end MCRouterMiniverseService

end Backend
