import Miniverse.Status.Lemmas.Views
import Miniverse.Status.Theorems

/-!
# Miniverses side by side

The calls for all miniverses share the status store and the channel, and other calls run wherever one awaits.
-/

namespace Backend

open Lib

/-- The status store, and the memories of the controllers that listen to the router. -/
structure Statuses where
  status : StatusWorld PlayerData
  online_players : String → List MSMPPlayer

namespace Statuses

def setStatus (status : StatusWorld PlayerData) (w : Statuses) : Statuses := { w with status := status }

/-- The controller of a miniverse. -/
def router (miniverse_id : String) (w : Statuses) : RouterWorld := ⟨w.status, w.online_players miniverse_id⟩

def setRouter (miniverse_id : String) (r : RouterWorld) (w : Statuses) : Statuses :=
  ⟨r.status, Function.update w.online_players miniverse_id r.online_players⟩

/-- What there is of a miniverse. -/
def view (miniverse_id : String) (w : Statuses) := (w.status.view miniverse_id, w.online_players miniverse_id)

end Statuses

/-- A call of a controller. It asks the management server at most once, so that the answer belongs to the call. -/
inductive StatusRequest where
  | player_list (answer : Except PyError (Option (List MSMPPlayer))) (refresh_cache : Bool)
  | seen_player_list
  | webhook (payload : WebhookPayload)

structure StatusArrival where
  miniverse_id : String
  request : StatusRequest

def StatusArrival.perform (json : Json PlayerData) (a : StatusArrival) : Async Statuses (Except PyError (Option PlayerData)) :=
  match a.request with
  | .player_list answer refresh_cache => do
      let players ← (BaseMiniverseService.get_msmp_player_list (playersJson json) (playerSource fun _ => answer) a.miniverse_id
        refresh_cache).zoom Statuses.status Statuses.setStatus
      return players.map some
  | .seen_player_list => do
      let players ← (BaseMiniverseService.get_msmp_seen_player_list (playersJson json) a.miniverse_id).zoom
        Statuses.status Statuses.setStatus
      return players.map some
  | .webhook payload => do
      let handled ← (MCRouterMiniverseService.process_webhook json a.miniverse_id payload).zoom
        (Statuses.router a.miniverse_id) (Statuses.setRouter a.miniverse_id)
      return handled.map fun _ => none

variable {json : Json PlayerData} {miniverse_id : String}

/-! ## Webhooks -/

/-- What there is of a miniverse at its controller. -/
def RouterWorld.view (miniverse_id : String) (r : RouterWorld) := (r.status.view miniverse_id, r.online_players)

theorem own_process_webhook (json : Json PlayerData) (miniverse_id : String) (payload : WebhookPayload) :
    (MCRouterMiniverseService.process_webhook json miniverse_id payload).Own (RouterWorld.view miniverse_id) := by
  by_cases hcarries : payload.Carries
  · obtain ⟨p_id, p_name, hplayer⟩ := hcarries
    unfold MCRouterMiniverseService.process_webhook
    rw [hplayer]
    refine Async.Own.bind ⟨fun s t hsame => ?_, fun _ => trivial⟩ fun online_players => Async.Own.bind ?_ fun _ => trivial
    · have hplayers : s.online_players = t.online_players := congrArg Prod.snd hsame
      have hstatus : s.status.view miniverse_id = t.status.view miniverse_id := congrArg Prod.fst hsame
      have hlists : playersAfter payload ⟨p_id, p_name⟩ s.online_players = playersAfter payload ⟨p_id, p_name⟩ t.online_players :=
        congrArg _ hplayers
      exact ⟨Prod.ext hstatus hlists, congrArg Async.done hlists⟩
    · refine ((own_status miniverse_id).get_msmp_player_list _ _ _).zoom (fun s t hsame => congrArg Prod.fst hsame)
        fun f s t hsame hseen => ?_
      have hplayers : s.online_players = t.online_players := congrArg Prod.snd hsame
      exact Prod.ext hseen hplayers
  · obtain ⟨r, hr⟩ := MCRouterMiniverseService.process_webhook_done json miniverse_id hcarries
    rw [hr]
    exact trivial

theorem unseen_process_webhook (json : Json PlayerData) {other : String} (hne : other ≠ miniverse_id) (payload : WebhookPayload) :
    (MCRouterMiniverseService.process_webhook json other payload).Unseen fun r => r.status.view miniverse_id := by
  by_cases hcarries : payload.Carries
  · obtain ⟨p_id, p_name, hplayer⟩ := hcarries
    unfold MCRouterMiniverseService.process_webhook
    rw [hplayer]
    refine Async.All.bind ⟨fun _ => rfl, fun _ => trivial⟩ fun online_players => Async.All.bind ?_ fun _ => trivial
    have hlist : (BaseMiniverseService.get_msmp_player_list (playersJson json)
        (MCRouterMiniverseService.get_data_from_source online_players) other true).Unseen (StatusWorld.view miniverse_id) :=
      (unseen_status hne).get_msmp_player_list _ _ _
    have hzoom : (RouterWorld.onStatus (BaseMiniverseService.get_msmp_player_list (playersJson json)
        (MCRouterMiniverseService.get_data_from_source online_players) other true)).Unseen
        fun r => r.status.view miniverse_id :=
      @Async.Unseen.zoom _ _ _ _ _ (StatusWorld.view miniverse_id) RouterWorld.status RouterWorld.setStatus _ _
        (fun f s hseen => hseen) hlist
    exact hzoom
  · obtain ⟨r, hr⟩ := MCRouterMiniverseService.process_webhook_done json other hcarries
    rw [hr]
    exact trivial

/-! ## Calls -/

theorem own_perform (a : StatusArrival) : (a.perform json).Own (Statuses.view a.miniverse_id) := by
  have hstatus {β : Type} {p : Async (StatusWorld PlayerData) β} (h : p.Own (StatusWorld.view a.miniverse_id)) :
      (p.zoom Statuses.status Statuses.setStatus).Own (Statuses.view a.miniverse_id) :=
    h.zoom (fun s t hsame => congrArg Prod.fst hsame) fun f s t hsame hseen => by
      have hplayers : s.online_players a.miniverse_id = t.online_players a.miniverse_id := congrArg Prod.snd hsame
      exact Prod.ext hseen hplayers
  unfold StatusArrival.perform
  cases a.request with
  | player_list answer refresh_cache =>
      exact Async.Own.bind (hstatus ((own_status _).get_msmp_player_list _ _ _)) fun _ => trivial
  | seen_player_list => exact Async.Own.bind (hstatus ((own_status _).get_msmp_seen_player_list _)) fun _ => trivial
  | webhook payload =>
      refine Async.Own.bind ((own_process_webhook json _ payload).zoom (fun s t hsame => hsame) fun f s t hsame hseen => ?_)
        fun _ => trivial
      have hplayers : (f (s.router a.miniverse_id)).online_players = (f (t.router a.miniverse_id)).online_players :=
        congrArg Prod.snd hseen
      have hstored := congrArg Prod.fst hseen
      refine Prod.ext hstored ?_
      show Function.update s.online_players _ _ _ = Function.update t.online_players _ _ _
      rw [Function.update_self, Function.update_self, hplayers]

theorem unseen_perform (a : StatusArrival) (hne : a.miniverse_id ≠ miniverse_id) :
    (a.perform json).Unseen (Statuses.view miniverse_id) := by
  have hstatus {β : Type} {p : Async (StatusWorld PlayerData) β} (h : p.Unseen (StatusWorld.view miniverse_id)) :
      (p.zoom Statuses.status Statuses.setStatus).Unseen (Statuses.view miniverse_id) :=
    h.zoom fun f s hseen => Prod.ext hseen rfl
  unfold StatusArrival.perform
  cases a.request with
  | player_list answer refresh_cache =>
      exact Async.All.bind (hstatus ((unseen_status hne).get_msmp_player_list _ _ _)) fun _ => trivial
  | seen_player_list => exact Async.All.bind (hstatus ((unseen_status hne).get_msmp_seen_player_list _)) fun _ => trivial
  | webhook payload =>
      refine Async.All.bind ((unseen_process_webhook json hne payload).zoom fun f s hseen => Prod.ext hseen ?_) fun _ => trivial
      exact Function.update_of_ne hne.symm _ _

/-! ## Any order of turns -/

variable {ι : Type} [DecidableEq ι]

/-- The calls after some turns. -/
def afterTurns (json : Json PlayerData) (arrival : ι → StatusArrival) (schedule : List ι) (w : Statuses) :
    Arrivals Statuses ι (Except PyError (Option PlayerData)) :=
  runs (Arrivals.take fun i => (arrival i).perform json) schedule (Arrivals.start w)

/-- For each miniverse everything is as if only its own calls had taken their turns: what is stored and remembered, what was
published, and how far each call has come with which result. -/
theorem miniverses_independent (json : Json PlayerData) (arrival : ι → StatusArrival) (schedule : List ι) (w : Statuses)
    (miniverse_id : String) :
    let own := fun i => decide ((arrival i).miniverse_id = miniverse_id)
    let all := afterTurns json arrival schedule w
    let alone := afterTurns json arrival (schedule.filter own) w
    (∀ method_name : String, '.' ∉ method_name.toList →
        all.shared.status.redis (status_key miniverse_id method_name) =
          alone.shared.status.redis (status_key miniverse_id method_name)) ∧
      all.shared.online_players miniverse_id = alone.shared.online_players miniverse_id ∧
      all.shared.status.published.filter (fun e => decide (e.miniverse_id = miniverse_id)) =
        alone.shared.status.published.filter (fun e => decide (e.miniverse_id = miniverse_id)) ∧
      ∀ i, (arrival i).miniverse_id = miniverse_id → all.thread i = alone.thread i := by
  intro own all alone
  have hseen : Arrivals.SameSeen (Statuses.view miniverse_id) own all alone := by
    refine Arrivals.runs_own (fun i hi => ?_) (fun i hi => ?_) schedule rfl
    · obtain rfl : (arrival i).miniverse_id = miniverse_id := of_decide_eq_true hi
      exact own_perform (arrival i)
    · exact unseen_perform (arrival i) (of_decide_eq_false hi)
  have hstored := congrArg (fun v => v.1.1) hseen.shared
  have hpublished := congrArg (fun v => v.1.2) hseen.shared
  exact ⟨fun method_name hname => congrFun hstored ⟨method_name, hname⟩, congrArg Prod.snd hseen.shared, hpublished,
    fun i hi => hseen.thread i (decide_eq_true hi)⟩

def sampleStatuses : Statuses := ⟨samplePlayerStatus, fun _ => []⟩

/-- A player joins one miniverse while another one is asked for its players. -/
def sampleSideBySide (first : Bool) : StatusArrival :=
  if first then ⟨"a", .webhook (sampleJoined true)⟩ else ⟨"b", .player_list (.ok (some [samplePlayer "b"])) false⟩

theorem miniverses_independent_sample :
    (afterTurns samplePlayerJson sampleSideBySide [true, false, true, false, true] sampleStatuses).thread true =
      (afterTurns samplePlayerJson sampleSideBySide ([true, false, true, false, true].filter fun i =>
        decide ((sampleSideBySide i).miniverse_id = "a")) sampleStatuses).thread true :=
  (miniverses_independent samplePlayerJson sampleSideBySide [true, false, true, false, true] sampleStatuses "a").2.2.2 true rfl

end Backend
