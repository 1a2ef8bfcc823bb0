import Miniverse.Lib.History
import Miniverse.Status.Lemmas.Alone
import Miniverse.Status.Lemmas.Online
import Miniverse.Status.Theorems

/-!
# Histories of the status store

Calls and webhooks that are handled one at a time: what is published, and what is stored, in terms of what came before.
-/

namespace Backend

open Lib

/-! ## Changes -/

inductive StatusMethod where
  | players
  | operators
  | bans
deriving DecidableEq

def StatusMethod.str : StatusMethod → String
  | players => "minecraft:players"
  | operators => "minecraft:operators"
  | bans => "minecraft:bans"

/-- A call of `ServerStatusStore.set` with publication. -/
structure StatusCall (V : Type) where
  miniverse_id : String
  method : StatusMethod
  value : Option V
deriving DecidableEq

namespace StatusCall

variable {V : Type} (json : Json V)

def perform (c : StatusCall V) : Eff (StatusWorld V) PyError Unit :=
  (ServerStatusStore.set json c.miniverse_id c.method.str c.value true).run

def event (c : StatusCall V) : ControlEvent V := ⟨c.miniverse_id, c.method.str, c.value⟩

/-- The call is about a status. -/
def about (miniverse_id : String) (method : StatusMethod) (c : StatusCall V) : Bool :=
  decide (c.miniverse_id = miniverse_id ∧ c.method = method)

end StatusCall

variable {V : Type} {json : Json V}

/-- The value of the latest call for a status. -/
def lastValue (calls : List (StatusCall V)) (miniverse_id : String) (method : StatusMethod) : Option V :=
  (latest (StatusCall.about miniverse_id method) calls).bind (·.value)

/-- Redis without a status. -/
def StatusWorld.empty : StatusWorld V := ⟨fun _ => none, [], 0⟩

/-- What the store and the channel are after some calls. -/
def afterCalls (json : Json V) (calls : List (StatusCall V)) : StatusWorld V :=
  runs (StatusCall.perform json) calls StatusWorld.empty

/-- A call publishes its value when it is a new one, and nothing else; what is read is the last value. -/
structure PublishesChanges [DecidableEq V] (json : Json V) (calls : List (StatusCall V)) : Prop where
  published : ∀ before c, before ++ [c] <+: calls → (afterCalls json (before ++ [c])).published =
    (afterCalls json before).published ++ if c.value = lastValue before c.miniverse_id c.method then [] else [c.event]
  stored : ∀ before miniverse_id method, before <+: calls →
    ((ServerStatusStore.get json miniverse_id (StatusMethod.str method)).run (afterCalls json before)).1 =
      lastValue before miniverse_id method

theorem StatusMethod.str_mem (method : StatusMethod) : method.str ∈ event_types := by
  cases method <;> decide

theorem StatusMethod.key_inj {id id' : String} {method method' : StatusMethod}
    (h : status_key id method.str = status_key id' method'.str) : id = id' ∧ method = method' := by
  have hdot (m : StatusMethod) : '.' ∉ m.str.toList := by cases m <;> decide
  obtain ⟨rfl, hname⟩ := status_key_inj (hdot method) (hdot method') h
  refine ⟨rfl, ?_⟩
  cases method <;> cases method' <;> first | rfl | exact absurd hname (by decide)

/-- The store has the last values. -/
def HasLast (json : Json V) (calls : List (StatusCall V)) (w : StatusWorld V) : Prop :=
  ∀ miniverse_id (method : StatusMethod),
    w.redis (status_key miniverse_id method.str) = (lastValue calls miniverse_id method).map json.dumps

theorem lastValue_concat (calls : List (StatusCall V)) (c : StatusCall V) (miniverse_id : String) (method : StatusMethod) :
    lastValue (calls ++ [c]) miniverse_id method =
      if c.miniverse_id = miniverse_id ∧ c.method = method then c.value else lastValue calls miniverse_id method := by
  rw [lastValue, latest_concat, StatusCall.about]
  by_cases h : c.miniverse_id = miniverse_id ∧ c.method = method
  · rw [if_pos (decide_eq_true h), if_pos h, Option.bind_some]
  · rw [if_neg (by simpa using h), if_neg h, lastValue]

theorem HasLast.perform {calls : List (StatusCall V)} {w : StatusWorld V} (h : HasLast json calls w) (c : StatusCall V) :
    HasLast json (calls ++ [c]) (c.perform json w).2 := by
  intro miniverse_id method
  have hrun := @set_run V json c.miniverse_id c.method.str c.method.str_mem c.value w
  rw [StatusCall.perform, hrun, lastValue_concat]
  by_cases habout : c.miniverse_id = miniverse_id ∧ c.method = method
  · obtain ⟨rfl, rfl⟩ := habout
    rw [if_pos (show c.miniverse_id = c.miniverse_id ∧ c.method = c.method from ⟨rfl, rfl⟩)]
    split
    · rename_i hnone
      rw [hnone.1, hnone.2]
      rfl
    · exact Function.update_self _ _ _
  · rw [if_neg habout]
    split
    · exact h miniverse_id method
    · have hkey : status_key miniverse_id method.str ≠ status_key c.miniverse_id c.method.str := fun heq =>
        habout ((StatusMethod.key_inj heq).imp Eq.symm Eq.symm)
      exact (Function.update_of_ne hkey _ _).trans (h miniverse_id method)

theorem hasLast_afterCalls (json : Json V) (calls : List (StatusCall V)) : HasLast json calls (afterCalls json calls) :=
  runs_history (fun _ _ => rfl) (fun _ c _ h => h.perform c) calls

/-- A call publishes unless it removes a value that is not there. -/
theorem published_afterCalls (json : Json V) (before : List (StatusCall V)) (c : StatusCall V) :
    (afterCalls json (before ++ [c])).published = (afterCalls json before).published ++
      if c.value = none ∧ lastValue before c.miniverse_id c.method = none then [] else [c.event] := by
  have hrun := @set_run V json c.miniverse_id c.method.str c.method.str_mem c.value (afterCalls json before)
  have hnone : (afterCalls json before).redis (status_key c.miniverse_id c.method.str) = none ↔
      lastValue before c.miniverse_id c.method = none := by
    rw [hasLast_afterCalls, Option.map_eq_none_iff]
  rw [afterCalls, runs_concat, StatusCall.perform, ← afterCalls, hrun]
  by_cases hquiet : c.value = none ∧ lastValue before c.miniverse_id c.method = none
  · rw [if_pos hquiet, if_pos ⟨hnone.mpr hquiet.2, hquiet.1⟩, List.append_nil]
  · rw [if_neg hquiet, if_neg fun h => hquiet ⟨h.2, hnone.mp h.1⟩]
    rfl

/-- Changes are what is published exactly when no call sets a value that is there already. -/
theorem publishes_changes_iff [DecidableEq V] (json : Json V) (calls : List (StatusCall V)) : PublishesChanges json calls ↔
    ∀ before c, before ++ [c] <+: calls → c.value ≠ none → c.value ≠ lastValue before c.miniverse_id c.method := by
  constructor
  · intro h before c hprefix hvalue hlast
    have hpublished := h.published before c hprefix
    rw [published_afterCalls, if_pos hlast, if_neg fun hnone => hvalue hnone.1] at hpublished
    exact absurd (List.append_cancel_left hpublished) (List.cons_ne_nil _ _)
  · intro h
    constructor
    · intro before c hprefix
      rw [published_afterCalls]
      by_cases hvalue : c.value = none
      · simp only [hvalue, true_and, eq_comm]
      · rw [if_neg fun hnone => hvalue hnone.1, if_neg (h before c hprefix hvalue)]
    · intro before miniverse_id method _
      rw [get_run, hasLast_afterCalls]
      simp [Function.comp_def, json.loads_dumps]

/-- The same players are published twice. -/
theorem publishes_unchanged : ¬ ∀ (json : Json String) (calls : List (StatusCall String)), PublishesChanges json calls := by
  intro h
  have hpublished := (h sampleJson [⟨"m", .players, some "a"⟩, ⟨"m", .players, some "a"⟩]).published [⟨"m", .players, some "a"⟩]
    ⟨"m", .players, some "a"⟩ (List.prefix_refl _)
  rw [published_afterCalls] at hpublished
  exact absurd (List.append_cancel_left hpublished) (by decide)

/-! ## Who is online -/

/-- A webhook whose player, if there is one, has an identifier and a name. -/
structure RouterEvent where
  backend : Option String
  event : Option String
  status : Option String
  player : Option MSMPPlayer

namespace RouterEvent

def payload (e : RouterEvent) : WebhookPayload :=
  ⟨e.backend, e.event, e.status, e.player.map fun p => ⟨some p.id, some p.name⟩⟩

def connects (e : RouterEvent) : Bool := decide (e.event = some "connect" ∧ e.status = some "success")

def disconnects (e : RouterEvent) : Bool := decide (e.event = some "disconnect")

def about (p_id : String) (e : RouterEvent) : Bool := e.player.any fun p => decide (p.id = p_id)

/-- The player connects successfully. -/
def joins (p_id : String) (e : RouterEvent) : Bool := e.about p_id && e.connects

/-- The player connects successfully or disconnects. -/
def moves (p_id : String) (e : RouterEvent) : Bool := e.about p_id && (e.connects || e.disconnects)

def perform (json : Json PlayerData) (miniverse_id : String) (e : RouterEvent) : Eff RouterWorld PyError Unit :=
  (MCRouterMiniverseService.process_webhook json miniverse_id e.payload).run

theorem connects_iff {e : RouterEvent} :
    e.connects = true ↔ e.payload.event = some "connect" ∧ e.payload.status = some "success" := decide_eq_true_iff

theorem disconnects_iff {e : RouterEvent} : e.disconnects = true ↔ e.payload.event = some "disconnect" := decide_eq_true_iff

theorem joins_moves {p_id : String} (e : RouterEvent) (h : e.joins p_id = true) : e.moves p_id = true := by
  rw [joins, Bool.and_eq_true] at h
  rw [moves, h.1, h.2]
  rfl

end RouterEvent

/-- The dictionary of the players who were seen. -/
def StatusWorld.seen (json : Json PlayerData) (miniverse_id : String) (w : StatusWorld PlayerData) : Dict String MSMPPlayer :=
  PlayerData.seen_or_empty ((w.redis (seen_key miniverse_id)).map json.loads)

/-- What a new controller remembers, and what is stored, after some webhooks. -/
def afterEvents (json : Json PlayerData) (miniverse_id : String) (status : StatusWorld PlayerData) (events : List RouterEvent) :
    RouterWorld :=
  runs (RouterEvent.perform json miniverse_id) events ⟨status, []⟩

/-- The memory, the list and the dictionary are what the webhooks say. -/
structure TracksPlayers (json : Json PlayerData) (miniverse_id : String) (status : StatusWorld PlayerData)
    (events : List RouterEvent) (w : RouterWorld) : Prop where
  unique : (w.online_players.map MSMPPlayer.id).Nodup
  online : ∀ player, player ∈ w.online_players ↔
    ∃ e, latest (RouterEvent.moves player.id) events = some e ∧ e.connects = true ∧ e.player = some player
  listed : (∃ e ∈ events, e.player ≠ none) →
    ((ServerStatusStore.get json miniverse_id "minecraft:players").run w.status).1 = some (.list w.online_players)
  seen : ∀ p_id, Dict.get (w.status.seen json miniverse_id) p_id =
    ((latest (RouterEvent.joins p_id) events).bind (·.player)).or (Dict.get (status.seen json miniverse_id) p_id)

namespace TracksPlayers

variable {json : Json PlayerData} {miniverse_id : String} {status : StatusWorld PlayerData} {events : List RouterEvent}
  {w : RouterWorld}

theorem quiet (h : TracksPlayers json miniverse_id status events w) {e : RouterEvent} (he : e.player = none) :
    TracksPlayers json miniverse_id status (events ++ [e]) (e.perform json miniverse_id w).2 := by
  have hsame : (e.perform json miniverse_id w).2 = w := by
    rw [RouterEvent.perform, MCRouterMiniverseService.process_webhook, RouterEvent.payload, he]
    rfl
  have habout (p_id : String) : e.about p_id = false := by rw [RouterEvent.about, he]; rfl
  rw [hsame]
  refine ⟨h.unique, fun player => ?_, ?_, fun p_id => ?_⟩
  · rw [latest_concat, RouterEvent.moves, habout, h.online]
    rfl
  · rintro ⟨t, ht, hplayer⟩
    rcases List.mem_append.mp ht with ht | ht
    · exact h.listed ⟨t, ht, hplayer⟩
    · exact absurd (List.mem_singleton.mp ht ▸ he) hplayer
  · rw [latest_concat, RouterEvent.joins, habout, h.seen]
    rfl

theorem online_players (h : TracksPlayers json miniverse_id status events w) {e : RouterEvent} {p : MSMPPlayer}
    (he : e.player = some p) (player : MSMPPlayer) : player ∈ playersAfter e.payload p w.online_players ↔
      ∃ t, latest (RouterEvent.moves player.id) (events ++ [e]) = some t ∧ t.connects = true ∧ t.player = some player := by
  have habout : e.about player.id = decide (p.id = player.id) := by rw [RouterEvent.about, he]; rfl
  rw [latest_concat, RouterEvent.moves, habout]
  by_cases hid : player.id = p.id
  · rw [decide_eq_true hid.symm, Bool.true_and]
    by_cases hconnects : e.connects = true
    · rw [mem_playersAfter_connect hid (RouterEvent.connects_iff.mp hconnects), if_pos (by rw [hconnects]; rfl)]
      constructor
      · rintro rfl
        exact ⟨e, rfl, hconnects, he⟩
      · rintro ⟨t, ht, _, hplayer⟩
        cases ht
        exact Option.some.inj (hplayer.symm.trans he)
    · by_cases hdisconnects : e.disconnects = true
      · rw [if_pos (by rw [hdisconnects, Bool.or_true])]
        refine iff_of_false (not_mem_playersAfter_disconnect hid (RouterEvent.disconnects_iff.mp hdisconnects)) ?_
        rintro ⟨t, ht, hconnected, _⟩
        cases ht
        exact hconnects hconnected
      · have hsame : playersAfter e.payload p w.online_players = w.online_players := by
          rw [playersAfter, if_neg (RouterEvent.connects_iff.not.mp hconnects), if_neg (RouterEvent.disconnects_iff.not.mp hdisconnects)]
        rw [hsame, if_neg (by simp [hconnects, hdisconnects]), h.online]
  · rw [mem_playersAfter_other hid, decide_eq_false fun heq => hid heq.symm, h.online]
    rfl

theorem carried (h : TracksPlayers json miniverse_id status events w) {e : RouterEvent} {p : MSMPPlayer}
    (he : e.player = some p) : TracksPlayers json miniverse_id status (events ++ [e]) (e.perform json miniverse_id w).2 := by
  have hplayer : e.payload.player = some ⟨some p.id, some p.name⟩ := by rw [RouterEvent.payload, he]; rfl
  obtain ⟨status', hrun, hplayers, hseen⟩ := @MCRouterMiniverseService.process_webhook_run miniverse_id json e.payload p.id p.name
    hplayer w
  have hunique := @nodup_playersAfter w.online_players p e.payload h.unique
  have honline := h.online_players he
  rw [RouterEvent.perform, hrun]
  refine ⟨hunique, honline, fun _ => ?_, fun p_id => ?_⟩
  · have hstored : status'.redis (status_key miniverse_id "minecraft:players") = _ := hplayers
    rw [get_run, hstored, Option.map_some, json.loads_dumps]
  · rw [StatusWorld.seen, hseen, Option.map_some, json.loads_dumps, get_add_seen hunique]
    cases hget : Dict.get ((playersAfter e.payload p w.online_players).map fun p => (p.id, p)) p_id with
    | some player =>
        -- the latest move of a player who is online is the latest that joins
        obtain ⟨hmem, rfl⟩ := mem_of_get hget
        obtain ⟨t, ht, hconnects, hcarries⟩ := (honline player).mp hmem
        have hjoins : t.joins player.id = true := by
          rw [RouterEvent.joins, RouterEvent.about, hcarries, hconnects]
          simp
        rw [latest_narrow RouterEvent.joins_moves ht hjoins, Option.bind_some, hcarries]
        rfl
    | none =>
        have hjoins : e.joins p_id = false := by
          rw [Bool.eq_false_iff]
          intro hjoins
          obtain ⟨habout, hconnects⟩ := Bool.and_eq_true_iff.mp hjoins
          rw [RouterEvent.about, he] at habout
          have hid : p.id = p_id := of_decide_eq_true habout
          refine Dict.get_eq_none.mp hget ?_
          rw [keys_of_players]
          exact List.mem_map.mpr ⟨p, (mem_playersAfter_connect rfl (RouterEvent.connects_iff.mp hconnects)).mpr rfl, hid⟩
        rw [Option.none_or, latest_concat, hjoins]
        exact h.seen p_id

end TracksPlayers

/-- Webhooks that are handled one at a time track who is online, who is listed and who was seen. -/
theorem webhooks_track_players (json : Json PlayerData) (miniverse_id : String) (status : StatusWorld PlayerData)
    (events : List RouterEvent) :
    TracksPlayers json miniverse_id status events (afterEvents json miniverse_id status events) := by
  have hstart : TracksPlayers json miniverse_id status [] ⟨status, []⟩ := by
    refine ⟨List.nodup_nil, fun player => ?_, ?_, fun _ => rfl⟩
    · exact iff_of_false List.not_mem_nil fun ⟨_, ht, _⟩ => Option.some_ne_none _ ht.symm
    · rintro ⟨_, ht, _⟩
      exact absurd ht List.not_mem_nil
  refine runs_history hstart (fun events e w h => ?_) events
  cases he : e.player with
  | none => exact h.quiet he
  | some p => exact h.carried he

end Backend
