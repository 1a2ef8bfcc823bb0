import Miniverse.Status.Keyspace
import Miniverse.Status.Lemmas.Router

/-!
# Theorems about the status of the servers
-/

namespace Backend

open Lib

variable {V ι : Type} [DecidableEq ι] {json : Json V} {miniverse_id method_name : String} {value : ι → Option V}

/-! ## Concurrent calls -/

/-- Calls on one status, none of which has begun. -/
def setCalls (json : Json V) (miniverse_id method_name : String) (value : ι → Option V) (w : StatusWorld V) :
    Threads (StatusWorld V) ι (Except PyError Unit) where
  shared := w
  thread i := ServerStatusStore.set json miniverse_id method_name (value i) true

/-- The call has written and has not published yet. -/
def Pending (miniverse_id method_name : String) (value : ι → Option V)
    (c : Threads (StatusWorld V) ι (Except PyError Unit)) (i : ι) : Prop :=
  c.thread i = ServerStatusStore.publishing miniverse_id method_name (value i)

/-- A call does not publish an overwritten value, unless another call has written and is to publish. -/
def PublishesStored (json : Json V) (miniverse_id method_name : String) (value : ι → Option V)
    (c : Threads (StatusWorld V) ι (Except PyError Unit)) (i : ι) : Prop :=
  Pending miniverse_id method_name value c i →
    c.shared.redis (status_key miniverse_id method_name) = (value i).map json.dumps ∨
      ∃ j, j ≠ i ∧ Pending miniverse_id method_name value c j

/-- The value that was published last. -/
def StatusWorld.lastPublished (w : StatusWorld V) (miniverse_id method_name : String) : Option (Option V) :=
  ((w.published.filter fun e => decide (e.miniverse_id = miniverse_id ∧ e.type = method_name)).getLast?).map
    ControlEvent.data

theorem lastPublished_append (w : StatusWorld V) (data : Option V) :
    StatusWorld.lastPublished { w with published := w.published ++ [⟨miniverse_id, method_name, data⟩] } miniverse_id
      method_name = some data := by
  simp [StatusWorld.lastPublished, List.filter_append]

/-- Every call is somewhere on its way; what was published last is stored, or a call is to publish, or none has written. -/
structure Followed (json : Json V) (miniverse_id method_name : String) (value : ι → Option V) (before : StatusWorld V)
    (c : Threads (StatusWorld V) ι (Except PyError Unit)) : Prop where
  stages : ∀ i, ServerStatusStore.Stage json miniverse_id method_name (value i) (c.thread i)
  last : (∃ i, Pending miniverse_id method_name value c i) ∨ c.shared = before ∨
    ∃ data, c.shared.lastPublished miniverse_id method_name = some data ∧
      c.shared.redis (status_key miniverse_id method_name) = data.map json.dumps

theorem Followed.turn (hmethod : method_name ∈ event_types) {before : StatusWorld V}
    {c : Threads (StatusWorld V) ι (Except PyError Unit)} {i : ι}
    (hstored : PublishesStored json miniverse_id method_name value c i)
    (h : Followed json miniverse_id method_name value before c) :
    Followed json miniverse_id method_name value before (c.turn i) := by
  have hother {j : ι} (hne : j ≠ i) (hj : Pending miniverse_id method_name value c j) :
      Pending miniverse_id method_name value (c.turn i) j := (Threads.turn_thread_ne hne c).trans hj
  have hstage := h.stages i
  refine ⟨fun j => ?_, ?_⟩
  · by_cases hj : j = i
    · subst hj
      rw [Threads.turn_thread_self]
      exact ServerStatusStore.stage_next hmethod hstage c.shared
    · rw [Threads.turn_thread_ne hj]
      exact h.stages j
  · rcases ServerStatusStore.stage_once hstage c.shared with hsame | hwrite | hpublish
    · -- a read, or the end: a call that is to publish is another one
      have hshared : (c.turn i).shared = c.shared := hsame
      rw [hshared]
      rcases h.last with ⟨j, hj⟩ | hlast
      · refine Or.inl ⟨j, hother ?_ hj⟩
        rintro rfl
        exact ServerStatusStore.ne_publishing hmethod (congrArg StatusWorld.published hsame) _ hj
      · exact Or.inr hlast
    · refine Or.inl ⟨i, ?_⟩
      rw [Pending, Threads.turn_thread_self, hwrite]
    · have hshared : (c.turn i).shared =
          { c.shared with published := c.shared.published ++ [⟨miniverse_id, method_name, value i⟩] } := by
        show ((c.thread i).once c.shared).1 = _
        rw [hpublish, ServerStatusStore.once_publishing hmethod]
      rcases hstored hpublish with heq | ⟨j, hne, hj⟩
      · refine Or.inr (Or.inr ⟨value i, ?_, ?_⟩)
        · rw [hshared, lastPublished_append]
        · rw [hshared]
          exact heq
      · exact Or.inl ⟨j, hother hne hj⟩

/-- When all calls have ended and something was stored or published, the value that was published last is stored. -/
theorem last_published_stored (hmethod : method_name ∈ event_types) {w : StatusWorld V} {schedule : List ι}
    (hmeets : Meets Threads.take (PublishesStored json miniverse_id method_name value) schedule
      (setCalls json miniverse_id method_name value w))
    (hended : (runs Threads.take schedule (setCalls json miniverse_id method_name value w)).Ended)
    (hchanged : (runs Threads.take schedule (setCalls json miniverse_id method_name value w)).shared ≠ w) :
    ∃ data, (runs Threads.take schedule (setCalls json miniverse_id method_name value w)).shared.lastPublished miniverse_id
        method_name = some data ∧
      (runs Threads.take schedule (setCalls json miniverse_id method_name value w)).shared.redis
        (status_key miniverse_id method_name) = data.map json.dumps := by
  have hinv := Threads.turns_invariant (I := Followed json miniverse_id method_name value w)
    (fun _ _ hstored h => h.turn hmethod hstored) hmeets ⟨fun _ => .start, Or.inr (Or.inl rfl)⟩
  rcases hinv.last with ⟨i, hi⟩ | hbefore | hlast
  · have hdone := hended i
    rw [hi, ServerStatusStore.isDone_publishing hmethod] at hdone
    cases hdone
  · exact absurd hbefore hchanged
  · exact hlast

/-- Texts as values. -/
def sampleJson : Json String := ⟨id, id, fun _ => rfl⟩

def sampleValue : Bool → Option String
  | true => some "a"
  | false => some "b"

def sampleStatus : StatusWorld String := ⟨fun _ => none, [], 0⟩

/-- Two calls that set the players, in an order of turns. -/
def samplePlayers (schedule : List Bool) : Threads (StatusWorld String) Bool (Except PyError Unit) :=
  runs Threads.take schedule (setCalls sampleJson "m" "minecraft:players" sampleValue sampleStatus)

/-- Both calls read before one writes, and the value that was overwritten is published first. -/
def sampleCrossed : List Bool := [true, false, true, false, true, false]

theorem last_published_stored_sample :
    ∃ data, (samplePlayers sampleCrossed).shared.lastPublished "m" "minecraft:players" = some data ∧
      (samplePlayers sampleCrossed).shared.redis (status_key "m" "minecraft:players") = data.map sampleJson.dumps := by
  have hmethod : "minecraft:players" ∈ event_types := by decide
  have hreads {c : Threads (StatusWorld String) Bool (Except PyError Unit)} {i : Bool}
      (h : ((c.thread i).once c.shared).1.published = c.shared.published) :
      PublishesStored sampleJson "m" "minecraft:players" sampleValue c i :=
    fun hpending => absurd hpending (ServerStatusStore.ne_publishing hmethod h _)
  refine last_published_stored hmethod ⟨hreads rfl, hreads rfl, hreads rfl, hreads rfl,
    fun _ => Or.inr ⟨false, by decide, rfl⟩, fun _ => Or.inl rfl, trivial⟩ ?_ fun hsame => ?_
  · rintro (_ | _) <;> rfl
  · have hpublished := congrArg StatusWorld.published hsame
    revert hpublished
    decide

/-- Two calls write in one order and publish in the other. -/
theorem last_published_overwritten :
    ¬ ∀ (json : Json String) (miniverse_id method_name : String) (value : Bool → Option String) (w : StatusWorld String)
      (schedule : List Bool), method_name ∈ event_types →
      (runs Threads.take schedule (setCalls json miniverse_id method_name value w)).Ended →
      (runs Threads.take schedule (setCalls json miniverse_id method_name value w)).shared.redis
        (status_key miniverse_id method_name) ≠ w.redis (status_key miniverse_id method_name) →
      ∃ data, (runs Threads.take schedule (setCalls json miniverse_id method_name value w)).shared.lastPublished
          miniverse_id method_name = some data ∧
        (runs Threads.take schedule (setCalls json miniverse_id method_name value w)).shared.redis
          (status_key miniverse_id method_name) = data.map json.dumps := by
  intro h
  obtain ⟨data, hlast, hstored⟩ := h sampleJson "m" "minecraft:players" sampleValue sampleStatus
    [true, false, true, false, false, true] (by decide) (by rintro (_ | _) <;> rfl) (by decide)
  have hdata : (samplePlayers [true, false, true, false, false, true]).shared.lastPublished "m" "minecraft:players" =
      some (some "a") := by decide
  obtain rfl : some "a" = data := Option.some.inj (hdata.symm.trans hlast)
  revert hstored
  decide

/-! ## Players seen -/

/-- The identifiers of the players seen so far. -/
def StatusWorld.seen_ids (json : Json PlayerData) (miniverse_id : String) (w : StatusWorld PlayerData) : List String :=
  (PlayerData.seen_or_empty ((w.redis (seen_key miniverse_id)).map json.loads)).keys

def PlayerData.ids (raw_player_list : PlayerData) : List String := raw_player_list.players.map MSMPPlayer.id

/-- Refreshing calls for one miniverse, each with its own source. -/
def refreshCalls (json : Json PlayerData) (miniverse_id : String)
    (source : ι → Nat → Except PyError (Option (List MSMPPlayer))) (i : ι) :
    Async (StatusWorld PlayerData) (Except PyError PlayerData) :=
  BaseMiniverseService.get_msmp_player_list (playersJson json) (playerSource (source i)) miniverse_id true

/-- A call that writes the dictionary has read, or has in its list, everyone who is in the stored one. -/
def WritesAllSeen (json : Json PlayerData) (miniverse_id : String)
    (source : ι → Nat → Except PyError (Option (List MSMPPlayer)))
    (c : Arrivals (StatusWorld PlayerData) ι (Except PyError PlayerData)) (i : ι) : Prop :=
  ∀ raw_player_list seen_player_dict, c.program (refreshCalls json miniverse_id source) i =
      BaseMiniverseService.storeSeen (playersJson json) miniverse_id raw_player_list seen_player_dict →
    ∀ id ∈ c.shared.seen_ids json miniverse_id,
      id ∈ (PlayerData.seen_or_empty seen_player_dict).keys ∨ id ∈ raw_player_list.ids

theorem mem_keys_by_id {raw_player_list : PlayerData} {id : String} :
    id ∈ raw_player_list.by_id.keys ↔ id ∈ raw_player_list.ids := by
  rw [PlayerData.by_id, Dict.mem_keys_update]
  simp [Dict.keys, PlayerData.ids]

/-- What is seen after the dictionary was written. -/
theorem mem_seen_ids_of_stored {json : Json PlayerData} {w : StatusWorld PlayerData} {raw_player_list : PlayerData}
    {seen_player_dict : Option PlayerData}
    (h : w.redis (seen_key miniverse_id) = some (json.dumps (PlayerData.add_seen seen_player_dict raw_player_list)))
    {id : String} : id ∈ w.seen_ids json miniverse_id ↔
      id ∈ (PlayerData.seen_or_empty seen_player_dict).keys ∨ id ∈ raw_player_list.ids := by
  rw [StatusWorld.seen_ids, h, Option.map_some, json.loads_dumps, PlayerData.add_seen, PlayerData.seen_or_empty,
    Dict.mem_keys_update, mem_keys_by_id]

/-- Nobody is forgotten, and every call that has ended with a list has left its players behind. -/
structure Remembered (json : Json PlayerData) (miniverse_id : String)
    (source : ι → Nat → Except PyError (Option (List MSMPPlayer))) (before : List String)
    (c : Arrivals (StatusWorld PlayerData) ι (Except PyError PlayerData)) : Prop where
  stages : ∀ i, BaseMiniverseService.Refreshing (playersJson json) (playerSource (source i)) miniverse_id
    (c.program (refreshCalls json miniverse_id source) i)
  kept : ∀ id ∈ before, id ∈ c.shared.seen_ids json miniverse_id
  listed : ∀ i raw_player_list, c.program (refreshCalls json miniverse_id source) i = .done (.ok raw_player_list) →
    ∀ id ∈ raw_player_list.ids, id ∈ c.shared.seen_ids json miniverse_id

theorem Remembered.turn {json : Json PlayerData} {source : ι → Nat → Except PyError (Option (List MSMPPlayer))}
    {before : List String} {c : Arrivals (StatusWorld PlayerData) ι (Except PyError PlayerData)} {i : ι}
    (hwrites : WritesAllSeen json miniverse_id source c i) (h : Remembered json miniverse_id source before c) :
    Remembered json miniverse_id source before (c.turn (refreshCalls json miniverse_id source) i) := by
  obtain ⟨hnext, hstep⟩ := BaseMiniverseService.refreshing_once (h.stages i) c.shared
  have hgrows : ∀ id ∈ c.shared.seen_ids json miniverse_id,
      id ∈ (c.turn (refreshCalls json miniverse_id source) i).shared.seen_ids json miniverse_id := by
    rcases hstep with ⟨hsame, _⟩ | ⟨raw_player_list, seen_player_dict, hp, hstored, _⟩
    · intro id hid
      rw [StatusWorld.seen_ids] at hid ⊢
      exact hsame.symm ▸ hid
    · exact fun id hid => (mem_seen_ids_of_stored hstored).mpr (hwrites _ _ hp id hid)
  refine ⟨Arrivals.forall_turn h.stages hnext, fun id hid => hgrows id (h.kept id hid), fun j raw_player_list hj id hid => ?_⟩
  by_cases hji : j = i
  · subst hji
    rw [Arrivals.program_turn_self] at hj
    rcases hstep with ⟨_, hended⟩ | ⟨raw_player_list', seen_player_dict, _, hstored, hdone⟩
    · rcases hended raw_player_list hj with hbefore | rfl
      · exact hgrows id (h.listed j raw_player_list hbefore id hid)
      · cases hid
    · obtain rfl : raw_player_list' = raw_player_list := by
        rw [hdone] at hj
        cases hj
        rfl
      exact (mem_seen_ids_of_stored hstored).mpr (Or.inr hid)
  · rw [Arrivals.program_turn_ne hji] at hj
    exact hgrows id (h.listed j raw_player_list hj id hid)

/-- Nobody who was seen before, or is in a list that a call obtained, is missing when the calls have ended. -/
theorem seen_players_kept {json : Json PlayerData} {source : ι → Nat → Except PyError (Option (List MSMPPlayer))}
    {w : StatusWorld PlayerData} {schedule : List ι}
    (hmeets : Meets (Arrivals.take (refreshCalls json miniverse_id source)) (WritesAllSeen json miniverse_id source) schedule
      (Arrivals.start w))
    (hended : (runs (Arrivals.take (refreshCalls json miniverse_id source)) schedule (Arrivals.start w)).Ended) :
    (∀ id ∈ w.seen_ids json miniverse_id, id ∈ (runs (Arrivals.take (refreshCalls json miniverse_id source)) schedule
      (Arrivals.start w)).shared.seen_ids json miniverse_id) ∧
      ∀ i p, (runs (Arrivals.take (refreshCalls json miniverse_id source)) schedule (Arrivals.start w)).thread i = some p →
        (∃ tick e, source i tick = .error e ∧ p = .done (.error e)) ∨
          ∃ raw_player_list, p = .done (.ok raw_player_list) ∧ ∀ id ∈ raw_player_list.ids,
            id ∈ (runs (Arrivals.take (refreshCalls json miniverse_id source)) schedule
              (Arrivals.start w)).shared.seen_ids json miniverse_id := by
  have hstart : Remembered json miniverse_id source (w.seen_ids json miniverse_id) (Arrivals.start w) :=
    { stages := fun _ => .start
      kept := fun _ hid => hid
      listed := fun i raw_player_list hdone => by
        have hstep : refreshCalls json miniverse_id source i = .done (.ok raw_player_list) := hdone
        rw [refreshCalls, BaseMiniverseService.get_msmp_player_list_eq] at hstep
        cases hstep }
  have hinv := runs_invariant (I := Remembered json miniverse_id source (w.seen_ids json miniverse_id))
    (fun _ _ hwrites h => h.turn hwrites) hmeets hstart
  refine ⟨hinv.kept, fun i p hp => ?_⟩
  have hstage := hinv.stages i
  have hlisted := hinv.listed i
  rw [Arrivals.program_of_thread hp] at hstage hlisted
  have hdone := hended i p hp
  cases p with
  | step f next => cases hdone
  | done r =>
      cases r with
      | ok raw_player_list => exact Or.inr ⟨raw_player_list, rfl, hlisted raw_player_list rfl⟩
      | error e =>
          obtain ⟨tick, hsource⟩ := hstage.error rfl
          refine Or.inl ⟨tick, e, ?_, rfl⟩
          cases hanswer : source i tick with
          | error e' =>
              rw [playerSource, hanswer] at hsource
              cases hsource
              rfl
          | ok raw_player_list =>
              rw [playerSource, hanswer] at hsource
              cases hsource

theorem writesAllSeen_of_kept {json : Json PlayerData} {source : ι → Nat → Except PyError (Option (List MSMPPlayer))}
    {c : Arrivals (StatusWorld PlayerData) ι (Except PyError PlayerData)} {i : ι}
    (h : ∀ id ∈ c.shared.seen_ids json miniverse_id,
      id ∈ (c.turn (refreshCalls json miniverse_id source) i).shared.seen_ids json miniverse_id) :
    WritesAllSeen json miniverse_id source c i := by
  intro raw_player_list seen_player_dict hp id hid
  refine (mem_seen_ids_of_stored ?_).mp (h id hid)
  show ((c.program _ i).once c.shared).1.redis _ = _
  rw [hp]
  exact Function.update_self _ _ _

/-- A call that writes the dictionary does so while no other call is between its read and its write. -/
def WritesAlone (json : Json PlayerData) (miniverse_id : String)
    (source : ι → Nat → Except PyError (Option (List MSMPPlayer)))
    (c : Arrivals (StatusWorld PlayerData) ι (Except PyError PlayerData)) (i : ι) : Prop :=
  ∀ raw_player_list seen_player_dict, c.program (refreshCalls json miniverse_id source) i =
      BaseMiniverseService.storeSeen (playersJson json) miniverse_id raw_player_list seen_player_dict →
    ∀ j, j ≠ i → BaseMiniverseService.OffDictionary (playersJson json) (playerSource (source j)) miniverse_id
      (c.program (refreshCalls json miniverse_id source) j)

/-- Every call that is between its read and its write has read what is stored. -/
def HaveRead (json : Json PlayerData) (miniverse_id : String)
    (source : ι → Nat → Except PyError (Option (List MSMPPlayer)))
    (c : Arrivals (StatusWorld PlayerData) ι (Except PyError PlayerData)) : Prop :=
  ∀ i, BaseMiniverseService.UpToDate (playersJson json) (playerSource (source i)) miniverse_id
    ((c.shared.redis (seen_key miniverse_id)).map json.loads) (c.program (refreshCalls json miniverse_id source) i)

section Alone

variable {json : Json PlayerData} {source : ι → Nat → Except PyError (Option (List MSMPPlayer))}
  {c : Arrivals (StatusWorld PlayerData) ι (Except PyError PlayerData)} {i : ι}

/-- A turn that leaves the dictionary alone. -/
theorem HaveRead.of_same (h : HaveRead json miniverse_id source c)
    (hsame : (c.turn (refreshCalls json miniverse_id source) i).shared.redis (seen_key miniverse_id) =
      c.shared.redis (seen_key miniverse_id))
    (hnext : BaseMiniverseService.UpToDate (playersJson json) (playerSource (source i)) miniverse_id
      ((c.shared.redis (seen_key miniverse_id)).map json.loads)
      ((c.program (refreshCalls json miniverse_id source) i).once c.shared).2) :
    HaveRead json miniverse_id source (c.turn (refreshCalls json miniverse_id source) i) := by
  unfold HaveRead
  rw [hsame]
  exact Arrivals.forall_turn (P := fun i p => BaseMiniverseService.UpToDate (playersJson json) (playerSource (source i))
    miniverse_id ((c.shared.redis (seen_key miniverse_id)).map json.loads) p) h hnext

/-- A turn leaves the dictionary alone, or it writes with the one that is stored. -/
theorem HaveRead.turn_cases (h : HaveRead json miniverse_id source c) (i : ι) :
    ((c.turn (refreshCalls json miniverse_id source) i).shared.redis (seen_key miniverse_id) =
        c.shared.redis (seen_key miniverse_id) ∧
      HaveRead json miniverse_id source (c.turn (refreshCalls json miniverse_id source) i)) ∨
    ∃ raw_player_list, c.program (refreshCalls json miniverse_id source) i = BaseMiniverseService.storeSeen
      (playersJson json) miniverse_id raw_player_list ((c.shared.redis (seen_key miniverse_id)).map json.loads) := by
  have hi := h i
  generalize hp : c.program (refreshCalls json miniverse_id source) i = p at hi
  have hshared : (c.turn (refreshCalls json miniverse_id source) i).shared = (p.once c.shared).1 :=
    congrArg (fun p => (p.once c.shared).1) hp
  cases hi with
  | off hoff =>
      obtain ⟨hsame, hnext⟩ := hoff.once c.shared
      rw [← hshared] at hsame
      exact Or.inl ⟨hsame, h.of_same hsame (hp ▸ hnext)⟩
  | checking raw_player_list =>
      have hsame : (c.turn (refreshCalls json miniverse_id source) i).shared = c.shared := hshared
      exact Or.inl ⟨by rw [hsame], h.of_same (by rw [hsame]) (hp ▸ .writing raw_player_list)⟩
  | writing raw_player_list => exact Or.inr ⟨raw_player_list, rfl⟩

theorem HaveRead.turn (halone : WritesAlone json miniverse_id source c i) (h : HaveRead json miniverse_id source c) :
    HaveRead json miniverse_id source (c.turn (refreshCalls json miniverse_id source) i) := by
  rcases h.turn_cases i with ⟨_, hnext⟩ | ⟨raw_player_list, hp⟩
  · exact hnext
  · intro j
    by_cases hj : j = i
    · subst hj
      rw [Arrivals.program_turn_self, hp]
      exact .off (.done _)
    · rw [Arrivals.program_turn_ne hj]
      exact .off (halone raw_player_list _ hp j hj)

/-- A call that has read what is stored forgets nobody. -/
theorem HaveRead.writesAllSeen (h : HaveRead json miniverse_id source c) (i : ι) :
    WritesAllSeen json miniverse_id source c i := by
  refine writesAllSeen_of_kept fun id hid => ?_
  rcases h.turn_cases i with ⟨hsame, _⟩ | ⟨raw_player_list, hp⟩
  · rw [StatusWorld.seen_ids] at hid ⊢
    rwa [hsame]
  · have hstored : (c.turn (refreshCalls json miniverse_id source) i).shared.redis (seen_key miniverse_id) =
        some (json.dumps (PlayerData.add_seen ((c.shared.redis (seen_key miniverse_id)).map json.loads) raw_player_list)) := by
      show ((c.program _ i).once c.shared).1.redis _ = _
      rw [hp]
      exact Function.update_self _ _ _
    exact (mem_seen_ids_of_stored hstored).mpr (Or.inl hid)

/-- Where no call writes the dictionary between another one's read and its write, every call writes all who were seen. -/
theorem writesAllSeen_of_alone {w : StatusWorld PlayerData} {schedule : List ι}
    (hmeets : Meets (Arrivals.take (refreshCalls json miniverse_id source)) (WritesAlone json miniverse_id source) schedule
      (Arrivals.start w)) :
    Meets (Arrivals.take (refreshCalls json miniverse_id source)) (WritesAllSeen json miniverse_id source) schedule
      (Arrivals.start w) :=
  (hmeets.always (I := HaveRead json miniverse_id source) (fun _ _ halone h => h.turn halone) fun _ => .off .start).mono
    fun _ i h => h.2.writesAllSeen i

end Alone

/-! ## Texts for players -/

/-- Each text with a mark before every character, and a mark at its end. -/
def writeTexts : List (List Char) → List Char
  | [] => []
  | text :: texts => text.flatMap (fun c => ['+', c]) ++ '.' :: writeTexts texts

def readTexts (read : List Char) : List Char → List (List Char)
  | '+' :: c :: cs => readTexts (read ++ [c]) cs
  | '.' :: cs => read :: readTexts [] cs
  | _ => []

theorem readTexts_write (texts : List (List Char)) : readTexts [] (writeTexts texts) = texts := by
  induction texts with
  | nil => rfl
  | cons text texts ih =>
      have hread (read cs : List Char) :
          readTexts read (cs.flatMap (fun c => ['+', c]) ++ '.' :: writeTexts texts) = (read ++ cs) :: texts := by
        induction cs generalizing read with
        | nil =>
            rw [List.append_nil]
            exact congrArg (read :: ·) ih
        | cons c cs ihc =>
            refine (ihc (read ++ [c])).trans ?_
            rw [List.append_assoc, List.singleton_append]
      exact hread [] text

def entriesOf : List (List Char) → Dict String MSMPPlayer
  | key :: id :: name :: texts => (String.ofList key, ⟨String.ofList id, String.ofList name⟩) :: entriesOf texts
  | _ => []

def textsOf (entries : Dict String MSMPPlayer) : List (List Char) :=
  entries.flatMap fun e => [e.1.toList, e.2.id.toList, e.2.name.toList]

theorem entriesOf_textsOf (entries : Dict String MSMPPlayer) : entriesOf (textsOf entries) = entries := by
  induction entries with
  | nil => rfl
  | cons e entries ih =>
      show (String.ofList e.1.toList, MSMPPlayer.mk (String.ofList e.2.id.toList) (String.ofList e.2.name.toList)) ::
        entriesOf (textsOf entries) = _
      rw [ih, String.ofList_toList, String.ofList_toList, String.ofList_toList]

def samplePlayerJson : Json PlayerData where
  dumps
    | .list players => String.ofList ('l' :: writeTexts (textsOf (players.map fun p => (p.id, p))))
    | .dict players => String.ofList ('d' :: writeTexts (textsOf players))
  loads text := match text.toList with
    | 'l' :: cs => .list (entriesOf (readTexts [] cs)).values
    | 'd' :: cs => .dict (entriesOf (readTexts [] cs))
    | _ => .list []
  loads_dumps v := by
    cases v with
    | list players =>
        simp only [String.toList_ofList, readTexts_write, entriesOf_textsOf]
        simp [Dict.values, Function.comp_def]
    | dict players => simp only [String.toList_ofList, readTexts_write, entriesOf_textsOf]

/-! ## Samples of calls -/

def samplePlayer (id : String) : MSMPPlayer := ⟨id, "Steve"⟩

/-- One source has the player `a`, the other one `b`. -/
def sampleSources (first : Bool) (_ : Nat) : Except PyError (Option (List MSMPPlayer)) :=
  .ok (some [samplePlayer (if first then "a" else "b")])

def samplePlayerStatus : StatusWorld PlayerData := ⟨fun _ => none, [], 0⟩

/-- Two calls, one from each source, in an order of turns. -/
def sampleRefresh (schedule : List Bool) : Arrivals (StatusWorld PlayerData) Bool (Except PyError PlayerData) :=
  runs (Arrivals.take (refreshCalls samplePlayerJson "m" sampleSources)) schedule (Arrivals.start samplePlayerStatus)

/-- The list that a call of the sample obtains. -/
def sampleObtained (first : Bool) : PlayerData := .list [samplePlayer (if first then "a" else "b")]

theorem ended_sampleRefresh {schedule : List Bool}
    (h : ∀ first, (sampleRefresh schedule).thread first = some (.done (.ok (sampleObtained first)))) :
    (sampleRefresh schedule).Ended := by
  intro first p hp
  rw [h first] at hp
  cases hp
  rfl

/-- The second call runs between the first one's write of its list and its read of the dictionary. -/
def sampleWithin : List Bool := List.replicate 3 true ++ List.replicate 7 false ++ List.replicate 4 true

/-- Both calls read the dictionary before one of them writes it. -/
def sampleStale : List Bool := List.replicate 5 true ++ List.replicate 7 false ++ List.replicate 2 true

theorem seen_players_kept_sample :
    (∀ id ∈ samplePlayerStatus.seen_ids samplePlayerJson "m",
        id ∈ (sampleRefresh sampleWithin).shared.seen_ids samplePlayerJson "m") ∧
      ∀ i p, (sampleRefresh sampleWithin).thread i = some p →
        (∃ tick e, sampleSources i tick = .error e ∧ p = .done (.error e)) ∨
          ∃ raw_player_list, p = .done (.ok raw_player_list) ∧ ∀ id ∈ raw_player_list.ids,
            id ∈ (sampleRefresh sampleWithin).shared.seen_ids samplePlayerJson "m" := by
  have hmeets : Meets (Arrivals.take (refreshCalls samplePlayerJson "m" sampleSources))
      (WritesAllSeen samplePlayerJson "m" sampleSources) sampleWithin (Arrivals.start samplePlayerStatus) :=
    Meets.mono (fun _ _ => writesAllSeen_of_kept) (by decide +kernel)
  refine seen_players_kept hmeets (ended_sampleRefresh fun first => ?_)
  cases first <;> rfl

theorem seen_players_lost :
    ¬ ∀ (json : Json PlayerData) (miniverse_id : String) (source : Bool → Nat → Except PyError (Option (List MSMPPlayer)))
      (w : StatusWorld PlayerData) (schedule : List Bool),
      (runs (Arrivals.take (refreshCalls json miniverse_id source)) schedule (Arrivals.start w)).Ended →
      (∀ id ∈ w.seen_ids json miniverse_id, id ∈ (runs (Arrivals.take (refreshCalls json miniverse_id source)) schedule
          (Arrivals.start w)).shared.seen_ids json miniverse_id) ∧
        ∀ i raw_player_list, (runs (Arrivals.take (refreshCalls json miniverse_id source)) schedule
            (Arrivals.start w)).thread i = some (.done (.ok raw_player_list)) →
          ∀ id ∈ raw_player_list.ids, id ∈ (runs (Arrivals.take (refreshCalls json miniverse_id source)) schedule
            (Arrivals.start w)).shared.seen_ids json miniverse_id := by
  intro h
  have hdone (first : Bool) : (sampleRefresh sampleStale).thread first = some (.done (.ok (sampleObtained first))) := by
    cases first <;> rfl
  have hseen := (h samplePlayerJson "m" sampleSources samplePlayerStatus sampleStale (ended_sampleRefresh hdone)).2 false
    (sampleObtained false) (hdone false) "b" (by decide)
  revert hseen
  decide

/-! ## Webhooks -/

open MCRouterMiniverseService in
/-- When webhooks of which one named a player have ended, the list of those who are online is stored. -/
theorem online_players_stored {json : Json PlayerData} {payload : ι → WebhookPayload} {w : RouterWorld} {schedule : List ι}
    (hmeets : Meets (Arrivals.take (webhooks json miniverse_id payload)) (WritesCurrent json miniverse_id payload) schedule
      (Arrivals.start w))
    (hended : (runs (Arrivals.take (webhooks json miniverse_id payload)) schedule (Arrivals.start w)).Ended)
    (hcarried : ∃ i p, (runs (Arrivals.take (webhooks json miniverse_id payload)) schedule (Arrivals.start w)).thread i =
      some p ∧ (payload i).Carries) :
    (runs (Arrivals.take (webhooks json miniverse_id payload)) schedule (Arrivals.start w)).shared.status.redis
        (players_key miniverse_id) =
      some (json.dumps (.list (runs (Arrivals.take (webhooks json miniverse_id payload)) schedule
        (Arrivals.start w)).shared.online_players)) := by
  have hinv := runs_invariant (I := Converging json miniverse_id payload) (fun _ _ hwrites h => h.turn hwrites) hmeets
    ⟨fun _ => .waiting, Or.inr (Or.inr fun _ _ => rfl)⟩
  rcases hinv.current with ⟨i, source, p, hp, hunwritten⟩ | hstored | hnone
  · have hdone := hended i _ hp
    rw [isDone_refreshing, hunwritten.isDone] at hdone
    cases hdone
  · exact hstored
  · obtain ⟨i, p, hp, hcarries⟩ := hcarried
    rw [hnone i hcarries] at hp
    cases hp

open MCRouterMiniverseService in
theorem writesCurrent_of_stored {json : Json PlayerData} {payload : ι → WebhookPayload}
    {c : Arrivals RouterWorld ι (Except PyError Unit)} {i : ι}
    (h : (c.turn (webhooks json miniverse_id payload) i).shared.online_players ≠ c.shared.online_players ∨
      (c.turn (webhooks json miniverse_id payload) i).shared.status.redis (players_key miniverse_id) =
        some (json.dumps (.list c.shared.online_players))) :
    WritesCurrent json miniverse_id payload c i := by
  intro raw_player_list hp
  have hshared : (c.turn (webhooks json miniverse_id payload) i).shared = _ :=
    congrArg (fun p => (p.once c.shared).1) hp |>.trans (congrArg Prod.fst (once_refreshing _ c.shared))
  rw [hshared] at h
  have hwritten := (BaseMiniverseService.writeList_once raw_player_list c.shared.status).symm.trans
    (h.resolve_left fun hne => hne rfl)
  obtain ⟨v, rfl, hv⟩ := Option.map_eq_some_iff.mp hwritten
  have hloads := congrArg json.loads hv
  rw [json.loads_dumps] at hloads
  exact Or.inl (congrArg some ((json.loads_dumps v).symm.trans hloads))

/-- A player has joined. -/
def sampleJoined (first : Bool) : WebhookPayload :=
  ⟨some "miniverse-m:25565", some "connect", some "success", some ⟨some (if first then "a" else "b"), some "Steve"⟩⟩

/-- The memory is empty again while the store has a list. -/
def sampleRouter : RouterWorld :=
  ⟨{ samplePlayerStatus with
      redis := Function.update (fun _ => none) (players_key "m") (some (samplePlayerJson.dumps (.list [samplePlayer "a"]))) }, []⟩

/-- Two webhooks, one for each player, in an order of turns. -/
def sampleWebhooks (schedule : List Bool) : Arrivals RouterWorld Bool (Except PyError Unit) :=
  runs (Arrivals.take (MCRouterMiniverseService.webhooks samplePlayerJson "m" sampleJoined)) schedule
    (Arrivals.start sampleRouter)

open MCRouterMiniverseService in
omit [DecidableEq ι] in
/-- A webhook that leaves a text alone which is no list is not about to write. -/
theorem writesCurrent_of_idle {json : Json PlayerData} {payload : ι → WebhookPayload}
    {c : Arrivals RouterWorld ι (Except PyError Unit)} {i : ι} {text : String} (htext : ∀ v, json.dumps v ≠ text)
    (h : ((c.program (webhooks json miniverse_id payload) i).once
      ⟨{ c.shared.status with redis := fun _ => some text }, c.shared.online_players⟩).1.status.redis
        (players_key miniverse_id) = some text) :
    WritesCurrent json miniverse_id payload c i := by
  intro raw_player_list hp
  rw [hp, once_refreshing] at h
  obtain ⟨v, _, hv⟩ := Option.map_eq_some_iff.mp ((BaseMiniverseService.writeList_once raw_player_list _).symm.trans h)
  exact absurd hv (htext v)

/-- The second player joins while the list of the first webhook is yet to be written. -/
def sampleJoining : List Bool := List.replicate 3 true ++ [false]

/-- The older list is written first. -/
def sampleCaughtUp : List Bool := sampleJoining ++ [true] ++ (List.replicate 7 false ++ List.replicate 4 true)

theorem samplePlayerJson_ne_mark (v : PlayerData) : samplePlayerJson.dumps v ≠ "x" := by
  intro h
  have hv : v = .list [] := (samplePlayerJson.loads_dumps v).symm.trans (congrArg samplePlayerJson.loads h)
  subst hv
  revert h
  decide

theorem meets_sampleJoined {schedule : List Bool} {c : Arrivals RouterWorld Bool (Except PyError Unit)}
    (h : Meets (Arrivals.take (MCRouterMiniverseService.webhooks samplePlayerJson "m" sampleJoined)) (fun c i =>
      ((c.turn (MCRouterMiniverseService.webhooks samplePlayerJson "m" sampleJoined) i).shared.online_players ≠
          c.shared.online_players ∨
        (c.turn (MCRouterMiniverseService.webhooks samplePlayerJson "m" sampleJoined) i).shared.status.redis
            (players_key "m") = some (samplePlayerJson.dumps (.list c.shared.online_players))) ∨
      ((c.program (MCRouterMiniverseService.webhooks samplePlayerJson "m" sampleJoined) i).once
        ⟨{ c.shared.status with redis := fun _ => some "x" }, c.shared.online_players⟩).1.status.redis (players_key "m") =
          some "x") schedule c) :
    Meets (Arrivals.take (MCRouterMiniverseService.webhooks samplePlayerJson "m" sampleJoined))
      (MCRouterMiniverseService.WritesCurrent samplePlayerJson "m" sampleJoined) schedule c :=
  h.mono fun _ _ h => h.elim writesCurrent_of_stored (writesCurrent_of_idle samplePlayerJson_ne_mark)

theorem online_players_stored_sample : (sampleWebhooks sampleCaughtUp).shared.status.redis (players_key "m") =
    some (samplePlayerJson.dumps (.list (sampleWebhooks sampleCaughtUp).shared.online_players)) := by
  have hdone (first : Bool) : (sampleWebhooks sampleCaughtUp).thread first = some (.done (.ok ())) := by
    cases first <;> rfl
  have hmeets : Meets (Arrivals.take (MCRouterMiniverseService.webhooks samplePlayerJson "m" sampleJoined))
      (MCRouterMiniverseService.WritesCurrent samplePlayerJson "m" sampleJoined) sampleCaughtUp
      (Arrivals.start sampleRouter) := by
    refine meets_append.mpr ⟨meets_append.mpr ⟨meets_sampleJoined (by decide +kernel), ?_, trivial⟩,
      meets_sampleJoined (by decide +kernel)⟩
    -- the first webhook writes its list while the second one is yet to write the current one
    exact fun _ _ => Or.inr ⟨false, by decide, _, _, rfl, .start fun _ => rfl⟩
  refine online_players_stored hmeets (fun i p hp => ?_) ⟨true, _, hdone true, _, _, rfl⟩
  rw [← sampleWebhooks, hdone i] at hp
  cases hp
  rfl

/-- The second player joins while the list of the first webhook is yet to be written. -/
def sampleSlow : List Bool := List.replicate 3 true ++ List.replicate 8 false ++ List.replicate 5 true

/-- The older list is written last. -/
theorem online_players_overwritten :
    ¬ ∀ (json : Json PlayerData) (miniverse_id : String) (payload : Bool → WebhookPayload) (w : RouterWorld)
      (schedule : List Bool),
      (runs (Arrivals.take (MCRouterMiniverseService.webhooks json miniverse_id payload)) schedule (Arrivals.start w)).Ended →
      (∃ i p, (runs (Arrivals.take (MCRouterMiniverseService.webhooks json miniverse_id payload)) schedule
        (Arrivals.start w)).thread i = some p ∧ (payload i).Carries) →
      (runs (Arrivals.take (MCRouterMiniverseService.webhooks json miniverse_id payload)) schedule
          (Arrivals.start w)).shared.status.redis (players_key miniverse_id) =
        some (json.dumps (.list (runs (Arrivals.take (MCRouterMiniverseService.webhooks json miniverse_id payload)) schedule
          (Arrivals.start w)).shared.online_players)) := by
  intro h
  have hdone (first : Bool) : (sampleWebhooks sampleSlow).thread first = some (.done (.ok ())) := by
    cases first <;> rfl
  have hended : (sampleWebhooks sampleSlow).Ended := by
    intro first p hp
    rw [hdone first] at hp
    cases hp
    rfl
  have hstored := h samplePlayerJson "m" sampleJoined sampleRouter sampleSlow hended ⟨true, _, hdone true, _, _, rfl⟩
  revert hstored
  decide +kernel

/-! ## The cache of a miniverse -/

section Cache

variable {ns : String} {id : Uuid4} {redis : Keyspace}

theorem Uuid4.literal (id : Uuid4) : ∀ c ∈ (id.str ++ ".").toList, c ≠ '*' ∧ c ≠ '?' := by
  have hall : ∀ c ∈ '.' :: '-' :: hexDigits, c ≠ '*' ∧ c ≠ '?' := List.all_iff_forall_prop.mp (by decide)
  intro c hc
  rw [String.toList_append, List.mem_append] at hc
  rcases hc with hc | hc
  · exact hall c (List.mem_cons_of_mem _ (id.chars c hc))
  · exact hall c (List.mem_singleton.mp hc ▸ List.mem_cons_self)

/-- The scan finds the keys that begin with the identifier, without the namespace. -/
theorem scan_iter_eq_nil : scan_iter (id.str ++ ".*") redis = [] ↔
    ∀ key ∈ redis.keys, ¬ (id.str ++ ".").toList <+: key.toList := by
  have hpattern : (id.str ++ ".*").toList = (id.str ++ ".").toList ++ ['*'] := by simp [String.toList_append]
  rw [scan_iter, List.map_eq_nil_iff, List.filter_eq_nil_iff, hpattern]
  simp only [glob_literal_star id.literal]

/-- The first key that is found raises, so no key is ever deleted. -/
theorem delete_miniverse_cache_run (ns : String) (id : Uuid4) (redis : Keyspace) :
    ServerStatusStore.delete_miniverse_cache ns id.str redis =
      (if scan_iter (id.str ++ ".*") redis = [] then .ok () else .error .typeError, redis) := by
  unfold ServerStatusStore.delete_miniverse_cache
  rw [Eff.read_bind_run]
  cases scan_iter (id.str ++ ".*") redis with
  | nil => rfl
  | cons r rs =>
      have hraise : RedisStore.delete ns (.bytes r) redis = (.error .typeError, redis) := rfl
      rw [List.forM_eq_forM, List.forM_cons, Eff.bind_run_error hraise, if_neg (List.cons_ne_nil r rs)]

/-- The cache of a miniverse is forgotten, and that of no other one, exactly when nothing was stored for it. The call
returns exactly when no key of Redis begins with the identifier. -/
theorem miniverse_cache_forgotten_iff {V : Type} (loads : String → Except PyError (Option V)) (ns : String) (id : Uuid4)
    (redis : Keyspace) :
    (((∀ m, (ServerStatusStore.lookup loads ns id.str m (ServerStatusStore.delete_miniverse_cache ns id.str redis).2).1 =
        .ok none) ∧
      ∀ (id2 : Uuid4) (m : String), id2 ≠ id →
        (ServerStatusStore.lookup loads ns id2.str m (ServerStatusStore.delete_miniverse_cache ns id.str redis).2).1 =
          (ServerStatusStore.lookup loads ns id2.str m redis).1) ↔
      ∀ m, (ServerStatusStore.lookup loads ns id.str m redis).1 = .ok none) ∧
    ((ServerStatusStore.delete_miniverse_cache ns id.str redis).1 = .ok () ↔
      ∀ key ∈ redis.keys, ¬ (id.str ++ ".").toList <+: key.toList) := by
  rw [delete_miniverse_cache_run, ← scan_iter_eq_nil]
  refine ⟨⟨And.left, fun h => ⟨h, fun _ _ _ => rfl⟩⟩, ?_⟩
  by_cases hfound : scan_iter (id.str ++ ".*") redis = []
  · exact iff_of_true (if_pos hfound) hfound
  · refine iff_of_false (fun h => ?_) hfound
    rw [if_neg hfound] at h
    cases h

/-- A value that was stored is still there. -/
theorem miniverse_cache_kept :
    ¬ ∀ (loads : String → Except PyError (Option String)) (ns : String) (id : Uuid4) (redis : Keyspace),
      (∀ m, (ServerStatusStore.lookup loads ns id.str m (ServerStatusStore.delete_miniverse_cache ns id.str redis).2).1 =
          .ok none) ∧
        ∀ (id2 : Uuid4) (m : String), id2 ≠ id →
          (ServerStatusStore.lookup loads ns id2.str m (ServerStatusStore.delete_miniverse_cache ns id.str redis).2).1 =
            (ServerStatusStore.lookup loads ns id2.str m redis).1 := by
  intro h
  have hforgotten := (h (fun text => .ok (some text)) "LITESTAR_server-status" sampleId
    (RedisStore.set "LITESTAR_server-status" (.text (status_key sampleId.str "minecraft:players")) "[]" []).2).1
    "minecraft:players"
  revert hforgotten
  decide

end Cache

end Backend
