import Miniverse.Sessions.Service
import Miniverse.Status.Lemmas.Publishing

/-!
# What a client knows of the lists

A client that is connected knows a list, or an event with it is to come.
-/

namespace Backend

open Lib

variable {V κ : Type} [DecidableEq κ] {msmp : MSMPJson V} {miniverse_id : String} {role : Role}
  {list : κ → StatusList} {value : κ → Option V} {c : Connection V κ} {l : StatusList}

/-! ## Lists -/

theorem StatusList.method_mem (h : l.publish = true) : l.method_name ∈ event_types := by
  cases l with
  | seen_players => cases h
  | players => decide
  | operators => decide
  | banned_players => decide

theorem StatusList.method_injective {l l' : StatusList} (h : l.method_name = l'.method_name) : l = l' := by
  revert h
  cases l <;> cases l' <;> decide

theorem status_key_injective {method_name method_name' : String}
    (h : status_key miniverse_id method_name = status_key miniverse_id method_name') : method_name = method_name' :=
  String.append_right_inj _ |>.mp h

theorem StatusList.key_ne {l l' : StatusList} (h : l ≠ l') :
    status_key miniverse_id l.method_name ≠ status_key miniverse_id l'.method_name :=
  fun heq => h (method_injective (status_key_injective heq))

/-! ## What is stored and what is sent -/

/-- The stored value of a list. -/
def Connection.stored (msmp : MSMPJson V) (miniverse_id : String) (c : Connection V κ) (l : StatusList) : Option V :=
  (c.status.redis (status_key miniverse_id l.method_name)).map msmp.loads

/-- A list that is missing is shown as an empty one. -/
def shown (msmp : MSMPJson V) (data : Option V) : V := data.getD msmp.empty

/-- The client has, or will have, the stored list as the last one in these messages. -/
def Told (msmp : MSMPJson V) (miniverse_id : String) (c : Connection V κ) (l : StatusList) (messages : List (Message V)) :
    Prop :=
  ∃ data, lastSent l messages = some data ∧ shown msmp data = shown msmp (c.stored msmp miniverse_id l)

/-- A call on the list is between its write and its publication. -/
def Connection.Publishing (miniverse_id : String) (list : κ → StatusList) (value : κ → Option V) (c : Connection V κ)
    (k : κ) : Prop :=
  (list k).publish = true ∧ c.call k = ServerStatusStore.publishing miniverse_id (list k).method_name (value k)

/-- The events that are to come. -/
def Connection.upcoming (n : Nat) (c : Connection V κ) : List (Message V) :=
  c.sent ++ (c.status.published.drop n).map .event

theorem lastSent_append_self {sent : List (Message V)} (event : ControlEvent V) (h : event.type = l.method_name) :
    lastSent l (sent ++ [.event event]) = some event.data := by
  simp [lastSent, List.filterMap_append, Message.valueOf, h]

theorem lastSent_append_other {sent : List (Message V)} (event : ControlEvent V) (h : event.type ≠ l.method_name) :
    lastSent l (sent ++ [.event event]) = lastSent l sent := by
  simp [lastSent, List.filterMap_append, Message.valueOf, h]

/-! ## The invariant -/

/-- Where a call on a list is. -/
def CallStage (msmp : MSMPJson V) (miniverse_id : String) (list : StatusList) (value : Option V)
    (p : Async (StatusWorld V) (Except PyError Unit)) : Prop :=
  list.publish = true ∧ ServerStatusStore.Stage msmp.toJson miniverse_id list.method_name value p ∨
    list.publish = false ∧ ServerStatusStore.QuietStage msmp.toJson miniverse_id list.method_name value p

/-- The list is told by these messages, or a call is to publish it. -/
def Connection.FollowedAt (msmp : MSMPJson V) (miniverse_id : String) (list : κ → StatusList) (value : κ → Option V)
    (l : StatusList) (c : Connection V κ) (messages : List (Message V)) : Prop :=
  (∃ k, c.Publishing miniverse_id list value k ∧ list k = l) ∨ Told msmp miniverse_id c l messages

/-- Each list that is published is followed. -/
def Connection.Followed (msmp : MSMPJson V) (miniverse_id : String) (list : κ → StatusList) (value : κ → Option V)
    (c : Connection V κ) (messages : List (Message V)) : Prop :=
  ∀ l : StatusList, l.publish = true → c.FollowedAt msmp miniverse_id list value l messages

structure Streaming (msmp : MSMPJson V) (miniverse_id : String) (list : κ → StatusList) (value : κ → Option V)
    (c : Connection V κ) : Prop where
  calls : ∀ k, CallStage msmp miniverse_id (list k) (value k) (c.call k)
  reads : c.sent ≠ [] → ∀ l, (c.read l).isDone = true
  subscribed : ∀ n, c.handled = some n → c.sent ≠ [] ∧ n ≤ c.status.published.length ∧
    c.Followed msmp miniverse_id list value (c.upcoming n)

/-- At the subscription the client has been sent what is stored, or a call is to publish it; later no call publishes an
overwritten list, unless another call is to publish it. -/
def FollowsStore (msmp : MSMPJson V) (miniverse_id : String) (list : κ → StatusList) (value : κ → Option V)
    (c : Connection V κ) : ConnectionTurn κ → Prop
  | .start_subscription => c.sent ≠ [] → c.handled = none → c.Followed msmp miniverse_id list value c.sent
  | .call k => c.handled ≠ none → c.Publishing miniverse_id list value k →
      c.status.redis (status_key miniverse_id (list k).method_name) = (value k).map msmp.dumps ∨
        ∃ j, j ≠ k ∧ c.Publishing miniverse_id list value j ∧ list j = list k
  | _ => True

/-! ## Turns -/

theorem CallStage.next {list : StatusList} {value : Option V} {p : Async (StatusWorld V) (Except PyError Unit)}
    (h : CallStage msmp miniverse_id list value p) (w : StatusWorld V) :
    CallStage msmp miniverse_id list value (p.once w).2 := by
  rcases h with ⟨hpublish, hstage⟩ | ⟨hquiet, hstage⟩
  · exact Or.inl ⟨hpublish, ServerStatusStore.stage_next (StatusList.method_mem hpublish) hstage w⟩
  · exact Or.inr ⟨hquiet, ServerStatusStore.quiet_next hstage w⟩

omit [DecidableEq κ] in
/-- A list is told as before, where neither the stored list nor what is sent has changed. -/
theorem Told.congr {c' : Connection V κ} {messages messages' : List (Message V)} (h : Told msmp miniverse_id c l messages)
    (hmessages : lastSent l messages' = lastSent l messages)
    (hredis : c'.status.redis (status_key miniverse_id l.method_name) = c.status.redis (status_key miniverse_id l.method_name)) :
    Told msmp miniverse_id c' l messages' := by
  obtain ⟨data, hlast, hshown⟩ := h
  refine ⟨data, hmessages.trans hlast, ?_⟩
  rw [hshown, Connection.stored, Connection.stored, hredis]

theorem published_grows {list : StatusList} {value : Option V} {p : Async (StatusWorld V) (Except PyError Unit)}
    (h : CallStage msmp miniverse_id list value p) (w : StatusWorld V) :
    w.published.length ≤ (p.once w).1.published.length := by
  rcases h with ⟨hpublish, hstage⟩ | ⟨_, hstage⟩
  · rcases ServerStatusStore.stage_once hstage w with hsame | hwrite | hnext
    · rw [hsame]
    · rw [hwrite]
    · rw [hnext, ServerStatusStore.once_publishing (StatusList.method_mem hpublish)]
      simp
  · rw [(ServerStatusStore.quiet_once hstage w).1]

section Call

variable {k : κ}

/-- The step of a call. -/
def Connection.stepCall (k : κ) (c : Connection V κ) : Connection V κ :=
  { c with
    status := ((c.call k).once c.status).1
    call := Function.update c.call k ((c.call k).once c.status).2 }

theorem Connection.Publishing.other {j : κ} (hne : j ≠ k) (h : c.Publishing miniverse_id list value j) :
    (c.stepCall k).Publishing miniverse_id list value j :=
  ⟨h.1, (Function.update_of_ne hne _ _).trans h.2⟩

/-- A step that neither stores the list nor sends it leaves it followed. -/
theorem Connection.FollowedAt.still {n : Nat}
    (h : c.FollowedAt msmp miniverse_id list value l (c.upcoming n))
    (hother : ∀ j, c.Publishing miniverse_id list value j → list j = l → j ≠ k)
    (hsent : lastSent l ((c.stepCall k).upcoming n) = lastSent l (c.upcoming n))
    (hredis : ((c.call k).once c.status).1.redis (status_key miniverse_id l.method_name) =
      c.status.redis (status_key miniverse_id l.method_name)) :
    (c.stepCall k).FollowedAt msmp miniverse_id list value l ((c.stepCall k).upcoming n) := by
  rcases h with ⟨j, hj, hlist⟩ | htold
  · exact Or.inl ⟨j, hj.other (hother j hj hlist), hlist⟩
  · exact Or.inr (htold.congr hsent hredis)

theorem upcoming_still {n : Nat} (h : ((c.call k).once c.status).1.published = c.status.published) :
    (c.stepCall k).upcoming n = c.upcoming n := by
  rw [Connection.upcoming, Connection.stepCall, h, Connection.upcoming]

theorem upcoming_published {n : Nat} (hn : n ≤ c.status.published.length) {event : ControlEvent V}
    (h : ((c.call k).once c.status).1.published = c.status.published ++ [event]) :
    (c.stepCall k).upcoming n = c.upcoming n ++ [.event event] := by
  rw [Connection.upcoming, Connection.stepCall, h, List.drop_append_of_le_length hn, List.map_append, ← List.append_assoc]
  rfl

omit [DecidableEq κ] in
/-- Only a call that publishes ends its publication. -/
theorem Connection.Publishing.ne_of_still {j : κ} (h : c.Publishing miniverse_id list value j)
    (hpublished : ((c.call k).once c.status).1.published = c.status.published) : j ≠ k := by
  rintro rfl
  exact ServerStatusStore.ne_publishing (StatusList.method_mem h.1) hpublished _ h.2

theorem Connection.Followed.step {n : Nat} (hn : n ≤ c.status.published.length)
    (hcall : CallStage msmp miniverse_id (list k) (value k) (c.call k))
    (hstored : c.Publishing miniverse_id list value k →
      c.status.redis (status_key miniverse_id (list k).method_name) = (value k).map msmp.dumps ∨
        ∃ j, j ≠ k ∧ c.Publishing miniverse_id list value j ∧ list j = list k)
    (h : c.Followed msmp miniverse_id list value (c.upcoming n)) :
    (c.stepCall k).Followed msmp miniverse_id list value ((c.stepCall k).upcoming n) := by
  intro l hl
  rcases hcall with ⟨hpublish, hstage⟩ | ⟨hquiet, hstage⟩
  · have hmethod := StatusList.method_mem hpublish
    rcases ServerStatusStore.stage_once hstage c.status with hsame | hwrite | hnext
    · have hpublished := congrArg StatusWorld.published hsame
      exact (h l hl).still (fun j hj _ => hj.ne_of_still hpublished) (congrArg (lastSent l) (upcoming_still hpublished))
        (by rw [hsame])
    · by_cases hlist : list k = l
      · exact Or.inl ⟨k, ⟨hpublish, (Function.update_self k _ _).trans (congrArg Prod.snd hwrite)⟩, hlist⟩
      · have hpublished : ((c.call k).once c.status).1.published = c.status.published := by rw [hwrite]
        refine (h l hl).still (fun j hj _ => hj.ne_of_still hpublished)
          (congrArg (lastSent l) (upcoming_still hpublished)) ?_
        rw [hwrite]
        exact Function.update_of_ne (StatusList.key_ne fun heq => hlist heq.symm) _ _
    · have honce : (c.call k).once c.status = ({ c.status with
          published := c.status.published ++ [⟨miniverse_id, (list k).method_name, value k⟩] }, .done (.ok ())) := by
        rw [hnext, ServerStatusStore.once_publishing hmethod]
      have hpublished := congrArg (·.1.published) honce
      have hupcoming := upcoming_published (c := c) (k := k) hn hpublished
      have hredis := congrArg (·.1.redis (status_key miniverse_id l.method_name)) honce
      by_cases hlist : list k = l
      · rcases hstored ⟨hpublish, hnext⟩ with hvalue | ⟨j, hne, hj, hjlist⟩
        · -- the event tells what is stored
          refine Or.inr ⟨value k, ?_, ?_⟩
          · rw [hupcoming]
            exact lastSent_append_self _ (congrArg StatusList.method_name hlist)
          · rw [Connection.stored, Connection.stepCall, hredis, ← hlist, hvalue, Option.map_map]
            congr 1
            cases value k with
            | none => rfl
            | some v => exact congrArg some (msmp.loads_dumps v).symm
        · exact Or.inl ⟨j, hj.other hne, hjlist.trans hlist⟩
      · refine (h l hl).still (fun j _ hjlist => ?_) ?_ hredis
        · rintro rfl
          exact hlist hjlist
        · rw [hupcoming]
          exact lastSent_append_other _ fun heq => hlist (StatusList.method_injective heq)
  · obtain ⟨hpublished, hredis⟩ := ServerStatusStore.quiet_once hstage c.status
    refine (h l hl).still (fun j hj _ => hj.ne_of_still hpublished) (congrArg (lastSent l) (upcoming_still hpublished))
      (hredis _ (StatusList.key_ne ?_))
    rintro rfl
    rw [hquiet] at hl
    cases hl

theorem Connection.stepCall_self (c : Connection V κ) : (c.stepCall k).call k = ((c.call k).once c.status).2 :=
  Function.update_self k _ _

theorem Connection.stepCall_other {j : κ} (hne : j ≠ k) (c : Connection V κ) : (c.stepCall k).call j = c.call j :=
  Function.update_of_ne hne _ _

theorem Streaming.call_turn (h : Streaming msmp miniverse_id list value c)
    (hfollows : FollowsStore msmp miniverse_id list value c (.call k)) :
    Streaming msmp miniverse_id list value (c.stepCall k) where
  calls j := by
    by_cases hj : j = k
    · subst hj
      rw [Connection.stepCall_self]
      exact (h.calls j).next c.status
    · rw [Connection.stepCall_other hj]
      exact h.calls j
  reads := h.reads
  subscribed n hn := by
    have hn : c.handled = some n := hn
    obtain ⟨hsent, hle, hfollowed⟩ := h.subscribed n hn
    refine ⟨hsent, le_trans hle (published_grows (h.calls k) c.status), hfollowed.step hle (h.calls k) (hfollows ?_)⟩
    rw [hn]
    exact Option.some_ne_none n

end Call

omit [DecidableEq κ] in
theorem Streaming.not_subscribed (h : Streaming msmp miniverse_id list value c) (hsent : c.sent = []) :
    c.handled = none := by
  cases hn : c.handled with
  | none => rfl
  | some n => exact absurd hsent (h.subscribed n hn).1

/-- A read only moves while nothing was sent. -/
theorem Streaming.read_turn (h : Streaming msmp miniverse_id list value c) :
    Streaming msmp miniverse_id list value (c.turn role (.read l)) := by
  cases hsent : c.sent with
  | nil => exact ⟨h.calls, fun hne => absurd hsent hne, fun n hn => nomatch (h.not_subscribed hsent).symm.trans hn⟩
  | cons m ms =>
      have hdone := h.reads (by rw [hsent]; exact List.cons_ne_nil _ _) l
      have hsame : c.turn role (.read l) = c := by
        rw [Connection.turn, Async.once_isDone hdone, Function.update_eq_self]
      rw [hsame]
      exact h

theorem isDone_of_returned {α : Type} {p : Async (StatusWorld V) (Except PyError α)} {a : α} (h : returned p = some a) :
    p.isDone = true := by
  cases p with
  | done _ => rfl
  | step _ _ => cases h

/-- The message with the lists is sent after all reads. -/
theorem Streaming.send_turn (h : Streaming msmp miniverse_id list value c) :
    Streaming msmp miniverse_id list value (c.turn role .send_init_data) := by
  rw [Connection.turn]
  split
  · rename_i lists hsent hlists
    refine ⟨h.calls, fun _ l => ?_, fun n hn => nomatch (h.not_subscribed hsent).symm.trans hn⟩
    simp only [Connection.lists, Option.bind_eq_bind, Option.bind_eq_some_iff] at hlists
    obtain ⟨_, hplayers, _, hseen, _, hoperators, _, hbanned, _⟩ := hlists
    cases l with
    | players => exact isDone_of_returned hplayers
    | seen_players => exact isDone_of_returned hseen
    | operators => exact isDone_of_returned hoperators
    | banned_players => exact isDone_of_returned hbanned
  · exact h

theorem Streaming.subscribe_turn (h : Streaming msmp miniverse_id list value c)
    (hfollows : FollowsStore msmp miniverse_id list value c .start_subscription) :
    Streaming msmp miniverse_id list value (c.turn role .start_subscription) := by
  rw [Connection.turn]
  split
  · rename_i m ms hsent hhandled
    have hne : c.sent ≠ [] := by
      rw [hsent]
      exact List.cons_ne_nil _ _
    refine ⟨h.calls, h.reads, fun n hn => ?_⟩
    obtain rfl : c.status.published.length = n := Option.some.inj hn
    have hupcoming : c.upcoming c.status.published.length = c.sent := by simp [Connection.upcoming]
    have hfollowed : c.Followed msmp miniverse_id list value (c.upcoming c.status.published.length) := by
      rw [hupcoming]
      exact hfollows hne hhandled
    exact ⟨hne, le_refl _, hfollowed⟩
  · exact h

omit [DecidableEq κ] in
theorem Streaming.handle_turn (hrole : Role.user ≤ role) (h : Streaming msmp miniverse_id list value c) :
    Streaming msmp miniverse_id list value (c.handle role) := by
  unfold Connection.handle
  split
  · exact h
  · rename_i n hn
    split
    · exact h
    · rename_i event hevent
      obtain ⟨hlt, hget⟩ := List.getElem?_eq_some_iff.mp hevent
      obtain ⟨_, _, hfollowed⟩ := h.subscribed n hn
      have hreceives : receives role role = true := by
        revert hrole
        cases role <;> decide
      rw [hreceives, if_pos rfl]
      have hne : c.sent ++ [Message.event event] ≠ [] := List.append_ne_nil_of_right_ne_nil _ (List.cons_ne_nil _ _)
      refine ⟨h.calls, fun _ => h.reads (h.subscribed n hn).1, fun n' hn' => ?_⟩
      obtain rfl : n + 1 = n' := Option.some.inj hn'
      have hupcoming : c.upcoming n =
          c.sent ++ [Message.event event] ++ (c.status.published.drop (n + 1)).map .event := by
        rw [Connection.upcoming, List.drop_eq_getElem_cons hlt, hget, List.map_cons, List.append_assoc]
        rfl
      rw [hupcoming] at hfollowed
      exact ⟨hne, hlt, hfollowed⟩

omit [DecidableEq κ] in
theorem callStage_start (msmp : MSMPJson V) (miniverse_id : String) (list : StatusList) (value : Option V) :
    CallStage msmp miniverse_id list value
      (ServerStatusStore.set msmp.toJson miniverse_id list.method_name value list.publish) := by
  cases hpublish : list.publish with
  | true => exact Or.inl ⟨hpublish, .start⟩
  | false => exact Or.inr ⟨hpublish, .start⟩

omit [DecidableEq κ] in
theorem streaming_start (source : Source V) (webSocket : Bool) (w : StatusWorld V) :
    Streaming msmp miniverse_id list value (Connection.start msmp source miniverse_id webSocket list value w) where
  calls k := callStage_start msmp miniverse_id (list k) (value k)
  reads hne := absurd rfl hne
  subscribed _ hn := nomatch hn

theorem Streaming.turn (hrole : Role.user ≤ role) {t : ConnectionTurn κ}
    (hfollows : FollowsStore msmp miniverse_id list value c t) (h : Streaming msmp miniverse_id list value c) :
    Streaming msmp miniverse_id list value (c.turn role t) := by
  cases t with
  | call k => exact h.call_turn hfollows
  | read l => exact h.read_turn
  | send_init_data => exact h.send_turn
  | start_subscription => exact h.subscribe_turn hfollows
  | handle => exact h.handle_turn hrole

end Backend
