import Miniverse.Lib.History
import Miniverse.Sessions.Lemmas.Rights
import Miniverse.Access.Lemmas.Sound
import Miniverse.Streams.Lemmas.Events

/-!
# What a session is sent

A session of the updates is followed from the state in which it was opened.
-/

namespace Backend

open Lib

variable {α : Type} {env : Env α} {sur : Surroundings env.toPlatform} {l l₁ : Live α} {since : List Arrival} {s : Session}

/-! ## The events that a session got -/

theorem receives_of_user {before_user_role : Role} (h : .user ≤ before_user_role) (after_user_role : Role) :
    receives before_user_role after_user_role = true := by
  revert h
  cases before_user_role <;> cases after_user_role <;> decide

/-- The events that a session handled, of which `first` were published before it was opened. -/
def window (first handled : Nat) (events : List MiniverseEvent) : List MiniverseEvent := (events.take handled).drop first

theorem window_prefix (first : Nat) {handled : Nat} {events events' : List MiniverseEvent} (h : events <+: events')
    (hhandled : handled ≤ events.length) : window first handled events' = window first handled events := by
  obtain ⟨later, rfl⟩ := h
  rw [window, window, List.take_append_of_le_length hhandled]

theorem window_next {first handled : Nat} {events : List MiniverseEvent} {event : MiniverseEvent} (hfirst : first ≤ handled)
    (hnext : events[handled]? = some event) : window first (handled + 1) events = window first handled events ++ [event] := by
  have hhandled : handled ≤ events.length := (List.getElem?_eq_some_iff.mp hnext).1.le
  rw [window, window, List.take_add_one, hnext, List.drop_append_of_le_length (by rw [List.length_take]; omega)]
  rfl

namespace Session

theorem deliver_sent (event : MiniverseEvent) (before_user_role : Role) (s : Session) :
    s.deliver event before_user_role = { s with
      sent := if receives before_user_role (s.get_miniverse_role event.miniverse_id) then s.sent ++ [event] else s.sent } := by
  unfold deliver
  split <;> rfl

theorem findUser_of_fails {db : Database} {event : MiniverseEvent} (h : s.handle_miniverse_channel_message db event = none) :
    db.findUser s.user_id = none := by
  unfold handle_miniverse_channel_message refresh at h
  cases hfind : db.findUser s.user_id with
  | none => rfl
  | some u => cases hnames : event.names s.user_id <;> simp [hnames, hfind] at h

/-- An event is sent for the role that the session knew before it, or for the role that it knows after it. -/
theorem handle_cases (w : World α) (s : Session) :
    (∃ failed, s.handle w = { s with failed := failed } ∧ (failed = s.failed ∨ w.db.findUser s.user_id = none)) ∨
      ∃ event roles, w.events[s.handled]? = some event ∧ (roles = s.miniverses_roles ∨ roles = w.db.rolesOfUser s.user_id) ∧
        s.handle w = { s with
          miniverses_roles := roles
          handled := s.handled + 1
          sent := if receives (s.get_miniverse_role event.miniverse_id)
              (({ s with miniverses_roles := roles } : Session).get_miniverse_role event.miniverse_id)
            then s.sent ++ [event] else s.sent } := by
  unfold Session.handle
  cases hnext : w.events[s.handled]? with
  | none => exact Or.inl ⟨s.failed, rfl, Or.inl rfl⟩
  | some event =>
      cases hfailed : s.failed with
      | true => exact Or.inl ⟨true, by simp [← hfailed], Or.inl rfl⟩
      | false =>
          dsimp only
          rw [if_neg (by decide)]
          rcases handle_message_cases w.db event s with ⟨_, hnone⟩ | ⟨_, hsome⟩ | ⟨_, hsome⟩
          · exact Or.inl ⟨true, by rw [hnone], Or.inr (findUser_of_fails hnone)⟩
          · refine Or.inr ⟨event, w.db.rolesOfUser s.user_id, rfl, Or.inr rfl, ?_⟩
            simp only [hsome, deliver_sent, hfailed]
          · refine Or.inr ⟨event, s.miniverses_roles, rfl, Or.inl rfl, ?_⟩
            simp only [hsome, deliver_sent, hfailed]
            rfl

theorem handle_user_id (w : World α) (s : Session) : (s.handle w).user_id = s.user_id := by
  rcases s.handle_cases w with ⟨failed, hrun, _⟩ | ⟨event, roles, _, _, hrun⟩ <;> rw [hrun]

end Session

/-! ## Following -/

/-- In every state from `l₁` on, the role of the user in the miniverse is such. -/
def Throughout (sur : Surroundings env.toPlatform) (l₁ : Live α) (since : List Arrival) (user_id miniverse_id : String)
    (p : Role → Prop) : Prop :=
  ∀ seen, seen <+: since → p ((runs (Arrival.handle sur) seen l₁).world.db.get_miniverse_role user_id miniverse_id)

/-- A session that was opened in the state `l₁` knows the roles of a state since then. Of the events since then it was sent some, in
their order, each at most once: all of a miniverse in which its user had a role all the time, and none where the user had none. It
fails only once the user is gone. -/
structure Follows (sur : Surroundings env.toPlatform) (l₁ : Live α) (since : List Arrival) (s : Session) : Prop where
  loaded : ∃ seen, seen <+: since ∧ s.miniverses_roles = (runs (Arrival.handle sur) seen l₁).world.db.rolesOfUser s.user_id
  first : l₁.world.events.length ≤ s.handled
  handled : s.handled ≤ (runs (Arrival.handle sur) since l₁).world.events.length
  sent : s.sent.Sublist (window l₁.world.events.length s.handled (runs (Arrival.handle sur) since l₁).world.events)
  had : ∀ miniverse_id, Throughout sur l₁ since s.user_id miniverse_id (Role.user ≤ ·) →
    s.sent.filter (fun event => decide (event.miniverse_id = miniverse_id)) =
      (window l₁.world.events.length s.handled (runs (Arrival.handle sur) since l₁).world.events).filter
        fun event => decide (event.miniverse_id = miniverse_id)
  lacked : ∀ miniverse_id, Throughout sur l₁ since s.user_id miniverse_id (· = .none) →
    ∀ event ∈ s.sent, event.miniverse_id ≠ miniverse_id
  failed : s.failed = true → ∃ seen, seen <+: since ∧ (runs (Arrival.handle sur) seen l₁).world.db.findUser s.user_id = none

theorem Throughout.before {user_id miniverse_id : String} {p : Role → Prop} {a : Arrival}
    (h : Throughout sur l₁ (since ++ [a]) user_id miniverse_id p) : Throughout sur l₁ since user_id miniverse_id p :=
  fun seen hseen => h seen (hseen.trans (List.prefix_append _ _))

theorem follows_new (sur : Surroundings env.toPlatform) (l₁ : Live α) (user_id : String) :
    Follows sur l₁ [] (Session.new l₁.world user_id) where
  loaded := ⟨[], List.prefix_refl _, rfl⟩
  first := le_refl _
  handled := le_refl _
  sent := List.nil_sublist _
  had _ _ := by simp [Session.new, window]
  lacked _ _ := by simp [Session.new]
  failed := nofun

namespace Follows

/-- What arrives next leaves what the session was sent. -/
theorem arrival (h : Follows sur l₁ since s) (a : Arrival) : Follows sur l₁ (since ++ [a]) s := by
  have hevents : EventsKept (runs (Arrival.handle sur) since l₁).world (runs (Arrival.handle sur) (since ++ [a]) l₁).world := by
    rw [runs_concat]
    exact eventsKept_arrival sur a _
  have hwindow := window_prefix l₁.world.events.length hevents h.handled
  obtain ⟨seen, hseen, hloaded⟩ := h.loaded
  refine ⟨⟨seen, hseen.trans (List.prefix_append _ _), hloaded⟩, h.first, h.handled.trans hevents.length_le, hwindow ▸ h.sent,
    fun miniverse_id hrole => hwindow ▸ h.had miniverse_id hrole.before, fun miniverse_id hrole => h.lacked miniverse_id hrole.before,
    fun hfailed => ?_⟩
  obtain ⟨seen, hseen, hgone⟩ := h.failed hfailed
  exact ⟨seen, hseen.trans (List.prefix_append _ _), hgone⟩

/-- What the session knows is such at any time when the role is such all the time. -/
theorem knows (h : Follows sur l₁ since s) {miniverse_id : String} {p : Role → Prop}
    (hrole : Throughout sur l₁ since s.user_id miniverse_id p) : p (s.get_miniverse_role miniverse_id) := by
  obtain ⟨seen, hseen, hloaded⟩ := h.loaded
  exact Session.get_miniverse_role_loaded hloaded miniverse_id ▸ hrole seen hseen

theorem handle (h : Follows sur l₁ since s) : Follows sur l₁ since (s.handle (runs (Arrival.handle sur) since l₁).world) := by
  rcases s.handle_cases (runs (Arrival.handle sur) since l₁).world with
    ⟨failed, hrun, hfailed⟩ | ⟨event, roles, hnext, hroles, hrun⟩
  · rw [hrun]
    refine ⟨h.loaded, h.first, h.handled, h.sent, h.had, h.lacked, fun hfails => ?_⟩
    rcases hfailed with rfl | hgone
    · exact h.failed hfails
    · exact ⟨since, List.prefix_refl _, hgone⟩
  · have hloaded : ∃ seen, seen <+: since ∧ roles = (runs (Arrival.handle sur) seen l₁).world.db.rolesOfUser s.user_id := by
      rcases hroles with rfl | rfl
      · exact h.loaded
      · exact ⟨since, List.prefix_refl _, rfl⟩
    have hwindow := window_next h.first hnext
    have hknows : Follows sur l₁ since { s with miniverses_roles := roles } :=
      ⟨hloaded, h.first, h.handled, h.sent, h.had, h.lacked, h.failed⟩
    rw [hrun]
    refine ⟨hloaded, Nat.le_succ_of_le h.first, (List.getElem?_eq_some_iff.mp hnext).1, ?_, fun miniverse_id hrole => ?_,
      fun miniverse_id hrole => ?_, h.failed⟩
    · rw [hwindow]
      split
      · exact h.sent.append_right [event]
      · exact h.sent.trans (List.sublist_append_left _ _)
    · rw [hwindow, List.filter_append, ← h.had miniverse_id hrole]
      by_cases hid : event.miniverse_id = miniverse_id
      · rw [if_pos (hid ▸ receives_of_user (h.knows hrole) _), List.filter_append]
      · have hother : [event].filter (fun event => decide (event.miniverse_id = miniverse_id)) = [] := by simp [hid]
        rw [hother, List.append_nil]
        split
        · rw [List.filter_append, hother, List.append_nil]
        · rfl
    · intro sent hsent hid
      by_cases hevent : event.miniverse_id = miniverse_id
      · have hbefore : s.get_miniverse_role event.miniverse_id = .none := hevent ▸ h.knows hrole
        have hafter : ({ s with miniverses_roles := roles } : Session).get_miniverse_role event.miniverse_id = .none :=
          hevent ▸ hknows.knows hrole
        have hreceives : receives .none .none = false := by decide
        rw [hbefore, hafter, hreceives] at hsent
        exact h.lacked miniverse_id hrole sent hsent hid
      · have hmem : sent ∈ s.sent ++ [event] := by
          split at hsent
          · exact hsent
          · exact List.mem_append_left _ hsent
        rcases List.mem_append.mp hmem with hold | hnew
        · exact h.lacked miniverse_id hrole sent hold hid
        · exact hevent (List.mem_singleton.mp hnew ▸ hid)

end Follows

/-! ## Sessions over a run -/

/-- A session that is open was open before, or is opened. -/
theorem sessions_after (a : Arrival) (l : Live α) (hs : s ∈ (a.handle sur l).2.sessions) :
    (∃ s₀ ∈ l.sessions, s = s₀ ∨ s = s₀.handle l.world) ∨
      ∃ token, a = .open_updates token ∧ s = Session.new (a.handle sur l).2.world (l.world.db.ownId token) := by
  have hopen {token : Token} {handler : User → Eff (Live α) PyError (ServiceReply α)}
      (hsame : ∀ u l, (handler u l).2.sessions = l.sessions) (hs : s ∈ (authenticated env token handler l).2.sessions) :
      s ∈ l.sessions := by
    obtain ⟨w, ⟨e, _, _, hrun⟩ | ⟨u, _, hrun⟩⟩ := authenticated_cases env token handler l
    · exact congrArg (·.2.sessions) hrun ▸ hs
    · rw [hrun, hsame] at hs
      exact hs
  cases a with
  | users token route => exact Or.inl ⟨s, hopen (fun _ _ => rfl) hs, Or.inl rfl⟩
  | miniverses token route => exact Or.inl ⟨s, hopen (fun _ _ => rfl) hs, Or.inl rfl⟩
  | files token route => exact Or.inl ⟨s, hopen (fun _ _ => rfl) hs, Or.inl rfl⟩
  | open_logs token miniverse_id chunks inputs => exact Or.inl ⟨s, hopen (fun _ _ => rfl) hs, Or.inl rfl⟩
  | receive_webhook data => exact Or.inl ⟨s, hs, Or.inl rfl⟩
  | receive_text session => exact Or.inl ⟨s, List.mem_of_mem_eraseIdx hs, Or.inl rfl⟩
  | next_event session =>
      have hmodify : s ∈ l.sessions.modify session (·.handle l.world) := hs
      obtain ⟨j, hj, rfl⟩ := List.mem_iff_getElem.mp hmodify
      rw [List.length_modify] at hj
      refine Or.inl ⟨l.sessions[j], List.getElem_mem hj, ?_⟩
      rw [List.getElem_modify]
      split
      · exact Or.inr rfl
      · exact Or.inl rfl
  | open_updates token =>
      obtain ⟨w, ⟨e, _, _, hrun⟩ | ⟨u, hlogin, hrun⟩⟩ := authenticated_cases env token (ServiceRequest.handle sur · .open_updates) l
      · rw [Arrival.handle, hrun] at hs
        exact Or.inl ⟨s, hs, Or.inl rfl⟩
      · rw [Arrival.handle, hrun, ServiceRequest.handle, Eff.bind_run] at hs ⊢
        have hsessions : (onWorld (websocket_miniverse_updates_handler sur u.id) { l with world := w }).2.sessions = l.sessions := rfl
        rcases hdata : onWorld (websocket_miniverse_updates_handler sur u.id) { l with world := w } with ⟨e | data, l'⟩
        · rw [hdata] at hs hsessions
          exact Or.inl ⟨s, hsessions ▸ hs, Or.inl rfl⟩
        · rw [hdata] at hs hsessions
          have happend : s ∈ l'.sessions ++ [Session.new l'.world u.id] := hs
          rcases List.mem_append.mp happend with hold | hnew
          · exact Or.inl ⟨s, hsessions ▸ hold, Or.inl rfl⟩
          · rw [login_ownId hlogin.login] at hnew
            exact Or.inr ⟨token, rfl, List.mem_singleton.mp hnew⟩

/-- The session was opened by a request of its user, and is followed from there on. -/
structure Opened (sur : Surroundings env.toPlatform) (l : Live α) (arrivals : List Arrival) (s : Session) (before : List Arrival)
    (token : Token) (since : List Arrival) : Prop where
  arrivals : arrivals = before ++ [.open_updates token] ++ since
  user : s.user_id = (runs (Arrival.handle sur) before l).world.db.ownId token
  follows : Follows sur (runs (Arrival.handle sur) (before ++ [.open_updates token]) l) since s

namespace Opened

variable {arrivals before : List Arrival} {token : Token}

theorem arrival (h : Opened sur l arrivals s before token since) (a : Arrival) :
    Opened sur l (arrivals ++ [a]) s before token (since ++ [a]) :=
  ⟨by rw [h.arrivals, List.append_assoc _ since], h.user, h.follows.arrival a⟩

theorem handle (h : Opened sur l arrivals s before token since) :
    Opened sur l arrivals (s.handle (runs (Arrival.handle sur) arrivals l).world) before token since := by
  have hruns : runs (Arrival.handle sur) arrivals l =
      runs (Arrival.handle sur) since (runs (Arrival.handle sur) (before ++ [.open_updates token]) l) := by
    rw [h.arrivals, runs_append _ _ since]
  exact ⟨h.arrivals, (s.handle_user_id _).trans h.user, hruns ▸ h.follows.handle⟩

end Opened

theorem opened_new (sur : Surroundings env.toPlatform) (arrivals : List Arrival) (token : Token) (l : Live α) :
    Opened sur l (arrivals ++ [.open_updates token])
      (Session.new (runs (Arrival.handle sur) (arrivals ++ [.open_updates token]) l).world
        ((runs (Arrival.handle sur) arrivals l).world.db.ownId token)) arrivals token [] :=
  ⟨(List.append_nil _).symm, rfl, follows_new sur _ _⟩

end Backend
