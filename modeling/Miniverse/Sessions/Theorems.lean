import Miniverse.Sessions.Lemmas.Rights
import Miniverse.Sessions.Lemmas.Stream
import Miniverse.Status.Theorems

/-!
# Theorems about update sessions
-/

namespace Backend

open Lib

/-! ## The lists, and the events after them -/

section Lists

variable {V κ : Type} [DecidableEq κ] {msmp : MSMPJson V} {source : Source V} {miniverse_id : String} {webSocket : Bool}
  {role : Role} {list : κ → StatusList} {value : κ → Option V}

/-- A client that was sent what is stored when its subscription starts, and every event after that, knows the lists. -/
theorem snapshot_and_stream (hrole : Role.user ≤ role) {w : StatusWorld V} {schedule : List (ConnectionTurn κ)}
    (hmeets : Meets (Connection.take role) (FollowsStore msmp miniverse_id list value) schedule
      (Connection.start msmp source miniverse_id webSocket list value w))
    (hended : ∀ k, ((runs (Connection.take role) schedule
      (Connection.start msmp source miniverse_id webSocket list value w)).call k).isDone = true)
    (hhandled : (runs (Connection.take role) schedule
      (Connection.start msmp source miniverse_id webSocket list value w)).handled =
        some (runs (Connection.take role) schedule
          (Connection.start msmp source miniverse_id webSocket list value w)).status.published.length) :
    ∀ l ∈ [StatusList.players, .operators, .banned_players],
      Told msmp miniverse_id (runs (Connection.take role) schedule
        (Connection.start msmp source miniverse_id webSocket list value w)) l
        (runs (Connection.take role) schedule
          (Connection.start msmp source miniverse_id webSocket list value w)).sent := by
  have hinv := runs_invariant (I := Streaming msmp miniverse_id list value)
    (fun c t hfollows h => Streaming.turn hrole hfollows h) hmeets (streaming_start source webSocket w)
  generalize runs (Connection.take role) schedule (Connection.start msmp source miniverse_id webSocket list value w) = c at *
  obtain ⟨_, _, hfollowed⟩ := hinv.subscribed _ hhandled
  have hupcoming : c.upcoming c.status.published.length = c.sent := by simp [Connection.upcoming]
  rw [hupcoming] at hfollowed
  intro l hl
  have hpublish : l.publish = true := by
    revert hl
    cases l <;> decide
  rcases hfollowed l hpublish with ⟨k, ⟨hk, hpublishing⟩, _⟩ | htold
  · have hdone := hended k
    rw [hpublishing, ServerStatusStore.isDone_publishing (StatusList.method_mem hk)] at hdone
    cases hdone
  · exact htold

/-- Texts, of which the empty one has no players. -/
def sampleMsmp : MSMPJson String := ⟨sampleJson, "", fun _ players => players, fun seen => seen.getD ""⟩

/-- A client that connects to a router while a call sets the players. -/
def sampleConnection : Connection String Unit :=
  Connection.start sampleMsmp (fun _ _ => .ok none) "m" false (fun _ => .players) (fun _ => some "a") sampleStatus

/-- The reads, until their end. -/
def sampleReads : List (ConnectionTurn Unit) :=
  [.read .players, .read .players, .read .players, .read .seen_players]

theorem snapshot_and_stream_sample :
    Told sampleMsmp "m" (runs (Connection.take .user)
      (sampleReads ++ [.send_init_data, .start_subscription, .call (), .call (), .call (), .handle]) sampleConnection)
      .players
      (runs (Connection.take .user)
        (sampleReads ++ [.send_init_data, .start_subscription, .call (), .call (), .call (), .handle])
        sampleConnection).sent := by
  have hreads {c : Connection String Unit} (h : ((c.call ()).once c.status).1.published = c.status.published) :
      FollowsStore sampleMsmp "m" (fun _ => .players) (fun _ => some "a") c (.call ()) :=
    fun _ hpublishing => absurd rfl (hpublishing.ne_of_still h)
  have hmeets : Meets (Connection.take .user) (FollowsStore sampleMsmp "m" (fun _ => .players) fun _ => some "a")
      (sampleReads ++ [.send_init_data, .start_subscription, .call (), .call (), .call (), .handle]) sampleConnection := by
    refine ⟨trivial, trivial, trivial, trivial, trivial, fun _ _ l hl => ?_, hreads rfl, hreads rfl,
      fun _ _ => Or.inl rfl, trivial, trivial⟩
    refine Or.inr ⟨some "", ?_, ?_⟩
    · cases l <;> rfl
    · cases l <;> rfl
  exact snapshot_and_stream (by decide) hmeets (fun _ => rfl) rfl .players (List.mem_cons_self ..)

/-- The players are set after they were read, and before the subscription starts. -/
theorem snapshot_misses_update :
    ¬ ∀ (msmp : MSMPJson String) (source : Source String) (miniverse_id : String) (webSocket : Bool) (role : Role)
      (list : Unit → StatusList) (value : Unit → Option String) (w : StatusWorld String)
      (schedule : List (ConnectionTurn Unit)), .user ≤ role →
      (∀ k, ((runs (Connection.take role) schedule
        (Connection.start msmp source miniverse_id webSocket list value w)).call k).isDone = true) →
      (runs (Connection.take role) schedule (Connection.start msmp source miniverse_id webSocket list value w)).handled =
        some (runs (Connection.take role) schedule
          (Connection.start msmp source miniverse_id webSocket list value w)).status.published.length →
      ∀ l ∈ [StatusList.players, .operators, .banned_players],
        Told msmp miniverse_id (runs (Connection.take role) schedule
          (Connection.start msmp source miniverse_id webSocket list value w)) l
          (runs (Connection.take role) schedule
            (Connection.start msmp source miniverse_id webSocket list value w)).sent := by
  intro h
  obtain ⟨data, hlast, hshown⟩ := h sampleMsmp (fun _ _ => .ok none) "m" false .user (fun _ => .players)
    (fun _ => some "a") sampleStatus
    (sampleReads ++ [.call (), .call (), .call (), .send_init_data, .start_subscription]) (by decide) (fun _ => rfl) rfl
    .players (by decide)
  have hsent : lastSent .players (runs (Connection.take .user)
      (sampleReads ++ [.call (), .call (), .call (), .send_init_data, .start_subscription]) sampleConnection).sent =
        some (some "") := rfl
  obtain rfl : some "" = data := Option.some.inj (hsent.symm.trans hlast)
  revert hshown
  decide

end Lists

/-! ## The roles of a user -/

section Roles

variable {α : Type} {env : Env α}

/-- A session that has handled all events knows the roles of its user, and is sent nothing more of a miniverse in which
the user has none. -/
def Live.RolesKnown (l : Live α) : Prop :=
  ∀ s ∈ l.sessions, s.failed = false → s.handled = l.world.events.length → s.Current l.world ∧
    ∀ db event s', l.world.db.get_miniverse_role s.user_id event.miniverse_id = .none →
      db.get_miniverse_role s.user_id event.miniverse_id = .none →
      s.handle_miniverse_channel_message db event = some s' → s'.sent = s.sent

/-- While no session relies on a role that a call changes silently, all sessions know the roles of their users. -/
theorem sessions_lose_rights {w : World α} {turns : List LiveTurn}
    (hmeets : Meets (Live.take env) (AnnouncesRights env) turns ⟨w, []⟩) :
    (runs (Live.take env) turns ⟨w, []⟩).RolesKnown := by
  have hinformed := runs_invariant (I := fun l : Live α => ∀ s ∈ l.sessions, s.Informed l.world)
    (fun l t hannounces h => informed_turn hannounces h) hmeets (by simp)
  intro s hs hfailed hhandled
  have hcurrent : s.Current (runs (Live.take env) turns ⟨w, []⟩).world := by
    rcases (hinformed s hs).knows with hfailed' | ⟨event, hevent, _⟩ | hcurrent
    · rw [hfailed] at hfailed'
      cases hfailed'
    · rw [hhandled, List.drop_length] at hevent
      cases hevent
    · exact hcurrent
  refine ⟨hcurrent, fun db event s' hnone hafter hrun => ?_⟩
  exact Session.sends_nothing ((hcurrent _).trans hnone) hafter hrun

def sampleOwner : User := ⟨"owner", true, "Owner", .user⟩

/-- A miniverse with an owner, and a moderator as a further user. -/
def sampleRights : World String :=
  { sampleWorld with db := {
      users := [sampleOwner, sampleModerator]
      miniverses := [(sampleCreate "1.21.8").toMiniverse sampleId "sample" "secret"]
      user_roles := [⟨"owner", sampleId, .admin⟩, ⟨"moderator", sampleId, .user⟩]
      mods := []
      weight := sampleWeight } }

/-- The moderator loses the role before the account. -/
def sampleRevocation : List LiveTurn :=
  [.connect "moderator", .call (.set_user_role sampleOwner sampleId.str "Moderator" .none), .handle 0,
    .call (.delete_user "moderator")]

set_option maxRecDepth 10000 in
theorem sessions_lose_rights_sample : (runs (Live.take sampleEnv) sampleRevocation ⟨sampleRights, []⟩).RolesKnown := by
  refine sessions_lose_rights ⟨trivial, fun _ _ hsilent => hsilent.elim, trivial, fun s _ hsilent => ?_, trivial⟩
  obtain ⟨huser, _, miniverse_id, hrole⟩ := hsilent
  have hrows : (runs (Live.take sampleEnv) (sampleRevocation.take 3) ⟨sampleRights, []⟩).world.db.user_roles =
      [⟨"owner", sampleId, .admin⟩] := by decide
  have hother : "owner" ≠ s.user_id := by
    intro heq
    rw [← heq] at huser
    exact absurd (show sampleWeight "owner" = sampleWeight "moderator" from huser) (by decide)
  refine absurd (Database.get_miniverse_role_none ?_) hrole
  exact (congrArg (List.filter _) hrows).trans (by simp [hother])

/-- An account is deleted while its user follows a miniverse. -/
theorem sessions_keep_rights : ¬ ∀ (env : Env String) (w : World String) (turns : List LiveTurn),
    (runs (Live.take env) turns ⟨w, []⟩).RolesKnown := by
  intro h
  have hcurrent := (h sampleEnv sampleRights [.connect "moderator", .call (.delete_user "moderator")]
    (Session.new sampleRights "moderator") (List.mem_singleton.mpr rfl) rfl rfl).1 sampleId.str
  revert hcurrent
  decide

end Roles

end Backend
