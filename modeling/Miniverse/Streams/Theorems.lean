import Miniverse.Access.Theorems
import Miniverse.Streams.Lemmas.Following

/-!
# Theorems about what sessions are sent
-/

namespace Backend

open Lib

variable {α : Type} {env : Env α} {l : Live α}

/-- Every open session was opened by its user, and was sent what its user was to see since then. -/
theorem sessions_follow_roles (sur : Surroundings env.toPlatform) (hstart : l.sessions = []) (arrivals : List Arrival) :
    ∀ s ∈ (runs (Arrival.handle sur) arrivals l).sessions, ∃ before token since, Opened sur l arrivals s before token since := by
  induction arrivals using List.reverseRecOn with
  | nil => simp [hstart]
  | append_singleton arrivals a ih =>
      intro s hs
      rw [runs_concat] at hs
      rcases sessions_after a _ hs with ⟨s₀, hs₀, rfl | rfl⟩ | ⟨token, rfl, rfl⟩
      · obtain ⟨before, token, since, hopened⟩ := ih s hs₀
        exact ⟨before, token, since ++ [a], hopened.arrival a⟩
      · obtain ⟨before, token, since, hopened⟩ := ih s₀ hs₀
        exact ⟨before, token, since ++ [a], hopened.handle.arrival a⟩
      · rw [← runs_concat]
        exact ⟨arrivals, token, [], opened_new sur arrivals token l⟩

/-- A miniverse of which the guest knows nothing. -/
def sampleSingle : World String :=
  { sampleShared with db :=
      ⟨[sampleModerator, sampleGuest], [sampleContained sampleId "1"], [⟨"moderator", sampleId, .admin⟩], [], sampleWeight⟩ }

/-- The guest is given a role, and loses it again. -/
def sampleFollowed : List Arrival :=
  [.open_updates ⟨"guest", "Guest"⟩, .miniverses ⟨"moderator", "Moderator"⟩ (.set_user_role sampleId.str "Guest" .user), .next_event 0,
    .miniverses ⟨"moderator", "Moderator"⟩ (.set_user_role sampleId.str "Guest" .none), .next_event 0]

set_option maxRecDepth 10000 in
theorem sessions_follow_roles_sample :
    ∃ s ∈ (runs (Arrival.handle (sampleSurroundings "line")) sampleFollowed ⟨sampleSingle, []⟩).sessions, s.sent.length = 2 ∧
      ∃ before token since, Opened (sampleSurroundings "line") ⟨sampleSingle, []⟩ sampleFollowed s before token since := by
  have hsent : ∃ s ∈ (runs (Arrival.handle (sampleSurroundings "line")) sampleFollowed ⟨sampleSingle, []⟩).sessions,
      s.sent.length = 2 := by decide +kernel
  obtain ⟨s, hs, hlength⟩ := hsent
  exact ⟨s, hs, hlength, sessions_follow_roles (sampleSurroundings "line") rfl sampleFollowed s hs⟩

end Backend
