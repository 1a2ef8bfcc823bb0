import Miniverse.Access.Lemmas.Ranks
import Miniverse.Access.Lemmas.Sound
import Miniverse.Isolation.Theorems

/-!
# Theorems about all that arrives
-/

namespace Backend

open Lib

variable {α : Type} {env : Env α} {arrivals : List Arrival} {l : Live α}

/-! ## The tables -/

/-- Nothing that arrives breaks a key of the tables, whatever fails. -/
theorem tables_stay_sound (sur : Surroundings env.toPlatform) (arrivals : List Arrival) (h : l.world.db.Sound) :
    (runs (Arrival.handle sur) arrivals l).world.db.Sound := by
  have hmeets : Meets (Arrival.handle sur) (fun _ _ => True) arrivals l := meets_of_forall (fun _ _ => trivial) _ _
  exact runs_invariant (I := fun l : Live α => l.world.db.Sound) (fun l a _ h => (a.rowChange sur l).sound h) hmeets h

theorem sound_sampleShared : sampleShared.db.Sound where
  users := by
    unfold Database.UniqueUsers
    decide
  usernames := by decide
  miniverses := by decide
  roles := ⟨by decide, by decide, by decide⟩
  holders := by decide
  mods := List.nodup_nil
  rooted := nofun

def sampleGuestToken : Token := ⟨"guest", "Moderator"⟩

/-- A name that is taken, a start and a role for an unknown user. -/
def sampleArrivals : List Arrival :=
  [.users sampleGuestToken .get_me, .miniverses ⟨"guest", "Guest"⟩ (.start_miniverse sampleIdE.str),
    .miniverses ⟨"moderator", "Moderator"⟩ (.set_user_role sampleId.str "nobody" .user)]

theorem tables_stay_sound_sample :
    (runs (Arrival.handle (sampleSurroundings "line")) sampleArrivals ⟨sampleShared, []⟩).world.db.Sound :=
  tables_stay_sound (sampleSurroundings "line") sampleArrivals sound_sampleShared

/-! ## Acceptance -/

/-- The request raises, and changes no more than the table of the users. -/
def Refused (sur : Surroundings env.toPlatform) (l : Live α) (a : Arrival) : Prop :=
  ∃ e w, a.handle sur l = (.error e, { l with world := w }) ∧ OnlyUsers l.world w

/-- Until an administrator accepts a user, every request of this user is refused. -/
theorem access_needs_acceptance (sur : Surroundings env.toPlatform) {user_id : String} (hstart : ¬ l.world.db.Active user_id)
    (hmeets : Meets (Arrival.handle sur) (Unaccepted user_id) arrivals l) :
    Meets (Arrival.handle sur) (fun l a => ∀ token, a.token = some token →
        l.world.db.weight token.sub = l.world.db.weight user_id → Refused sur l a) arrivals l ∧
      ¬ (runs (Arrival.handle sur) arrivals l).world.db.Active user_id := by
  have hstep (l : Live α) (a : Arrival) (hcond : Unaccepted user_id l a) (hactive : ¬ l.world.db.Active user_id) :
      ¬ (a.handle sur l).2.world.db.Active user_id := (a.rowChange sur l).inactive_kept hcond hactive
  refine ⟨?_, runs_invariant (I := fun l : Live α => ¬ l.world.db.Active user_id) hstep hmeets hstart⟩
  refine (hmeets.always hstep hstart).mono fun l a hal token htoken hsub => ?_
  have hinactive : ¬ l.world.db.Active token.sub := fun ⟨v, hv, hid, hactive⟩ => hal.2 ⟨v, hv, hid.trans hsub, hactive⟩
  exact a.refused sur htoken hinactive (hal.1.2 token htoken hsub)

/-- A user who is new, and whom another user accepts without being an administrator. -/
def sampleNewcomer : List Arrival :=
  [.users ⟨"newcomer", "Newcomer"⟩ .get_me, .users ⟨"guest", "Guest"⟩ (.accept_user_request "newcomer"),
    .miniverses ⟨"Newcomer", "Newcomer"⟩ .list_miniverses]

set_option maxRecDepth 10000 in
theorem access_needs_acceptance_sample :
    Meets (Arrival.handle (sampleSurroundings "line")) (fun l a => ∀ token, a.token = some token →
        l.world.db.weight token.sub = l.world.db.weight "newcomer" → Refused (sampleSurroundings "line") l a) sampleNewcomer
          ⟨sampleShared, []⟩ ∧
      ¬ (runs (Arrival.handle (sampleSurroundings "line")) sampleNewcomer ⟨sampleShared, []⟩).world.db.Active "newcomer" := by
  refine access_needs_acceptance (sampleSurroundings "line") (by decide)
    ⟨⟨fun _ _ h => (by cases h), ?_⟩, ⟨?_, ?_⟩, ⟨fun _ _ h => (by cases h), ?_⟩, trivial⟩
  · exact fun _ _ _ => List.cons_ne_nil _ _
  · rintro token target h _
    cases h
    decide +kernel
  · exact fun _ _ _ hempty => absurd (congrArg List.length hempty) (by decide +kernel)
  · exact fun _ _ _ hempty => absurd (congrArg List.length hempty) (by decide +kernel)

/-! ## Ranks -/

/-- The users who send the requests. -/
def Sends (weight : String → String) (arrivals : List Arrival) (user : String) : Prop :=
  ∃ a ∈ arrivals, ∃ token, a.token = some token ∧ weight token.sub = user

/-- Requests of users who are no administrators give nobody a rank, accept nobody and change nobody else. -/
theorem ranks_need_administrators (sur : Surroundings env.toPlatform)
    (hstart : Rankless (Sends l.world.db.weight arrivals) l.world.db) :
    RanksKept (Sends l.world.db.weight arrivals) l.world.db (runs (Arrival.handle sur) arrivals l).world.db := by
  have hmeets : Meets (Arrival.handle sur) (fun _ a => ∀ token, a.token = some token →
      Sends l.world.db.weight arrivals (l.world.db.weight token.sub)) arrivals l :=
    meets_of_mem (fun a ha _ token htoken => ⟨a, ha, token, htoken, rfl⟩) l
  exact runs_invariant (I := fun l' : Live α => RanksKept (Sends l.world.db.weight arrivals) l.world.db l'.world.db)
    (fun l' a hsenders h => h.step hstart hsenders (a.rowChange sur l')) hmeets (.refl _ _)

/-- A user without a rank asks for one, and leaves. -/
def sampleClimber : List Arrival :=
  [.users ⟨"guest", "Guest"⟩ (.set_user_role "guest" .admin), .miniverses ⟨"guest", "Guest"⟩ (.set_user_role sampleId.str "guest" .admin),
    .miniverses ⟨"guest", "Guest"⟩ (.start_miniverse sampleIdE.str), .users ⟨"guest", "Guest"⟩ .delete_me]

theorem sends_sampleClimber {user : String} (h : Sends sampleWeight sampleClimber user) : user = "guest" := by
  obtain ⟨a, ha, token, htoken, rfl⟩ := h
  have htokens : ∀ a ∈ sampleClimber, (a.token.map fun token => sampleWeight token.sub) = some "guest" := by decide
  have hsub := htokens a ha
  rw [htoken] at hsub
  exact Option.some.inj hsub

theorem ranks_need_administrators_sample :
    RanksKept (Sends sampleWeight sampleClimber) sampleShared.db
      (runs (Arrival.handle (sampleSurroundings "line")) sampleClimber ⟨sampleShared, []⟩).world.db := by
  refine ranks_need_administrators (sampleSurroundings "line") (l := ⟨sampleShared, []⟩) ⟨fun user_id hsends => ?_, sampleModerator,
    by decide, fun hsends => absurd (sends_sampleClimber hsends) (by decide)⟩
  rintro ⟨v, hv, hid, hadmin⟩
  have hplain : ∀ v ∈ sampleShared.db.users, sampleWeight v.id = "guest" → ¬ v.role = .admin := by decide
  exact hplain v hv (hid.trans (sends_sampleClimber hsends)) hadmin.2

/-- A request of the run takes the row of the user away. -/
def Leaves (sur : Surroundings env.toPlatform) (arrivals : List Arrival) (l : Live α) (user_id : String) : Prop :=
  ∃ before a after, arrivals = before ++ a :: after ∧
    user_id ∈ (runs (Arrival.handle sur) before l).world.db.users.map User.id ∧
    user_id ∉ (a.handle sur (runs (Arrival.handle sur) before l)).2.world.db.users.map User.id

/-- Requests of users who do not administer a miniverse change neither its settings nor the roles in it, but for the roles of users
who are deleted. -/
theorem rights_need_administrators (sur : Surroundings env.toPlatform) {m : Miniverse} (hsound : l.world.db.Sound)
    (hrow : m ∈ l.world.db.miniverses)
    (hplain : ∀ user_id, Sends l.world.db.weight arrivals (l.world.db.weight user_id) →
      l.world.db.get_miniverse_role user_id m.id.str < .admin) :
    RightsKept (Leaves sur arrivals l) m l.world.db (runs (Arrival.handle sur) arrivals l).world.db := by
  have hstart : RightsKept (Leaves sur arrivals l) m l.world.db l.world.db :=
    ⟨rfl, List.mem_map_of_mem hrow, fun r hr hid => List.inj_on_of_nodup_map hsound.miniverses hr hrow hid ▸ rfl, fun _ => Or.inl rfl⟩
  have hmeets : Meets (Arrival.handle sur) (fun l' a =>
      (∀ token user_id, a.token = some token → l.world.db.weight user_id = l.world.db.weight token.sub →
        l.world.db.get_miniverse_role user_id m.id.str < .admin) ∧
      ∀ user_id, user_id ∈ l'.world.db.users.map User.id → user_id ∉ (a.handle sur l').2.world.db.users.map User.id →
        Leaves sur arrivals l user_id) arrivals l := by
    refine meets_of_cuts fun before a after hcut => ⟨fun token user_id htoken hid => hplain user_id ?_, fun user_id hmem hgone => ?_⟩
    · exact ⟨a, hcut ▸ List.mem_append_right _ List.mem_cons_self, token, htoken, hid.symm⟩
    · exact ⟨before, a, after, hcut, hmem, hgone⟩
  refine (runs_invariant (I := fun l' : Live α => RightsKept (Leaves sur arrivals l) m l.world.db l'.world.db ∧ l'.world.db.Sound)
    (fun l' a hcond h => ?_) hmeets ⟨hstart, hsound⟩).1
  have hchange := a.rowChange sur l'
  exact ⟨h.1.step h.2 hcond.1 hcond.2 hchange, hchange.sound h.2⟩

theorem rights_need_administrators_sample :
    RightsKept (Leaves (sampleSurroundings "line") sampleClimber ⟨sampleShared, []⟩) (sampleContained sampleIdE "2") sampleShared.db
      (runs (Arrival.handle (sampleSurroundings "line")) sampleClimber ⟨sampleShared, []⟩).world.db := by
  refine rights_need_administrators (sampleSurroundings "line") (l := ⟨sampleShared, []⟩) sound_sampleShared (by decide)
    fun user_id hsends => ?_
  by_cases hrole : sampleShared.db.get_miniverse_role user_id sampleIdE.str = .none
  · exact hrole ▸ by decide
  · obtain ⟨r, hr, rfl, hid⟩ := exists_role (Role.none_lt.mpr hrole)
    have hroles : ∀ r ∈ sampleShared.db.user_roles, r.miniverse_id.str = sampleIdE.str →
        sampleShared.db.get_miniverse_role r.user_id sampleIdE.str < .admin := by decide
    exact hroles r hr hid

end Backend
