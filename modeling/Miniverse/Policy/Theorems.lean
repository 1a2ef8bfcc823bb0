import Miniverse.Access.Theorems
import Miniverse.Policy.Lemmas.Decisions

/-!
# Theorems about the policy
-/

namespace Backend

open Lib

variable {α : Type} {env : Env α} {db : Database} {l : Live α} {user_id : String}

theorem active_of_row (hunique : db.UniqueUsers) (h : db.Active user_id) : db.rights.Active (db.weight user_id) .none := by
  obtain ⟨v, hv, hid, hactive⟩ := h
  exact Database.active_of_findUser (findUser_of_weight hunique hv hid) hactive

theorem active_of_administers (hunique : db.UniqueUsers) (h : db.Administers user_id) :
    db.rights.Active (db.weight user_id) .admin := by
  obtain ⟨v, hv, hid, hactive, hrole⟩ := h
  exact (Database.admin_iff (findUser_of_weight hunique hv hid) hactive).mpr hrole

/-- Who has a role has a row, which is found under the identifier. -/
theorem role_of_holder (hsound : db.Sound) {id : Uuid4} (h : db.get_miniverse_role user_id id.str ≠ .none) :
    db.rights.roles (db.weight user_id) id = db.get_miniverse_role user_id id.str := by
  obtain ⟨r, hr, rfl, _⟩ := exists_role (Role.none_lt.mpr h)
  obtain ⟨v, hv, hid⟩ := List.mem_map.mp (hsound.holders r hr)
  rw [← hid]
  exact Database.rights_role (findUser_of_weight hsound.users hv rfl) id

/-! ## Origins -/

/-- Every run does what permitted actions do that its requests are for, and in these actions every role, every administrator and every
accepted user has its origin. -/
theorem rights_have_origin (sur : Surroundings env.toPlatform) (arrivals : List Arrival) (h : l.world.db.Sound)
    (hspells : Meets (Arrival.handle sur) (fun l a => a.SpellsOwn l.world.db) arrivals l) :
    ∃ logs, Explains sur arrivals l logs ∧
      (∀ user_id (id : Uuid4), (runs (Arrival.handle sur) arrivals l).world.db.get_miniverse_role user_id id.str ≠ .none →
        RoleOrigin l.world.db.rights logs.flatten (l.world.db.weight user_id) id
          ((runs (Arrival.handle sur) arrivals l).world.db.get_miniverse_role user_id id.str)) ∧
      (∀ user_id, (runs (Arrival.handle sur) arrivals l).world.db.Administers user_id →
        AdminOrigin l.world.db.rights logs.flatten (l.world.db.weight user_id)) ∧
      ∀ user_id, (runs (Arrival.handle sur) arrivals l).world.db.Active user_id →
        AcceptedFrom l.world.db.rights logs.flatten (l.world.db.weight user_id) := by
  obtain ⟨logs, hexplains⟩ := exists_explanation sur arrivals h hspells
  have hmeets : Meets (Arrival.handle sur) (fun _ _ => True) arrivals l := meets_of_forall (fun _ _ => trivial) _ _
  obtain ⟨hsound, hweight⟩ : (runs (Arrival.handle sur) arrivals l).world.db.Sound ∧
      (runs (Arrival.handle sur) arrivals l).world.db.weight = l.world.db.weight := by
    refine runs_invariant (I := fun l' : Live α => l'.world.db.Sound ∧ l'.world.db.weight = l.world.db.weight) (fun l' a _ h => ?_)
      hmeets ⟨h, rfl⟩
    have hchange := a.rowChange sur l'
    exact ⟨hchange.sound h.1, hchange.weight.trans h.2⟩
  have hend : runs Rights.take logs.flatten l.world.db.rights = (runs (Arrival.handle sur) arrivals l).world.db.rights := by
    have hall := hexplains.rights arrivals.length
    rwa [List.take_length, hexplains.asked.length_eq, List.take_length] at hall
  rw [← hweight]
  refine ⟨logs, hexplains, fun user_id id hrole => ?_, fun user_id hadmin => ?_, fun user_id hactive => ?_⟩
  · have hsame := role_of_holder hsound hrole
    rw [← hend] at hsame
    rw [← hsame] at hrole ⊢
    exact Rights.role_origin hexplains.allowed _ id hrole
  · exact Rights.admin_origin hexplains.allowed _ (hend ▸ active_of_administers hsound.users hadmin)
  · exact Rights.accepted_from hexplains.allowed _ (hend ▸ active_of_row hsound.users hactive)

theorem rights_have_origin_sample : ∃ logs, Explains (sampleSurroundings "line") sampleClimber ⟨sampleShared, []⟩ logs ∧
    (∀ user_id (id : Uuid4), (runs (Arrival.handle (sampleSurroundings "line")) sampleClimber
        ⟨sampleShared, []⟩).world.db.get_miniverse_role user_id id.str ≠ .none →
      RoleOrigin sampleShared.db.rights logs.flatten (sampleWeight user_id) id
        ((runs (Arrival.handle (sampleSurroundings "line")) sampleClimber
          ⟨sampleShared, []⟩).world.db.get_miniverse_role user_id id.str)) ∧
    (∀ user_id, (runs (Arrival.handle (sampleSurroundings "line")) sampleClimber ⟨sampleShared, []⟩).world.db.Administers user_id →
      AdminOrigin sampleShared.db.rights logs.flatten (sampleWeight user_id)) ∧
    ∀ user_id, (runs (Arrival.handle (sampleSurroundings "line")) sampleClimber ⟨sampleShared, []⟩).world.db.Active user_id →
      AcceptedFrom sampleShared.db.rights logs.flatten (sampleWeight user_id) :=
  rights_have_origin (sampleSurroundings "line") sampleClimber (l := ⟨sampleShared, []⟩) sound_sampleShared
    ⟨fun _ => by decide, trivial, trivial, trivial, trivial⟩

/-! ## Decisions -/

/-- In every run, while the database does not fail, the requests about users and roles that spell their own users as the rows do are
answered where the policy grants them, and else not. -/
theorem policy_decides (sur : Surroundings env.toPlatform) (hcommit : ∀ tick, env.commit tick = .ok ()) (arrivals : List Arrival)
    (h : l.world.db.Sound) :
    Meets (Arrival.handle sur) (fun l a => a.SpellsOwn l.world.db → ∀ granted, a.GrantedWhen l.world.db.weight granted →
      ((a.handle sur l).1.isOk = true ↔ granted l.world.db.rights)) arrivals l := by
  have hmeets : Meets (Arrival.handle sur) (fun _ _ => True) arrivals l := meets_of_forall (fun _ _ => trivial) _ _
  have hsound := hmeets.always (I := fun l : Live α => l.world.db.Sound) (fun l a _ h => (a.rowChange sur l).sound h) h
  exact hsound.mono fun l a hl hspells granted hwhen => granted_iff hcommit sur hwhen hspells hl.2

theorem policy_decides_sample : Meets (Arrival.handle (sampleSurroundings "line")) (fun l a => a.SpellsOwn l.world.db →
    ∀ granted, a.GrantedWhen l.world.db.weight granted →
      ((a.handle (sampleSurroundings "line") l).1.isOk = true ↔ granted l.world.db.rights)) sampleClimber ⟨sampleShared, []⟩ :=
  policy_decides (sampleSurroundings "line") (fun _ => rfl) sampleClimber (l := ⟨sampleShared, []⟩) sound_sampleShared

end Backend
