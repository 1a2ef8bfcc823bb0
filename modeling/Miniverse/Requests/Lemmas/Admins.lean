import Miniverse.Requests.Users
import Miniverse.Users.Lemmas.Admins

/-!
# Administrators who leave at the same time

The steps of the requests by which an administrator may stop being one, and the other administrator whom each of them has
counted.
-/

namespace Backend

open Lib

variable {α ι : Type} {env : Env α} {db : Database} {w : World α} {user_id : String} {r : AdminRequest}

/-- The user has a row with the role of administrator. -/
def Database.AdminRow (db : Database) (user_id : String) : Prop :=
  ∃ u ∈ db.users, db.weight u.id = db.weight user_id ∧ u.role = .admin

def Database.HasAdmin (db : Database) : Prop := ∃ u ∈ db.users, u.role = .admin

namespace Requests

/-- The step takes the user, or the role of administrator, away. -/
inductive Removes (env : Env α) (user_id : String) : (World α → World α) → Prop
  | delete : Removes env user_id fun w => (commit env (·.deleteUser user_id) w).2
  | demote {role : Role} : role ≠ .admin → Removes env user_id fun w => (commit env (·.setUserRole user_id role) w).2

/-- The steps of a request after its first: it leaves the tables alone, removes its own user, or makes it an
administrator. -/
inductive AdminStep (env : Env α) (r : AdminRequest) : (World α → World α) → Prop
  | quiet {f : World α → World α} : (∀ w, (f w).db = w.db) → AdminStep env r f
  | removes {f : World α → World α} : r.Demotes → Removes env r.current_user.id f → AdminStep env r f
  | promote : AdminStep env r fun w => (commit env (·.setUserRole r.current_user.id .admin) w).2

/-! ## Programs -/

theorem all_delete_user (h : r.Demotes) : Async.All (AdminStep env r) (delete_user env r.current_user.id).run :=
  Async.All.bind_except (Async.all_lift (.quiet fun _ => rfl)) fun _ => Async.all_lift (.removes h .delete)

theorem all_set_user_role {role : Role} (h : role ≠ .admin → r.Demotes) :
    Async.All (AdminStep env r) (set_user_role env r.current_user.id role).run := by
  refine Async.All.bind_except (Async.all_lift (.quiet fun w => ?_)) fun user => ?_
  · show ((Eff.getOr (w.db.findUser r.current_user.id) .attributeError : Act α User) w).2.db = w.db
    cases w.db.findUser r.current_user.id <;> rfl
  · split
    · refine Async.all_lift (.quiet fun w => ?_)
      rcases commit_cases env id w with ⟨e, hrun⟩ | hrun <;> rw [hrun] <;> rfl
    · by_cases hrole : role = .admin
      · subst hrole
        exact Async.all_lift .promote
      · exact Async.all_lift (.removes (h hrole) (.demote hrole))

/-- The first step of a request counts the administrators, and lets it go on while there are others. -/
def Counts (env : Env α) (r : AdminRequest) (w : World α) : Prop :=
  ((r.program env).run.once w).1.db = w.db ∧ (((r.program env).run.once w).2.isDone = true ∨
    1 < count_admins w.db ∧ Async.All (AdminStep env r) ((r.program env).run.once w).2)

theorem counts_of_check {m : Act α Unit} {k : Unit → Awaiting α Unit} (hprogram : r.program env = await m >>= k)
    (hm : m w = (.ok (), w) ∧ 1 < count_admins w.db ∨ ∃ e, m w = (.error e, w))
    (hk : ∀ a, Async.All (AdminStep env r) (k a).run) : Counts env r w := by
  unfold Counts
  rw [hprogram]
  rcases hm with ⟨hm, hcount⟩ | ⟨e, hm⟩
  · rw [await, Async.once_lift_ok hm]
    exact ⟨rfl, Or.inr ⟨hcount, hk ()⟩⟩
  · rw [await, Async.once_lift_error hm]
    exact ⟨rfl, Or.inl rfl⟩

theorem checkAdmins_cases (e : PyError) (w : World α) :
    ((do Eff.raiseIf (decide ((← query count_admins) ≤ 1)) e : Act α Unit) w = (.ok (), w) ∧ 1 < count_admins w.db) ∨
      (do Eff.raiseIf (decide ((← query count_admins) ≤ 1)) e : Act α Unit) w = (.error e, w) := by
  rw [query, Eff.read_bind_run]
  by_cases hcount : count_admins w.db ≤ 1
  · rw [decide_eq_true hcount]
    exact Or.inr rfl
  · rw [decide_eq_false hcount]
    exact Or.inl ⟨rfl, Nat.not_le.mp hcount⟩

theorem counts_request (hsent : r.current_user.role = .admin) (w : World α) : Counts env r w := by
  cases r with
  | delete_me current_user =>
      have hcheck := checkAdmins_cases (.permissionDenied "You are the only remaining admin") w
      exact counts_of_check (if_pos hsent) (hcheck.imp_right fun h => ⟨_, h⟩) fun _ => all_delete_user trivial
  | set_own_role current_user role =>
      refine counts_of_check rfl ?_ fun _ => all_set_user_role id
      have hguard : admin_user_guard current_user w = (.ok (), w) := by
        have hle : decide (¬ Role.admin ≤ current_user.role) = false := decide_eq_false (not_not.mpr (Role.admin_le.mpr hsent))
        rw [admin_user_guard, hle]
        rfl
      rw [Eff.bind_run_ok hguard]
      exact (checkAdmins_cases _ w).imp_right fun h => ⟨_, h⟩

/-! ## Tables -/

/-- Of two administrators one has another identifier. -/
theorem other_admin (hunique : db.UniqueUsers) (hcount : 1 < count_admins db) (user_id : String) :
    ∃ other, db.weight other ≠ db.weight user_id ∧ db.AdminRow other := by
  by_contra hnone
  push Not at hnone
  have hsubset : ((db.users.filter fun u => decide (u.role = .admin)).map fun u => db.weight u.id) ⊆ [db.weight user_id] := by
    intro id hid
    obtain ⟨u, hu, rfl⟩ := List.mem_map.mp hid
    obtain ⟨hmem, hrole⟩ := List.mem_filter.mp hu
    by_contra hne
    exact hnone u.id (fun heq => hne (List.mem_singleton.mpr heq)) ⟨u, hmem, rfl, of_decide_eq_true hrole⟩
  have hnodup : ((db.users.filter fun u => decide (u.role = .admin)).map fun u => db.weight u.id).Nodup :=
    List.Nodup.sublist (List.filter_sublist.map _) hunique
  have hle := (List.subperm_of_subset hnodup hsubset).length_le
  rw [List.length_map, ← List.countP_eq_length_filter, List.length_singleton] at hle
  exact absurd hcount (Nat.not_lt.mpr hle)

theorem hasAdmin_of_row (h : db.AdminRow user_id) : db.HasAdmin :=
  let ⟨u, hu, _, hrole⟩ := h
  ⟨u, hu, hrole⟩

theorem unique_setUserRole (h : db.UniqueUsers) (user_id : String) (role : Role) : (db.setUserRole user_id role).UniqueUsers := by
  have hids : ((db.setUserRole user_id role).users.map fun u => db.weight u.id) = db.users.map fun u => db.weight u.id := by
    rw [Database.setUserRole, List.map_map]
    refine List.map_congr_left fun u _ => ?_
    by_cases hu : db.weight u.id = db.weight user_id <;> simp [hu]
  exact (congrArg List.Nodup hids).mpr h

theorem adminRow_setUserRole {other : String} (h : db.AdminRow other) (hne : db.weight other ≠ db.weight user_id) (role : Role) :
    (db.setUserRole user_id role).AdminRow other := by
  obtain ⟨u, hu, hid, hrole⟩ := h
  exact ⟨u, List.mem_map.mpr ⟨u, hu, if_neg fun heq => hne (hid.symm.trans heq)⟩, hid, hrole⟩

/-- Promoting somebody leaves every administrator. -/
theorem adminRow_promote {other : String} (h : db.AdminRow other) (user_id : String) :
    (db.setUserRole user_id .admin).AdminRow other := by
  by_cases hne : db.weight other = db.weight user_id
  · obtain ⟨u, hu, hid, _⟩ := h
    exact ⟨_, List.mem_map.mpr ⟨u, hu, if_pos (hid.trans hne)⟩, hid, rfl⟩
  · exact adminRow_setUserRole h hne .admin

/-- A commit keeps what its change keeps. -/
theorem commit_keeps {P : Database → Prop} {f : Database → Database} (h : P w.db) (hf : P (f w.db)) :
    P (commit env f w).2.db := by
  rcases commit_cases env f w with ⟨e, hrun⟩ | hrun
  · rw [hrun]
    exact h
  · rw [hrun]
    exact hf

theorem Removes.unique {f : World α → World α} (hf : Removes env user_id f) (h : w.db.UniqueUsers) :
    (f w).db.UniqueUsers := by
  cases hf with
  | delete => exact commit_keeps h h.deleteUser
  | demote _ => exact commit_keeps h (unique_setUserRole h _ _)

theorem Removes.weight {f : World α → World α} (hf : Removes env user_id f) : (f w).db.weight = w.db.weight := by
  cases hf with
  | delete => exact commit_keeps (P := fun db => db.weight = w.db.weight) rfl rfl
  | demote _ => exact commit_keeps (P := fun db => db.weight = w.db.weight) rfl rfl

/-- Other administrators stay. -/
theorem Removes.keeps {f : World α → World α} (hf : Removes env user_id f) {other : String} (h : w.db.AdminRow other)
    (hne : w.db.weight other ≠ w.db.weight user_id) : (f w).db.AdminRow other := by
  cases hf with
  | delete =>
      refine commit_keeps (P := fun db => db.AdminRow other) h ?_
      obtain ⟨u, hu, hid, hrole⟩ := h
      exact ⟨u, mem_deleteUser.mpr ⟨hu, fun heq => hne (hid.symm.trans heq)⟩, hid, hrole⟩
  | demote _ => exact commit_keeps (P := fun db => db.AdminRow other) h (adminRow_setUserRole h hne _)

/-! ## Turns -/

variable [DecidableEq ι] {request : ι → AdminRequest} {i : ι}
  {c : Arrivals (World α) ι (Except PyError Unit)}

/-- An administrator is taken away only while no request of another user that would take one away is between its count and
its end. -/
def RemovesAlone (env : Env α) (request : ι → AdminRequest) (c : Arrivals (World α) ι (Except PyError Unit)) (i : ι) : Prop :=
  ∀ f, Removes env (request i).current_user.id f → (c.program (AdminRequests.programs env request) i).Next f →
    c.shared.db.AdminRow (request i).current_user.id →
    ∀ j, c.Active j → (request j).Demotes →
      c.shared.db.weight (request j).current_user.id = c.shared.db.weight (request i).current_user.id

/-- An administrator is there, and each request under way has another one than its own user. -/
structure Counted (env : Env α) (request : ι → AdminRequest) (c : Arrivals (World α) ι (Except PyError Unit)) : Prop where
  unique : c.shared.db.UniqueUsers
  admin : c.shared.db.HasAdmin
  steps : ∀ j p, c.thread j = some p → Async.All (AdminStep env (request j)) p
  other : ∀ j, c.Active j → (request j).Demotes →
    ∃ other, c.shared.db.weight other ≠ c.shared.db.weight (request j).current_user.id ∧ c.shared.db.AdminRow other

theorem active_turn {j : ι} (h : (c.turn (AdminRequests.programs env request) i).Active j) (hj : j ≠ i) : c.Active j := by
  obtain ⟨p, hp, hdone⟩ := h
  exact ⟨p, (Arrivals.turn_thread_ne hj c).symm.trans hp, hdone⟩

/-- A turn that keeps the administrators of the others, and its own if it goes on. -/
theorem Counted.turn_of (h : Counted env request c)
    (hweight : (c.turn (AdminRequests.programs env request) i).shared.db.weight = c.shared.db.weight)
    (hunique : (c.turn (AdminRequests.programs env request) i).shared.db.UniqueUsers)
    (hadmin : (c.turn (AdminRequests.programs env request) i).shared.db.HasAdmin)
    (hnext : Async.All (AdminStep env (request i)) ((c.program (AdminRequests.programs env request) i).once c.shared).2)
    (hself : (c.turn (AdminRequests.programs env request) i).Active i → (request i).Demotes →
      ∃ other, c.shared.db.weight other ≠ c.shared.db.weight (request i).current_user.id ∧
        (c.turn (AdminRequests.programs env request) i).shared.db.AdminRow other)
    (hothers : ∀ j, j ≠ i → c.Active j → (request j).Demotes → ∀ other,
      c.shared.db.weight other ≠ c.shared.db.weight (request j).current_user.id → c.shared.db.AdminRow other →
        (c.turn (AdminRequests.programs env request) i).shared.db.AdminRow other) :
    Counted env request (c.turn (AdminRequests.programs env request) i) where
  unique := hunique
  admin := hadmin
  steps j p hp := by
    by_cases hj : j = i
    · subst hj
      rw [Arrivals.turn_thread_self] at hp
      obtain rfl := Option.some.inj hp
      exact hnext
    · exact h.steps j p ((Arrivals.turn_thread_ne hj c).symm.trans hp)
  other j hactive hdemotes := by
    rw [hweight]
    by_cases hj : j = i
    · subst hj
      exact hself hactive hdemotes
    · have hbefore := active_turn hactive hj
      obtain ⟨other, hne, hrow⟩ := h.other j hbefore hdemotes
      exact ⟨other, hne, hothers j hj hbefore hdemotes other hne hrow⟩

/-- The first step of a request. -/
theorem Counted.arrives (h : Counted env request c) (hthread : c.thread i = none)
    (hcounts : Counts env (request i) c.shared) : Counted env request (c.turn (AdminRequests.programs env request) i) := by
  have hprogram : c.program (AdminRequests.programs env request) i = ((request i).program env).run :=
    Arrivals.program_of_none hthread
  unfold Counts at hcounts
  rw [← hprogram] at hcounts
  obtain ⟨hdb, hnext⟩ := hcounts
  have hshared : (c.turn (AdminRequests.programs env request) i).shared.db = c.shared.db := hdb
  refine h.turn_of (congrArg Database.weight hshared) (hshared ▸ h.unique) (hshared ▸ h.admin) ?_ (fun hactive _ => ?_)
    fun _ _ _ _ _ _ hrow => hshared ▸ hrow
  · rcases hnext with hdone | ⟨_, hall⟩
    · exact Async.all_of_isDone hdone
    · exact hall
  · obtain ⟨p, hp, hgoes⟩ := hactive
    rw [Arrivals.turn_thread_self] at hp
    obtain rfl := Option.some.inj hp
    rcases hnext with hdone | ⟨hcount, _⟩
    · rw [hdone] at hgoes
      cases hgoes
    · rw [hshared]
      exact other_admin h.unique hcount _

/-- A step of a request that has counted. -/
theorem Counted.steps_on (h : Counted env request c) (halone : RemovesAlone env request c i)
    {f : World α → World α} {next : World α → Async (World α) (Except PyError Unit)}
    (hthread : c.thread i = some (.step f next)) : Counted env request (c.turn (AdminRequests.programs env request) i) := by
  have hprogram : c.program (AdminRequests.programs env request) i = .step f next := Arrivals.program_of_thread hthread
  have hshared : (c.turn (AdminRequests.programs env request) i).shared = f c.shared :=
    congrArg (fun p => (p.once c.shared).1) hprogram
  have hactive : c.Active i := ⟨_, hthread, rfl⟩
  obtain ⟨hstep, hall⟩ := h.steps i _ hthread
  have hnext : Async.All (AdminStep env (request i))
      ((c.program (AdminRequests.programs env request) i).once c.shared).2 := hprogram ▸ hall c.shared
  cases hstep with
  | quiet hquiet =>
      have hdb : (c.turn (AdminRequests.programs env request) i).shared.db = c.shared.db :=
        (congrArg World.db hshared).trans (hquiet c.shared)
      refine h.turn_of (congrArg Database.weight hdb) (hdb ▸ h.unique) (hdb ▸ h.admin) hnext (fun _ hdemotes => ?_)
        fun _ _ _ _ _ _ hrow => hdb ▸ hrow
      rw [hdb]
      exact h.other i hactive hdemotes
  | promote =>
      have hkeeps (other : String) (hrow : c.shared.db.AdminRow other) :
          (c.turn (AdminRequests.programs env request) i).shared.db.AdminRow other := by
        rw [hshared]
        exact commit_keeps (P := fun db => db.AdminRow other) hrow (adminRow_promote hrow _)
      refine h.turn_of ?_ ?_ ?_ hnext (fun _ hdemotes => ?_) fun _ _ _ _ other _ hrow => hkeeps other hrow
      · rw [hshared]
        exact commit_keeps (P := fun db => db.weight = c.shared.db.weight) rfl rfl
      · rw [hshared]
        exact commit_keeps h.unique (unique_setUserRole h.unique _ _)
      · obtain ⟨u, hu, hrole⟩ := h.admin
        exact hasAdmin_of_row (hkeeps u.id ⟨u, hu, rfl, hrole⟩)
      · obtain ⟨other, hne, hrow⟩ := h.other i hactive hdemotes
        exact ⟨other, hne, hkeeps other hrow⟩
  | removes hdemotes hremoves =>
      have hkeeps (other : String) (hrow : c.shared.db.AdminRow other)
          (hne : c.shared.db.weight other ≠ c.shared.db.weight (request i).current_user.id) :
          (c.turn (AdminRequests.programs env request) i).shared.db.AdminRow other := by
        rw [hshared]
        exact hremoves.keeps hrow hne
      obtain ⟨other, hne, hrow⟩ := h.other i hactive hdemotes
      refine h.turn_of ?_ ?_ (hasAdmin_of_row (hkeeps other hrow hne)) hnext (fun _ _ => ⟨other, hne, hkeeps other hrow hne⟩)
        fun j hj hactive' hdemotes' other' hne' hrow' => hkeeps other' hrow' fun hid => ?_
      · rw [hshared]
        exact hremoves.weight
      · rw [hshared]
        exact hremoves.unique h.unique
      · -- the user's own row is one of an administrator, so the other request is of the same user
        have hown : c.shared.db.AdminRow (request i).current_user.id :=
          let ⟨u, hu, huid, hrole⟩ := hrow'
          ⟨u, hu, huid.trans hid, hrole⟩
        exact hne' (hid.trans (halone f hremoves ⟨next, hprogram⟩ hown j hactive' hdemotes').symm)

theorem Counted.turn (h : Counted env request c) (hsent : ∀ j, (request j).current_user.role = .admin)
    (halone : RemovesAlone env request c i) : Counted env request (c.turn (AdminRequests.programs env request) i) := by
  cases hthread : c.thread i with
  | none => exact h.arrives hthread (counts_request (hsent i) c.shared)
  | some p =>
      cases p with
      | step f next => exact h.steps_on halone hthread
      | done a =>
          have hprogram : c.program (AdminRequests.programs env request) i = .done a := Arrivals.program_of_thread hthread
          have hshared : (c.turn (AdminRequests.programs env request) i).shared = c.shared :=
            congrArg (fun p => (p.once c.shared).1) hprogram
          refine h.turn_of (congrArg (·.db.weight) hshared) (hshared ▸ h.unique) (hshared ▸ h.admin)
            (hprogram ▸ trivial) (fun hactive _ => ?_)
            fun _ _ _ _ _ _ hrow => hshared ▸ hrow
          obtain ⟨p, hp, hgoes⟩ := hactive
          rw [Arrivals.turn_thread_self, hprogram] at hp
          obtain rfl := Option.some.inj hp
          cases hgoes

end Requests

end Backend
