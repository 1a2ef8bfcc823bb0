import Miniverse.Lib.History
import Miniverse.Policy.Model

/-!
# Where rights come from

Under the policy every right goes back, from one user who could give it to the next, to a right that was there at first.
-/

namespace Backend

open Lib

variable {ι μ : Type}

/-! ## Origins -/

/-- A role that was there, that the founder has, or that was granted by a user whose role has an origin in what came before. -/
inductive RoleOrigin (r₀ : Rights ι μ) : List (ι × Action ι μ) → ι → μ → Role → Prop
  | start (log : List (ι × Action ι μ)) (i : ι) (m : μ) : RoleOrigin r₀ log i m (r₀.roles i m)
  | founded {log : List (ι × Action ι μ)} {i : ι} {m : μ} {role : Role} : (i, .found m role) ∈ log → RoleOrigin r₀ log i m role
  | granted {before log : List (ι × Action ι μ)} {i j : ι} {m : μ} {role : Role} : before ++ [(j, .grant i m role)] <+: log →
      RoleOrigin r₀ before j m .admin → RoleOrigin r₀ log i m role

/-- The user was an administrator, settled as the first user, or was accepted or promoted by an administrator of some origin. -/
inductive AdminOrigin (r₀ : Rights ι μ) : List (ι × Action ι μ) → ι → Prop
  | start {log : List (ι × Action ι μ)} {i : ι} : r₀.Active i .admin → AdminOrigin r₀ log i
  | settled {log : List (ι × Action ι μ)} {i : ι} {username : String} : (i, .settle username) ∈ log → AdminOrigin r₀ log i
  | named {before log : List (ι × Action ι μ)} {i j : ι} {action : Action ι μ} : before ++ [(j, action)] <+: log →
      action = .accept i ∨ action = .promote i .admin → AdminOrigin r₀ before j → AdminOrigin r₀ log i

variable {r₀ r : Rights ι μ} {log log' : List (ι × Action ι μ)} {i j : ι} {m n : μ}

/-- The user was active, settled as the first user, or was accepted by an administrator of some origin. -/
def AcceptedFrom (r₀ : Rights ι μ) (log : List (ι × Action ι μ)) (i : ι) : Prop :=
  r₀.Active i .none ∨ (∃ username, (i, .settle username) ∈ log) ∨
    ∃ before j, before ++ [(j, .accept i)] <+: log ∧ AdminOrigin r₀ before j

theorem RoleOrigin.later {role : Role} (h : RoleOrigin r₀ log i m role) (hlog : log <+: log') : RoleOrigin r₀ log' i m role := by
  cases h with
  | start => exact .start _ _ _
  | founded hfounded => exact .founded (hlog.subset hfounded)
  | granted hbefore horigin => exact .granted (hbefore.trans hlog) horigin

theorem AdminOrigin.later (h : AdminOrigin r₀ log i) (hlog : log <+: log') : AdminOrigin r₀ log' i := by
  cases h with
  | start hadmin => exact .start hadmin
  | settled hsettled => exact .settled (hlog.subset hsettled)
  | named hbefore haction horigin => exact .named (hbefore.trans hlog) haction horigin

theorem AcceptedFrom.later (h : AcceptedFrom r₀ log i) (hlog : log <+: log') : AcceptedFrom r₀ log' i := by
  rcases h with hactive | ⟨username, hsettled⟩ | ⟨before, j, hbefore, horigin⟩
  · exact Or.inl hactive
  · exact Or.inr (Or.inl ⟨username, hlog.subset hsettled⟩)
  · exact Or.inr (Or.inr ⟨before, j, hbefore.trans hlog, horigin⟩)

/-! ## Actions -/

namespace Rights

variable [DecidableEq ι] [DecidableEq μ]

omit [DecidableEq μ] in
theorem forget_roles (r : Rights ι μ) (j i : ι) (n : μ) : (r.forget j).roles i n = r.roles i n ∨ (r.forget j).roles i n = .none := by
  by_cases h : i = j
  · exact Or.inr (if_pos h)
  · exact Or.inl (if_neg h)

/-- A role stays, is taken away, or is given to the founder or by a grant. -/
theorem role_cases (r : Rights ι μ) (j : ι) (action : Action ι μ) (i : ι) (n : μ) :
    (r.apply j action).roles i n = r.roles i n ∨ (r.apply j action).roles i n = .none ∨
      (action = .found n ((r.apply j action).roles i n) ∧ i = j) ∨ action = .grant i n ((r.apply j action).roles i n) := by
  cases action with
  | join => exact Or.inl rfl
  | settle => exact Or.inl rfl
  | rename => exact Or.inl rfl
  | accept => exact Or.inl rfl
  | promote => exact Or.inl rfl
  | leave => exact (r.forget_roles j i n).imp_right Or.inl
  | expel k => exact (r.forget_roles k i n).imp_right Or.inl
  | reject k => exact (r.forget_roles k i n).imp_right Or.inl
  | close m =>
      by_cases h : n = m
      · exact Or.inr (Or.inl (if_pos h))
      · exact Or.inl (if_neg h)
  | found m role =>
      by_cases h : i = j ∧ n = m
      · obtain ⟨rfl, rfl⟩ := h
        refine Or.inr (Or.inr (Or.inl ⟨congrArg _ ?_, rfl⟩))
        exact (if_pos (⟨rfl, rfl⟩ : i = i ∧ n = n)).symm
      · exact Or.inl (if_neg h)
  | grant k m role =>
      by_cases h : i = k ∧ n = m
      · obtain ⟨rfl, rfl⟩ := h
        refine Or.inr (Or.inr (Or.inr (congrArg _ ?_)))
        exact (if_pos (⟨rfl, rfl⟩ : i = i ∧ n = n)).symm
      · exact Or.inl (if_neg h)

/-- The account of a user with what an action makes of it. -/
theorem account_cases (r : Rights ι μ) (j : ι) (action : Action ι μ) {a : Account} (h : (r.apply j action).accounts i = some a) :
    r.accounts i = some a ∨ a.is_active = false ∨ (∃ username, action = .settle username ∧ i = j) ∨
      ∃ b, r.accounts i = some b ∧ ((a.is_active = b.is_active ∧ a.role = b.role) ∨ (action = .accept i ∧ a.role = b.role) ∨
        action = .promote i a.role ∧ a.is_active = b.is_active) := by
  have hforget {k : ι} (h : (r.forget k).accounts i = some a) : r.accounts i = some a := by
    by_cases hik : i = k
    · cases (if_pos hik).symm.trans h
    · exact (if_neg hik).symm.trans h
  have hset {k : ι} {b : Option Account} (h : (r.setAccount k b).accounts i = some a) : r.accounts i = some a ∨ i = k ∧ b = some a := by
    by_cases hik : i = k
    · exact Or.inr ⟨hik, (if_pos hik).symm.trans h⟩
    · exact Or.inl ((if_neg hik).symm.trans h)
  cases action with
  | leave => exact Or.inl (hforget h)
  | expel => exact Or.inl (hforget h)
  | reject => exact Or.inl (hforget h)
  | found => exact Or.inl h
  | close => exact Or.inl h
  | grant => exact Or.inl h
  | join username =>
      rcases hset h with hold | ⟨_, hnew⟩
      · exact Or.inl hold
      · exact Or.inr (Or.inl (Option.some.inj hnew ▸ rfl))
  | settle username =>
      rcases hset h with hold | ⟨hij, _⟩
      · exact Or.inl hold
      · exact Or.inr (Or.inr (Or.inl ⟨username, rfl, hij⟩))
  | rename username =>
      rcases hset h with hold | ⟨rfl, hnew⟩
      · exact Or.inl hold
      · obtain ⟨b, hb, rfl⟩ := Option.map_eq_some_iff.mp hnew
        exact Or.inr (Or.inr (Or.inr ⟨b, hb, Or.inl ⟨rfl, rfl⟩⟩))
  | accept k =>
      rcases hset h with hold | ⟨rfl, hnew⟩
      · exact Or.inl hold
      · obtain ⟨b, hb, rfl⟩ := Option.map_eq_some_iff.mp hnew
        exact Or.inr (Or.inr (Or.inr ⟨b, hb, Or.inr (Or.inl ⟨rfl, rfl⟩)⟩))
  | promote k role =>
      rcases hset h with hold | ⟨rfl, hnew⟩
      · exact Or.inl hold
      · obtain ⟨b, hb, rfl⟩ := Option.map_eq_some_iff.mp hnew
        exact Or.inr (Or.inr (Or.inr ⟨b, hb, Or.inr (Or.inr ⟨rfl, rfl⟩)⟩))

/-! ## Runs -/

theorem role_origin (hmeets : Meets take Allows log r₀) (i : ι) (m : μ) (hrole : (runs take log r₀).roles i m ≠ .none) :
    RoleOrigin r₀ log i m ((runs take log r₀).roles i m) := by
  induction log using List.reverseRecOn generalizing i m with
  | nil => exact .start _ _ _
  | append_singleton log x ih =>
      obtain ⟨hlog, hallows, _⟩ := meets_append.mp hmeets
      obtain ⟨j, action⟩ := x
      rw [runs_concat] at hrole ⊢
      have hold := fun i m h => (ih hlog i m h).later (List.prefix_append log [(j, action)])
      rcases role_cases (runs take log r₀) j action i m with hsame | hnone | ⟨hfound, rfl⟩ | hgrant
      · show RoleOrigin r₀ _ i m ((runs take log r₀).apply j action |>.roles i m)
        rw [hsame]
        exact hold i m (hsame ▸ hrole)
      · exact absurd hnone hrole
      · refine .founded (List.mem_append_right _ (List.mem_singleton.mpr ?_))
        exact congrArg (Prod.mk i) hfound.symm
      · have hadmin : (runs take log r₀).roles j m = .admin := by
          have hpermits : (runs take log r₀).Permits j action := hallows
          rw [hgrant] at hpermits
          exact hpermits.2.2.1
        have hgranter : RoleOrigin r₀ log j m .admin := hadmin ▸ ih hlog j m (by rw [hadmin]; decide)
        exact .granted (hgrant ▸ List.prefix_refl _) hgranter

theorem admin_origin (hmeets : Meets take Allows log r₀) (i : ι) (hadmin : (runs take log r₀).Active i .admin) :
    AdminOrigin r₀ log i := by
  induction log using List.reverseRecOn generalizing i with
  | nil => exact .start hadmin
  | append_singleton log x ih =>
      obtain ⟨hlog, hallows, _⟩ := meets_append.mp hmeets
      obtain ⟨j, action⟩ := x
      have hpermits : (runs take log r₀).Permits j action := hallows
      rw [runs_concat] at hadmin
      obtain ⟨a, ha, hactive, hrole⟩ := hadmin
      have hold {b : Account} (hb : (runs take log r₀).accounts i = some b) (hactive : b.is_active = true) (hrole : .admin ≤ b.role) :
          AdminOrigin r₀ (log ++ [(j, action)]) i := (ih hlog i ⟨b, hb, hactive, hrole⟩).later (List.prefix_append _ _)
      rcases account_cases (runs take log r₀) j action ha with hsame | hinactive | ⟨username, rfl, rfl⟩ | ⟨b, hb, hchange⟩
      · exact hold hsame hactive hrole
      · rw [hinactive] at hactive
        cases hactive
      · exact .settled (List.mem_append_right _ (List.mem_singleton.mpr rfl))
      · rcases hchange with ⟨hstill, hsame⟩ | ⟨rfl, _⟩ | ⟨rfl, _⟩
        · exact hold hb (hstill ▸ hactive) (hsame ▸ hrole)
        · exact .named (List.prefix_refl _) (Or.inl rfl) (ih hlog j hpermits.1)
        · rw [Role.admin_le.mp hrole] at hpermits ⊢
          exact .named (List.prefix_refl _) (Or.inr rfl) (ih hlog j hpermits.1)

theorem accepted_from (hmeets : Meets take Allows log r₀) (i : ι) (haccepted : (runs take log r₀).Active i .none) :
    AcceptedFrom r₀ log i := by
  induction log using List.reverseRecOn with
  | nil => exact Or.inl haccepted
  | append_singleton log x ih =>
      obtain ⟨hlog, hallows, _⟩ := meets_append.mp hmeets
      obtain ⟨j, action⟩ := x
      have hpermits : (runs take log r₀).Permits j action := hallows
      rw [runs_concat] at haccepted
      obtain ⟨a, ha, hactive, _⟩ := haccepted
      have hold {b : Account} (hb : (runs take log r₀).accounts i = some b) (hactive : b.is_active = true) :
          AcceptedFrom r₀ (log ++ [(j, action)]) i := (ih hlog ⟨b, hb, hactive, Nat.zero_le _⟩).later (List.prefix_append _ _)
      rcases account_cases (runs take log r₀) j action ha with hsame | hinactive | ⟨username, rfl, rfl⟩ | ⟨b, hb, hchange⟩
      · exact hold hsame hactive
      · rw [hinactive] at hactive
        cases hactive
      · exact Or.inr (Or.inl ⟨username, List.mem_append_right _ (List.mem_singleton.mpr rfl)⟩)
      · rcases hchange with ⟨hstill, _⟩ | ⟨rfl, _⟩ | ⟨rfl, hstill⟩
        · exact hold hb (hstill ▸ hactive)
        · exact Or.inr (Or.inr ⟨log, j, List.prefix_refl _, admin_origin hlog j hpermits.1⟩)
        · exact hold hb (hstill ▸ hactive)

end Rights

end Backend
