import Miniverse.Miniverses.Lemmas.Cases
import Miniverse.Roles.Service

/-!
# The table of roles

What the role of a user in a miniverse is after each write, and the rows that the table may have.
-/

namespace Backend

open Lib

variable {α : Type} {env : Env α} {w w' : World α} {db db' : Database} {user_id miniverse_id : String} {id : Uuid4}
  {roles : RoleMap}

/-! ## Setting a role -/

namespace MiniverseUserRole

/-- Two rows for the same user and miniverse. -/
def SamePair (r role : MiniverseUserRole) : Prop := r.user_id = role.user_id ∧ r.miniverse_id = role.miniverse_id

instance (r role : MiniverseUserRole) : Decidable (r.SamePair role) := inferInstanceAs (Decidable (_ ∧ _))

/-- The row takes the role of its pair. -/
def takes (role r : MiniverseUserRole) : MiniverseUserRole := if r.SamePair role then role else r

theorem takes_samePair (role r : MiniverseUserRole) : (role.takes r).SamePair r := by
  unfold takes
  split
  · rename_i hpair
    exact ⟨hpair.1.symm, hpair.2.symm⟩
  · exact ⟨rfl, rfl⟩

end MiniverseUserRole

/-- A role is taken away, given, or changed. -/
theorem Database.setRole_cases (db : Database) (role : MiniverseUserRole) :
    (role.role = .none ∧ db.setRole role = { db with
      user_roles := db.user_roles.filter fun r => decide (¬ r.SamePair role) }) ∨
    (role.role ≠ .none ∧ (∀ r ∈ db.user_roles, ¬ r.SamePair role) ∧ db.setRole role = { db with
      user_roles := db.user_roles ++ [role] }) ∨
    (role.role ≠ .none ∧ (∃ r ∈ db.user_roles, r.SamePair role) ∧ db.setRole role = { db with
      user_roles := db.user_roles.map role.takes }) := by
  unfold setRole
  dsimp only
  split
  · exact Or.inl ⟨‹_›, rfl⟩
  · rename_i hgiven
    split
    · rename_i hall
      exact Or.inr (Or.inl ⟨hgiven, fun r hr => of_decide_eq_true (List.all_eq_true.mp hall r hr), rfl⟩)
    · rename_i hnot
      simp only [List.all_eq_true, decide_eq_true_eq, not_forall, not_not] at hnot
      obtain ⟨r, hr, hpair⟩ := hnot
      refine Or.inr (Or.inr ⟨hgiven, ⟨r, hr, hpair⟩, ?_⟩)
      refine congrArg (fun rows => { db with user_roles := rows }) (List.map_congr_left fun r _ => ?_)
      show (if decide (¬ r.SamePair role) = true then r else role) = role.takes r
      by_cases hpair : r.SamePair role
      · rw [MiniverseUserRole.takes, if_pos hpair, decide_eq_false (not_not_intro hpair), if_neg (by decide)]
      · rw [MiniverseUserRole.takes, if_neg hpair, decide_eq_true hpair, if_pos rfl]

/-! ## Roles in the tables -/

namespace Database

/-- The rows that say the role of a user in a miniverse. -/
def rolesAt (db : Database) (user_id miniverse_id : String) : List MiniverseUserRole :=
  db.user_roles.filter fun r => decide (r.user_id = user_id ∧ r.miniverse_id.str = miniverse_id)

theorem get_miniverse_role_eq (db : Database) (user_id miniverse_id : String) :
    db.get_miniverse_role user_id miniverse_id =
      ((db.rolesAt user_id miniverse_id).head?.map MiniverseUserRole.role).getD .none := by
  rw [get_miniverse_role, rolesAt, List.head?_filter]

theorem get_miniverse_role_congr (h : db'.rolesAt user_id miniverse_id = db.rolesAt user_id miniverse_id) :
    db'.get_miniverse_role user_id miniverse_id = db.get_miniverse_role user_id miniverse_id := by
  rw [get_miniverse_role_eq, h, get_miniverse_role_eq]

theorem role_of_rows (h : db'.user_roles = db.user_roles) (user_id miniverse_id : String) :
    db'.get_miniverse_role user_id miniverse_id = db.get_miniverse_role user_id miniverse_id :=
  get_miniverse_role_congr (by rw [rolesAt, h, rolesAt])

theorem get_miniverse_role_none (h : db.rolesAt user_id miniverse_id = []) :
    db.get_miniverse_role user_id miniverse_id = .none := by
  rw [get_miniverse_role_eq, h]
  rfl

/-- Who has a role in a miniverse is among the users of its rows. -/
theorem mem_rolesOf {id : Uuid4} (h : db.get_miniverse_role user_id id.str ≠ .none) :
    user_id ∈ (db.rolesOf id).map (·.user_id) := by
  cases hrows : db.rolesAt user_id id.str with
  | nil => exact absurd (get_miniverse_role_none hrows) h
  | cons r rows =>
      have hr : r ∈ db.rolesAt user_id id.str := hrows ▸ List.mem_cons_self
      obtain ⟨hmem, huser, hid⟩ : r ∈ db.user_roles ∧ r.user_id = user_id ∧ r.miniverse_id.str = id.str := by
        simpa [rolesAt] using hr
      refine List.mem_map.mpr ⟨r, List.mem_filter.mpr ⟨hmem, decide_eq_true ?_⟩, huser⟩
      exact Uuid4.eq_of_str hid

/-- The rows of a pair that a row is not for. -/
theorem filter_takes {role : MiniverseUserRole} (h : ¬ (user_id = role.user_id ∧ miniverse_id = role.miniverse_id.str))
    (rows : List MiniverseUserRole) :
    (rows.map role.takes).filter (fun r => decide (r.user_id = user_id ∧ r.miniverse_id.str = miniverse_id)) =
      rows.filter fun r => decide (r.user_id = user_id ∧ r.miniverse_id.str = miniverse_id) := by
  induction rows with
  | nil => rfl
  | cons r rows ih =>
      rw [List.map_cons, List.filter_cons, List.filter_cons, ih]
      by_cases hpair : r.SamePair role
      · have hrole : ¬ (role.user_id = user_id ∧ role.miniverse_id.str = miniverse_id) := fun heq => h ⟨heq.1.symm, heq.2.symm⟩
        have hr : ¬ (r.user_id = user_id ∧ r.miniverse_id.str = miniverse_id) := by
          rw [hpair.1, hpair.2]
          exact hrole
        rw [MiniverseUserRole.takes, if_pos hpair, decide_eq_false hrole, decide_eq_false hr]
        rfl
      · rw [MiniverseUserRole.takes, if_neg hpair]

theorem role_addRole (role : MiniverseUserRole) (hadd : db'.user_roles = db.user_roles ++ [role])
    (h : ¬ (user_id = role.user_id ∧ miniverse_id = role.miniverse_id.str)) :
    db'.get_miniverse_role user_id miniverse_id = db.get_miniverse_role user_id miniverse_id := by
  refine get_miniverse_role_congr ?_
  have hother : ¬ (role.user_id = user_id ∧ role.miniverse_id.str = miniverse_id) := fun hpair => h ⟨hpair.1.symm, hpair.2.symm⟩
  simp [rolesAt, hadd, List.filter_append, hother]

theorem role_addRole_self (role : MiniverseUserRole) (hadd : db'.user_roles = db.user_roles ++ [role])
    (hfresh : ∀ r ∈ db.user_roles, ¬ r.SamePair role) :
    db'.get_miniverse_role role.user_id role.miniverse_id.str = role.role := by
  have hnone : db.rolesAt role.user_id role.miniverse_id.str = [] := by
    refine List.filter_eq_nil_iff.mpr fun r hr hpair => ?_
    obtain ⟨huser, hid⟩ := of_decide_eq_true hpair
    exact hfresh r hr ⟨huser, Uuid4.eq_of_str hid⟩
  rw [get_miniverse_role_eq, rolesAt, hadd, List.filter_append, ← rolesAt, hnone]
  simp

theorem role_setRole {role : MiniverseUserRole} (h : ¬ (user_id = role.user_id ∧ miniverse_id = role.miniverse_id.str)) :
    (db.setRole role).get_miniverse_role user_id miniverse_id = db.get_miniverse_role user_id miniverse_id := by
  rcases db.setRole_cases role with ⟨_, hset⟩ | ⟨_, _, hset⟩ | ⟨_, _, hset⟩
  · rw [hset]
    refine get_miniverse_role_congr ?_
    rw [rolesAt, rolesAt, List.filter_filter]
    refine List.filter_congr fun r _ => ?_
    by_cases hr : r.user_id = user_id ∧ r.miniverse_id.str = miniverse_id
    · have hpair : ¬ r.SamePair role := fun hpair => h ⟨hr.1.symm.trans hpair.1, hr.2.symm.trans (congrArg Uuid4.str hpair.2)⟩
      rw [decide_eq_true hr, decide_eq_true hpair, Bool.and_self]
    · rw [decide_eq_false hr, Bool.false_and]
  · exact role_addRole role (by rw [hset]) h
  · rw [hset]
    exact get_miniverse_role_congr (filter_takes h _)

theorem role_setRole_self (db : Database) (role : MiniverseUserRole) :
    (db.setRole role).get_miniverse_role role.user_id role.miniverse_id.str = role.role := by
  rcases db.setRole_cases role with ⟨hnone, hset⟩ | ⟨_, hfresh, hset⟩ | ⟨_, ⟨r, hr, hown⟩, hset⟩
  · rw [hset, hnone]
    refine get_miniverse_role_none (List.filter_eq_nil_iff.mpr fun r hr hpair => ?_)
    obtain ⟨huser, hid⟩ := of_decide_eq_true hpair
    exact of_decide_eq_true (List.mem_filter.mp hr).2 ⟨huser, Uuid4.eq_of_str hid⟩
  · exact role_addRole_self role (by rw [hset]) hfresh
  · -- every row of the pair is the new one
    have hall : ∀ r ∈ (db.setRole role).rolesAt role.user_id role.miniverse_id.str, r = role := by
      intro r hr
      rw [rolesAt, hset] at hr
      obtain ⟨hmapped, hpair⟩ := List.mem_filter.mp hr
      obtain ⟨s, _, rfl⟩ := List.mem_map.mp hmapped
      obtain ⟨huser, hid⟩ := of_decide_eq_true hpair
      have hsame := role.takes_samePair s
      have hs : s.SamePair role := ⟨hsame.1.symm.trans huser, hsame.2.symm.trans (Uuid4.eq_of_str hid)⟩
      rw [MiniverseUserRole.takes, if_pos hs]
    have hmem : role ∈ (db.setRole role).rolesAt role.user_id role.miniverse_id.str := by
      rw [rolesAt, hset]
      refine List.mem_filter.mpr ⟨List.mem_map.mpr ⟨r, hr, ?_⟩, decide_eq_true ⟨rfl, rfl⟩⟩
      rw [MiniverseUserRole.takes, if_pos hown]
    rw [get_miniverse_role_eq]
    cases hrows : (db.setRole role).rolesAt role.user_id role.miniverse_id.str with
    | nil =>
        rw [hrows] at hmem
        cases hmem
    | cons r rows =>
        rw [List.head?_cons, hall r (hrows ▸ List.mem_cons_self)]
        rfl

theorem role_deleteUser (db : Database) (removed user_id miniverse_id : String) :
    (db.deleteUser removed).get_miniverse_role user_id miniverse_id =
      if db.weight user_id = db.weight removed then .none else db.get_miniverse_role user_id miniverse_id := by
  split
  · refine get_miniverse_role_none ?_
    simp only [rolesAt, deleteUser, List.filter_filter, List.filter_eq_nil_iff]
    grind
  · refine get_miniverse_role_congr ?_
    simp only [rolesAt, deleteUser, List.filter_filter]
    refine List.filter_congr fun r _ => ?_
    grind

theorem role_deleteMiniverse (db : Database) (id : Uuid4) (user_id miniverse_id : String) :
    (db.deleteMiniverse id).get_miniverse_role user_id miniverse_id =
      if miniverse_id = id.str then .none else db.get_miniverse_role user_id miniverse_id := by
  split
  · refine get_miniverse_role_none ?_
    simp only [rolesAt, deleteMiniverse, List.filter_filter, List.filter_eq_nil_iff]
    rintro r _ hr
    simp only [Bool.and_eq_true, decide_eq_true_eq] at hr
    exact hr.2 (Uuid4.eq_of_str (hr.1.2.trans ‹_›))
  · refine get_miniverse_role_congr ?_
    simp only [rolesAt, deleteMiniverse, List.filter_filter]
    refine List.filter_congr fun r _ => ?_
    grind

end Database

/-! ## Rows that the table may have -/

/-- One row for each pair, with a role, in a miniverse that exists. -/
structure Database.RoleTable (db : Database) : Prop where
  pairs : (db.user_roles.map fun r => (r.user_id, r.miniverse_id)).Nodup
  given : ∀ r ∈ db.user_roles, r.role ≠ .none
  rooted : ∀ r ∈ db.user_roles, r.miniverse_id ∈ db.miniverses.map (·.id)

namespace Database.RoleTable

/-- Rows and miniverses that are removed. -/
theorem sublist (h : db.RoleTable) (hrows : db'.user_roles.Sublist db.user_roles)
    (hrooted : ∀ r ∈ db'.user_roles, r.miniverse_id ∈ db'.miniverses.map (·.id)) : db'.RoleTable where
  pairs := h.pairs.sublist (hrows.map _)
  given r hr := h.given r (hrows.subset hr)
  rooted := hrooted

theorem deleteUser (h : db.RoleTable) (user_id : String) : (db.deleteUser user_id).RoleTable :=
  h.sublist List.filter_sublist fun r hr => h.rooted r (List.mem_of_mem_filter hr)

theorem deleteMiniverse (h : db.RoleTable) (id : Uuid4) : (db.deleteMiniverse id).RoleTable := by
  refine h.sublist List.filter_sublist fun r hr => ?_
  obtain ⟨hmem, hne⟩ := List.mem_filter.mp hr
  obtain ⟨m, hm, hid⟩ := List.mem_map.mp (h.rooted r hmem)
  refine List.mem_map.mpr ⟨m, List.mem_filter.mpr ⟨hm, ?_⟩, hid⟩
  rw [hid]
  exact hne

theorem addRole {role : MiniverseUserRole} (h : db.RoleTable) (hgiven : role.role ≠ .none)
    (hfresh : ∀ r ∈ db.user_roles, ¬ r.SamePair role) (hadd : db'.user_roles = db.user_roles ++ [role])
    (hids : ∀ i ∈ db.miniverses.map (·.id), i ∈ db'.miniverses.map (·.id))
    (hrooted : role.miniverse_id ∈ db'.miniverses.map (·.id)) : db'.RoleTable where
  pairs := by
    rw [hadd, List.map_append]
    refine h.pairs.append (List.nodup_singleton _) (List.disjoint_singleton.mpr fun hmem => ?_)
    obtain ⟨r, hr, heq⟩ := List.mem_map.mp hmem
    exact hfresh r hr ⟨congrArg Prod.fst heq, congrArg Prod.snd heq⟩
  given r hr := by
    rcases List.mem_append.mp (hadd ▸ hr) with hr | hr
    · exact h.given r hr
    · exact List.mem_singleton.mp hr ▸ hgiven
  rooted r hr := by
    rcases List.mem_append.mp (hadd ▸ hr) with hr | hr
    · exact hids _ (h.rooted r hr)
    · exact List.mem_singleton.mp hr ▸ hrooted

theorem setRole {role : MiniverseUserRole} (h : db.RoleTable) (hrooted : role.miniverse_id ∈ db.miniverses.map (·.id)) :
    (db.setRole role).RoleTable := by
  rcases db.setRole_cases role with ⟨_, hset⟩ | ⟨hgiven, hfresh, hset⟩ | ⟨hgiven, _, hset⟩
  · rw [hset]
    exact h.sublist List.filter_sublist fun r hr => h.rooted r (List.mem_of_mem_filter hr)
  · rw [hset]
    exact h.addRole hgiven hfresh rfl (fun _ hi => hi) hrooted
  · rw [hset]
    refine ⟨?_, fun r hr => ?_, fun r hr => ?_⟩
    · have hsame : (fun r => (r.user_id, r.miniverse_id)) ∘ role.takes = fun r : MiniverseUserRole => (r.user_id, r.miniverse_id) :=
        funext fun r => Prod.ext (role.takes_samePair r).1 (role.takes_samePair r).2
      rw [List.map_map, hsame]
      exact h.pairs
    · obtain ⟨s, hs, rfl⟩ := List.mem_map.mp hr
      unfold MiniverseUserRole.takes
      split
      · exact hgiven
      · exact h.given s hs
    · obtain ⟨s, hs, rfl⟩ := List.mem_map.mp hr
      rw [(role.takes_samePair s).2]
      exact h.rooted s hs

end Database.RoleTable

end Backend
