import Miniverse.Isolation.Service
import Miniverse.Mods.Lemmas.Files
import Miniverse.Roles.Lemmas.Table

/-!
# The part of the tables that belongs to a miniverse

Its row, its mods and its roles, which writes for other miniverses leave alone.
-/

namespace Backend

open Lib

variable {db db' : Database} {target id : Uuid4} {user_id : String}

/-- The row, the mods and the roles of a miniverse. -/
def Database.partOf (db : Database) (id : Uuid4) : Option Miniverse × List Mod × List MiniverseUserRole :=
  (db.findMiniverse id.str, db.modsOf id, db.rolesOf id)

/-- The roles of a miniverse say who has one in it. -/
theorem role_of_part (h : db'.partOf target = db.partOf target) (user_id : String) :
    db'.get_miniverse_role user_id target.str = db.get_miniverse_role user_id target.str := by
  have hrows (db : Database) : db.rolesAt user_id target.str =
      (db.rolesOf target).filter fun r => decide (r.user_id = user_id) := by
    rw [Database.rolesAt, Database.rolesOf, List.filter_filter]
    refine List.filter_congr fun r _ => ?_
    rw [← Bool.decide_and]
    exact decide_eq_decide.mpr ⟨fun h => ⟨h.1, Uuid4.eq_of_str h.2⟩, fun h => ⟨h.1, congrArg Uuid4.str h.2⟩⟩
  refine Database.get_miniverse_role_congr ?_
  rw [hrows, hrows, (Prod.mk.inj (Prod.mk.inj h).2).2]

/-! ## Writes -/

/-- A change of elements that the predicate rejects before and after. -/
theorem filter_map_of_rejected {γ : Type} {l : List γ} {f : γ → γ} {P : γ → Bool}
    (h : ∀ a ∈ l, f a = a ∨ P a = false ∧ P (f a) = false) : (l.map f).filter P = l.filter P := by
  induction l with
  | nil => rfl
  | cons a l ih =>
      have ih := ih fun b hb => h b (List.mem_cons_of_mem _ hb)
      rw [List.map_cons, List.filter_cons, List.filter_cons, ih]
      rcases h a List.mem_cons_self with hsame | ⟨hbefore, hafter⟩
      · rw [hsame]
      · rw [hbefore, hafter]
        rfl

/-- A filter that only removes what the predicate rejects. -/
theorem filter_filter_of_rejected {γ : Type} {l : List γ} {P Q : γ → Bool} (h : ∀ a ∈ l, P a = true → Q a = true) :
    (l.filter Q).filter P = l.filter P := by
  rw [List.filter_filter]
  refine List.filter_congr fun a ha => ?_
  cases hP : P a with
  | true => rw [h a ha hP, Bool.true_and]
  | false => rw [Bool.false_and]

/-- A new element that the predicate rejects. -/
theorem filter_concat_of_rejected {γ : Type} {l : List γ} {a : γ} {P : γ → Bool} (h : P a = false) :
    (l ++ [a]).filter P = l.filter P := by
  rw [List.filter_append, List.filter_singleton, h]
  exact List.append_nil _

theorem findMiniverse_eq (db : Database) (id : Uuid4) :
    db.findMiniverse id.str = (db.miniverses.filter fun m => decide (m.id = id)).head? := by
  rw [Database.findMiniverse, List.head?_filter]
  exact congrArg (fun P => db.miniverses.find? P) (funext fun m =>
    decide_eq_decide.mpr ⟨fun h => Uuid4.eq_of_str h, fun h => congrArg Uuid4.str h⟩)

/-- The rows of the miniverses, with the mods and the roles as they are. -/
theorem part_of_miniverses {rows : List Miniverse}
    (h : (rows.filter fun m => decide (m.id = target)) = db.miniverses.filter fun m => decide (m.id = target)) :
    Database.partOf { db with miniverses := rows } target = db.partOf target := by
  rw [Database.partOf, Database.partOf, findMiniverse_eq, findMiniverse_eq, h]
  rfl

theorem part_of_mods {rows : List Mod}
    (h : (rows.filter fun r => decide (r.miniverse_id = target)) = db.modsOf target) :
    Database.partOf { db with mods := rows } target = db.partOf target := by
  rw [Database.partOf, Database.partOf, ← h]
  rfl

theorem part_of_roles {rows : List MiniverseUserRole}
    (h : (rows.filter fun r => decide (r.miniverse_id = target)) = db.rolesOf target) :
    Database.partOf { db with user_roles := rows } target = db.partOf target := by
  rw [Database.partOf, Database.partOf, ← h]
  rfl

theorem part_saveMiniverse {m : Miniverse} (hm : m.id ≠ target) (db : Database) :
    (db.saveMiniverse m).partOf target = db.partOf target := by
  refine part_of_miniverses (filter_map_of_rejected fun r _ => ?_)
  by_cases hr : r.id = m.id
  · rw [if_pos hr]
    exact Or.inr ⟨decide_eq_false (hr ▸ hm), decide_eq_false hm⟩
  · rw [if_neg hr]
    exact Or.inl rfl

theorem part_addMiniverse {m : Miniverse} (hm : m.id ≠ target) (db : Database) :
    Database.partOf { db with miniverses := db.miniverses ++ [m] } target = db.partOf target :=
  part_of_miniverses (filter_concat_of_rejected (decide_eq_false hm))

theorem part_addRole {role : MiniverseUserRole} (hrole : role.miniverse_id ≠ target) (db : Database) :
    Database.partOf { db with user_roles := db.user_roles ++ [role] } target = db.partOf target :=
  part_of_roles (filter_concat_of_rejected (decide_eq_false hrole))

theorem part_setRole {role : MiniverseUserRole} (hrole : role.miniverse_id ≠ target) (db : Database) :
    (db.setRole role).partOf target = db.partOf target := by
  rcases db.setRole_cases role with ⟨_, hset⟩ | ⟨_, _, hset⟩ | ⟨_, _, hset⟩
  · rw [hset]
    refine part_of_roles (filter_filter_of_rejected fun r _ hr => ?_)
    exact decide_eq_true fun hpair => hrole (hpair.2.symm.trans (of_decide_eq_true hr))
  · rw [hset]
    exact part_addRole hrole db
  · rw [hset]
    refine part_of_roles (filter_map_of_rejected fun r _ => ?_)
    by_cases hpair : r.SamePair role
    · rw [MiniverseUserRole.takes, if_pos hpair, hpair.2]
      exact Or.inr ⟨decide_eq_false hrole, decide_eq_false hrole⟩
    · rw [MiniverseUserRole.takes, if_neg hpair]
      exact Or.inl rfl

theorem part_deleteMiniverse (hid : id ≠ target) (db : Database) : (db.deleteMiniverse id).partOf target = db.partOf target := by
  have hmods : (db.deleteMiniverse id).modsOf target = db.modsOf target :=
    filter_filter_of_rejected fun r _ hr => decide_eq_true (of_decide_eq_true hr ▸ hid.symm)
  have hroles : (db.deleteMiniverse id).rolesOf target = db.rolesOf target :=
    filter_filter_of_rejected fun r _ hr => decide_eq_true (of_decide_eq_true hr ▸ hid.symm)
  rw [Database.partOf, Database.partOf, hmods, hroles, findMiniverse_eq, findMiniverse_eq]
  refine congrArg (fun rows => (List.head? rows, _, _)) (filter_filter_of_rejected fun r _ hr => ?_)
  exact decide_eq_true (of_decide_eq_true hr ▸ hid.symm)

/-! ## Mods -/

/-- A mod of another miniverse shares its identifier with no mod of this one. -/
theorem other_mod (hkeys : db.ModKeys) {r mod : Mod} (hmod : mod ∈ db.mods) (hother : mod.miniverse_id ≠ target)
    (hr : r ∈ db.mods) (hid : r.id = mod.id) : r.miniverse_id ≠ target := by
  rw [List.inj_on_of_nodup_map hkeys hr hmod hid]
  exact hother

theorem part_saveMod (hkeys : db.ModKeys) {r mod : Mod} (hr : r ∈ db.mods) (hid : r.id = mod.id) (hother : r.miniverse_id ≠ target)
    (hmod : mod.miniverse_id ≠ target) : (db.saveMod mod).partOf target = db.partOf target := by
  refine part_of_mods (filter_map_of_rejected fun r' hr' => ?_)
  by_cases heq : r'.id = mod.id
  · rw [if_pos heq]
    exact Or.inr ⟨decide_eq_false (other_mod hkeys hr hother hr' (heq.trans hid.symm)), decide_eq_false hmod⟩
  · rw [if_neg heq]
    exact Or.inl rfl

theorem part_addMod {mod : Mod} (hmod : mod.miniverse_id ≠ target) (db : Database) :
    Database.partOf { db with mods := db.mods ++ [mod] } target = db.partOf target :=
  part_of_mods (filter_concat_of_rejected (decide_eq_false hmod))

theorem part_removeMod (hkeys : db.ModKeys) {mod : Mod} (hmod : mod ∈ db.mods) (hother : mod.miniverse_id ≠ target) :
    Database.partOf { db with mods := db.mods.filter fun r => decide (r.id ≠ mod.id) } target = db.partOf target := by
  refine part_of_mods (filter_filter_of_rejected fun r hr hin => decide_eq_true fun hid => ?_)
  exact other_mod hkeys hmod hother hr hid (of_decide_eq_true hin)

end Backend
