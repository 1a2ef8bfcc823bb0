import Miniverse.Lifecycle.Lemmas.Starting
import Miniverse.Startup.Service

/-!
# The registry after the startup
-/

namespace Backend

open Lib

variable {α : Type} {env : Env α} {w w' : World α} {m : Miniverse}

/-! ## Attended rows -/

/-- A controller that the startup chooses for a row: it runs when it can and the row says so. -/
def Attends (m : Miniverse) (entry : Uuid4 × Controller) : Prop :=
  entry.1 = m.id ∧ (entry.2 = .mcRouter [] ∨ entry.2 = .webSocket m.started)

/-- Each row has its controller, in the order of the rows. -/
def Attended (ms : List Miniverse) (controllers : List (Uuid4 × Controller)) : Prop := List.Forall₂ Attends ms controllers

theorem Attended.keys {ms : List Miniverse} {controllers : List (Uuid4 × Controller)} (h : Attended ms controllers) :
    controllers.map Prod.fst = ms.map Miniverse.id := by
  induction h with
  | nil => rfl
  | cons hentry _ ih => rw [List.map_cons, List.map_cons, hentry.1, ih]

theorem Attends.start {entry : Uuid4 × Controller} (h : Attends m entry) (hstarted : m.started = true) :
    entry.2.start = entry.2 := by
  rcases h.2 with hc | hc
  · rw [hc]
    rfl
  · rw [hc, hstarted]
    rfl

theorem Attended.mem_left {ms : List Miniverse} {controllers : List (Uuid4 × Controller)} (h : Attended ms controllers)
    {entry : Uuid4 × Controller} (hentry : entry ∈ controllers) : ∃ r ∈ ms, Attends r entry := by
  induction h with
  | nil => cases hentry
  | cons hhead _ ih =>
      rcases List.mem_cons.mp hentry with rfl | hentry
      · exact ⟨_, List.mem_cons_self, hhead⟩
      · obtain ⟨r, hr, hattends⟩ := ih hentry
        exact ⟨r, List.mem_cons_of_mem _ hr, hattends⟩

/-- A started row whose controller is started again. -/
theorem Attended.startAgain {ms : List Miniverse} (hkey : (ms.map Miniverse.id).Nodup) (hm : m ∈ ms) (hstarted : m.started = true)
    (h : Attended ms w.controllers) {k : Uuid4} {c : Controller} (hservice : w.service m.id.str = some (k, c)) :
    Attended ms (w.setController m.id c.start).controllers := by
  have hentry : (k, c) ∈ w.controllers := List.mem_of_find?_eq_some hservice
  obtain rfl : k = m.id := Uuid4.eq_of_str (registered_of_service hservice).2
  have hattends {r : Miniverse} {entry : Uuid4 × Controller} (hr : r ∈ ms) (hattends : Attends r entry) (hid : entry.1 = m.id) :
      Attends m entry := List.inj_on_of_nodup_map hkey hr hm (hattends.1.symm.trans hid) ▸ hattends
  obtain ⟨r, hr, hown⟩ := h.mem_left hentry
  have hown := hattends hr hown rfl
  refine List.forall₂_map_right_iff.mpr (((List.forall₂_and_left _ _).mpr ⟨fun _ hr => hr, h⟩).imp fun r entry hpair => ?_)
  by_cases hid : entry.1 = m.id
  · rw [if_pos hid]
    obtain rfl : r = m := List.inj_on_of_nodup_map hkey hpair.1 hm (hpair.2.1.symm.trans hid)
    exact hown.start hstarted ▸ hown
  · rw [if_neg hid]
    exact hpair.2

/-! ## Registering the rows -/

/-- Nothing changes but the registry. -/
def Registering (w w' : World α) : Prop := w' = { w with controllers := w'.controllers, tick := w'.tick }

theorem Registering.refl (w : World α) : Registering w w := rfl

theorem Registering.trans {w'' : World α} (h : Registering w w') (h' : Registering w' w'') : Registering w w'' := by
  unfold Registering at h h' ⊢
  rw [h', h]

theorem add_miniverse_returned (hfree : m.id ∉ w.controllers.map Prod.fst) {a : Unit} (h : add_miniverse env m w = (.ok a, w')) :
    Registering w w' ∧ ∃ c, (c = .mcRouter [] ∨ c = .webSocket false) ∧ w'.controllers = w.controllers ++ [(m.id, c)] := by
  have hnone : w.service m.id.str = none := by
    rcases hservice : w.service m.id.str with _ | ⟨k, c⟩
    · rfl
    · obtain ⟨hreg, hstr⟩ := registered_of_service hservice
      exact absurd (Uuid4.eq_of_str hstr ▸ hreg) hfree
  unfold add_miniverse get_miniverse_controller at h
  rw [Eff.read_bind_run, hnone] at h
  obtain ⟨found, w₁, hcompare, h⟩ := Eff.bind_ok h
  obtain rfl : w.next = w₁ := congrArg Prod.snd hcompare
  cases h
  refine ⟨rfl, _, ?_, rfl⟩
  by_cases hfound : found = some 1
  · rw [if_pos hfound]
    exact Or.inr rfl
  · rw [if_neg hfound]
    exact Or.inl rfl

theorem startController_last {cs : List (Uuid4 × Controller)} {c : Controller} (hfree : m.id ∉ cs.map Prod.fst)
    (hlast : w.controllers = cs ++ [(m.id, c)]) {a : Unit} (h : startController m.id w = (.ok a, w')) :
    Registering w w' ∧ w'.controllers = cs ++ [(m.id, c.start)] := by
  obtain ⟨k, c', hservice, rfl⟩ := startController_returned h
  obtain rfl : k = m.id := Uuid4.eq_of_str (registered_of_service hservice).2
  have hother {e : Uuid4 × Controller} (he : e ∈ cs) : e.1 ≠ m.id := fun heq => hfree (heq ▸ List.mem_map_of_mem he)
  have hentry : (m.id, c') ∈ cs ++ [(m.id, c)] := hlast ▸ List.mem_of_find?_eq_some hservice
  obtain rfl : c' = c := by
    rcases List.mem_append.mp hentry with hentry | hentry
    · exact absurd rfl (hother hentry)
    · exact congrArg Prod.snd (List.mem_singleton.mp hentry)
  refine ⟨rfl, ?_⟩
  show w.controllers.map _ = _
  have hsame : cs.map (fun e => if e.1 = m.id then (m.id, c'.start) else e) = cs :=
    (List.map_congr_left fun e he => if_neg (hother he)).trans (List.map_id' _)
  rw [hlast, List.map_append, hsame, List.map_singleton, if_pos rfl]

/-- On an empty registry, each row gets its controller. -/
theorem manager_startup_returned (hkey : (w.db.miniverses.map Miniverse.id).Nodup) (hempty : w.controllers = []) {a : Unit}
    (h : miniverse_controller_manager_startup env w = (.ok a, w')) :
    Registering w w' ∧ Attended w.db.miniverses w'.controllers := by
  unfold miniverse_controller_manager_startup query at h
  rw [Eff.read_bind_run] at h
  refine Eff.forM_returned (P := fun done s => Registering w s ∧ Attended done s.controllers) (fun done m rest hms s s' hdone hs => ?_)
    ⟨.refl w, hempty ▸ .nil⟩ h
  have hfree : m.id ∉ s.controllers.map Prod.fst := by
    rw [hdone.2.keys]
    rw [hms, List.map_append] at hkey
    exact fun hmem => (List.nodup_append.mp hkey).2.2 _ hmem _ (List.mem_map_of_mem List.mem_cons_self) rfl
  obtain ⟨_, s₁, hadd, hs⟩ := Eff.bind_ok hs
  obtain ⟨hreg, c, hc, hcontrollers⟩ := add_miniverse_returned hfree hadd
  cases hstarted : m.started with
  | false =>
      rw [hstarted] at hs
      cases hs
      refine ⟨hdone.1.trans hreg, ?_⟩
      rw [hcontrollers]
      exact List.rel_append hdone.2 (.cons ⟨rfl, hstarted ▸ hc⟩ .nil)
  | true =>
      rw [hstarted] at hs
      obtain ⟨hreg', hcontrollers'⟩ := startController_last hfree hcontrollers hs
      refine ⟨(hdone.1.trans hreg).trans hreg', ?_⟩
      rw [hcontrollers']
      refine List.rel_append hdone.2 (.cons ⟨rfl, ?_⟩ .nil)
      rcases hc with rfl | rfl
      · exact Or.inl rfl
      · exact Or.inr (congrArg _ hstarted.symm)

end Backend
