import Miniverse.Api.Miniverses
import Miniverse.Lib.Outcome

/-!
# The players of all miniverses

For which miniverses the handlers find a list, depending on the controllers.
-/

namespace Backend

open Lib

variable {α : Type} {env : Env α} {w : World α} {m : Miniverse} {banned : Bool}

/-- The class of the controller of a miniverse has a method for the list, where it is called. -/
def HasList (w : World α) (banned : Bool) (m : Miniverse) : Prop :=
  m.started = true → banned = true → ∀ online_players, (w.service m.id.str).map Prod.snd ≠ some (.mcRouter online_players)

theorem get_msmp_player_list_answers (hplayers : ∀ n id, ∃ players, env.player_list n id = .ok players) (id : Uuid4)
    (w : World α) : ∃ players, get_msmp_player_list env id w = (.ok players, w.next) := by
  obtain ⟨players, hanswer⟩ := hplayers w.tick id
  exact ⟨players, ask_ok hanswer⟩

/-- One entry for a miniverse whose controller has the list. -/
theorem listPlayers_ok (hplayers : ∀ n id, ∃ players, env.player_list n id = .ok players) {c : Controller}
    (hc : (w.service m.id.str).map Prod.snd = some c) (h : HasList w banned m) :
    ∃ e w', listPlayers env banned m w = (.ok e, w') ∧ w'.controllers = w.controllers ∧ e.1 = m.id := by
  unfold listPlayers
  by_cases hstarted : m.started = true
  · have hget : get_miniverse_controller m.id.str w = (.ok (some c), w) := congrArg (fun c => (Except.ok c, w)) hc
    obtain ⟨players, hlist⟩ := get_msmp_player_list_answers hplayers m.id w
    have hanswer : (do return (m.id, ← get_msmp_player_list env m.id) : Act α _) w = (.ok (m.id, players), w.next) := by
      rw [Eff.bind_run_ok hlist]
      rfl
    rw [if_neg (by simp [hstarted]), Eff.bind_run_ok hget]
    cases c with
    | webSocket task => exact ⟨_, _, hanswer, rfl, rfl⟩
    | mcRouter online_players =>
        obtain rfl : banned = false := Bool.eq_false_iff.mpr fun hb => h hstarted hb online_players hc
        exact ⟨_, _, hanswer, rfl, rfl⟩
  · rw [if_pos (by simp [hstarted])]
    exact ⟨(m.id, []), w, rfl, rfl, rfl⟩

/-- The router's controller has no list of bans. -/
theorem listPlayers_error (h : ¬ HasList w banned m) : ∃ w', listPlayers env banned m w = (.error .attributeError, w') := by
  simp only [HasList, Classical.not_imp, not_forall, not_not] at h
  obtain ⟨hstarted, rfl, online_players, hc⟩ := h
  have hget : get_miniverse_controller m.id.str w = (.ok (some (.mcRouter online_players)), w) :=
    congrArg (fun c => (Except.ok c, w)) hc
  unfold listPlayers
  rw [if_neg (by simp [hstarted]), Eff.bind_run_ok hget]
  exact ⟨w, rfl⟩

/-- The answer has one entry for each miniverse, in their order. -/
theorem listPlayers_all_iff (hplayers : ∀ n id, ∃ players, env.player_list n id = .ok players) {ms : List Miniverse}
    (hregistered : ∀ m ∈ ms, ∃ c, (w.service m.id.str).map Prod.snd = some c) :
    (∃ es w', ms.mapM (listPlayers env banned) w = (.ok es, w') ∧ List.Forall₂ (fun m e => e.1 = m.id) ms es) ↔
      ∀ m ∈ ms, HasList w banned m := by
  have hservice {w' : World α} (hsame : w'.controllers = w.controllers) (id : String) : w'.service id = w.service id := by
    rw [World.service, hsame, World.service]
  refine @Eff.mapM_returns_iff _ _ _ _ _ (fun w' => w'.controllers = w.controllers) _ _ _ (fun m hm w' hsame h => ?_)
    (fun m _ w' hsame h => ?_) w rfl
  · obtain ⟨c, hc⟩ := hregistered m hm
    have hlist : HasList w' banned m := by
      rw [HasList, hservice hsame]
      exact h
    obtain ⟨e, w'', hrun, hsame', he⟩ := listPlayers_ok hplayers ((hservice hsame _).symm ▸ hc) hlist
    exact ⟨e, w'', hrun, hsame'.trans hsame, he⟩
  · have hlist : ¬ HasList w' banned m := by
      rw [HasList, hservice hsame]
      exact h
    obtain ⟨w'', hrun⟩ := @listPlayers_error _ env _ _ _ hlist
    exact ⟨_, w'', hrun⟩

end Backend
