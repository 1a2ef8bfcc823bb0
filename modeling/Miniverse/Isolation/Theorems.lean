import Miniverse.Files.Secrecy
import Miniverse.Isolation.Lemmas.Hidden
import Miniverse.Mods.Theorems
import Miniverse.Proxy.Theorems
import Miniverse.Roles.Theorems

/-!
# Theorems about outsiders
-/

namespace Backend

open Lib

variable {α : Type} {env : Env α} {target : Uuid4} {u : User} {l : Live α}

/-- A run of requests of an outsider leaves the miniverse alone, and no answer tells of the contents of its files or of the lines of
its console. -/
theorem outsider_isolated (hplain : PlainAnswers env) {sur : Surroundings env.toPlatform} {rs : List ServiceRequest}
    (hout : Outsider target u.id l.world)
    (hmeets : Meets (ServiceRequest.handle sur u) (fun l r => ¬ r.Exposes sur target u l) rs l) :
    Untouched env.toPlatform target l.world (runs (ServiceRequest.handle sur u) rs l).world ∧
      ∀ logs l', SameLogs target l.world.db sur.logs logs → Live.Veiled (get_miniverse_path env.toPlatform target) l l' →
        answers (ServiceRequest.handle sur u) rs l = answers (ServiceRequest.handle { sur with logs } u) rs l' := by
  have hstep (l₁ : Live α) (r : ServiceRequest) (hexposes : ¬ r.Exposes sur target u l₁) :
      IsolatedLive env.toPlatform target u.id l₁ (r.handle sur u l₁).2 := isolated_request hplain sur hexposes
  constructor
  · have hrun := runs_invariant (I := fun l₁ => Outsider target u.id l₁.world ∧ Untouched env.toPlatform target l.world l₁.world)
      (fun l₁ r hexposes h => ?_) hmeets ⟨hout, .refl l.world⟩
    · exact hrun.2
    · obtain ⟨hout₁, huntouched⟩ := hstep l₁ r hexposes h.1
      exact ⟨hout₁, h.2.trans huntouched⟩
  · intro logs l' hlogs hveiled
    refine answers_alike (R := fun l₁ l₁' => Outsider target u.id l₁.world ∧ SameLogs target l₁.world.db sur.logs logs ∧
      Live.Veiled (get_miniverse_path env.toPlatform target) l₁ l₁') (fun l₁ l₁' r hexposes h => ?_) hmeets ⟨hout, hlogs, hveiled⟩
    obtain ⟨hout₁, hlogs₁, hveiled₁⟩ := h
    obtain ⟨hanswer, hveiled₂⟩ := request_answered_alike sur hout₁ hveiled₁ hlogs₁ hexposes
    obtain ⟨hout₂, huntouched⟩ := hstep l₁ r hexposes hout₁
    refine ⟨hanswer, hout₂, fun n container_id hother => hlogs₁ n container_id ?_, hveiled₂⟩
    rwa [← consoleOf_congr huntouched.rows]

/-! ## Two miniverses -/

theorem plainAnswers_sampleCdn (files : List ModrinthProjectFile) : PlainAnswers (sampleCdn files) where
  slugs := (plainMetadata_sampleCdn files).slugs
  version_numbers := (plainMetadata_sampleCdn files).version_numbers
  ids h := by
    have hname : IsName "v1" ∧ IsName "v2" := by decide
    rcases answered_sampleCdn h with rfl | rfl
    · exact hname.1
    · exact hname.2

/-- The consoles of all containers show one line. -/
def sampleSurroundings (line : String) : Surroundings (sampleCdn []).toPlatform where
  nginx := internalServer _
  times _ _ := ⟨0, 0⟩
  status_list _ _ _ := .ok []
  logs _ _ := [line]

def sampleContained (id : Uuid4) (container_id : String) : Miniverse :=
  { (sampleCreate "1.21").toMiniverse id id.str "secret" with container_id := some container_id }

/-- Two miniverses with their containers, of which the guest has a role in the second one. -/
def sampleShared : World String :=
  { sampleWorld with
    db := ⟨[sampleModerator, sampleGuest], [sampleContained sampleId "1", sampleContained sampleIdE "2"],
      [⟨"moderator", sampleId, .admin⟩, ⟨"guest", sampleIdE, .moderator⟩], [], sampleWeight⟩
    containers := [⟨"1", container_name_of sampleId, "", [], true⟩, ⟨"2", container_name_of sampleIdE, "", [], true⟩] }

theorem outsider_sampleShared : Outsider sampleId sampleGuest.id sampleShared where
  present := by decide
  role := by decide
  keys := List.nodup_nil
  names := nofun

theorem outsider_isolated_sample :
    Untouched (sampleCdn []).toPlatform sampleId sampleShared (runs (ServiceRequest.handle (sampleSurroundings "line") sampleGuest)
      [.open_logs sampleIdE.str 1 ["list"], .files (.get_file_content sampleId.str (.parse "a"))] ⟨sampleShared, []⟩).world := by
  have hconsoles : sampleShared.db.consoleOf sampleIdE.str = some "2" ∧ sampleShared.db.consoleOf sampleId.str = some "1" := by decide
  have hmeets : Meets (ServiceRequest.handle (sampleSurroundings "line") sampleGuest)
      (fun l r => ¬ r.Exposes (sampleSurroundings "line") sampleId sampleGuest l)
      [.open_logs sampleIdE.str 1 ["list"], .files (.get_file_content sampleId.str (.parse "a"))] ⟨sampleShared, []⟩ := by
    refine ⟨?_, id, trivial⟩
    rintro ⟨⟨container_id, hown, htarget⟩, _⟩
    cases hconsoles.1.symm.trans hown
    exact absurd (Option.some.inj (hconsoles.2.symm.trans htarget)) (by decide)
  exact (outsider_isolated (plainAnswers_sampleCdn []) outsider_sampleShared hmeets).1

/-- A session of the logs takes commands and sends lines without a role. -/
theorem outsider_uses_console :
    Outsider sampleId sampleGuest.id sampleShared ∧
      ¬ Untouched (sampleCdn []).toPlatform sampleId sampleShared (runs (ServiceRequest.handle (sampleSurroundings "line") sampleGuest)
        [.open_logs sampleId.str 1 ["stop"]] ⟨sampleShared, []⟩).world ∧
      answers (ServiceRequest.handle (sampleSurroundings "line") sampleGuest) [.open_logs sampleId.str 1 ["stop"]] ⟨sampleShared, []⟩ =
        [.ok (.console ["line"] none)] := by
  refine ⟨⟨by decide, by decide, List.nodup_nil, nofun⟩, fun h => ?_, rfl⟩
  have hcommands := h.commands
  revert hcommands
  decide

end Backend
