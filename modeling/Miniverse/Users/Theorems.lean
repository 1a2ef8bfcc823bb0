import Miniverse.Users.Lemmas.Admins

/-!
# Theorems about users
-/

namespace Backend

open Lib

variable {α : Type} {env : Env α}

def sampleToken : Token := ⟨"admin", "Admin"⟩

/-- What holds at each point of a run: at first there is no user, later an administrator. -/
def Database.Administered (db : Database) : Prop := db.UniqueUsers ∧ (db.users = [] ∨ db.HasActiveAdmin)

theorem request_administered {r : UsersRequest} {w : World α} (hharm : ¬ Harmful w.db r) (h : w.db.Administered) :
    (r.handle env w).2.db.Administered := by
  obtain ⟨hunique, hempty | hadmin⟩ := h
  · exact ⟨request_unique r w hunique, request_empty hharm hempty⟩
  · exact ⟨request_unique r w hunique, Or.inr (request_keeps hharm hunique hadmin)⟩

/-- From the first login on, a run without harmful requests always has an active administrator. -/
theorem admin_remains {w : World α} {before after : List UsersRequest} {first : UsersRequest} {u : User}
    (hempty : w.db.users = [])
    (hmeets : Meets (UsersRequest.handle env) (fun w r => ¬ Harmful w.db r) (before ++ first :: after) w)
    (hlogin : (retrieve_user_handler env first.token (runs (UsersRequest.handle env) before w)).1 = .ok u) :
    (runs (UsersRequest.handle env) (before ++ first :: after) w).db.HasActiveAdmin := by
  obtain ⟨hbefore, hfirst, hafter⟩ := meets_append.mp hmeets
  rw [runs_append, runs_cons]
  obtain ⟨hunique, hstate⟩ := runs_invariant (I := fun w => w.db.Administered)
    (fun w r => request_administered) hbefore ⟨by simp [Database.UniqueUsers, hempty], Or.inl hempty⟩
  -- the first login makes an administrator, or finds one
  have hadmin : (first.handle env (runs (UsersRequest.handle env) before w)).2.db.HasActiveAdmin := by
    rcases hstate with hnone | hadmin
    · exact request_first hfirst hnone hlogin
    · exact request_keeps hfirst hunique hadmin
  exact (runs_invariant (I := fun w => w.db.UniqueUsers ∧ w.db.HasActiveAdmin)
    (fun w r hharm h => ⟨request_unique r w h.1, request_keeps hharm h.1 h.2⟩) hafter
    ⟨request_unique first _ hunique, hadmin⟩).2

/-- The first user logs in and then tries to leave. -/
theorem admin_remains_sample :
    (runs (UsersRequest.handle sampleEnv) ([] ++ ⟨sampleToken, .get_me⟩ :: [⟨sampleToken, .delete_me⟩])
      sampleWorld).db.HasActiveAdmin :=
  admin_remains (u := ⟨"admin", true, "Admin", .admin⟩) rfl
    ⟨fun h => h.2, fun h => absurd (show 1 < count_admins _ from h.2) (by decide), trivial⟩ rfl

/-- The first user logs in and then rejects its own request. -/
theorem admin_lost :
    sampleWorld.db.users = [] ∧
      (retrieve_user_handler sampleEnv sampleToken sampleWorld).1 = .ok ⟨"admin", true, "Admin", .admin⟩ ∧
      ¬ (runs (UsersRequest.handle sampleEnv)
        ([] ++ ⟨sampleToken, .get_me⟩ :: [⟨sampleToken, .reject_user_request "admin"⟩]) sampleWorld).db.HasActiveAdmin := by
  refine ⟨rfl, rfl, ?_⟩
  have h : (runs (UsersRequest.handle sampleEnv)
      ([] ++ ⟨sampleToken, .get_me⟩ :: [⟨sampleToken, .reject_user_request "admin"⟩]) sampleWorld).db.users = [] := by
    decide
  rintro ⟨u, hu, _⟩
  rw [h] at hu
  cases hu

end Backend
