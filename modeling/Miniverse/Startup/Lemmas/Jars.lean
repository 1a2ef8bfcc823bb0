import Miniverse.Access.Lemmas.Sound
import Miniverse.Calls.Lemmas.RoutesFile

/-!
# The names of the mod files in the table

Nothing that arrives writes another name than that of a `.jar` file.
-/

namespace Backend

open Lib

variable {α β : Type} {env : Env α} {db db' : Database} {w : World α} {u : User}

def Database.Jars (db : Database) : Prop := ∀ r ∈ db.mods, IsJar r.file_name

theorem Database.Jars.of_mods (h : db.Jars) (hmods : db'.mods = db.mods) : db'.Jars := fun r hr => h r (hmods ▸ hr)

theorem Database.Jars.sublist (h : db.Jars) (hmods : ∀ r ∈ db'.mods, r ∈ db.mods) : db'.Jars := fun r hr => h r (hmods r hr)

instance : Calm (Eff.Keeping fun w : World α => w.db.Jars) where
  tick _ _ h := h
  events _ _ h := h
  containers _ _ h := h

theorem jars_onDisk (f : Fs α β) : (onDisk f : Act α β).Within (Eff.Keeping fun w => w.db.Jars) := fun _ h => h

theorem jars_object (id : Uuid4) : AllowsObject (Eff.Keeping fun w : World α => w.db.Jars) id fun _ => True where
  save _ _ h := h
  control _ _ h := h
  state _ _ _ := trivial

theorem jars_data (env : Env α) (id : Uuid4) : AllowsData env (Eff.Keeping fun w => w.db.Jars) id IsJar where
  mkdirs := jars_onDisk _
  write _ _ _ := jars_onDisk _
  unlink _ _ := jars_onDisk _
  answers _ _ := isJar_mod_file_name _ _
  rows h hjar := h hjar hjar
  save_mod _ _ _ _ hname hjar r hr := by
    obtain ⟨r', hr', rfl⟩ := List.mem_map.mp hr
    split
    · exact hname
    · exact hjar r' hr'
  add_mod _ hname _ hjar r hr := by
    rcases List.mem_append.mp hr with hr | hr
    · exact hjar r hr
    · rw [List.mem_singleton.mp hr]
      exact hname
  mkdirs_below _ _ := jars_onDisk _
  write_below _ _ _ := jars_onDisk _

theorem jars_byRole (env : Env α) (u : User) :
    AllowsByRole env (Eff.Keeping fun w => w.db.Jars) u IsJar fun _ => True where
  used _ _ hr h := hr ⟨jars_object _, jars_data env _, trivial⟩ h
  moderated _ hr h := hr (jars_data env _).toAllowsMods (fun _ _ h => h.sublist fun _ hr => List.mem_of_mem_filter hr) h
  administered _ _ hr h := hr (fun _ => within_update_object (jars_object _) (jars_data env _)
    (within_update_proxy_config jars_onDisk) trivial fun _ _ _ _ => trivial) h
  given _ _ _ _ h := h.of_mods (setRole_others _ _).2.2.1

theorem jars_create {data : MiniverseCreate} (h : w.db.Jars) : (create_miniverse env data u w).2.db.Jars := by
  rcases create_miniverse_cases env data u w with ⟨e, w', hrun, hdb, _⟩ | ⟨s, _, _, _, hrun⟩
  · rw [hrun, hdb]
    exact h
  · rw [hrun]
    exact Eff.Within.bind (R := Eff.Keeping fun w : World α => w.db.Jars) (within_commit fun _ h => h)
      (fun _ => within_set_up (within_update_proxy_config jars_onDisk) (fun _ _ h => h) (jars_object _) (jars_data env _) trivial)
      _ h

theorem jars_delete (m : Miniverse) (h : w.db.Jars) : (delete_miniverse env m w).2.db.Jars := by
  rcases delete_miniverse_cases env m (R := Same World.db) (fun _ => rfl) (fun _ => rfl) w with
    ⟨e, w', hrun, hdb⟩ | ⟨w₁, hdb, _, _, hrun⟩
  · rw [hrun]
    exact h.of_mods (congrArg Database.mods hdb)
  · rw [hrun]
    refine within_finish_delete (R := Eff.Keeping fun w : World α => w.db.Jars) (within_update_proxy_config jars_onDisk) m.id _ _ ?_
    refine h.sublist fun r hr => ?_
    rw [← (hdb : w₁.db = w.db)]
    exact List.mem_of_mem_filter hr

theorem jars_route (route : MiniversesRoute) : (route.handle env u).Within (Eff.Keeping fun w => w.db.Jars) := by
  refine within_route_by_role (jars_byRole env u) (fun data heq => ?_) fun miniverse_id heq => ?_
  · subst heq
    rw [MiniversesRoute.handle]
    exact (Eff.Within.raiseIf _ _).bind fun _ => Eff.Within.bind (fun w => jars_create) fun _ => Eff.Within.pure _
  · subst heq
    exact within_guarded_by (P := fun _ => True) (fun _ _ h => h trivial)
      (fun m _ => Eff.Within.bind (fun w => jars_delete m) fun _ => Eff.Within.pure _)

theorem SignIn.mods {token : Token} {r : Except PyError User} (h : SignIn db token r db') : db'.mods = db.mods := by
  cases h.login <;> rfl

theorem RouteChange.mods {route : UsersRoute} (h : RouteChange u db route db') : db'.mods = db.mods := by
  cases h <;> rfl

theorem RowChange.jars {a : Arrival} (h : RowChange env db a db') (hjars : db.Jars) : db'.Jars := by
  cases h with
  | idle => exact hjars
  | login _ hlogin => exact hjars.of_mods hlogin.mods
  | users hlogin hchange => exact (hjars.of_mods hlogin.mods).of_mods hchange.mods
  | miniverses hlogin => exact jars_route _ _ (hjars.of_mods hlogin.mods)

end Backend
