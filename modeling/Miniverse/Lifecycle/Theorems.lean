import Miniverse.Calls.Theorems
import Miniverse.Isolation.Theorems
import Miniverse.Lifecycle.Lemmas.Erasing
import Miniverse.Lifecycle.Lemmas.Requests

/-!
# Theorems about whole lives of miniverses
-/

namespace Backend

open Lib

variable {α : Type} {env : Env α} {w w₁ w₂ : World α} {m : Miniverse} {u creator : User}

/-! ## Creating -/

theorem elsewhere_add (m : Miniverse) : (add_miniverse env m).Within (Elsewhere env m.id) := by
  refine (Eff.Within.read _).bind fun existing => ?_
  cases existing with
  | some c => exact Eff.Within.modify fun w => elsewhere_control w _
  | none => exact (within_ask _).bind fun _ => Eff.Within.modify fun w => elsewhere_register w _

theorem elsewhere_set_up (hplain : PlainAnswers env) (m : Miniverse) : (set_up_miniverse env m).Within (Elsewhere env m.id) := by
  have hallows := elsewhere_allows hplain m.id
  refine (hallows.mkdirs_below _ (List.prefix_refl _)).bind fun _ => (elsewhere_add m).bind fun _ => ?_
  refine (within_start_miniverse hallows trivial).bind fun _ => elsewhere_routes.bind fun _ => (within_query _).bind fun _ => ?_
  exact (within_publish _ _ _).bind fun _ => Eff.Within.pure _

theorem returns_set_up_miniverse (m : Miniverse) : (set_up_miniverse env m).Returns fun m' => m'.id = m.id := by
  intro w m' w' h
  obtain ⟨_, w₁, _, h⟩ := Eff.bind_ok h
  obtain ⟨_, w₂, _, h⟩ := Eff.bind_ok h
  obtain ⟨r, w₃, hstart, h⟩ := Eff.bind_ok h
  obtain ⟨_, w₄, _, h⟩ := Eff.bind_ok h
  obtain ⟨_, w₅, _, h⟩ := Eff.bind_ok h
  obtain ⟨_, w₆, _, h⟩ := Eff.bind_ok h
  cases h
  exact returns_start_miniverse m w₂ r w₃ hstart

/-- A creation that returns has made a miniverse that was not there. -/
theorem create_miniverse_returned (hplain : PlainAnswers env) {data : MiniverseCreate}
    (h : create_miniverse env data creator w = (.ok m, w₁)) :
    (∀ r ∈ w.db.miniverses, r.id ≠ m.id) ∧ Elsewhere env m.id w w₁ := by
  rcases create_miniverse_cases env data creator w with ⟨e, w', hrun, _⟩ | ⟨s, _, hfresh, _, hrun⟩
  · rw [hrun] at h
    cases h
  · rw [hrun] at h
    generalize hnew : data.toMiniverse (env.uuid4 w.tick) s (env.random_string (w.tick + 1)) = new at h
    have hid : new.id = env.uuid4 w.tick := hnew ▸ rfl
    obtain ⟨_, w', hcommit, h⟩ := Eff.bind_ok h
    have hm : m.id = new.id := returns_set_up_miniverse new w' m w₁ h
    rw [hm, hid]
    refine ⟨hfresh, ?_⟩
    have hadded : Elsewhere env (env.uuid4 w.tick) w { w.next.next.next with
        db := { w.db with miniverses := w.db.miniverses ++ [new] } } :=
      fun hplain => ⟨hplain, delete_addMiniverse hid w.db, rfl, fun _ _ => rfl⟩
    have hrole : Elsewhere env (env.uuid4 w.tick) _ w' := Eff.Within.of_run hcommit
      (within_commit fun w => elsewhere_rows (delete_addRole rfl w.db) rfl)
    have hsetup : Elsewhere env (env.uuid4 w.tick) w' w₁ := hid ▸ Eff.Within.of_run h (elsewhere_set_up hplain new)
    exact trans_of _ (trans_of _ hadded hrole) hsetup

/-! ## Deleting -/

/-- Nothing of a miniverse is left: its files are gone, and all else is what it was. The directory of all miniverses may be new. -/
structure NoTrace (env : Env α) (id : Uuid4) (w w' : World α) : Prop where
  rows : w'.db = w.db
  controllers : w'.controllers = w.controllers
  volume : w'.disk.tree.isDir (get_miniverse_path env.toPlatform id) = false
  files : ∀ q, ¬ get_miniverse_path env.toPlatform id <+: q → q ≠ (get_miniverse_path env.toPlatform id).parent →
    w'.disk.tree.get q = w.disk.tree.get q

/-- Above the file of the routes there are directories. -/
theorem InStep.above (h : InStep env w) {q : Loc} (hq : q <+: routes_path env) (hne : q ≠ routes_path env) :
    w.disk.tree.get q = some .dir :=
  FileTree.isDir_iff.mp (FileTree.isDir_above hq hne (FileTree.exists_iff.mpr ⟨_, h⟩))

/-- The places above a miniverse are above the routes as well, but for the directory of all miniverses. -/
theorem above_routes {id : Uuid4} {q : Loc} (hq : q <+: get_miniverse_path env.toPlatform id)
    (hvolume : ¬ get_miniverse_path env.toPlatform id <+: q) (hall : q ≠ (get_miniverse_path env.toPlatform id).parent) :
    q <+: routes_path env ∧ q ≠ routes_path env := by
  have hpath : get_miniverse_path env.toPlatform id = (env.DATA_PATH ++ ["miniverses"]) ++ [id.str] := by simp [get_miniverse_path]
  rw [hpath, Loc.parent_concat] at hall
  rw [hpath] at hq hvolume
  have hdata : q <+: env.DATA_PATH := by
    rcases List.prefix_concat_iff.mp hq with rfl | hq
    · exact absurd (List.prefix_refl _) hvolume
    · exact (List.prefix_concat_iff.mp hq).resolve_left hall
  have hroutes : routes_path env = env.DATA_PATH ++ ["proxy", "routes.json"] := rfl
  refine ⟨hdata.trans (hroutes ▸ List.prefix_append _ _), fun heq => ?_⟩
  have hlength := hdata.length_le
  rw [heq, hroutes, List.length_append] at hlength
  exact absurd hlength (by simp)

/-- A deletion takes back what a miniverse that was not there has changed. -/
theorem Erased.noTrace {w' : World α} (herased : Erased env m w₁ w') (hsame : SameElsewhere env m.id w w₁) (hsound : w.db.Sound)
    (hfresh : ∀ r ∈ w.db.miniverses, r.id ≠ m.id) (hregistered : ∀ entry ∈ w.controllers, entry.1 ∈ w.db.miniverses.map Miniverse.id)
    (hstep : InStep env w) : NoTrace env m.id w w' := by
  have hdb : w'.db = w.db := by rw [herased.rows, hsame.rows, deleteMiniverse_of_fresh hsound hfresh]
  refine ⟨hdb, ?_, ?_, fun q hvolume hall => ?_⟩
  · have hall : ∀ entry ∈ w.controllers, decide (entry.1.str ≠ m.id.str) = true := by
      intro entry hentry
      obtain ⟨r, hr, hid⟩ := List.mem_map.mp (hregistered entry hentry)
      exact decide_eq_true fun hstr => hfresh r hr (hid.trans (Uuid4.eq_of_str hstr))
    rw [herased.controllers, hsame.controllers]
    exact List.filter_eq_self.mpr hall
  · have hapart := routes_not_below env m.id (q := get_miniverse_path env.toPlatform m.id)
    have hget := herased.files (get_miniverse_path env.toPlatform m.id) fun hq => hapart hq (List.prefix_refl _)
    cases hdir : w₁.disk.tree.isDir (get_miniverse_path env.toPlatform m.id) with
    | true =>
        rw [if_pos ⟨List.prefix_refl _, hdir⟩] at hget
        rw [FileTree.isDir, hget]
    | false =>
        rw [if_neg fun hq => Bool.false_ne_true (hdir.symm.trans hq.2)] at hget
        rw [FileTree.isDir, hget]
        exact hdir
  · by_cases hroutes : q <+: routes_path env
    · by_cases hfile : q = routes_path env
      · rw [hfile, show w'.disk.tree.get (routes_path env) = _ from herased.routes, hdb]
        exact hstep.symm
      · rw [herased.routes.above hroutes hfile, hstep.above hroutes hfile]
    · have hplace : ¬ TouchedPlace env m.id q := by
        rintro (hq | hq | hq)
        · exact hvolume hq
        · exact hroutes (above_routes hq hvolume hall).1
        · exact hroutes hq
      rw [herased.files q hroutes, if_neg fun hq => hvolume hq.1, hsame.files q hplace]

/-- A request to delete a miniverse that is answered has found its row. -/
theorem delete_route_returned (hdocker : TruthfulDocker env) {miniverse_id : String} {reply : Reply}
    (h : (MiniversesRoute.delete_miniverse miniverse_id).handle env u w = (.ok reply, w₁)) :
    ∃ row ∈ w.db.miniverses, row.id.str = miniverse_id ∧ Erased env row w w₁ := by
  obtain ⟨_, w', hrole, hguarded⟩ := Eff.bind_ok h
  obtain ⟨row, w'', hfound, hservice⟩ := Eff.bind_ok hguarded
  obtain ⟨_, w₂, hdelete, hreply⟩ := Eff.bind_ok hservice
  unfold requireRole query at hrole
  rw [Eff.read_bind_run] at hrole
  unfold getMiniverse query at hfound
  rw [Eff.read_bind_run] at hfound
  obtain ⟨_, rfl⟩ := Eff.raiseIf_ok hrole
  obtain ⟨hrow, rfl⟩ := Eff.getOr_ok hfound
  obtain ⟨hmem, hid⟩ := findMiniverse_some hrow
  cases hreply
  exact ⟨row, hmem, hid, delete_miniverse_returned hdocker hdelete⟩

/-! ## From the creation to the deletion -/

/-- A miniverse that is created, about which users send any requests, and that is deleted leaves no trace. -/
theorem miniverse_leaves_no_trace (hplain : PlainAnswers env) (hdocker : TruthfulDocker env) (sur : Surroundings env.toPlatform)
    (hsound : w.db.Sound) (hnames : ∀ mod ∈ w.db.mods, IsName mod.file_name)
    (hregistered : ∀ entry ∈ w.controllers, entry.1 ∈ w.db.miniverses.map Miniverse.id) (hstep : InStep env w)
    {data : MiniverseCreate} (hcreate : create_miniverse env data creator w = (.ok m, w₁))
    {sessions : List Session} {rs : List (User × ServiceRequest)}
    (habout : Meets (fun r : User × ServiceRequest => r.2.handle sur r.1) (fun l r => r.2.About m.id l.world.db) rs ⟨w₁, sessions⟩)
    {l : Live α} (hl : l = runs (fun r : User × ServiceRequest => r.2.handle sur r.1) rs ⟨w₁, sessions⟩) {reply : Reply}
    (hdelete : (MiniversesRoute.delete_miniverse m.id.str).handle env u l.world = (.ok reply, w₂)) :
    NoTrace env m.id w w₂ ∧ InStep env w₂ ∧
      ∃ row ∈ l.world.db.miniverses, row.id = m.id ∧ w₂.containers = withoutServer row l.world.containers := by
  obtain ⟨hfresh, hcreated⟩ := create_miniverse_returned hplain hcreate
  have hrun : Elsewhere env m.id w₁ l.world := by
    rw [hl]
    refine runs_invariant (I := fun l : Live α => Elsewhere env m.id w₁ l.world) (fun l r hr h => ?_) habout (Std.Refl.refl w₁)
    exact trans_of _ h (elsewhere_request hplain sur r.1 hr)
  have hsame : SameElsewhere env m.id w l.world := (trans_of _ hcreated hrun ⟨hsound.mods, hnames⟩).2
  obtain ⟨row, hrow, hid, herased⟩ := delete_route_returned hdocker hdelete
  have hid := Uuid4.eq_of_str hid
  rw [← hid] at hsame hfresh ⊢
  exact ⟨herased.noTrace hsame hsound hfresh hregistered hstep, herased.routes, row, hrow, rfl, herased.containers⟩

/-- A user, and no miniverse yet. -/
def sampleEmpty : World String := { sampleRouted with db := ⟨[sampleModerator], [], [], [], sampleWeight⟩ }

theorem sound_sampleEmpty : sampleEmpty.db.Sound where
  users := List.nodup_singleton _
  usernames := List.nodup_singleton _
  miniverses := List.nodup_nil
  roles := ⟨List.nodup_nil, nofun, nofun⟩
  holders := nofun
  mods := List.nodup_nil
  rooted := nofun

/-- The user stops the new miniverse, writes one of its files and starts it again. -/
def sampleLife : List (User × ServiceRequest) :=
  [(sampleModerator, .miniverses (.stop_miniverse sampleId.str)),
    (sampleModerator, .files (.set_file_content sampleId.str (.parse "notes.txt") (.content (some "notes")))),
    (sampleModerator, .miniverses (.start_miniverse sampleId.str))]

/-- The state after these requests. -/
def sampleLived : Live String :=
  runs (fun r : User × ServiceRequest => r.2.handle (sampleSurroundings "line") r.1) sampleLife
    ⟨(create_miniverse (sampleCdn []) (sampleCreate "1.21.8") sampleModerator sampleEmpty).2, []⟩

theorem miniverse_leaves_no_trace_sample :
    NoTrace (sampleCdn []) sampleId sampleEmpty
      ((MiniversesRoute.delete_miniverse sampleId.str).handle (sampleCdn []) sampleModerator sampleLived.world).2 := by
  obtain ⟨m, w₁, hcreate⟩ : Succeeds (create_miniverse (sampleCdn []) (sampleCreate "1.21.8") sampleModerator) sampleEmpty :=
    succeeds_of_isOk (by decide +kernel)
  obtain ⟨reply, w₂, hdelete⟩ : Succeeds ((MiniversesRoute.delete_miniverse sampleId.str).handle (sampleCdn []) sampleModerator)
    sampleLived.world := succeeds_of_isOk (by decide +kernel)
  have hid : m.id = sampleId := by
    have hresult : (create_miniverse (sampleCdn []) (sampleCreate "1.21.8") sampleModerator sampleEmpty).1.map (·.id) = .ok sampleId := by
      decide +kernel
    rw [hcreate] at hresult
    exact Except.ok.inj hresult
  have hlived : sampleLived = runs (fun r : User × ServiceRequest => r.2.handle (sampleSurroundings "line") r.1) sampleLife ⟨w₁, []⟩ := by
    rw [sampleLived, hcreate]
  have habout : Meets (fun r : User × ServiceRequest => r.2.handle (sampleSurroundings "line") r.1)
      (fun l r => r.2.About m.id l.world.db) sampleLife ⟨w₁, []⟩ := by
    rw [hid]
    exact ⟨rfl, rfl, rfl, trivial⟩
  rw [hdelete, ← hid]
  exact (miniverse_leaves_no_trace (plainAnswers_sampleCdn []) (fun _ => nofun) (sampleSurroundings "line") sound_sampleEmpty nofun
    nofun rfl hcreate habout hlived (hid ▸ hdelete)).1

end Backend
