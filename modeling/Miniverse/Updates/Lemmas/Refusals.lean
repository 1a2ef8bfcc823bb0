import Miniverse.Lib.Outcome
import Miniverse.Miniverses.Lemmas.Answers
import Miniverse.Miniverses.Lemmas.Cases
import Miniverse.Mods.Lemmas.Rows
import Miniverse.Versions.Lemmas.Chain

/-!
# Where an update is refused

A `ValidationException` comes from the checks of the code only, since what is outside does not know it. An update that
raises one did so at a name, at the game version, or while the mods of a proxy were installed.
-/

namespace Backend

open Lib

variable {α β : Type} {env : Env α} {m : Miniverse} {v : String} {w w' : World α} {detail : String}

def PyError.NoRefusal (e : PyError) : Prop := ∀ detail, e ≠ .validation detail

/-- The result is not a refusal. -/
def Unrefused (r : Except PyError β) : Prop := ∀ e, r = .error e → e.NoRefusal

/-- What is outside raises no `ValidationException`. -/
structure Foreign (env : Env α) : Prop where
  commit : ∀ n, Unrefused (env.commit n)
  get_minecraft_versions : ∀ n, Unrefused (env.get_minecraft_versions n)
  list_project_versions : ∀ n project_id loader game_version,
    Unrefused (env.list_project_versions n project_id loader game_version)
  get_project_details : ∀ n project_id, Unrefused (env.get_project_details n project_id)
  get_version_details : ∀ n version_id, Unrefused (env.get_version_details n version_id)
  download : ∀ n url, Unrefused (env.download n url)
  docker : ∀ n, Unrefused (env.docker n)
  player_list : ∀ n id, Unrefused (env.player_list n id)

/-! ## Comparing -/

theorem Unrefused.ok (b : β) : Unrefused (.ok b : Except PyError β) := nofun

theorem Unrefused.error {e : PyError} (h : e.NoRefusal) : Unrefused (.error e : Except PyError β) := by
  intro e' he
  cases he
  exact h

theorem Unrefused.bind {γ : Type} {r : Except PyError β} {k : β → Except PyError γ} (hr : Unrefused r)
    (hk : ∀ b, Unrefused (k b)) : Unrefused (r >>= k) := by
  cases r with
  | error e => exact .error (hr e rfl)
  | ok b => exact hk b

theorem OnlyValueErrors.unrefused {r : Except PyError β} (h : OnlyValueErrors r) : Unrefused r := by
  intro e he detail hdetail
  obtain ⟨message, rfl⟩ := h e he
  cases hdetail

theorem unrefused_compare_by_publish_date {answer : Except PyError (List MinecraftVersion)} (h : Unrefused answer)
    (v1 v2 : String) : Unrefused (compare_by_publish_date answer v1 v2) := by
  refine h.bind fun all_versions => ?_
  split
  · refine Unrefused.bind ?_ fun c => .ok _
    unfold compareDates
    split
    · exact .ok _
    · exact .error nofun
  · exact .ok _

theorem unrefused_compare_prerelease_identifiers (id1 id2 : Option String) :
    Unrefused (compare_prerelease_identifiers id1 id2) := by
  have hmatch (id : Option String) : Unrefused (matchIdentifier id) := by
    cases id with
    | none => exact .error nofun
    | some id => exact .ok _
  unfold compare_prerelease_identifiers
  split
  · exact .ok _
  · refine (hmatch id1).bind fun id1_match => (hmatch id2).bind fun id2_match => ?_
    split
    · dsimp only
      split
      · exact .ok _
      · exact (onlyValueErrors_intGroup _ _).unrefused.bind fun _ =>
          (onlyValueErrors_intGroup _ _).unrefused.bind fun _ => .ok _
    · exact .error nofun

theorem unrefused_compare_versions {answer : Except PyError (List MinecraftVersion)} (h : Unrefused answer) (v1 v2 : String) :
    Unrefused (compare_versions answer v1 v2) := by
  have hdates := unrefused_compare_by_publish_date h v1 v2
  unfold compare_versions compare_versions_with
  split
  · exact .ok _
  · refine (onlyValueErrors_parse_version v1).unrefused.bind fun p1 =>
      (onlyValueErrors_parse_version v2).unrefused.bind fun p2 => ?_
    cases p2 with
    | none => exact .ok _
    | some p2 =>
        cases p1 with
        | none => exact .error nofun
        | some p1 =>
            dsimp only
            split
            · exact hdates
            · split
              · exact .ok _
              · split
                · exact .ok _
                · exact .ok _
                · exact (unrefused_compare_prerelease_identifiers _ _).bind fun _ => .ok _
                · exact hdates

/-- A result of a comparison is the one for some list. -/
theorem compare_versions_listed {answer : Except PyError (List MinecraftVersion)} {v1 v2 : String} {c : Option Int}
    (h : compare_versions answer v1 v2 = .ok c) : ∃ vs, compare_versions (.ok vs) v1 v2 = .ok c := by
  cases answer with
  | ok vs => exact ⟨vs, h⟩
  | error e =>
      have hdates : compare_by_publish_date (.error e) v1 v2 = .error e := rfl
      refine ⟨[], ?_⟩
      unfold compare_versions compare_versions_with at h ⊢
      split at h
      · rw [if_pos ‹_›]
        exact h
      · rw [if_neg ‹_›]
        cases h1 : parse_version v1 with
        | error e' =>
            rw [h1] at h
            cases h
        | ok p1 =>
            cases h2 : parse_version v2 with
            | error e' =>
                rw [h1, h2] at h
                cases h
            | ok p2 =>
                rw [h1, h2] at h
                cases p2 with
                | none => exact h
                | some p2 =>
                    cases p1 with
                    | none => cases h
                    | some p1 =>
                        simp only [bind, Except.bind, hdates] at h ⊢
                        -- an answer that is an exception was not needed
                        split at h
                        · cases h
                        · rw [if_neg ‹_›]
                          split at h
                          · rw [if_pos ‹_›]
                            exact h
                          · rw [if_neg ‹_›]
                            split at h
                            · exact h
                            · exact h
                            · exact h
                            · cases h

/-! ## What raises no refusal -/

abbrev NeverRefuses (m : Act α β) : Prop := m.Raises PyError.NoRefusal

theorem neverRefuses_ask {answer : Nat → Except PyError β} (h : ∀ n, Unrefused (answer n)) :
    NeverRefuses (ask answer : Act α β) :=
  fun w e _ hrun => h w.tick e (congrArg Prod.fst hrun)

theorem neverRefuses_commit (h : Foreign env) (f : Database → Database) : NeverRefuses (commit env f) :=
  (neverRefuses_ask h.commit).bind fun _ => Eff.Raises.modify _

theorem neverRefuses_mkdirs (p : Loc) : NeverRefuses (onDisk (Disk.mkdirs p) : Act α Unit) :=
  (Disk.raises_mkdirs (fun _ => nofun) p).zoom

theorem neverRefuses_write (p : Loc) (x : α) : NeverRefuses (onDisk (Disk.write p x) : Act α Unit) :=
  (Disk.raises_call (fun _ => nofun) _ _).zoom

theorem neverRefuses_getContainer (h : Foreign env) (container_id : String) :
    NeverRefuses (getContainer env container_id) :=
  (neverRefuses_ask h.docker).bind fun _ => (Eff.Raises.read _).bind fun _ => Eff.Raises.getOr nofun

theorem neverRefuses_get_container_by_name (name : String) : NeverRefuses (get_container_by_name env name) :=
  Eff.Raises.attempt fun _ _ _ _ => Eff.Raises.pure _

theorem neverRefuses_ignoreNotFound {f : Act α Unit} (h : NeverRefuses f) : NeverRefuses (ignoreNotFound f) :=
  Eff.Raises.attempt fun w e w' hrun => (Eff.Raises.pure _).ite (Eff.Raises.raise (h w e w' hrun))

theorem neverRefuses_container_call (h : Foreign env) (container_id : String) (change : Container → World α → World α) :
    NeverRefuses (do
      let container ← getContainer env container_id
      ask env.docker
      Eff.modify (change container) : Act α Unit) :=
  (neverRefuses_getContainer h _).bind fun _ => (neverRefuses_ask h.docker).bind fun _ => Eff.Raises.modify _

theorem neverRefuses_update_proxy_config (h : Foreign env) : NeverRefuses (update_proxy_config env) := by
  refine (Eff.Raises.read _).bind fun _ => (neverRefuses_mkdirs _).bind fun _ => (neverRefuses_write _ _).bind fun _ => ?_
  refine (neverRefuses_get_container_by_name _).bind fun _ => Eff.Raises.elim (Eff.Raises.pure _) fun _ _ => ?_
  exact neverRefuses_ignoreNotFound ((neverRefuses_getContainer h _).bind fun _ => neverRefuses_ask h.docker)

theorem neverRefuses_stop_miniverse (h : Foreign env) (m : Miniverse) : NeverRefuses (stop_miniverse env m) := by
  have hcontainer : NeverRefuses (stop_miniverse_container env m) := by
    refine Eff.Raises.bind (Eff.Raises.when fun _ => (neverRefuses_get_container_by_name _).bind fun _ =>
      Eff.Raises.pure _) fun _ => Eff.Raises.elim (Eff.Raises.pure _) fun container_id _ => ?_
    exact neverRefuses_ignoreNotFound (neverRefuses_container_call h container_id _)
  have hcontroller : NeverRefuses (stopController env m.id) := by
    refine (Eff.Raises.read _).bind fun _ => (Eff.Raises.getOr nofun).bind fun c => Eff.Raises.bind ?_ fun _ =>
      Eff.Raises.modify _
    cases c with
    | webSocket task => exact (neverRefuses_ask (h.player_list · m.id)).bind fun _ => Eff.Raises.pure _
    | mcRouter players => exact Eff.Raises.pure _
  exact hcontainer.bind fun _ => hcontroller.bind fun _ => (neverRefuses_commit h _).bind fun _ =>
    Eff.Raises.bind (Eff.Raises.modify _) fun _ => Eff.Raises.pure _

theorem neverRefuses_start_miniverse (h : Foreign env) {m : Miniverse} (hinit : NeverRefuses (init_data_path env m)) :
    NeverRefuses (start_miniverse env m) := by
  refine hinit.bind fun _ => (neverRefuses_commit h _).bind fun _ =>
    (neverRefuses_get_container_by_name _).bind fun existing => ?_
  cases existing with
  | some c =>
      exact (neverRefuses_commit h _).bind fun _ => Eff.Raises.bind (neverRefuses_container_call h _ _) fun _ =>
        Eff.Raises.pure _
  | none =>
      have hcreate (name image : String) (environment : List (String × String)) :
          NeverRefuses (create_container env name image environment) :=
        (neverRefuses_ask h.docker).bind fun _ => (Eff.Raises.read _).bind fun _ => (Eff.Raises.raiseIf nofun).bind fun _ =>
          (neverRefuses_ask fun _ => .ok _).bind fun _ => (Eff.Raises.modify _).bind fun _ => Eff.Raises.pure _
      refine Eff.Raises.bind ((hcreate _ _ _).bind fun _ => (neverRefuses_commit h _).bind fun _ => Eff.Raises.pure _)
        fun r => Eff.Raises.bind (neverRefuses_container_call h _ _) fun _ => Eff.Raises.bind ?_ fun _ =>
        Eff.Raises.bind (Eff.Raises.modify _) fun _ => Eff.Raises.pure _
      exact (Eff.Raises.read _).bind fun _ => (Eff.Raises.getOr nofun).bind fun _ => Eff.Raises.modify _

/-- The miniverse has mods. -/
def TakesMods (m : Miniverse) : Prop := m.type ∈ [MiniverseType.forge, .neo_forge, .fabric]

/-- Without mods for a proxy, a start is not refused. -/
theorem neverRefuses_init_data_path {m : Miniverse} (hplain : ¬ (TakesMods m ∧ m.is_on_lite_proxy = false)) :
    NeverRefuses (init_data_path env m) := by
  have hicon : NeverRefuses (onDisk (do
      Eff.when (!(← Disk.look (·.exists (miniverse_data_path env.toPlatform m.id ++ ["server-icon.png"]))))
        (Disk.write (miniverse_data_path env.toPlatform m.id ++ ["server-icon.png"]) env.server_icon)) : Act α Unit) :=
    Eff.Raises.zoom ((Eff.Raises.read _).bind fun _ => Eff.Raises.when fun _ => Disk.raises_call (fun _ => nofun) _ _)
  refine (Eff.Raises.ofExcept (onlyValueErrors_parse_version _).unrefused).bind fun _ => hicon.bind fun _ =>
    Eff.Raises.when fun hproxy => (neverRefuses_mkdirs _).bind fun _ => ?_
  have hproxy : m.is_on_lite_proxy = false := by simpa using hproxy
  have hmods : ¬ TakesMods m := fun htakes => hplain ⟨htakes, hproxy⟩
  unfold TakesMods at hmods
  cases htype : m.type with
  | vanilla => exact Eff.Raises.pure _
  | paper => exact Eff.Raises.pure _
  | fabric => exact absurd (by rw [htype]; decide) hmods
  | forge => exact absurd (by rw [htype]; decide) hmods
  | neo_forge => exact absurd (by rw [htype]; decide) hmods

/-! ## What can be refused -/

/-- Some list of the versions lets the change of the game version pass. -/
def CanPass (u v : String) : Prop := ∃ all_versions, Passes all_versions u v

/-- Some list of the versions makes the comparison fail or lead to an earlier version. -/
def CanFail (u v : String) : Prop :=
  ∃ all_versions, compare_versions (.ok all_versions) u v = .ok none ∨
    ∃ c, compare_versions (.ok all_versions) u v = .ok (some c) ∧ 0 < c

/-- The new name and the new subdomain are not in use, as the database compares texts: a name that is only spelled in another
way is in use by the miniverse itself. -/
structure Unused (weight : String → String) (rows : List Miniverse) (m : Miniverse) (data : MiniverseUpdate) : Prop where
  name : ∀ v, data.name = some v → m.name ≠ v → ∀ r ∈ rows, weight r.name ≠ weight v
  subdomain : ∀ v, data.subdomain = some v → m.subdomain ≠ v → ∀ r ∈ rows, weight r.subdomain ≠ weight v

/-- The game version can be refused when new fields are in the row already. -/
def RefusedLate (m : Miniverse) (data : MiniverseUpdate) (v : String) : Prop :=
  data.apply m ≠ m ∧ (CanFail m.mc_version v ∨ CanPass m.mc_version v ∧ TakesMods m)

/-- The mods of a proxy can be refused when the new game version is in the row already. -/
def RefusedLast (m : Miniverse) (v : String) : Prop :=
  CanPass m.mc_version v ∧ TakesMods m ∧ m.is_on_lite_proxy = false

/-- An update that can be refused after a commit. -/
def Exposed (weight : String → String) (rows : List Miniverse) (m : Miniverse) (data : MiniverseUpdate) : Prop :=
  Unused weight rows m data ∧ ∃ v, data.mc_version = some v ∧ m.mc_version ≠ v ∧ (RefusedLate m data v ∨ RefusedLast m v)

/-- A change of the game version that is refused, or goes on after a comparison that passes. -/
theorem prepare_cases (hforeign : Foreign env) (hne : m.mc_version ≠ v) {r : Except PyError Unit}
    (h : prepare_game_version env m v false w = (r, w')) :
    (∀ detail, r = .error (.validation detail) → CanFail m.mc_version v ∨ CanPass m.mc_version v ∧ TakesMods m) ∧
      (r = .ok () → CanPass m.mc_version v) := by
  rw [prepare_game_version, decide_eq_false hne, Eff.raiseIf_false_bind] at h
  rcases ask_cases (fun n => compare_versions (env.get_minecraft_versions n) m.mc_version v) w with
    ⟨e, hcompare, hrun⟩ | ⟨c, hcompare, hrun⟩
  · have hno := unrefused_compare_versions (hforeign.get_minecraft_versions _) _ _ e hcompare
    rw [compareVersions, Eff.bind_run_error hrun] at h
    obtain rfl : Except.error e = r := congrArg Prod.fst h
    refine ⟨fun detail hr => ?_, nofun⟩
    cases hr
    exact absurd rfl (hno detail)
  · obtain ⟨vs, hlisted⟩ := compare_versions_listed hcompare
    rw [compareVersions, Eff.bind_run_ok hrun] at h
    cases c with
    | none =>
        obtain rfl : Except.error _ = r := congrArg Prod.fst h
        exact ⟨fun _ _ => Or.inl ⟨vs, Or.inl hlisted⟩, nofun⟩
    | some c =>
        rw [Eff.getOr_some_bind] at h
        by_cases hc : c > 0
        · rw [decide_eq_true hc, Eff.raiseIf_true_bind] at h
          obtain rfl : Except.error _ = r := congrArg Prod.fst h
          exact ⟨fun _ _ => Or.inl ⟨vs, Or.inr ⟨c, hlisted, hc⟩⟩, nofun⟩
        · have hpass : CanPass m.mc_version v := ⟨vs, c, hlisted, Int.not_lt.mp hc⟩
          rw [decide_eq_false hc, Eff.raiseIf_false_bind] at h
          refine ⟨fun detail hr => Or.inr ⟨hpass, ?_⟩, fun _ => hpass⟩
          unfold TakesMods
          cases htype : m.type with
          | forge => decide
          | neo_forge => decide
          | fabric => decide
          | vanilla =>
              rw [htype, hr] at h
              cases h
          | paper =>
              rw [htype, hr] at h
              cases h

/-- The rows of the miniverses. -/
def World.rows (w : World α) : List Miniverse := w.db.miniverses

instance : Calm (Same (World.rows (α := α))) where
  refl _ := rfl
  trans _ _ _ h₁ h₂ := h₂.trans h₁
  tick _ _ := rfl
  events _ _ := rfl
  containers _ _ := rfl

theorem rows_allows (env : Env α) (id : Uuid4) : AllowsMods env (Same World.rows) id fun _ => True where
  mkdirs _ := rfl
  write _ _ _ _ := rfl
  unlink _ _ _ := rfl
  answers _ _ := trivial
  rows h := h fun _ _ => trivial
  save_mod _ _ _ _ _ := rfl
  add_mod _ _ _ := rfl

/-- The change of the game version was refused before its commit, or while the mods of a proxy were installed. -/
theorem upgrade_refused (hforeign : Foreign env) (hne : m.mc_version ≠ v)
    (h : update_miniverse_game_version env m v false w = (.error (.validation detail), w')) :
    (CanFail m.mc_version v ∨ CanPass m.mc_version v ∧ TakesMods m) ∧ w'.rows = w.rows ∨ RefusedLast m v := by
  rcases Eff.bind_error h with hprepare | ⟨_, w₁, hprepare, hrest⟩
  · obtain ⟨hrefused, _⟩ := prepare_cases hforeign hne hprepare
    have hsame := (within_prepare_game_version (rows_allows env m.id) v false).of_run hprepare
    exact Or.inl ⟨hrefused detail rfl, hsame⟩
  · obtain ⟨_, hpass⟩ := prepare_cases hforeign hne hprepare
    by_cases hproxy : TakesMods m ∧ m.is_on_lite_proxy = false
    · exact Or.inr ⟨hpass rfl, hproxy⟩
    · -- without mods for a proxy, no later step refuses
      exfalso
      rcases Eff.bind_error hrest with hstop | ⟨stopped, w₂, hstop, hrun⟩
      · exact neverRefuses_stop_miniverse hforeign m w₁ _ w' hstop detail rfl
      · obtain rfl := returns_stop_miniverse m w₁ stopped w₂ hstop
        have hstart := neverRefuses_start_miniverse hforeign
          (m := { m with started := false, container_id := none, mc_version := v }) (neverRefuses_init_data_path hproxy)
        exact (neverRefuses_commit hforeign _).bind (fun _ => hstart.bind fun _ => Eff.Raises.pure _) w₂ _ w' hrun detail rfl

/-- An update that is refused after its commit was so at the game version. -/
theorem finish_update_refused (hforeign : Foreign env) {data : MiniverseUpdate}
    (h : finish_update env m data w = (.error (.validation detail), w')) :
    ∃ v, data.mc_version = some v ∧ m.mc_version ≠ v ∧
      ((CanFail m.mc_version v ∨ CanPass m.mc_version v ∧ TakesMods m) ∧ w'.rows = w.rows ∨ RefusedLast m v) := by
  have hend (m' : Miniverse) (routes published : Bool) : NeverRefuses (do
      Eff.when routes (update_proxy_config env)
      Eff.when published (publish .updated m'.id.str none)
      return m' : Act α Miniverse) :=
    (Eff.Raises.when fun _ => neverRefuses_update_proxy_config hforeign).bind fun _ =>
      (Eff.Raises.when fun _ => Eff.Raises.modify _).bind fun _ => Eff.Raises.pure _
  unfold finish_update at h
  rcases Eff.bind_error h with hupgrade | ⟨m', w₁, _, hrest⟩
  · cases hversion : data.mc_version.filter fun v => decide ((data.apply m).mc_version ≠ v) with
    | none =>
        rw [hversion] at hupgrade
        cases hupgrade
    | some v =>
        obtain ⟨hv, hne⟩ := Option.filter_eq_some_iff.mp hversion
        rw [hversion] at hupgrade
        exact ⟨v, hv, of_decide_eq_true hne, upgrade_refused (m := data.apply m) hforeign (of_decide_eq_true hne) hupgrade⟩
  · exact absurd rfl (hend m' _ _ w₁ _ w' hrest detail)

end Backend
