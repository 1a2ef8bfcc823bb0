import Miniverse.Miniverses.Theorems
import Miniverse.Updates.Lemmas.Effects
import Miniverse.Updates.Lemmas.Exposed

/-!
# Updates of a miniverse
-/

namespace Backend

open Lib

variable {α : Type} {m : Miniverse} {data : MiniverseUpdate} {weight : String → String} {rows : List Miniverse}

/-! ## A refused update -/

/-- The rows with the identifier. -/
def Database.rowsAt (db : Database) (id : Uuid4) : List Miniverse := db.miniverses.filter fun r => decide (r.id = id)

/-- A refusal leaves the row of the miniverse as it was, whatever is answered from outside and whatever else there is. -/
def RefusalKeepsRow (α : Type) (weight : String → String) (rows : List Miniverse) (m : Miniverse) (data : MiniverseUpdate) :
    Prop :=
  ∀ (env : Env α) (w w' : World α) (detail : String), Foreign env → w.db.weight = weight → w.db.miniverses = rows →
    update_miniverse env m data w = (.error (.validation detail), w') → w'.db.rowsAt m.id = w.db.rowsAt m.id

theorem rowsAt_ne_of_saved {db db' db₁ : Database} {m' : Miniverse} (hm : m ∈ db.miniverses)
    (hsaved : db'.miniverses = (db₁.saveMiniverse m').miniverses) (hid : m'.id = m.id) (hne : m' ≠ m) : db'.rowsAt m.id ≠ db.rowsAt m.id := by
  intro heq
  have hmem : m ∈ db.rowsAt m.id := List.mem_filter.mpr ⟨hm, decide_eq_true rfl⟩
  rw [← heq] at hmem
  have hin := (List.mem_filter.mp hmem).1
  rw [hsaved] at hin
  obtain ⟨r, _, hr⟩ := List.mem_map.mp hin
  by_cases h : r.id = m'.id
  · rw [if_pos h] at hr
    exact hne hr
  · rw [if_neg h] at hr
    exact h (hr ▸ hid.symm)

/-- The state where only the rows, the mods and the files are given. -/
def bareWorld (weight : String → String) (rows : List Miniverse) (mods : List Mod) (disk : Disk α) (id : Uuid4) : World α where
  db := ⟨[], rows, [], mods, weight⟩
  disk := disk
  controllers := [(id, .mcRouter [])]
  containers := []
  commands := []
  events := []
  tick := 0

def bareDisk (α : Type) : Disk α := ⟨⟨[([], .dir)], by simp, by simp, by simp, by simp⟩, []⟩

theorem service_bareWorld (weight : String → String) (rows : List Miniverse) (mods : List Mod) (disk : Disk α) (id : Uuid4) :
    (bareWorld weight rows mods disk id).service id.str = some (id, .mcRouter []) := by
  simp [World.service, bareWorld]

/-- A directory in an empty tree. -/
theorem bareDisk_dir (α : Type) {p : Loc} (hname : ∀ c ∈ p, IsName c) : ∃ d : Disk α, d.tree.isDir p = true := by
  obtain ⟨d, hrun, _⟩ := Disk.mkdirs_succeeds (ε := PyError) hname (d := bareDisk α) fun q _ => by
    cases q with
    | nil => rfl
    | cons c q => simp [bareDisk, FileTree.isFile, FileTree.get]
  exact ⟨d, Disk.isDir_of_mkdirs hrun⟩

variable [Inhabited α]

theorem not_keepsRow_of_late (hm : m ∈ rows) (hunused : Unused weight rows m data) {v : String} (hv : data.mc_version = some v)
    (hne : m.mc_version ≠ v) (hlate : RefusedLate m data v) : ¬ RefusalKeepsRow α weight rows m data := by
  intro hkeeps
  obtain ⟨hchanged, hrefused⟩ := hlate
  let saved (mods : List Mod) : World α :=
    { (bareWorld weight rows mods (bareDisk α) m.id).next with
      db := (bareWorld weight rows mods (bareDisk α) m.id).db.saveMiniverse (data.apply m) }
  -- the row has the new fields when the game version is refused
  have hraised {mods : List Mod} {all_versions : List MinecraftVersion} {detail : String} {w' : World α}
      (hrun : update_miniverse_game_version (bareEnv α all_versions) (data.apply m) v false (saved mods) =
        (.error (.validation detail), w')) :
      update_miniverse (bareEnv α all_versions) m data (bareWorld weight rows mods (bareDisk α) m.id) =
        (.error (.validation detail), w') := by
    rw [update_goes_on hunused fun _ => rfl, if_neg hchanged]
    exact finish_update_raised hv hne hrun
  rcases hrefused with hfail | ⟨hpass, htakes⟩
  · obtain ⟨all_versions, detail, w', hrun, hrows⟩ := upgrade_fails (m := data.apply m) (w := saved []) hne hfail
    exact rowsAt_ne_of_saved (m := m) hm hrows rfl hchanged
      (hkeeps _ _ _ detail (foreign_bareEnv all_versions) rfl rfl (hraised hrun))
  · obtain ⟨all_versions, detail, w', hrun, hrows⟩ :=
      upgrade_fails_on_mods (m := data.apply m) (w := saved [orphan m.id]) hne hpass htakes rfl
    exact rowsAt_ne_of_saved (m := m) hm hrows rfl hchanged
      (hkeeps _ _ _ detail (foreign_bareEnv all_versions) rfl rfl (hraised hrun))

theorem not_keepsRow_of_last (hm : m ∈ rows) (hunused : Unused weight rows m data) {v : String} (hv : data.mc_version = some v)
    (hne : m.mc_version ≠ v) (hlast : RefusedLast m v) : ¬ RefusalKeepsRow α weight rows m data := by
  intro hkeeps
  obtain ⟨disk, hdir⟩ := bareDisk_dir α (p := miniverse_data_path (bareEnv α []).toPlatform m.id ++ ["config"]) fun c hc => by
    rcases List.mem_append.mp hc with hc | hc
    · exact miniverse_data_path_isName m.id c hc
    · exact List.mem_singleton.mp hc ▸ by decide
  let w : World α := bareWorld weight rows [] disk m.id
  obtain ⟨w₁, hw₁, hmods, hcontainers, hservice, hdir⟩ : ∃ w₁ : World α,
      (if data.apply m = m then w else { w.next with db := w.db.saveMiniverse (data.apply m) }) = w₁ ∧ w₁.db.mods = [] ∧
        w₁.containers = [] ∧ w₁.service m.id.str = some (m.id, .mcRouter []) ∧
        w₁.disk.tree.isDir (miniverse_data_path (bareEnv α []).toPlatform m.id ++ ["config"]) = true := by
    by_cases hsame : data.apply m = m
    · rw [if_pos hsame]
      exact ⟨_, rfl, rfl, rfl, service_bareWorld _ _ _ _ _, hdir⟩
    · rw [if_neg hsame]
      exact ⟨_, rfl, rfl, rfl, service_bareWorld weight rows [] disk m.id, hdir⟩
  obtain ⟨all_versions, detail, w', db, hrun, hrows⟩ :=
    upgrade_fails_at_start (m := data.apply m) (w := w₁) hne hlast hmods hcontainers hservice hdir
  have hupdate : update_miniverse (bareEnv α all_versions) m data w = (.error (.validation detail), w') := by
    rw [update_goes_on hunused fun _ => rfl, hw₁]
    exact finish_update_raised hv hne hrun
  -- the row that was saved last has the new game version
  refine rowsAt_ne_of_saved (m := m) hm hrows rfl (fun heq => ?_) (hkeeps _ _ _ detail (foreign_bareEnv all_versions) rfl rfl hupdate)
  exact hne (congrArg Miniverse.mc_version heq).symm

/-- A refusal leaves the row as it was, exactly when the update cannot be refused after a commit. -/
theorem refusal_keeps_row_iff (hm : m ∈ rows) : RefusalKeepsRow α weight rows m data ↔ ¬ Exposed weight rows m data := by
  constructor
  · rintro hkeeps ⟨hunused, v, hv, hne, hlate | hlast⟩
    · exact not_keepsRow_of_late hm hunused hv hne hlate hkeeps
    · exact not_keepsRow_of_last hm hunused hv hne hlast hkeeps
  · intro hno env w w' detail hforeign hweight hrows hrun
    subst hweight hrows
    by_cases hsame : data.apply m = m
    · rw [update_goes_on (unused_of_same hsame) (absurd hsame), if_pos hsame] at hrun
      obtain ⟨v, hv, hne, ⟨_, hrows⟩ | hlast⟩ := finish_update_refused hforeign hrun
      · exact congrArg (List.filter fun r => decide (r.id = m.id)) hrows
      · exact absurd ⟨unused_of_same hsame, v, hv, hne, Or.inr hlast⟩ hno
    · rcases update_miniverse_cases env m data w with ⟨e, w₁, hrefused, hdb, _⟩ | ⟨hsame', _⟩ | ⟨hstores, hgoes⟩
      · rw [hrefused] at hrun
        cases hrun
        rw [hdb]
      · exact absurd hsame' hsame
      · rw [hgoes] at hrun
        obtain ⟨v, hv, hne, hrest⟩ := finish_update_refused hforeign hrun
        refine absurd ⟨⟨hstores.name, hstores.subdomain⟩, v, hv, hne, ?_⟩ hno
        rcases hrest with ⟨hrefused, _⟩ | hlast
        · exact Or.inl ⟨hsame, hrefused⟩
        · exact Or.inr hlast

omit [Inhabited α]

/-! A row that is given another name, alone or along with an earlier game version. -/

def sampleRow : Miniverse := (sampleCreate "1.21.8").toMiniverse sampleId "sample" "secret"

def sampleRename (mc_version : Option String) : MiniverseUpdate :=
  ⟨some "Renamed", none, none, none, none, none, mc_version⟩

theorem refusal_keeps_row_sample : RefusalKeepsRow String sampleWeight [sampleRow] sampleRow (sampleRename none) := by
  refine (refusal_keeps_row_iff List.mem_cons_self).mpr ?_
  rintro ⟨_, v, hv, _⟩
  cases hv

/-- The update is refused, and the row has the new name. -/
theorem refused_update_renames :
    (bareWorld sampleWeight [sampleRow] [] (bareDisk String) sampleId).db.rowsAt sampleId = [sampleRow] ∧
    (update_miniverse (bareEnv String []) sampleRow (sampleRename (some "1.21.7"))
      (bareWorld sampleWeight [sampleRow] [] (bareDisk String) sampleId)).1 =
        .error (.validation "Downgrading Minecraft versions is not supported.") ∧
    (update_miniverse (bareEnv String []) sampleRow (sampleRename (some "1.21.7"))
      (bareWorld sampleWeight [sampleRow] [] (bareDisk String) sampleId)).2.db.rowsAt sampleId = [{ sampleRow with name := "Renamed" }] := by
  decide

/-! ## An update that returns -/

/-- The listed fields and the game version. -/
def Miniverse.values (m : Miniverse) :
    String × Option String × String × Option String × Bool × Bool × String :=
  (m.name, m.description, m.subdomain, m.java_version, m.allow_bedrock, m.online_mode, m.mc_version)

/-- The Java version is given and not the one that was stored. -/
def JavaChanges (m : Miniverse) (data : MiniverseUpdate) : Prop :=
  ∃ v, data.java_version = some v ∧ m.java_version ≠ some v

def VersionChanges (m : Miniverse) (data : MiniverseUpdate) : Prop := ∃ v, data.mc_version = some v ∧ m.mc_version ≠ v

/-- What is due after an update from the state `w` that returned `m'` in the state `w'`. -/
structure TakesEffect (env : Env α) (m : Miniverse) (data : MiniverseUpdate) (w : World α) (m' : Miniverse) (w' : World α) :
    Prop where
  restarted : JavaChanges m data → [UpdateStep.stop_miniverse, .start_miniverse].Sublist (updateLog env m data w)
  routes : m'.subdomain ≠ m.subdomain ∨ m'.allow_bedrock ≠ m.allow_bedrock →
    .update_proxy_config ∈ updateLog env m data w ∧ InStep env w'
  event : m'.values ≠ m.values → ∃ events, w'.events = w.events ++ events ∧ ⟨.updated, m.id.str, none⟩ ∈ events
  object : data.Holds m'
  row : HoldsAt m.id data w'

variable {env : Env α} {m' : Miniverse} {w w' : World α}

theorem newVersion_isSome (m : Miniverse) (data : MiniverseUpdate) : (newVersion m data).isSome = true ↔ VersionChanges m data := by
  unfold newVersion VersionChanges
  cases data.mc_version with
  | none => simp
  | some v =>
      have hversion : (data.apply m).mc_version = m.mc_version := rfl
      by_cases h : m.mc_version = v
      · simp [hversion, h]
      · simp [hversion, h]

/-- The state after the commit of the fields, from which an update that returned went on. -/
theorem update_goes_on_stored (hm : m ∈ w.db.miniverses) (hkey : ∀ r ∈ w.db.miniverses, r.id = m.id → r = m)
    (h : update_miniverse env m data w = (.ok m', w')) :
    ∃ w₀ : World α, w₀.events = w.events ∧ HoldsAt m.id data w₀ ∧ finish_update env m data w₀ = (.ok m', w') := by
  rcases update_miniverse_cases env m data w with ⟨e, w₁, hrefused, _⟩ | ⟨hsame, hgoes⟩ | ⟨_, hgoes⟩
  · rw [hrefused] at h
    cases h
  · rw [hgoes] at h
    have hholds : data.Holds m := by
      have := holds_apply data m
      rwa [hsame] at this
    exact ⟨w, rfl, ⟨⟨m, hm, rfl⟩, fun r hr hid => (hkey r hr hid).symm ▸ hholds⟩, h⟩
  · rw [hgoes] at h
    have hholds := holdsAt_saveMiniverse (m := data.apply m) rfl (holds_apply data m) ⟨m, hm, rfl⟩ w.next
    exact ⟨{ w.next with db := w.db.saveMiniverse (data.apply m) }, rfl, hholds, h⟩

theorem effective_routes (id : Uuid4) (data : MiniverseUpdate) (c : Bool) :
    (Eff.when c (update_proxy_config env)).Within (Effective id data) :=
  Eff.Within.when fun _ => within_update_proxy_config fun _ => effective_onDisk

/-- An update that returns takes effect, exactly when a new Java version comes with a new game version: the server is
restarted for the game version only. -/
theorem update_takes_effect_iff (hm : m ∈ w.db.miniverses) (hkey : ∀ r ∈ w.db.miniverses, r.id = m.id → r = m)
    (h : update_miniverse env m data w = (.ok m', w')) :
    TakesEffect env m data w m' w' ↔ (JavaChanges m data → VersionChanges m data) := by
  have hlog := updateLog_eq h
  constructor
  · intro heffect hjava
    have hrestarted := heffect.restarted hjava
    by_contra hversion
    rw [← newVersion_isSome] at hversion
    rw [hlog, if_neg hversion] at hrestarted
    cases hroutes : routesChanged m data with
    | true =>
        rw [hroutes] at hrestarted
        exact absurd hrestarted (by decide)
    | false =>
        rw [hroutes] at hrestarted
        exact absurd hrestarted (by decide)
  · intro hversion
    obtain ⟨w₀, hevents, hholds, hfinish⟩ := update_goes_on_stored hm hkey h
    obtain ⟨w₁, w₂, hupgrade, hroutes, hw'⟩ := finish_update_returned hfinish
    have hupgraded : Effective m.id data w₀ w₁ := by
      have hwithin : ((newVersion m data).elim (pure (data.apply m)) fun v =>
          update_miniverse_game_version env (data.apply m) v false : Act α Miniverse).Within (Effective m.id data) :=
        Eff.Within.elim (Eff.Within.pure _) fun v _ => effective_upgrade (m := data.apply m) (holds_apply data m) v
      exact hwithin.of_run hupgrade
    have hrouted : Effective m.id data w₁ w₂ := (effective_routes m.id data _).of_run hroutes
    have heffective := trans_of (Effective m.id data) hupgraded hrouted
    have hobject := updatedObject_of_run hupgrade
    refine ⟨fun hjava => ?_, fun hchanged => ?_, fun hchanged => ?_, hobject.holds, ?_⟩
    · rw [hlog, if_pos ((newVersion_isSome m data).mpr (hversion hjava))]
      exact List.sublist_append_left _ _
    · have hdue := hobject.routes hchanged
      rw [hlog, if_pos hdue]
      rw [hdue, Eff.when_true] at hroutes
      have hstep := update_proxy_config_returned hroutes
      refine ⟨List.mem_append_right _ List.mem_cons_self, ?_⟩
      rw [hw']
      split
      · exact hstep
      · exact hstep
    · have hdue : data.apply m ≠ m ∨ (newVersion m data).isSome = true := by
        by_contra hno
        rw [hobject.eq hno] at hchanged
        exact hchanged rfl
      obtain ⟨events, hgrown⟩ := heffective.1
      rw [hw', if_pos hdue, hobject.same_id]
      refine ⟨events ++ [⟨.updated, m.id.str, none⟩], ?_, List.mem_append_right _ List.mem_cons_self⟩
      rw [← List.append_assoc, ← hevents, hgrown]
    · have hrow := heffective.2 hholds
      rw [hw']
      split
      · exact hrow
      · exact hrow

/-! The row with another Java version, alone or along with another game version. -/

def sampleJava (mc_version : Option String) : MiniverseUpdate := ⟨none, none, none, some "21", none, none, mc_version⟩

def sampleUpdated (data : MiniverseUpdate) : Except PyError Miniverse × World String :=
  update_miniverse (bareEnv String []) sampleRow data (bareWorld sampleWeight [sampleRow] [] sampleModded.disk sampleId)

theorem update_takes_effect_sample :
    TakesEffect (bareEnv String []) sampleRow (sampleJava (some "1.21.9"))
      (bareWorld sampleWeight [sampleRow] [] sampleModded.disk sampleId)
      { sampleRow with started := true, container_id := some "8", java_version := some "21", mc_version := "1.21.9" }
      (sampleUpdated (sampleJava (some "1.21.9"))).2 := by
  have hok : (sampleUpdated (sampleJava (some "1.21.9"))).1 =
      .ok { sampleRow with started := true, container_id := some "8", java_version := some "21", mc_version := "1.21.9" } := by
    decide +kernel
  refine (update_takes_effect_iff List.mem_cons_self (fun r hr _ => List.mem_singleton.mp hr) (Prod.ext hok rfl)).mpr ?_
  exact fun _ => ⟨"1.21.9", rfl, by decide⟩

/-- The update returns with the new Java version, and nothing was stopped or started. -/
theorem new_java_without_restart :
    (sampleUpdated (sampleJava none)).1 = .ok { sampleRow with java_version := some "21" } ∧
    updateLog (bareEnv String []) sampleRow (sampleJava none) (bareWorld sampleWeight [sampleRow] [] sampleModded.disk sampleId) = [] := by
  decide

end Backend
