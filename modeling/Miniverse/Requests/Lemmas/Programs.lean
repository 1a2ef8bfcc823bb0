import Miniverse.Miniverses.Lemmas.Servers
import Miniverse.Requests.Lemmas.Modes

/-!
# The programs follow the protocol
-/

namespace Backend

open Lib

variable {α β γ : Type} {env : Env α} {id : Uuid4} {own : String → Prop} {w w' : World α}

/-- What the row of a miniverse says of its server, and the containers. -/
def World.server (w : World α) (id : Uuid4) : Option Requests.Server :=
  (w.db.findMiniverse id.str).map fun r => ⟨r.started, r.container_id, w.containers⟩

namespace Requests

/-- A step of a request for a miniverse that has a row. -/
def Serves (id : Uuid4) (own : String → Prop) (t : Status) (w : World α) (t' : Status) (w' : World α) : Prop :=
  ∀ s, w.server id = some s → ∃ s', w'.server id = some s' ∧ Moves (container_name_of id) own t s t' s'

/-- The rows of the miniverses and the containers. -/
abbrev Rest (w w' : World α) : Prop := Same (fun w : World α => (w.db.miniverses, w.containers)) w w'

instance : Quiet (Rest (α := α)) where
  tick _ _ := rfl
  events _ _ := rfl

theorem server_of_rest (h : Rest w w') : w'.server id = w.server id := by
  obtain ⟨hrows, hcontainers⟩ := Prod.mk.inj h
  rw [World.server, World.server, Database.findMiniverse, Database.findMiniverse, hrows, hcontainers]

/-- From a state of the protocol, the program follows it to a state and a result for which `P` holds, or raises. -/
def Does (id : Uuid4) (own : String → Prop) (P : Status → β → Prop) (p : Awaiting α β) (t : Status) : Prop :=
  Async.Follows (Serves id own) (Async.Yields .raised P) p.run t

variable {P : Status → β → Prop} {Q : Status → γ → Prop} {t : Status}

theorem Does.bind {p : Awaiting α β} {k : β → Awaiting α γ} (hp : Does id own P p t)
    (hk : ∀ t b, P t b → Does id own Q (k b) t) : Does id own Q (p >>= k) t :=
  Async.Follows.bind_except hp hk

theorem Does.pure {b : β} (h : P t b) : Does id own P (Pure.pure b : Awaiting α β) t := h

theorem does_await {m : Act α β}
    (h : ∀ w : World α, (∃ e w', m w = (.error e, w') ∧ Rest w w') ∨
      ∃ b w' t', m w = (.ok b, w') ∧ Serves id own t w t' w' ∧ P t' b) : Does id own P (await m) t := by
  refine Async.follows_lift.mpr fun w => ?_
  rcases h w with ⟨e, w', hrun, hrest⟩ | ⟨b, w', t', hrun, hserves, hP⟩
  · rw [hrun]
    exact ⟨.raised, fun s hs => ⟨s, (server_of_rest hrest).trans hs, .raise t s⟩, rfl⟩
  · rw [hrun]
    exact ⟨t', hserves, hP⟩

/-! ## Steps that leave the server alone -/

/-- No step of the program changes what the protocol is about. -/
def Still (p : Awaiting α β) : Prop :=
  ∀ id own t, (∀ r, t ≠ .waiting r) → Does id own (fun t' _ => t' = t) p t

theorem still_await {m : Act α β} (h : m.Within Rest) : Still (await m) := by
  intro id own t harrived
  refine does_await fun w => ?_
  rcases hrun : m w with ⟨e | b, w'⟩
  · exact Or.inl ⟨e, w', rfl, h.of_run hrun⟩
  · refine Or.inr ⟨b, w', t, rfl, fun s hs => ⟨s, ?_, .stay t s harrived⟩, rfl⟩
    exact (server_of_rest (h.of_run hrun)).trans hs

theorem still_pure (b : β) : Still (Pure.pure b : Awaiting α β) := fun _ _ _ _ => rfl

theorem Still.bind {p : Awaiting α β} {k : β → Awaiting α γ} (hp : Still p) (hk : ∀ b, Still (k b)) : Still (p >>= k) :=
  fun id own t harrived => (hp id own t harrived).bind fun _ b ht' => ht' ▸ hk b id own t harrived

theorem Still.elim {o : Option β} {p : Awaiting α γ} {k : β → Awaiting α γ} (hp : Still p) (hk : ∀ b, Still (k b)) :
    Still (o.elim p k) := by
  cases o with
  | none => exact hp
  | some b => exact hk b

/-- A quiet program is a part of a program that has not moved yet. -/
theorem Still.then {p : Awaiting α β} {k : β → Awaiting α γ} (hp : Still p) (harrived : ∀ r, t ≠ .waiting r)
    (hk : ∀ b, Does id own Q (k b) t) : Does id own Q (p >>= k) t :=
  (hp id own t harrived).bind fun _ b ht' => ht' ▸ hk b

theorem rest_onDisk (m : Fs α β) : (onDisk m).Within Rest := fun _ => rfl

theorem rest_commit {f : Database → Database} (h : ∀ db, (f db).miniverses = db.miniverses) : (commit env f).Within Rest :=
  within_commit fun w => Prod.ext (h w.db) rfl

theorem still_download_mod_file (project : ModrinthProject) (version : ModrinthProjectVersion) (miniverse_id : Uuid4) :
    Still (download_mod_file env project version miniverse_id) :=
  (still_await ((Eff.Within.getOr _ _).bind fun _ => (Eff.Within.raiseIf _ _).bind fun _ => (rest_onDisk _).bind fun _ =>
    Eff.Within.pure _)).bind fun _ => (still_await (within_ask _)).bind fun _ => (still_await (rest_onDisk _)).bind fun _ =>
      still_pure _

theorem still_update_mod (mod : Mod) (new_version_id : String) : Still (update_mod env mod new_version_id) :=
  (still_await (within_ask _)).bind fun _ => (still_await (within_ask _)).bind fun _ =>
    (still_await (rest_onDisk _)).bind fun _ => (still_download_mod_file _ _ _).bind fun _ =>
      (still_await (rest_commit (f := (·.saveMod _)) fun _ => rfl)).bind fun _ =>
        (still_await (within_publish _ _ _)).bind fun _ => still_pure _

theorem still_install_mod (mod_version_id : String) (miniverse_id : Uuid4) :
    Still (install_mod env mod_version_id miniverse_id) := by
  refine (still_await (within_ask _)).bind fun _ => (still_await (within_ask _)).bind fun _ =>
    (still_await (within_query _)).bind fun _ => Still.elim ?_ fun _ => still_update_mod _ _
  refine (still_download_mod_file _ _ _).bind fun _ => (still_await (within_ask _)).bind fun _ =>
    Still.bind (still_await ?_) fun _ => (still_await (within_publish _ _ _)).bind fun _ => still_pure _
  exact (within_query _).bind fun _ => (Eff.Within.raiseIf _ _).bind fun _ => rest_commit fun _ => rfl

theorem still_automatic_mod_install (mod_id : String) (miniverse : Miniverse) (prioritize_release retry_with_latest : Bool) :
    Still (automatic_mod_install env mod_id miniverse prioritize_release retry_with_latest) := by
  refine Still.bind ((still_await (within_ask _)).bind fun versions => ?_) fun _ =>
    (still_await ((Eff.Within.ofExcept _).bind fun _ => Eff.Within.getOr _ _)).bind fun _ => still_install_mod _ _
  cases versions.isEmpty with
  | false => exact still_pure _
  | true =>
      refine Still.bind (still_await ((within_ask _).ite (Eff.Within.pure _))) fun _ => ?_
      exact (still_await (Eff.Within.raiseIf _ _)).bind fun _ => still_pure _

theorem still_init_data_path (miniverse : Miniverse) : Still (init_data_path env miniverse) := by
  refine (still_await ((Eff.Within.ofExcept _).bind fun _ => rest_onDisk _)).bind fun _ => ?_
  cases miniverse.is_on_lite_proxy with
  | true => exact still_pure _
  | false =>
      refine (still_await (rest_onDisk _)).bind fun _ => ?_
      cases miniverse.type with
      | vanilla => exact still_pure _
      | paper => exact still_pure _
      | fabric =>
          exact (still_automatic_mod_install _ _ _ _).bind fun _ => (still_automatic_mod_install _ _ _ _).bind fun _ =>
            still_await (rest_onDisk _)
      | forge => exact (still_automatic_mod_install _ _ _ _).bind fun _ => still_await (rest_onDisk _)
      | neo_forge => exact (still_automatic_mod_install _ _ _ _).bind fun _ => still_await (rest_onDisk _)

theorem still_stopController (miniverse_id : Uuid4) : Still (stopController env miniverse_id) :=
  (still_await ((Eff.Within.read _).bind fun _ => Eff.Within.getOr _ _)).bind fun _ =>
    (still_await (within_controller_stop _)).bind fun _ => still_await (Eff.Within.modify fun _ => rfl)

/-! ## Steps on the row -/

variable {m : Loaded}

theorem server_of_row {r : Miniverse} (h : w.db.findMiniverse id.str = some r) :
    w.server id = some ⟨r.started, r.container_id, w.containers⟩ := by
  rw [World.server, h, Option.map_some]

theorem server_flush (hid : m.value.id = id) {s : Server} (h : w.server id = some s) :
    World.server { w.next with db := { w.db with
        miniverses := w.db.miniverses.map fun r => if r.id = m.value.id then m.flush r else r } } id =
      some { s with
        started := if m.value.started = m.row.started then s.started else m.value.started
        container_id := if m.value.container_id = m.row.container_id then s.container_id else m.value.container_id } := by
  obtain ⟨r, hr, rfl⟩ := Option.map_eq_some_iff.mp h
  have hrid : r.id = id := Uuid4.eq_of_str (by simpa using List.find?_some hr)
  have hfind : (w.db.miniverses.map fun r => if r.id = m.value.id then m.flush r else r).find?
      (fun r => decide (r.id.str = id.str)) = some (m.flush r) := by
    rw [List.find?_map]
    have hsame : (fun r : Miniverse => decide (r.id.str = id.str)) ∘ (fun r => if r.id = m.value.id then m.flush r else r) =
        fun r => decide (r.id.str = id.str) := by
      funext r'
      rw [Function.comp]
      split <;> rfl
    rw [hsame, show w.db.miniverses.find? (fun r => decide (r.id.str = id.str)) = some r from hr, Option.map_some,
      if_pos (hrid.trans hid.symm)]
  exact server_of_row (w := { w.next with db := { w.db with
    miniverses := w.db.miniverses.map fun r => if r.id = m.value.id then m.flush r else r } }) hfind

/-- A commit is a step that writes what was set. -/
theorem does_commit (t' : Status) (hid : m.value.id = id) (hmove : ∀ s : Server, Moves (container_name_of id) own t s t'
    { s with
      started := if m.value.started = m.row.started then s.started else m.value.started
      container_id := if m.value.container_id = m.row.container_id then s.container_id else m.value.container_id }) :
    Does id own (fun t₁ m₁ => t₁ = t' ∧ m₁ = ⟨m.value, m.value⟩) (m.commit env : Awaiting α Loaded) t := by
  refine Does.bind (P := fun t₁ _ => t₁ = t') (does_await fun w => ?_) fun t₁ _ ht₁ => ⟨ht₁, rfl⟩
  cases hcommit : env.commit w.tick with
  | error e => exact Or.inl ⟨e, w.next, commit_error _ hcommit, rfl⟩
  | ok _ => exact Or.inr ⟨(), _, t', commit_ok _ hcommit, fun s hs => ⟨_, server_flush hid hs, hmove s⟩, rfl⟩

/-- A read of the row is a step in which the session gets to know what the row says. -/
theorem does_read {miniverse_id : Uuid4} {e : PyError} (after : Bool → Option String → Status) (hid : miniverse_id = id)
    (hmove : ∀ s : Server, Moves (container_name_of id) own t s (after s.started s.container_id) s) :
    Does id own (fun t₁ r => t₁ = after r.started r.container_id ∧ r.id = id)
      (await do Eff.getOr (← query (·.findMiniverse miniverse_id.str)) e : Awaiting α Miniverse) t := by
  subst hid
  refine does_await fun w => ?_
  cases hr : w.db.findMiniverse miniverse_id.str with
  | none =>
      refine Or.inl ⟨e, w, ?_, rfl⟩
      rw [query, Eff.read_bind_run, hr]
      rfl
  | some r =>
      refine Or.inr ⟨r, w, after r.started r.container_id, ?_, fun s hs => ?_, rfl, Uuid4.eq_of_str (by simpa using List.find?_some hr)⟩
      · rw [query, Eff.read_bind_run, hr]
        rfl
      · obtain rfl := Option.some.inj ((server_of_row hr).symm.trans hs)
        exact ⟨_, hs, hmove _⟩

theorem does_refresh (after : Bool → Option String → Status) (hid : m.value.id = id)
    (hmove : ∀ s : Server, Moves (container_name_of id) own t s (after s.started s.container_id) s) :
    Does id own (fun t₁ m₁ => t₁ = after m₁.row.started m₁.row.container_id ∧ m₁.value = m₁.row ∧ m₁.value.id = id)
      (m.refresh : Awaiting α Loaded) t :=
  Does.bind (does_read after hid hmove) fun _ _ h => ⟨h.1, rfl, h.2⟩

theorem does_get_miniverse (after : Bool → Option String → Status)
    (hmove : ∀ s : Server, Moves (container_name_of id) own t s (after s.started s.container_id) s) :
    Does id own (fun t₁ m₁ => t₁ = after m₁.row.started m₁.row.container_id ∧ m₁.value = m₁.row ∧ m₁.value.id = id)
      (get_miniverse id.str : Awaiting α Loaded) t :=
  Does.bind (does_read after rfl hmove) fun _ _ h => ⟨h.1, rfl, h.2⟩

/-! ## Steps on the containers -/

theorem get_container_by_name_cases (env : Env α) (name : String) (w : World α) :
    ∃ o, get_container_by_name env name w = (.ok o, w.next) ∧
      ∀ c, o = some c → c ∈ w.containers ∧ name.toList <:+: c.name.toList := by
  by_cases hsome : env.docker w.tick = .ok () ∧ ∃ c ∈ w.containers, name.toList <:+: c.name.toList
  · obtain ⟨hdocker, c, hc, hname⟩ := hsome
    obtain ⟨c', hc', hname', hrun⟩ := get_container_by_name_some env hdocker hc hname
    exact ⟨some c', hrun, fun c h => Option.some.inj h ▸ ⟨hc', hname'⟩⟩
  · refine ⟨none, get_container_by_name_none env fun hdocker c hc hname => hsome ⟨hdocker, c, hc, hname⟩, fun c h => nomatch h⟩

theorem server_of_containers {s : Server} (h : w.server id = some s) (hdb : w'.db = w.db) :
    w'.server id = some { s with containers := w'.containers } := by
  obtain ⟨r, hr, rfl⟩ := Option.map_eq_some_iff.mp h
  exact server_of_row (hdb ▸ hr)

theorem does_look (hid : m.value.id = id) {known : Option String} :
    Does id own (fun t₁ o => t₁ = o.elim (.creating known) fun c : Container => .recording known c.id)
      (await (get_container_by_name env (container_name_of m.value.id)) : Awaiting α (Option Container)) (.looking known) := by
  subst hid
  refine does_await fun w => ?_
  obtain ⟨o, hrun, ho⟩ := get_container_by_name_cases env (container_name_of m.value.id) w
  refine Or.inr ⟨o, w.next, _, hrun, fun s hs => ⟨s, hs, ?_⟩, rfl⟩
  cases o with
  | none => exact .missing known s
  | some c =>
      obtain ⟨r, hr, rfl⟩ := Option.map_eq_some_iff.mp hs
      exact .found (ho c rfl).1 (ho c rfl).2

theorem does_create (hid : m.value.id = id) (hown : ∀ n, own (env.container_id n)) {known : Option String} {image : String}
    {environment : List (String × String)} :
    Does id own (fun t₁ c => t₁ = .recording known c.id)
      (await (create_container env (container_name_of m.value.id) image environment) : Awaiting α Container)
      (.creating known) := by
  subst hid
  refine does_await fun w => ?_
  cases hdocker : env.docker w.tick with
  | error e => exact Or.inl ⟨e, w.next, Eff.bind_run_error (ask_error hdocker) _, rfl⟩
  | ok _ =>
      by_cases hfree : ∀ c ∈ w.containers, c.name ≠ container_name_of m.value.id
      · refine Or.inr ⟨_, _, _, create_container_ok env image environment hdocker hfree, fun s hs => ?_, rfl⟩
        obtain ⟨r, hr, rfl⟩ := Option.map_eq_some_iff.mp hs
        exact ⟨_, server_of_containers hs rfl, .create rfl (hown _) hfree⟩
      · have hany : (w.next.containers.any fun c => decide (c.name = container_name_of m.value.id)) = true := by
          simpa using hfree
        refine Or.inl ⟨.docker, w.next, ?_, rfl⟩
        rw [create_container, Eff.bind_run_ok (ask_ok hdocker), Eff.read_bind_run, hany, Eff.raiseIf_true_bind]

theorem does_start {found : String} :
    Does id own (fun t₁ _ => t₁ = .ended) (await (start_container env found) : Awaiting α Unit) (.recorded found) := by
  refine does_await fun w => ?_
  rcases hrun : start_container env found w with ⟨e | a, w'⟩
  · exact Or.inl ⟨e, w', rfl, container_call_raised hrun⟩
  · obtain ⟨c, hc, rfl, rfl⟩ := container_call_ok hrun
    refine Or.inr ⟨a, _, .ended, rfl, fun s hs => ?_, rfl⟩
    obtain ⟨r, hr, rfl⟩ := Option.map_eq_some_iff.mp hs
    exact ⟨_, server_of_containers hs rfl, .run ⟨c, hc, rfl⟩⟩

theorem does_stop (hdocker : TruthfulDocker env) {again started : Bool} :
    Does id own (fun t₁ _ => t₁ = .stopped again started m.value.container_id)
      (await (stop_miniverse_container env m.value) : Awaiting α Unit) (.stop again started m.value.container_id) := by
  refine does_await fun w => ?_
  have hlook : (Eff.when m.value.container_id.isNone do
      let _ ← get_container_by_name env (container_name_of m.value.id) : Act α Unit).Within Rest :=
    Eff.Within.when fun _ => (within_get_container_by_name _).bind fun _ => Eff.Within.pure _
  rcases hrun : stop_miniverse_container env m.value w with ⟨e | a, w'⟩
  · refine Or.inl ⟨e, w', rfl, ?_⟩
    rcases Eff.bind_error hrun with hlooked | ⟨_, w₁, hlooked, hstop⟩
    · exact hlook.of_run hlooked
    · have h₁ : Rest w w₁ := hlook.of_run hlooked
      cases htruthy : truthy m.value.container_id with
      | none =>
          rw [htruthy] at hstop
          cases hstop
      | some container_id =>
          rw [htruthy] at hstop
          exact trans_of Rest h₁ (container_call_raised (ignoreNotFound_raised hstop))
  · obtain ⟨_, w₁, hlooked, hstop⟩ := Eff.bind_ok hrun
    have h₁ : Rest w w₁ := hlook.of_run hlooked
    refine Or.inr ⟨a, w', _, rfl, fun s hs => ?_, rfl⟩
    have hs₁ : w₁.server id = some s := (server_of_rest h₁).trans hs
    refine ⟨_, ?_, .stop again started _ s⟩
    obtain ⟨r, hr, rfl⟩ := Option.map_eq_some_iff.mp hs₁
    cases htruthy : truthy m.value.container_id with
    | none =>
        rw [htruthy] at hstop
        cases hstop
        rw [hs₁, List.filter_eq_self.mpr fun c _ => decide_eq_true (Or.inl (Option.some_ne_none c.id).symm)]
    | some container_id =>
        rw [htruthy] at hstop
        have hdb : Same World.db w₁ w' := (within_ignoreNotFound (within_stop_container container_id)).of_run hstop
        rw [server_of_containers hs₁ hdb, stop_container_returned hdocker hstop]
        have hsame (c : Container) : decide (c.id ≠ container_id ∨ c.running = false) =
            decide (some container_id ≠ some c.id ∨ c.running = false) := by
          rw [decide_eq_decide, ne_eq, ne_eq, Option.some.injEq, eq_comm]
        rw [funext hsame]

/-! ## Programs -/

theorem does_create_container (hid : m.value.id = id) (hsame : m.value = m.row) (hown : ∀ n, own (env.container_id n)) :
    Does id own (fun t₁ r => t₁ = .recorded r.2.id) (create_miniverse_container env m) (.creating m.row.container_id) := by
  refine (does_create hid hown).bind fun t₁ c ht₁ => ?_
  subst ht₁
  refine (does_commit (m := m.set m.value.started (some c.id)) (.recorded c.id) hid fun s => ?_).bind fun t₂ m₂ ht₂ => ?_
  · have hmove : Moves (container_name_of id) own (.recording m.row.container_id c.id) s (.recorded c.id) _ := .record _ _ s
    simpa [Loaded.set, hsame, eq_comm] using hmove
  · obtain ⟨rfl, rfl⟩ := ht₂
    refine (does_refresh (fun _ _ => .recorded c.id) hid fun s => .stay _ s fun _ h => nomatch h).bind fun t₃ m₃ ht₃ => ?_
    exact ht₃.1

theorem does_start_miniverse (hid : m.value.id = id) (hsame : m.value = m.row) (hown : ∀ n, own (env.container_id n)) :
    Does id own (fun t₁ _ => t₁ = .ended) (start_miniverse env m) (.start m.row.started) := by
  refine (still_init_data_path _).then (fun _ h => nomatch h) fun _ => ?_
  refine (does_commit (m := m.set true m.value.container_id) .starting hid fun s => ?_).bind fun t₁ m₁ ht₁ => ?_
  · have hmove : Moves (container_name_of id) own (.start m.row.started) s .starting _ := .record_start _ s
    cases hstarted : m.row.started <;> simpa [Loaded.set, hsame, hstarted] using hmove
  obtain ⟨rfl, rfl⟩ := ht₁
  refine (does_refresh (fun _ container_id => .looking container_id) hid .read_started).bind fun t₂ m₂ ht₂ => ?_
  obtain ⟨rfl, hsame₂, hid₂⟩ := ht₂
  refine (does_look hid₂).bind fun t₃ o ht₃ => ?_
  subst ht₃
  cases o with
  | none =>
      refine (does_create_container hid₂ hsame₂ hown).bind fun t₄ r ht₄ => ?_
      subst ht₄
      refine does_start.bind fun t₅ _ ht₅ => ?_
      subst ht₅
      refine Still.then (still_await ?_) (fun _ h => nomatch h) fun _ => Does.pure rfl
      refine Eff.Within.bind ?_ fun _ => within_publish _ _ _
      exact (Eff.Within.read _).bind fun _ => (Eff.Within.getOr _ _).bind fun _ => Eff.Within.modify fun _ => rfl
  | some c =>
      refine (does_commit (m := m₂.set m₂.value.started (some c.id)) (.recorded c.id) hid₂ fun s => ?_).bind
        fun t₄ m₄ ht₄ => ?_
      · have hmove : Moves (container_name_of id) own (.recording m₂.row.container_id c.id) s (.recorded c.id) _ :=
          .record _ _ s
        simpa [Loaded.set, hsame₂, eq_comm] using hmove
      obtain ⟨rfl, rfl⟩ := ht₄
      refine (does_refresh (fun _ _ => .recorded c.id) hid₂ fun s => .stay _ s fun _ h => nomatch h).bind fun t₅ m₅ ht₅ => ?_
      obtain ⟨rfl, _, _⟩ := ht₅
      exact does_start.bind fun t₆ _ ht₆ => Does.pure ht₆

theorem does_stop_miniverse (hdocker : TruthfulDocker env) (hid : m.value.id = id) (hsame : m.value = m.row) {again : Bool} :
    Does id own (fun t₁ m₁ => t₁ = (if again then .start m₁.row.started else .ended) ∧ m₁.value = m₁.row ∧ m₁.value.id = id)
      (stop_miniverse env m) (.stop again m.row.started m.row.container_id) := by
  refine Does.bind (P := fun t₁ _ => t₁ = .stopped again m.row.started m.row.container_id) ?_ fun t₁ _ ht₁ => ?_
  · rw [← congrArg Miniverse.container_id hsame]
    exact does_stop hdocker
  subst ht₁
  refine (still_stopController _).then (fun _ h => nomatch h) fun _ => ?_
  refine (does_commit (m := m.set false none) (if again then .unread else .ended) hid fun s => ?_).bind
    fun t₂ m₂ ht₂ => ?_
  · have hmove : Moves (container_name_of id) own (.stopped again m.row.started m.row.container_id) s
      (if again then .unread else .ended) _ := .record_stop _ _ _ s
    cases hstarted : m.row.started <;> cases hcontainer : m.row.container_id <;>
      simpa [Loaded.set, hstarted, hcontainer] using hmove
  obtain ⟨rfl, rfl⟩ := ht₂
  refine (does_refresh (fun started _ => if again then .start started else .ended) hid fun s => ?_).bind
    fun t₃ m₃ ht₃ => ?_
  · cases again with
    | false => exact .stay _ s fun _ h => nomatch h
    | true => exact .read s
  · have harrived : ∀ r, t₃ ≠ .waiting r := by
      rw [ht₃.1]
      cases again <;> exact fun _ h => nomatch h
    exact (still_await (within_publish _ _ _)).then harrived fun _ => Does.pure ht₃

/-- Every request follows the protocol, and ends where it says. -/
theorem does_request (hdocker : TruthfulDocker env) (hown : ∀ n, own (env.container_id n)) (r : ServerRequest) :
    Does id own (fun t₁ _ => t₁ = .ended) (r.program env id) (.waiting r) := by
  cases r with
  | start =>
      refine (does_get_miniverse (fun started _ => .start started) .arrive_start).bind fun t₁ m₁ ht₁ => ?_
      obtain ⟨rfl, hsame, hid⟩ := ht₁
      exact (does_start_miniverse hid hsame hown).bind fun t₂ _ ht₂ => Does.pure ht₂
  | stop =>
      refine (does_get_miniverse (.stop false) .arrive_stop).bind fun t₁ m₁ ht₁ => ?_
      obtain ⟨rfl, hsame, hid⟩ := ht₁
      exact (does_stop_miniverse hdocker hid hsame).bind fun t₂ _ ht₂ => Does.pure ht₂.1
  | restart =>
      refine (does_get_miniverse (.stop true) .arrive_restart).bind fun t₁ m₁ ht₁ => ?_
      obtain ⟨rfl, hsame, hid⟩ := ht₁
      refine Does.bind ((does_stop_miniverse hdocker hid hsame).bind fun t₂ m₂ ht₂ => ?_) fun t₃ _ ht₃ => Does.pure ht₃
      obtain ⟨rfl, hsame₂, hid₂⟩ := ht₂
      exact does_start_miniverse hid₂ hsame₂ hown

end Requests

end Backend
