import Miniverse.Connexion.Connected

/-!
# Theorems about the connection
-/

namespace Backend

open Lib

/-- While the loop of the current task waits on a server that is connected, this server is the one that calls use. -/
def Connexion.LiveServerUsed (s : Connexion) : Prop :=
  ∀ t task n, s.task = some t → s.tasks t = some task → task.loop = .watching n → n ∈ s.connected → s.server = some n

open Connexion in
/-- Where no task clears the server while the current one uses its own, the live server is the one that calls use. -/
theorem live_server_used {events : List ConnexionEvent} (hspares : Meets ConnexionEvent.handle SparesServer events fresh) :
    (runs ConnexionEvent.handle events fresh).LiveServerUsed := by
  have hsound := runs_invariant (fun s e hspares h => Sound.handle h hspares) hspares sound_fresh
  intro t task n ht htask hwatches _
  exact hsound.used n ⟨t, task, ht, htask, Or.inr hwatches⟩

/-! ## The controller of the manager -/

/-- The controller as the manager keeps it. -/
def Connexion.control (s : Connexion) : Controller := .webSocket s.task.isSome

theorem Connexion.control_start (s : Connexion) : s.start.control = s.control.start := by
  cases htask : s.task with
  | none => simp [start, control, Controller.start, htask]
  | some t => simp [start, control, Controller.start, htask]

/-- A stop does to the task what the manager sees of it. -/
theorem Connexion.control_stop {α : Type} (env : Env α) (id : Uuid4) (w : World α) (s : Connexion) :
    (s.control.stop env id w).1 =
      (stop (env.player_list w.tick id) s).1.map fun _ => (stop (env.player_list w.tick id) s).2.control := by
  cases hanswer : env.player_list w.tick id with
  | error e => simp [control, Controller.stop, get_msmp_player_list, stop, ask, hanswer, Eff.bind_run, Except.map]
  | ok players => simp [control, Controller.stop, get_msmp_player_list, stop, ask, hanswer, Eff.bind_run, Except.map]

/-! ## Samples -/

/-- A server is connected, and the controller is stopped. -/
def sampleStop : List ConnexionEvent :=
  [.start, .resume 0 .returns, .resume 0 .returns, .resume 0 .returns, .stop (.ok []), .resume 0 .returns]

/-- The second task of the controller connects. -/
def sampleSecond : List ConnexionEvent := [.start, .resume 1 .returns, .resume 1 .returns, .resume 1 .returns]

open Connexion in
/-- The stopped loop ends before the controller is started again. -/
theorem live_server_used_sample :
    (runs ConnexionEvent.handle (sampleStop ++ .resume 0 .returns :: sampleSecond) fresh).LiveServerUsed := by
  have hspares : Meets ConnexionEvent.handle (fun s e => s.task = none ∨ clears s e = false)
      (sampleStop ++ .resume 0 .returns :: sampleSecond) fresh := by decide
  refine live_server_used (hspares.mono fun s e h hclears n huses => ?_)
  obtain ⟨t, _, ht, _⟩ := huses
  rcases h with h | h
  · rw [h] at ht
    cases ht
  · rw [h] at hclears
    cases hclears

open Connexion in
/-- The stopped loop still closes its server when the second task has connected. -/
theorem live_server_cleared : ¬ ∀ events, (runs ConnexionEvent.handle events fresh).LiveServerUsed := by
  intro h
  have hserver := h (sampleStop ++ sampleSecond ++ [.resume 0 .returns]) 1 ⟨.watching 1, false⟩ 1 rfl rfl rfl (by decide)
  cases hserver

/-! ## Stopping -/

namespace Connexion

/-- Whatever happens, until the controller is started again every loop of it is about to end. -/
def LoopsEnd (s : Connexion) : Prop :=
  ∀ events, (∀ e ∈ events, e ≠ ConnexionEvent.start) → Ending (runs ConnexionEvent.handle events s)

theorem loopsEnd_iff {s : Connexion} : s.LoopsEnd ↔ Ending s := by
  constructor
  · exact fun h => h [] fun _ he => absurd he List.not_mem_nil
  · intro h events hevents
    have hmeets : Meets ConnexionEvent.handle (fun _ e => e ≠ .start) events s := meets_of_mem (fun e he _ => hevents e he) s
    exact runs_invariant (I := Ending) (fun _ _ he h => Ending.handle h he) hmeets h

/-- The task that a stop would cancel, if there is one, is about to end. -/
def CurrentEnds (s : Connexion) : Prop := ∀ t task, s.task = some t → s.tasks t = some task → Doomed task

/-- A stop whose call raises cancels nothing. -/
theorem stop_ends_iff {s : Connexion} (h : Attended s) (answer : Except PyError (List MSMPPlayer)) :
    (stop answer s).2.LoopsEnd ↔ (∃ players, answer = .ok players) ∨ s.CurrentEnds := by
  rw [loopsEnd_iff]
  cases answer with
  | ok players => exact iff_of_true (h.stopped players) (Or.inl ⟨players, rfl⟩)
  | error e =>
      constructor
      · exact fun hends => Or.inr fun t task _ htask => hends t task htask
      · rintro (⟨players, hplayers⟩ | hends) t task htask
        · cases hplayers
        · by_cases ht : s.task = some t
          · exact hends t task ht htask
          · exact h.others t task htask ht

end Connexion

/-- When the controller's stop was called, and has returned or raised, its loops end. -/
structure StopsEndLoops {α : Type} (env : Env α) (meanwhile : List ConnexionEvent) (miniverse : Miniverse) (l : Connected α) :
    Prop where
  stopped : ∀ w, stop_miniverse_container env miniverse l.world = (.ok (), w) →
    (Connected.stop_miniverse env meanwhile miniverse l).2.connexion.LoopsEnd
  deleted : (Connected.delete_miniverse env meanwhile miniverse l).2.connexion.LoopsEnd

/-- The loops end exactly when the players are read without an exception, or the current task ends by itself. -/
theorem stops_end_loops_iff {α : Type} {env : Env α} {events meanwhile : List ConnexionEvent} {miniverse : Miniverse} {task : Bool}
    {l : Connected α} (hreached : l.connexion = runs ConnexionEvent.handle events Connexion.fresh)
    (hregistered : (l.world.service miniverse.id.str).map Prod.snd = some (.webSocket task)) :
    StopsEndLoops env meanwhile miniverse l ↔
      (∀ w, stop_miniverse_container env miniverse l.world = (.ok (), w) →
        (∃ players, env.player_list w.tick miniverse.id = .ok players) ∨
          (runs ConnexionEvent.handle meanwhile l.connexion).CurrentEnds) ∧
      ((∃ players, env.player_list l.world.tick miniverse.id = .ok players) ∨
        (runs ConnexionEvent.handle meanwhile l.connexion).CurrentEnds) := by
  have hattended : Connexion.Attended (runs ConnexionEvent.handle meanwhile l.connexion) := by
    rw [hreached, ← runs_append]
    exact Connexion.attended_runs _
  have hstopped : ∀ w, stop_miniverse_container env miniverse l.world = (.ok (), w) →
      ((Connected.stop_miniverse env meanwhile miniverse l).2.connexion.LoopsEnd ↔
        (∃ players, env.player_list w.tick miniverse.id = .ok players) ∨
          (runs ConnexionEvent.handle meanwhile l.connexion).CurrentEnds) := by
    intro w hcontainer
    rw [Connected.stop_miniverse_connexion hregistered hcontainer, Connexion.stop_ends_iff hattended]
  have hdeleted : (Connected.delete_miniverse env meanwhile miniverse l).2.connexion.LoopsEnd ↔
      (∃ players, env.player_list l.world.tick miniverse.id = .ok players) ∨
        (runs ConnexionEvent.handle meanwhile l.connexion).CurrentEnds := by
    rw [Connected.delete_miniverse_connexion hregistered, Connexion.stop_ends_iff hattended]
  constructor
  · exact fun h => ⟨fun w hw => (hstopped w hw).mp (h.stopped w hw), hdeleted.mp h.deleted⟩
  · exact fun h => ⟨fun w hw => (hstopped w hw).mpr (h.1 w hw), hdeleted.mpr h.2⟩

def sampleServer : Miniverse := (sampleCreate "1.21.10").toMiniverse sampleId "sample" "secret"

/-- The only miniverse, whose loop is connected. -/
def sampleConnected : Connected String where
  world := { sampleWorld with controllers := [(sampleServer.id, .webSocket true)] }
  connexion := runs ConnexionEvent.handle [.start, .resume 0 .returns, .resume 0 .returns, .resume 0 .returns] Connexion.fresh

theorem stops_end_loops_sample : StopsEndLoops sampleEnv [] sampleServer sampleConnected ↔
    (∀ w, stop_miniverse_container sampleEnv sampleServer sampleConnected.world = (.ok (), w) →
      (∃ players, sampleEnv.player_list w.tick sampleServer.id = .ok players) ∨
        (runs ConnexionEvent.handle [] sampleConnected.connexion).CurrentEnds) ∧
    ((∃ players, sampleEnv.player_list sampleConnected.world.tick sampleServer.id = .ok players) ∨
      (runs ConnexionEvent.handle [] sampleConnected.connexion).CurrentEnds) :=
  stops_end_loops_iff rfl (show (sampleConnected.world.service sampleServer.id.str).map Prod.snd = some (.webSocket true) from rfl)

/-- The server is gone: the loop goes on for a controller that is no longer registered. -/
theorem loop_outlives_controller :
    ¬ ∀ (env : Env String) (events meanwhile : List ConnexionEvent) (miniverse : Miniverse) (task : Bool) (l : Connected String),
      l.connexion = runs ConnexionEvent.handle events Connexion.fresh →
      (l.world.service miniverse.id.str).map Prod.snd = some (.webSocket task) → StopsEndLoops env meanwhile miniverse l := by
  intro h
  have hregistered : (sampleConnected.world.service sampleServer.id.str).map Prod.snd = some (.webSocket true) := rfl
  have hends := (h { sampleEnv with player_list := fun _ _ => .error .rpc } _ [] sampleServer true sampleConnected rfl hregistered).deleted
  rw [Connected.delete_miniverse_connexion hregistered, Connexion.loopsEnd_iff] at hends
  rcases hends 0 ⟨.watching 0, false⟩ rfl with hdoomed | hdoomed | hdoomed | ⟨_, hdoomed⟩ <;> cases hdoomed

end Backend
