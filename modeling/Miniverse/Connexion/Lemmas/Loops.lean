import Miniverse.Connexion.Service
import Miniverse.Lib.Runs

/-!
# Connect loops that overlap

A task that is no longer the current one was cancelled, and never comes to where a loop sets the server. The server is the
one that the current task uses, as long as nobody else clears it.
-/

namespace Backend

open Lib

namespace Connexion

variable {s : Connexion} {t n : Nat} {task : ConnectTask} {o : Outcome}

/-! ## What holds of the state -/

/-- The loop of the current task is in the block from the assignment of its server to the end of its wait. -/
def Uses (s : Connexion) (n : Nat) : Prop :=
  ∃ t task, s.task = some t ∧ s.tasks t = some task ∧ (task.loop = .announcing n ∨ task.loop = .watching n)

/-- The task goes on with an exception that ends it. -/
def Doomed (task : ConnectTask) : Prop :=
  task.cancelled = true ∨ task.loop = .leaving true ∨ task.loop = .ended ∨ ∃ n, task.loop = .closing n true

/-- A task goes on from the `finally` block, and clears the server. -/
def clears (s : Connexion) : ConnexionEvent → Bool
  | .resume t .returns =>
      match s.tasks t with
      | some ⟨.closing _ _, false⟩ => true
      | _ => false
  | _ => false

/-- No task clears the server while the current one uses its own. -/
def SparesServer (s : Connexion) (e : ConnexionEvent) : Prop := clears s e = true → ∀ n, ¬ Uses s n

/-- The server is the one that the current task uses, and the other tasks are about to end. -/
structure Sound (s : Connexion) : Prop where
  known : ∀ t task, s.tasks t = some task → t < s.created
  others : ∀ t task, s.tasks t = some task → s.task ≠ some t → Doomed task
  used : ∀ n, Uses s n → s.server = some n

/-- The tasks are those that were created, and only the current one may go on for ever. -/
structure Attended (s : Connexion) : Prop where
  known : ∀ t task, s.tasks t = some task → t < s.created
  others : ∀ t task, s.tasks t = some task → s.task ≠ some t → Doomed task

theorem attended_fresh : Attended fresh where
  known _ _ h := by cases h
  others _ _ h := by cases h

theorem Sound.attended (h : Sound s) : Attended s := ⟨h.known, h.others⟩

theorem sound_fresh : Sound fresh where
  known _ _ h := by cases h
  others _ _ h := by cases h
  used _ h := by
    obtain ⟨_, _, h, _⟩ := h
    cases h

/-! ## One loop goes on -/

/-- A loop changes neither the tasks nor which of them is current. -/
theorem loop_tasks (o : Outcome) (s : Connexion) (l : ConnectLoop) :
    (async_connect_loop o s l).1.task = s.task ∧ (async_connect_loop o s l).1.tasks = s.tasks ∧
      (async_connect_loop o s l).1.created = s.created := by
  cases l <;> cases o <;> exact ⟨rfl, rfl, rfl⟩

/-- A loop comes to the block with a server that it has just set, or was there. -/
theorem loop_uses {l : ConnectLoop} (h : (async_connect_loop o s l).2 = .announcing n ∨ (async_connect_loop o s l).2 = .watching n) :
    (async_connect_loop o s l).1.server = some n ∨
      ((l = .announcing n ∨ l = .watching n) ∧ (async_connect_loop o s l).1.server = s.server) := by
  cases l with
  | connecting server =>
      cases o with
      | returns =>
          rcases h with h | h
          · exact Or.inl (congrArg some (ConnectLoop.announcing.inj h))
          · cases h
      | raises handled => rcases h with h | h <;> cases h
  | announcing server =>
      cases o with
      | returns =>
          by_cases hserver : server ∈ s.connected
          · simp only [async_connect_loop, if_pos hserver] at h ⊢
            rcases h with h | h
            · cases h
            · exact Or.inr ⟨Or.inl (congrArg _ (ConnectLoop.watching.inj h)), trivial⟩
          · simp only [async_connect_loop, if_neg hserver] at h
            rcases h with h | h <;> cases h
      | raises handled => rcases h with h | h <;> cases h
  | watching server =>
      cases o with
      | returns =>
          by_cases hserver : server ∈ s.connected
          · simp only [async_connect_loop, if_pos hserver] at h ⊢
            rcases h with h | h
            · cases h
            · exact Or.inr ⟨Or.inr h, trivial⟩
          · simp only [async_connect_loop, if_neg hserver] at h
            rcases h with h | h <;> cases h
      | raises handled => rcases h with h | h <;> cases h
  | leaving raising => cases o <;> cases raising <;> rcases h with h | h <;> cases h
  | created => cases o <;> rcases h with h | h <;> cases h
  | closing server raising => cases o <;> rcases h with h | h <;> cases h
  | sleeping => cases o <;> rcases h with h | h <;> cases h
  | ended => rcases h with h | h <;> cases h

/-- What a task gets when it goes on. -/
def outcome (task : ConnectTask) (o : Outcome) : Outcome := if task.cancelled then .raises false else o

/-- A task that is about to end stays so, and touches the server only to clear it. -/
theorem doomed_next (h : Doomed task) (o : Outcome) (s : Connexion) :
    Doomed ⟨(async_connect_loop (outcome task o) s task.loop).2, false⟩ ∧
      ((async_connect_loop (outcome task o) s task.loop).1.server = s.server ∨
        ∃ n, o = .returns ∧ task = ⟨.closing n true, false⟩) := by
  obtain ⟨loop, cancelled⟩ := task
  cases cancelled with
  | true =>
      refine ⟨?_, Or.inl ?_⟩
      · cases loop with
        | created => exact Or.inr (Or.inr (Or.inl rfl))
        | connecting server => exact Or.inr (Or.inr (Or.inr ⟨server, rfl⟩))
        | announcing server => exact Or.inr (Or.inr (Or.inr ⟨server, rfl⟩))
        | watching server => exact Or.inr (Or.inr (Or.inr ⟨server, rfl⟩))
        | closing server raising => exact Or.inr (Or.inl rfl)
        | leaving raising => exact Or.inr (Or.inr (Or.inl rfl))
        | sleeping => exact Or.inr (Or.inr (Or.inl rfl))
        | ended => exact Or.inr (Or.inr (Or.inl rfl))
      · cases loop <;> rfl
  | false =>
      rcases h with h | h | h | ⟨n, h⟩
      · cases h
      · obtain rfl : loop = .leaving true := h
        cases o <;> exact ⟨Or.inr (Or.inr (Or.inl rfl)), Or.inl rfl⟩
      · obtain rfl : loop = .ended := h
        exact ⟨Or.inr (Or.inr (Or.inl rfl)), Or.inl rfl⟩
      · obtain rfl : loop = .closing n true := h
        cases o with
        | returns => exact ⟨Or.inr (Or.inl rfl), Or.inr ⟨n, rfl, rfl⟩⟩
        | raises handled => exact ⟨Or.inr (Or.inl rfl), Or.inl rfl⟩

/-! ## Events -/

theorem resume_eq (htask : s.tasks t = some task) (o : Outcome) : resume t o s =
    (async_connect_loop (outcome task o) s task.loop).1.putTask t
      ⟨(async_connect_loop (outcome task o) s task.loop).2, false⟩ := by
  rw [resume, htask]
  rfl

theorem Attended.resume (h : Attended s) (t : Nat) (o : Outcome) : Attended (resume t o s) := by
  cases htask : s.tasks t with
  | none =>
      rw [Connexion.resume, htask]
      exact h
  | some task =>
      rw [resume_eq htask]
      obtain ⟨hcurrent, htasks, hcreated⟩ := loop_tasks (outcome task o) s task.loop
      have hdoomed := fun hne => doomed_next (h.others t task htask hne) o s
      generalize async_connect_loop (outcome task o) s task.loop = r at hcurrent htasks hcreated hdoomed
      have hne_tasks : ∀ u, u ≠ t → (r.1.putTask t ⟨r.2, false⟩).tasks u = s.tasks u := fun u hut =>
        (putTask_ne hut _ _).trans (congrFun htasks u)
      refine ⟨fun u tk hu => ?_, fun u tk hu hne => ?_⟩
      · show u < r.1.created
        rw [hcreated]
        by_cases hut : u = t
        · exact hut ▸ h.known t task htask
        · exact h.known u tk ((hne_tasks u hut).symm.trans hu)
      · replace hne : s.task ≠ some u := hcurrent ▸ hne
        by_cases hut : u = t
        · subst hut
          rw [putTask_self, Option.some.injEq] at hu
          exact hu ▸ (hdoomed hne).1
        · exact h.others u tk ((hne_tasks u hut).symm.trans hu) hne

theorem Sound.resume (h : Sound s) (hspares : SparesServer s (.resume t o)) : Sound (resume t o s) := by
  obtain ⟨hknown, hothers⟩ := h.attended.resume t o
  refine ⟨hknown, hothers, fun n hn => ?_⟩
  cases htask : s.tasks t with
  | none =>
      rw [Connexion.resume, htask] at hn ⊢
      exact h.used n hn
  | some task =>
      rw [resume_eq htask] at hn ⊢
      obtain ⟨hcurrent, htasks, _⟩ := loop_tasks (outcome task o) s task.loop
      have huses := @loop_uses s n (outcome task o) task.loop
      have hdoomed := fun hne => doomed_next (h.others t task htask hne) o s
      generalize async_connect_loop (outcome task o) s task.loop = r at hn hcurrent htasks huses hdoomed
      obtain ⟨u, tk, hu, htk, hused⟩ := hn
      replace hu : s.task = some u := hcurrent ▸ hu
      by_cases hut : u = t
      · subst hut
        rw [putTask_self, Option.some.injEq] at htk
        subst htk
        rcases huses hused with hset | ⟨hwas, hsame⟩
        · exact hset
        · exact hsame.trans (h.used n ⟨u, task, hu, htask, hwas⟩)
      · have hsame_task : (r.1.putTask t ⟨r.2, false⟩).tasks u = s.tasks u := (putTask_ne hut _ _).trans (congrFun htasks u)
        have hwas : Uses s n := ⟨u, tk, hu, hsame_task.symm.trans htk, hused⟩
        have hne : s.task ≠ some t := fun ht => hut (Option.some.inj (hu.symm.trans ht))
        rcases (hdoomed hne).2 with hsame | ⟨m, rfl, rfl⟩
        · exact hsame.trans (h.used n hwas)
        · exact absurd hwas (hspares (by simp [clears, htask]) n)

theorem Attended.start (h : Attended s) : Attended s.start := by
  cases htask : s.task with
  | some t =>
      rw [Connexion.start, htask]
      exact h
  | none =>
      rw [Connexion.start, htask]
      refine ⟨fun u tk hu => ?_, fun u tk hu hne => ?_⟩
      · by_cases hnew : u = s.created
        · exact hnew ▸ Nat.lt_succ_self _
        · exact Nat.lt_succ_of_lt (h.known u tk ((putTask_ne hnew _ _).symm.trans hu))
      · have hold : u ≠ s.created := fun hnew => hne (congrArg some hnew.symm)
        exact h.others u tk ((putTask_ne hold _ _).symm.trans hu) (by rw [htask]; exact nofun)

theorem Sound.start (h : Sound s) : Sound s.start := by
  obtain ⟨hknown, hothers⟩ := h.attended.start
  refine ⟨hknown, hothers, fun n hn => ?_⟩
  cases htask : s.task with
  | some t =>
      rw [Connexion.start, htask] at hn ⊢
      exact h.used n hn
  | none =>
      rw [Connexion.start, htask] at hn
      obtain ⟨u, tk, hu, htk, huses⟩ := hn
      cases hu
      cases (putTask_self _ _ _).symm.trans htk
      rcases huses with huses | huses <;> cases huses

theorem doomed_cancelled (task : ConnectTask) : Doomed { task with cancelled := decide (task.loop ≠ .ended) } := by
  by_cases hended : task.loop = .ended
  · exact Or.inr (Or.inr (Or.inl hended))
  · exact Or.inl (decide_eq_true hended)

/-- Every task is about to end. -/
def Ending (s : Connexion) : Prop := ∀ t task, s.tasks t = some task → Doomed task

theorem Ending.cancel (h : Ending s) (t : Nat) : Ending (cancel t s) := by
  rw [Connexion.cancel]
  cases htask : s.tasks t with
  | none => exact h
  | some task =>
      intro u tk hu
      by_cases hut : u = t
      · subst hut
        cases (putTask_self _ _ _).symm.trans hu
        exact doomed_cancelled task
      · exact h u tk ((putTask_ne hut _ _).symm.trans hu)

theorem Ending.resume (h : Ending s) (t : Nat) (o : Outcome) : Ending (resume t o s) := by
  cases htask : s.tasks t with
  | none =>
      rw [Connexion.resume, htask]
      exact h
  | some task =>
      have htasks := (loop_tasks (outcome task o) s task.loop).2.1
      rw [resume_eq htask]
      intro u tk hu
      by_cases hut : u = t
      · subst hut
        cases (putTask_self _ _ _).symm.trans hu
        exact (doomed_next (h u task htask) o s).1
      · exact h u tk ((congrFun htasks u).symm.trans ((putTask_ne hut _ _).symm.trans hu))

/-- Only a start makes a task that goes on. -/
theorem Ending.handle (h : Ending s) {e : ConnexionEvent} (he : e ≠ .start) : Ending (e.handle s).2 := by
  cases e with
  | start => exact absurd rfl he
  | resume t o => exact h.resume t o
  | disconnect server => exact h
  | stop answer =>
      cases answer with
      | error e => exact h
      | ok players =>
          show Ending { s.task.elim s fun t => Connexion.cancel t s with task := none }
          cases s.task with
          | none => exact h
          | some t => exact h.cancel t

/-- After a stop whose call returned, every task is about to end. -/
theorem Attended.stopped (h : Attended s) (players : List MSMPPlayer) : Ending (stop (.ok players) s).2 := by
  show ∀ t task, (s.task.elim s fun t => cancel t s).tasks t = some task → Doomed task
  cases htask : s.task with
  | none => exact fun t task ht => h.others t task ht (by rw [htask]; exact nofun)
  | some t =>
      have hother : ∀ u tk, u ≠ t → s.tasks u = some tk → Doomed tk := fun u tk hut hu =>
        h.others u tk hu fun ht => hut (Option.some.inj (ht.symm.trans htask))
      rw [Option.elim_some, cancel]
      intro u tk hu
      cases hcurrent : s.tasks t with
      | none =>
          rw [hcurrent] at hu
          replace hu : s.tasks u = some tk := hu
          refine hother u tk ?_ hu
          rintro rfl
          rw [hcurrent] at hu
          cases hu
      | some task =>
          rw [hcurrent] at hu
          by_cases hut : u = t
          · subst hut
            cases (putTask_self _ _ _).symm.trans hu
            exact doomed_cancelled task
          · exact hother u tk hut ((putTask_ne hut _ _).symm.trans hu)

theorem Attended.stop (h : Attended s) (answer : Except PyError (List MSMPPlayer)) : Attended (stop answer s).2 := by
  cases answer with
  | error e => exact h
  | ok players =>
      refine ⟨fun u tk hu => ?_, fun t task ht _ => h.stopped players t task ht⟩
      replace hu : (s.task.elim s fun t => cancel t s).tasks u = some tk := hu
      show u < (s.task.elim s fun t => cancel t s).created
      cases htask : s.task with
      | none =>
          rw [htask] at hu
          exact h.known u tk hu
      | some t =>
          rw [htask, Option.elim_some, cancel] at hu
          rw [Option.elim_some, cancel]
          cases hcurrent : s.tasks t with
          | none =>
              rw [hcurrent] at hu
              exact h.known u tk hu
          | some task =>
              rw [hcurrent] at hu
              show u < s.created
              by_cases hut : u = t
              · exact hut ▸ h.known t task hcurrent
              · exact h.known u tk ((putTask_ne hut _ _).symm.trans hu)

theorem Sound.stop (h : Sound s) (answer : Except PyError (List MSMPPlayer)) : Sound (stop answer s).2 := by
  cases answer with
  | error e => exact h
  | ok players =>
      obtain ⟨hknown, hothers⟩ := h.attended.stop (.ok players)
      refine ⟨hknown, hothers, fun n hn => ?_⟩
      obtain ⟨_, _, hu, _⟩ := hn
      cases hu

theorem Attended.handle (h : Attended s) (e : ConnexionEvent) : Attended (e.handle s).2 := by
  cases e with
  | start => exact h.start
  | stop answer => exact h.stop answer
  | resume t o => exact h.resume t o
  | disconnect server => exact ⟨h.known, h.others⟩

theorem attended_runs (events : List ConnexionEvent) : Attended (runs ConnexionEvent.handle events fresh) :=
  runs_invariant (fun _ e _ h => h.handle e) (@meets_of_forall _ _ _ _ _ (fun _ _ => True) (fun _ _ => trivial) _ _) attended_fresh

theorem Sound.handle {e : ConnexionEvent} (h : Sound s) (hspares : SparesServer s e) : Sound (e.handle s).2 := by
  cases e with
  | start => exact h.start
  | stop answer => exact h.stop answer
  | resume t o => exact h.resume hspares
  | disconnect server => exact ⟨h.known, h.others, h.used⟩

end Connexion

end Backend
