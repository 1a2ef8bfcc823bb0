import Mathlib.Logic.Function.Basic
import Miniverse.Lib.Runs

/-!
# Threads that give way

A program that awaits is a sequence of steps; between two of them other programs run. A step changes the shared state,
and what comes next depends on the state that it found. Threads take turns in any order.
-/

namespace Lib

inductive Async (σ α : Type) : Type where
  | done (a : α)
  | step (f : σ → σ) (next : σ → Async σ α)

namespace Async

variable {σ α β : Type}

protected def bind : Async σ α → (α → Async σ β) → Async σ β
  | done a, k => k a
  | step f next, k => step f fun s => (next s).bind k

instance : Monad (Async σ) where
  pure := done
  bind := Async.bind

/-- Read the state. -/
def look (f : σ → α) : Async σ α := step id fun s => done (f s)

/-- Change the state. -/
def act (f : σ → σ) : Async σ Unit := step f fun _ => done ()

/-- Run the program when the condition holds. -/
def when (c : Bool) (m : Async σ Unit) : Async σ Unit := if c then m else done ()

@[simp] theorem done_bind (a : α) (k : α → Async σ β) : (done a >>= k) = k a := rfl

@[simp] theorem pure_bind (a : α) (k : α → Async σ β) : ((pure a : Async σ α) >>= k) = k a := rfl

@[simp] theorem step_bind (f : σ → σ) (next : σ → Async σ α) (k : α → Async σ β) :
    (step f next >>= k) = step f fun s => next s >>= k := rfl

@[simp] theorem look_bind (f : σ → α) (k : α → Async σ β) : (look f >>= k) = step id fun s => k (f s) := rfl

@[simp] theorem act_bind (f : σ → σ) (k : Unit → Async σ β) : (act f >>= k) = step f fun _ => k () := rfl

@[simp] theorem when_true (m : Async σ Unit) : when true m = m := rfl

@[simp] theorem when_false (m : Async σ Unit) : when false m = done () := rfl

/-- One step of a program, with what is left of it. At its end it does nothing. -/
def once : Async σ α → σ → σ × Async σ α
  | done a, s => (s, done a)
  | step f next, s => (f s, next s)

@[simp] theorem once_done (a : α) (s : σ) : (done a).once s = (s, done a) := rfl

@[simp] theorem once_step (f : σ → σ) (next : σ → Async σ α) (s : σ) : (step f next).once s = (f s, next s) := rfl

/-- A program on a part of the state. -/
def zoom {τ : Type} (get : τ → σ) (set : σ → τ → τ) : Async σ α → Async τ α
  | done a => done a
  | step f next => step (fun t => set (f (get t)) t) fun t => zoom get set (next (get t))

/-- Whether a program has come to its end. -/
def isDone : Async σ α → Bool
  | done _ => true
  | step _ _ => false

end Async

theorem Async.once_isDone {σ α : Type} {p : Async σ α} (h : p.isDone = true) (s : σ) : p.once s = (s, p) := by
  cases p with
  | done a => rfl
  | step f next => cases h

theorem Async.bind_assoc {σ α β γ : Type} (p : Async σ α) (k : α → Async σ β) (l : β → Async σ γ) :
    p >>= k >>= l = p >>= fun a => k a >>= l := by
  induction p with
  | done a => rfl
  | step f next ih => exact congrArg (Async.step f) (funext ih)

theorem Async.bind_ne_done {σ α β : Type} {p : Async σ α} {k : α → Async σ β} {b : β} (h : p.isDone = false) :
    (p >>= k) ≠ done b := by
  cases p with
  | done a => cases h
  | step f next =>
      intro heq
      cases heq

theorem Async.once_bind {σ α β : Type} {p : Async σ α} (h : p.isDone = false) (k : α → Async σ β) (s : σ) :
    (p >>= k).once s = ((p.once s).1, (p.once s).2 >>= k) := by
  cases p with
  | done a => cases h
  | step f next => rfl

/-! ## Programs that may raise -/

/-- One step that does what a computation does. -/
def Async.lift {σ ε α : Type} (m : Eff σ ε α) : ExceptT ε (Async σ) α :=
  ExceptT.mk (.step (fun s => (m s).2) fun s => .done (m s).1)

theorem Async.once_lift_ok {σ ε α β : Type} {m : Eff σ ε α} {s s' : σ} {a : α} (h : m s = (.ok a, s'))
    (k : α → ExceptT ε (Async σ) β) : (lift m >>= k).run.once s = (s', (k a).run) := by
  show ((m s).2, ExceptT.bindCont k (m s).1) = _
  rw [h]
  rfl

theorem Async.once_lift_error {σ ε α β : Type} {m : Eff σ ε α} {s s' : σ} {e : ε} (h : m s = (.error e, s'))
    (k : α → ExceptT ε (Async σ) β) : (lift m >>= k).run.once s = (s', .done (.error e)) := by
  show ((m s).2, ExceptT.bindCont k (m s).1) = _
  rw [h]
  rfl

/-! ## Protocols -/

namespace Async

variable {σ τ ε α β : Type} {moves : τ → σ → τ → σ → Prop}

/-- Each step of the program is a move of the protocol, and the state of the protocol fits the result at the end. -/
def Follows (moves : τ → σ → τ → σ → Prop) (fits : τ → α → Prop) : Async σ α → τ → Prop
  | done a, t => fits t a
  | step f next, t => ∀ s, ∃ t', moves t s t' (f s) ∧ Follows moves fits (next s) t'

theorem Follows.bind {fits : τ → α → Prop} {fits' : τ → β → Prop} {p : Async σ α} {k : α → Async σ β} {t : τ}
    (hp : Follows moves fits p t) (hk : ∀ t a, fits t a → Follows moves fits' (k a) t) :
    Follows moves fits' (p >>= k) t := by
  induction p generalizing t with
  | done a => exact hk t a hp
  | step f next ih =>
      intro s
      obtain ⟨t', hmove, hnext⟩ := hp s
      exact ⟨t', hmove, ih s hnext⟩

/-- What fits a result, where every exception leads to one state of the protocol. -/
def Yields (raised : τ) (P : τ → α → Prop) (t : τ) : Except ε α → Prop
  | .ok a => P t a
  | .error _ => t = raised

theorem Follows.bind_except {raised : τ} {P : τ → α → Prop} {Q : τ → β → Prop} {p : ExceptT ε (Async σ) α}
    {k : α → ExceptT ε (Async σ) β} {t : τ} (hp : Follows moves (Yields raised P) p.run t)
    (hk : ∀ t a, P t a → Follows moves (Yields raised Q) (k a).run t) :
    Follows moves (Yields raised Q) (p >>= k).run t := by
  refine Follows.bind hp fun t r hr => ?_
  cases r with
  | ok a => exact hk t a hr
  | error e => exact hr

theorem follows_lift {fits : τ → Except ε α → Prop} {m : Eff σ ε α} {t : τ} :
    Follows moves fits (lift m).run t ↔ ∀ s, ∃ t', moves t s t' (m s).2 ∧ fits t' (m s).1 := Iff.rfl

theorem Follows.once {fits : τ → α → Prop} {p : Async σ α} {t : τ} (hstay : ∀ t a s, fits t a → moves t s t s)
    (h : Follows moves fits p t) (s : σ) :
    ∃ t', moves t s t' (p.once s).1 ∧ Follows moves fits (p.once s).2 t' := by
  cases p with
  | done a => exact ⟨t, hstay t a s h, h⟩
  | step f next => exact h s

end Async

/-! ## Kinds of steps -/

namespace Async

variable {σ ε α β : Type} {Q : (σ → σ) → Prop}

/-- Every step of the program is of a kind, wherever the program comes to. -/
def All (Q : (σ → σ) → Prop) : Async σ α → Prop
  | done _ => True
  | step f next => Q f ∧ ∀ s, All Q (next s)

/-- The step that comes next. -/
def Next (f : σ → σ) (p : Async σ α) : Prop := ∃ next, p = step f next

theorem All.mono {Q' : (σ → σ) → Prop} (h : ∀ f, Q f → Q' f) {p : Async σ α} (hp : All Q p) : All Q' p := by
  induction p with
  | done a => exact trivial
  | step f next ih => exact ⟨h f hp.1, fun s => ih s (hp.2 s)⟩

theorem all_of_isDone {p : Async σ α} (h : p.isDone = true) : All Q p := by
  cases p with
  | done a => exact trivial
  | step f next => cases h

theorem All.bind {p : Async σ α} {k : α → Async σ β} (hp : All Q p) (hk : ∀ a, All Q (k a)) : All Q (p >>= k) := by
  induction p with
  | done a => exact hk a
  | step f next ih => exact ⟨hp.1, fun s => ih s (hp.2 s)⟩

theorem All.bind_except {p : ExceptT ε (Async σ) α} {k : α → ExceptT ε (Async σ) β} (hp : All Q p.run)
    (hk : ∀ a, All Q (k a).run) : All Q (p >>= k).run := by
  refine All.bind hp fun r => ?_
  cases r with
  | ok a => exact hk a
  | error e => exact trivial

theorem all_lift {m : Eff σ ε α} (h : Q fun s => (m s).2) : All Q (lift m).run := ⟨h, fun _ => trivial⟩

/-- A step of the program, where it is not at its end. -/
theorem All.once {p : Async σ α} (h : All Q p) (s : σ) :
    All Q (p.once s).2 ∧ ((p.once s).1 = s ∨ ∃ f, Q f ∧ p.Next f ∧ (p.once s).1 = f s) := by
  cases p with
  | done a => exact ⟨trivial, Or.inl rfl⟩
  | step f next => exact ⟨h.2 s, Or.inr ⟨f, h.1, ⟨next, rfl⟩, rfl⟩⟩

end Async

/-! ## Threads -/

/-- Programs that share a state. -/
structure Threads (σ ι α : Type) where
  shared : σ
  thread : ι → Async σ α

namespace Threads

variable {σ ι α : Type} [DecidableEq ι]

/-- One step of a thread. -/
def turn (i : ι) (c : Threads σ ι α) : Threads σ ι α where
  shared := ((c.thread i).once c.shared).1
  thread := Function.update c.thread i ((c.thread i).once c.shared).2

/-- A turn, as a request that is handled. -/
def take (i : ι) : Eff (Threads σ ι α) Empty Unit := Eff.modify (turn i)

@[simp] theorem turn_thread_self (i : ι) (c : Threads σ ι α) : (c.turn i).thread i = ((c.thread i).once c.shared).2 :=
  Function.update_self i _ _

/-- The other threads do not move. -/
theorem turn_thread_ne {i j : ι} (h : j ≠ i) (c : Threads σ ι α) : (c.turn i).thread j = c.thread j :=
  Function.update_of_ne h _ _

/-- Every thread has come to its end. -/
def Ended (c : Threads σ ι α) : Prop := ∀ i, (c.thread i).isDone = true

/-- An invariant that each turn keeps under the condition is kept by every order of turns. -/
theorem turns_invariant {cond : Threads σ ι α → ι → Prop} {I : Threads σ ι α → Prop}
    (hstep : ∀ c i, cond c i → I c → I (c.turn i)) {schedule : List ι} {c : Threads σ ι α}
    (hmeets : Meets take cond schedule c) (h : I c) : I (runs take schedule c) :=
  runs_invariant hstep hmeets h

end Threads

/-! ## Requests that arrive -/

/-- Programs that share a state. A program that has not arrived has no thread. -/
structure Arrivals (σ ι α : Type) where
  shared : σ
  thread : ι → Option (Async σ α)

namespace Arrivals

variable {σ τ ι α : Type} [DecidableEq ι] (request : ι → Async σ α)

/-- What is left of a request. -/
def program (i : ι) (c : Arrivals σ ι α) : Async σ α := (c.thread i).getD (request i)

/-- One step of a request, its first when it arrives. -/
def turn (i : ι) (c : Arrivals σ ι α) : Arrivals σ ι α where
  shared := ((c.program request i).once c.shared).1
  thread := Function.update c.thread i (some ((c.program request i).once c.shared).2)

/-- A turn, as a request that is handled. -/
def take (i : ι) : Eff (Arrivals σ ι α) Empty Unit := Eff.modify (turn request i)

/-- The request has arrived and not come to its end. -/
def Active (c : Arrivals σ ι α) (i : ι) : Prop := ∃ p, c.thread i = some p ∧ p.isDone = false

/-- Every request that has arrived has come to its end. -/
def Ended (c : Arrivals σ ι α) : Prop := ∀ i p, c.thread i = some p → p.isDone = true

/-- No request has arrived. -/
def start (s : σ) : Arrivals σ ι α := ⟨s, fun _ => none⟩

variable {request}

omit [DecidableEq ι] in
theorem program_of_thread {c : Arrivals σ ι α} {i : ι} {p : Async σ α} (h : c.thread i = some p) :
    c.program request i = p := by
  rw [program, h, Option.getD_some]

omit [DecidableEq ι] in
theorem program_of_none {c : Arrivals σ ι α} {i : ι} (h : c.thread i = none) : c.program request i = request i := by
  rw [program, h, Option.getD_none]

theorem turn_thread_self (i : ι) (c : Arrivals σ ι α) :
    (c.turn request i).thread i = some ((c.program request i).once c.shared).2 := Function.update_self i _ _

/-- The other requests do not move. -/
theorem turn_thread_ne {i j : ι} (h : j ≠ i) (c : Arrivals σ ι α) : (c.turn request i).thread j = c.thread j :=
  Function.update_of_ne h _ _

theorem program_turn_self (i : ι) (c : Arrivals σ ι α) :
    (c.turn request i).program request i = ((c.program request i).once c.shared).2 :=
  program_of_thread (turn_thread_self i c)

theorem program_turn_ne {i j : ι} (h : j ≠ i) (c : Arrivals σ ι α) :
    (c.turn request i).program request j = c.program request j := by
  rw [program, turn_thread_ne h, program]

/-- What each request satisfies at first and each step keeps holds of every request after a turn. -/
theorem forall_turn {P : ι → Async σ α → Prop} {c : Arrivals σ ι α} {i : ι} (h : ∀ j, P j (c.program request j))
    (hnext : P i ((c.program request i).once c.shared).2) (j : ι) : P j ((c.turn request i).program request j) := by
  by_cases hj : j = i
  · subst hj
    rw [program_turn_self]
    exact hnext
  · rw [program_turn_ne hj]
    exact h j

/-- Every request follows the protocol, each from its own state. -/
def Tracks (moves : τ → σ → τ → σ → Prop) (fits : τ → α → Prop) (request : ι → Async σ α) (t : ι → τ)
    (c : Arrivals σ ι α) : Prop :=
  ∀ i, (c.program request i).Follows moves fits (t i)

/-- A turn of a request is a move of its state of the protocol. -/
theorem Tracks.turn {moves : τ → σ → τ → σ → Prop} {fits : τ → α → Prop} {t : ι → τ} {c : Arrivals σ ι α}
    (hstay : ∀ t a s, fits t a → moves t s t s) (h : Tracks moves fits request t c) (i : ι) :
    ∃ t', moves (t i) c.shared t' (c.turn request i).shared ∧
      Tracks moves fits request (Function.update t i t') (c.turn request i) := by
  obtain ⟨t', hmove, hnext⟩ := (h i).once hstay c.shared
  refine ⟨t', hmove, fun j => ?_⟩
  by_cases hj : j = i
  · subst hj
    rw [Function.update_self, program_of_thread (turn_thread_self j c)]
    exact hnext
  · rw [Function.update_of_ne hj, program, turn_thread_ne hj]
    exact h j

end Arrivals

end Lib
