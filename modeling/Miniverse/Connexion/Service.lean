import Miniverse.Manager.Service

/-!
# The connection to a management server

`async_connect_loop` of `rpc_service.py`, and the start and the stop of `WebSocketMiniverseService.py`. A loop is where it
awaits. What is awaited ends when it ends, and meanwhile other loops go on and other calls arrive.
-/

namespace Backend

open Lib

/-- Where a connect loop awaits, with its `Server`. In the `finally` block and after it the loop knows whether an exception
goes on. -/
inductive ConnectLoop where
  | created
  | connecting (server : Nat)
  | announcing (server : Nat)
  | watching (server : Nat)
  | closing (server : Nat) (raising : Bool)
  | leaving (raising : Bool)
  | sleeping
  | ended
deriving DecidableEq

/-- A task of the event loop. One that was cancelled gets a `CancelledError` when it goes on. -/
structure ConnectTask where
  loop : ConnectLoop
  cancelled : Bool
deriving DecidableEq

/-- How what a loop awaits ends. `handled` says whether an `except` clause of the loop takes the exception. -/
inductive Outcome where
  | returns
  | raises (handled : Bool)
deriving DecidableEq

/-- A controller with its `RpcService`, the tasks that it has created and the servers that are connected. -/
structure Connexion where
  server : Option Nat
  task : Option Nat
  tasks : Nat → Option ConnectTask
  /-- How many tasks were created so far. -/
  created : Nat
  /-- How many servers were made so far. -/
  servers : Nat
  connected : List Nat

namespace Connexion

/-- A controller that was never started. -/
def fresh : Connexion := ⟨none, none, fun _ => none, 0, 0, []⟩

def putTask (t : Nat) (task : ConnectTask) (s : Connexion) : Connexion :=
  { s with tasks := Function.update s.tasks t (some task) }

@[simp] theorem putTask_self (t : Nat) (task : ConnectTask) (s : Connexion) : (s.putTask t task).tasks t = some task :=
  Function.update_self _ _ _

theorem putTask_ne {t u : Nat} (h : u ≠ t) (task : ConnectTask) (s : Connexion) : (s.putTask t task).tasks u = s.tasks u :=
  Function.update_of_ne h _ _

/-- The code from where the loop awaits to where it awaits next. The first part of the body may raise when it makes the
connector. -/
def async_connect_loop (o : Outcome) (s : Connexion) : ConnectLoop → Connexion × ConnectLoop
  | .created | .sleeping =>
      match o with
      | .returns => ({ s with servers := s.servers + 1 }, .connecting s.servers)
      | .raises _ => (s, .ended)
  | .connecting server =>
      match o with
      | .returns => ({ s with server := some server, connected := server :: s.connected }, .announcing server)
      | .raises handled => (s, .closing server !handled)
  | .announcing server | .watching server =>
      match o with
      | .returns => (s, if server ∈ s.connected then .watching server else .closing server false)
      | .raises handled => (s, .closing server !handled)
  | .closing _ raising =>
      match o with
      | .returns => ({ s with server := none }, .leaving raising)
      | .raises _ => (s, .leaving true)
  | .leaving raising =>
      match o with
      | .returns => (s, if raising then .ended else .sleeping)
      | .raises _ => (s, .ended)
  | .ended => (s, .ended)

/-- A task goes on. No clause of the loop takes a `CancelledError`. -/
def resume (t : Nat) (o : Outcome) (s : Connexion) : Connexion :=
  match s.tasks t with
  | none => s
  | some task =>
      let (s, loop) := async_connect_loop (if task.cancelled then .raises false else o) s task.loop
      s.putTask t ⟨loop, false⟩

/-- A task that has not ended is cancelled. -/
def cancel (t : Nat) (s : Connexion) : Connexion :=
  (s.tasks t).elim s fun task => s.putTask t { task with cancelled := decide (task.loop ≠ .ended) }

def start (s : Connexion) : Connexion :=
  match s.task with
  | none => { s.putTask s.created ⟨.created, false⟩ with task := some s.created, created := s.created + 1 }
  | some _ => s

/-- The code of `stop` behind the call of `get_msmp_player_list`, which ends with the answer. -/
def stop (answer : Except PyError (List MSMPPlayer)) : Eff Connexion PyError Unit := do
  let _ ← Eff.ofExcept answer
  Eff.modify fun s => { s.task.elim s fun t => cancel t s with task := none }

end Connexion

/-- What may happen next: a call of `start` or the end of one of `stop`, a task that goes on, or a connection that is lost. -/
inductive ConnexionEvent where
  | start
  | stop (answer : Except PyError (List MSMPPlayer))
  | resume (t : Nat) (o : Outcome)
  | disconnect (server : Nat)

def ConnexionEvent.handle : ConnexionEvent → Eff Connexion PyError Unit
  | start => Eff.modify Connexion.start
  | stop answer => Connexion.stop answer
  | resume t o => Eff.modify (Connexion.resume t o)
  | disconnect server => Eff.modify fun s => { s with connected := s.connected.filter fun n => decide (n ≠ server) }

end Backend
