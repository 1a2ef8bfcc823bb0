import Miniverse.Miniverses.Lemmas.Rules
import Miniverse.Status.Service

/-!
# Update sessions

The websocket of `websockets.py` on which a client follows the miniverses: first the lists as they are cached, then the
events that are published.
-/

namespace Backend

open Lib

/-! ## Roles and events -/

namespace Role

/-- `max(before_user_role, after_user_role)` -/
def max (a b : Role) : Role := if a < b then b else a

end Role

/-- An event is sent to who has or had a role on its miniverse. -/
def receives (before_user_role after_user_role : Role) : Bool := decide (Role.user ≤ before_user_role.max after_user_role)

/-! ## The lists of a miniverse -/

/-- The lists of a miniverse that a client is sent first. -/
inductive StatusList where
  | players
  | seen_players
  | operators
  | banned_players
deriving DecidableEq

namespace StatusList

/-- The method under which a list is stored. -/
def method_name : StatusList → String
  | players => "minecraft:players"
  | seen_players => "miniverse:seen_players"
  | operators => "minecraft:operators"
  | banned_players => "minecraft:bans"

/-- The dictionary of the seen players is set without an event. -/
def publish : StatusList → Bool
  | seen_players => false
  | _ => true

end StatusList

variable {V κ : Type} (msmp : MSMPJson V) (source : Source V) (miniverse_id : String)

/-- The read of a list by `send_init_data`. Behind the router there are no operators and no bans. -/
def read_list (webSocket : Bool) : StatusList → Async (StatusWorld V) (Except PyError V)
  | .players => BaseMiniverseService.get_msmp_player_list msmp source miniverse_id false
  | .seen_players => BaseMiniverseService.get_msmp_seen_player_list msmp miniverse_id
  | .operators =>
      if webSocket then WebSocketMiniverseService.get_msmp_operator_list msmp source miniverse_id false
      else .done (.ok msmp.empty)
  | .banned_players =>
      if webSocket then WebSocketMiniverseService.get_msmp_banned_player_list msmp source miniverse_id false
      else .done (.ok msmp.empty)

/-! ## A connection -/

inductive Message (V : Type) where
  | sync (lists : StatusList → V)
  | event (event : ControlEvent V)

/-- A client that connects while calls set the lists of a miniverse. From the subscription on, `handled` says how many of
the published events the client has got or was connected too late for. -/
structure Connection (V κ : Type) where
  status : StatusWorld V
  call : κ → Async (StatusWorld V) (Except PyError Unit)
  read : StatusList → Async (StatusWorld V) (Except PyError V)
  handled : Option Nat
  sent : List (Message V)

/-- What happens next. -/
inductive ConnectionTurn (κ : Type) where
  | call (k : κ)
  | read (list : StatusList)
  | send_init_data
  | start_subscription
  | handle

/-- The value of a program at its end, where it did not raise. -/
def returned {α : Type} : Async (StatusWorld V) (Except PyError α) → Option α
  | .done (.ok a) => some a
  | _ => none

namespace Connection

/-- The lists, once all of them are read. -/
def lists (c : Connection V κ) : Option (StatusList → V) := do
  let players ← returned (c.read .players)
  let seen_players ← returned (c.read .seen_players)
  let operators ← returned (c.read .operators)
  let banned_players ← returned (c.read .banned_players)
  return fun
    | .players => players
    | .seen_players => seen_players
    | .operators => operators
    | .banned_players => banned_players

/-- The next event, sent to a user with the role. -/
def handle (role : Role) (c : Connection V κ) : Connection V κ :=
  match c.handled with
  | none => c
  | some n =>
      match c.status.published[n]? with
      | none => c
      | some event => { c with
          handled := some (n + 1)
          sent := if receives role role then c.sent ++ [.event event] else c.sent }

variable [DecidableEq κ]

def turn (role : Role) : ConnectionTurn κ → Connection V κ → Connection V κ
  | .call k, c => { c with
      status := ((c.call k).once c.status).1
      call := Function.update c.call k ((c.call k).once c.status).2 }
  | .read list, c => { c with
      status := ((c.read list).once c.status).1
      read := Function.update c.read list ((c.read list).once c.status).2 }
  | .send_init_data, c =>
      match c.sent, c.lists with
      | [], some lists => { c with sent := [.sync lists] }
      | _, _ => c
  | .start_subscription, c =>
      match c.sent, c.handled with
      | _ :: _, none => { c with handled := some c.status.published.length }
      | _, _ => c
  | .handle, c => c.handle role

/-- A turn, as a request that is handled. -/
def take (role : Role) (t : ConnectionTurn κ) : Eff (Connection V κ) Empty Unit := Eff.modify (turn role t)

/-- Before the first read. Each call sets one of the lists. -/
def start (webSocket : Bool) (list : κ → StatusList) (value : κ → Option V) (w : StatusWorld V) : Connection V κ where
  status := w
  call k := ServerStatusStore.set msmp.toJson miniverse_id (list k).method_name (value k) (list k).publish
  read := read_list msmp source miniverse_id webSocket
  handled := none
  sent := []

end Connection

/-- What a message says about a list. -/
def Message.valueOf (list : StatusList) : Message V → Option (Option V)
  | .sync lists => some (some (lists list))
  | .event e => if e.type = list.method_name then some e.data else none

/-- The value of the list that was sent last. -/
def lastSent (list : StatusList) (sent : List (Message V)) : Option (Option V) :=
  (sent.filterMap (Message.valueOf list)).getLast?

end Backend
