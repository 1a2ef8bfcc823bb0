import Miniverse.Isolation.Service

/-!
# All that arrives

The requests of the controllers of `main.py` with the tokens that they carry, the turns of the open sessions, and the webhooks of
the router, which carry no token, over one state.
-/

namespace Backend

open Lib

variable {α : Type} {env : Env α} (sur : Surroundings env.toPlatform)

inductive Arrival where
  | users (token : Token) (route : UsersRoute)
  | miniverses (token : Token) (route : MiniversesRoute)
  | files (token : Token) (route : FilesRoute)
  | open_updates (token : Token)
  | open_logs (token : Token) (miniverse_id : String) (chunks : Nat) (inputs : List String)
  | next_event (session : Nat)
  | receive_text (session : Nat)
  | receive_webhook (data : WebhookPayload)

namespace Arrival

/-- `jwtAuth` lets the webhooks through, and a websocket shows its token when it is opened. -/
def token : Arrival → Option Token
  | users token _ => some token
  | miniverses token _ => some token
  | files token _ => some token
  | open_updates token => some token
  | open_logs token _ _ _ => some token
  | next_event _ => none
  | receive_text _ => none
  | receive_webhook _ => none

end Arrival

/-- The handler of the token, and then that of the request. -/
def authenticated {β : Type} (env : Env α) (token : Token) (handler : User → Eff (Live α) PyError β) : Eff (Live α) PyError β := do
  let current_user ← onWorld (retrieve_user_handler env token)
  handler current_user

namespace Arrival

def handle : Arrival → Eff (Live α) PyError (ServiceReply α)
  | users token route => authenticated env token fun current_user => onWorld do
      route.handle env current_user
      return .miniverses .empty
  | miniverses token route => authenticated env token (ServiceRequest.handle sur · (.miniverses route))
  | files token route => authenticated env token (ServiceRequest.handle sur · (.files route))
  | open_updates token => authenticated env token (ServiceRequest.handle sur · .open_updates)
  | open_logs token miniverse_id chunks inputs =>
      authenticated env token (ServiceRequest.handle sur · (.open_logs miniverse_id chunks inputs))
  | next_event session => do
      Eff.modify (Live.turn env (.handle session))
      return .events (← Eff.read fun l => (l.sessions[session]?.map Session.sent).getD [])
  | receive_text session => do
      Eff.modify (Live.turn env (.disconnect session))
      return .closed
  | receive_webhook data => onWorld do
      handle_mc_router_webhook env data
      return .miniverses .empty

end Arrival

end Backend
