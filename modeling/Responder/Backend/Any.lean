import Responder.Backend.Mock
import Responder.Remote.Client

/-!
# Backends

The backends that a server can have. Each request may change the backend: a script goes
on, a client uses its network.
-/

namespace Responder

/-- What answers the requests of a server. -/
inductive Backend where
  | mock (mock : Mock)
  | script (script : Script)
  | remote (client : Remote.Client)

namespace Backend

def name : Backend → String
  | mock _ => "mock"
  | script _ => "script"
  | remote _ => "openai"

/-- The id of a call that came without one. -/
def callId (lane : Lane) (index : Nat) : String := lane.id .call (.call index)

def complete (lane : Lane) (request : ChatRequest) : Backend → Backend × Answer
  | mock m => (mock m, m.complete (callId lane 0) request)
  | script s =>
    let (prepared, s) := s.next
    (script s, prepared.answer)
  | remote c =>
    let (c, answer) := c.complete (callId lane) request
    (remote c, answer)

def stream (lane : Lane) (request : ChatRequest) : Backend → Backend × Opening
  | mock m => (mock m, m.stream (callId lane 0) request)
  | script s =>
    let (prepared, s) := s.next
    (script s, prepared.opening)
  | remote c =>
    let (c, opening) := c.stream (callId lane) request
    (remote c, opening)

def models : Backend → Backend × Wait (Except BackendFault (List String))
  | mock m => (mock m, .now (.ok [Mock.modelName]))
  | script s => (script s, .now s.models)
  | remote c =>
    let (c, models) := c.models
    (remote c, models)

end Backend

end Responder
