import Responder.Backend.Basic
import Responder.Failure
import Responder.Store

/-!
# Refusals

A failure is answered with a status code and an object that tells what is wrong. What
goes wrong inside the server is not told.
-/

namespace Responder.Http

/-- A failure as it is answered. -/
inductive Refusal where
  | badRequest (param : Option String) (message : String)
  | notFound (message : String)
  | unavailable (message : String)
  | internal
  deriving DecidableEq, Repr

namespace Refusal

def status : Refusal → Nat
  | badRequest .. => 400
  | notFound _ => 404
  | unavailable _ => 503
  | internal => 500

def message : Refusal → String
  | badRequest _ message | notFound message | unavailable message => message
  | internal => "Internal server error"

def type : Refusal → String
  | badRequest .. | notFound _ => "invalid_request_error"
  | unavailable _ | internal => "server_error"

def code : Refusal → Option String
  | notFound _ => some "not_found"
  | unavailable _ => some "backend_unavailable"
  | badRequest .. | internal => none

def param : Refusal → Option String
  | badRequest param _ => param
  | notFound _ | unavailable _ | internal => none

def toJson (r : Refusal) : Json :=
  let member (name : String) (text : Option String) :=
    (text.map fun t => (name, Json.string t)).toList
  .ofMembers [("error", .ofMembers
    ([("type", .string r.type), ("message", .string r.message)] ++ member "code" r.code ++
      member "param" r.param))]

def ofFailure (f : Failure) : Refusal :=
  match f with
  | .validation param message => badRequest param message
  | .previousNotFound _ | .notFound _ => notFound f.message
  | .backend _ => unavailable f.message
  | .outputNotJson _ | .outputMismatch _ | .toolContract _ | .transition .. | .store _ => internal

def ofBackendFault (f : BackendFault) : Refusal := unavailable f.message

def ofStoreFault (f : StoreFault) : Refusal :=
  match f with
  | .notFound _ => notFound f.message
  | .conflict _ | .notTerminal _ | .closed => internal

end Refusal

end Responder.Http
