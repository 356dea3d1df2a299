import Responder.Text

/-!
# Routes

What a path leads to, and by which methods it is used. The parts of a path are told
apart before they are decoded, so an encoded slash belongs to a part.
-/

namespace Responder.Http

inductive Method where
  | get | head | post | options | other
  deriving DecidableEq, Repr

namespace Method

/-- The names of methods are case-sensitive. -/
def ofText : String → Method
  | "GET" => get
  | "HEAD" => head
  | "POST" => post
  | "OPTIONS" => options
  | _ => other

end Method

/-- What a path leads to; ids are still encoded. -/
inductive Route where
  | health
  | responses
  | response (id : String)
  | inputItems (id : String)
  | cancel (id : String)
  | models
  deriving DecidableEq, Repr

namespace Route

def ofParts? : List String → Option Route
  | ["", "healthz"] => some health
  | ["", "v1", "models"] => some models
  | ["", "v1", "responses"] => some responses
  | ["", "v1", "responses", id] => if id = "" then none else some (response id)
  | ["", "v1", "responses", id, "input_items"] => some (inputItems id)
  | ["", "v1", "responses", id, "cancel"] => some (cancel id)
  | _ => none

def ofPath? (path : List Char) : Option Route :=
  ofParts? ((Text.pieces '/' path).map String.ofList)

/-- Whether a route is used by a method. What can be got has a head. -/
def allows : Route → Method → Bool
  | health, m | models, m | response _, m | inputItems _, m => m = .get || m = .head
  | responses, m => m = .get || m = .head || m = .post
  | cancel _, m => m = .post

end Route

end Responder.Http
