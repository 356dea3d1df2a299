import Responder.Http.Query
import Responder.Http.Refusal
import Responder.Http.Route
import Responder.Server.Clock
import Responder.Url

/-!
# Exchanges

What a server does with a request over HTTP, and what it answers.
-/

namespace Responder.Http

/-- A request as it arrives. Its target is a path with a query, or a whole address. -/
structure Demand where
  method : Method
  target : String
  body : String := ""
  deriving DecidableEq, Repr

inductive Reply where
  | empty (status : Nat)
  /-- A request that cannot be read is refused in plain words. -/
  | text (status : Nat) (words : String)
  | json (status : Nat) (body : Json)
  /-- The response of a turn, once it is finished. -/
  | finished (id : String)
  /-- The events of a turn, as they come. -/
  | events (id : String)
  /-- There is no answer. -/
  | never
  deriving DecidableEq, Repr

namespace Reply

def ok (body : Json) : Reply := json 200 body

def refused (r : Refusal) : Reply := json r.status r.toJson

def ofFailure (f : Failure) : Reply := refused (.ofFailure f)

def ofResult {α : Type} (write : α → Json) : Except Failure α → Reply
  | .ok value => ok (write value)
  | .error failure => ofFailure failure

def badTarget : Reply := text 400 "the target cannot be read"

def badPath : Reply := text 400 "the path is not valid UTF-8"

def badQuery : Reply := text 400 "the query cannot be read"

def tooLong : Reply := text 413 "the body is too long"

end Reply

def maxBodySize : Nat := 2 * 1024 * 1024

/-- Reads a part of a path, or refuses the request. -/
def withId (part : String) (next : String → Reply) : Reply :=
  ((Text.ofPathPart? part).map next).getD .badPath

def withQuery (query : List Char) (next : ListQuery → Reply) : Reply :=
  ((ListQuery.ofQuery? query).map next).getD .badQuery

def pageRequest (q : ListQuery) : Except Failure PageRequest :=
  PageRequest.ofRequest q.limit q.order q.after

def listResponses (s : Server) (q : ListQuery) : Reply :=
  match pageRequest q with
  | .error failure => .ofFailure failure
  | .ok request =>
    match s.store.list with
    | .error fault => .refused (.ofStoreFault fault)
    | .ok entries =>
      .ofResult (Page.toJson Response.id Response.toJson) (request.page Response.id entries)

def listInputItems (s : Server) (id : String) (q : ListQuery) : Reply :=
  .ofResult (Page.toJson InputItem.id InputItem.toJson) do
    let request ← pageRequest q
    let response ← s.get id
    request.page InputItem.id response.input

def modelsJson (owner : String) (now : Int) (ids : List String) : Json :=
  .ofMembers
    [("object", .string "list"), ("data", .array (ids.map fun id => .ofMembers
      [("id", .string id), ("object", .string "model"), ("created", .ofInt now),
        ("owned_by", .string owner)]))]

def listModels (s : Server) : Server × Reply :=
  let (backend, models) := s.backend.models
  let s := { s with backend }
  match models with
  | .forever => (s, .never)
  | .done after outcome => (s.pass after, match outcome with
    | .ok ids => .ok (modelsJson s.backend.name s.now ids)
    | .error fault => .refused (.ofBackendFault fault))

def createResponse (s : Server) (body : String) : Server × Reply :=
  if maxBodySize < body.utf8ByteSize then (s, .tooLong)
  else match Request.ofText body with
    | .error message =>
      (s, .refused (.badRequest none ("invalid request body: " ++ message)))
    | .ok request =>
      match s.create request request.stream with
      | (s, .error failure) => (s, .ofFailure failure)
      | (s, .ok id) => (s, if request.stream then .events id else .finished id)

def cancelResponse (s : Server) (part : String) : Server × Reply :=
  match Text.ofPathPart? part with
  | none => (s, .badPath)
  | some id =>
    let (s, outcome) := s.cancel id
    (s, .ofResult Response.toJson outcome)

def follow (s : Server) (d : Demand) (query : List Char) : Route → Server × Reply
  | .health => (s, .ok (.ofMembers [("status", .string "ok")]))
  | .models => listModels s
  | .responses =>
    if d.method = .post then createResponse s d.body
    else (s, withQuery query (listResponses s))
  | .response part => (s, withId part fun id => .ofResult Response.toJson (s.get id))
  | .inputItems part =>
    (s, withId part fun id => withQuery query (listInputItems s id))
  | .cancel part => cancelResponse s part

/-- An answer without its body. -/
def Reply.head : Reply → Reply
  | .text status _ | .json status _ => .empty status
  | reply => reply

def exchange (s : Server) (d : Demand) : Server × Reply :=
  match Url.ofText .unicode d.target with
  | .error _ => (s, .badTarget)
  | .ok target =>
    if d.method = .options then (s, .empty 200)
    else match Route.ofPath? target.path with
      | none => (s, .empty 404)
      | some route =>
        if !route.allows d.method then (s, .empty 405)
        else
          let (s, reply) := follow s d target.query route
          (s, if d.method = .head then reply.head else reply)

end Responder.Http
