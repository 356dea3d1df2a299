import Responder.Json.Writer
import Responder.Remote.Body
import Responder.Remote.Decoder
import Responder.Url

/-!
# The client of a chat server

A client sends requests over a network and decodes what comes back. Its waits for the
head of a reply, for the body of an answer and for each piece of a stream have a time
limit. Requests that cannot be made, faults of the network, timeouts and faults of the
server are tried again, three attempts in all, with growing pauses between them.
-/

namespace Responder.Remote

inductive BodyEnd where
  | complete
  | stalled
  | aborted (message : String)
  deriving DecidableEq, Repr

/-- What a server sends back; the body arrives in pieces. -/
structure Reply where
  status : Nat := 200
  pieces : List (List UInt8) := []
  ending : BodyEnd := .complete
  deriving DecidableEq, Repr

namespace Reply

def isSuccess (r : Reply) : Bool := 200 ≤ r.status && r.status < 300

/-- The whole body, waited for without a limit. -/
def body (r : Reply) : Wait (Except String (List UInt8)) :=
  match r.ending with
  | .complete => .now (.ok r.pieces.flatten)
  | .stalled => .forever
  | .aborted message => .now (.error message)

end Reply

structure Sent where
  method : String
  address : String
  authorization : Option String
  body : String
  deriving DecidableEq, Repr

/-- What meets one request after the other; the last one meets all that follow. -/
inductive Network where
  /-- No request gets through. -/
  | unreachable (message : String)
  /-- A request waits for the head of its reply. -/
  | replies (next : List (Wait Reply))
  deriving DecidableEq, Repr

namespace Network

def send : Network → Wait (Except String Reply) × Network
  | unreachable message => (.now (.error message), unreachable message)
  | replies [] => (.forever, replies [])
  | replies [last] => (last.map .ok, replies [last])
  | replies (first :: rest) => (first.map .ok, replies rest)

end Network

structure Client where
  baseUrl : String
  apiKey : Option String := none
  timeout : Duration
  network : Network
  /-- All requests so far. -/
  sent : List Sent := []
  deriving DecidableEq, Repr

namespace Client

def maxAttempts : Nat := 3

def version : String := "/v1"

/-- The base of all addresses: it ends in the version, without a slash after it. -/
def base (c : Client) : String :=
  let bare := String.ofList (c.baseUrl.toList.reverse.dropWhile (· == '/')).reverse
  if version.toList.isSuffixOf bare.toList then bare else bare ++ version

/-- A blank key is none. -/
def key (c : Client) : Option String := c.apiKey.filter fun k => !Text.isBlankText k.toList

/-- The value of a header has no control character but the tab. -/
def isHeaderValue (text : String) : Bool :=
  text.toList.all fun c => c = '\t' || (' ' ≤ c && c ≠ '\x7f')

/-- The request to a path, or why it cannot be made; a fault of its address, which is all
ASCII, comes first. -/
def request (c : Client) (method path body : String) : Except String Sent :=
  let address := c.base ++ path
  let authorization := c.key.map ("Bearer " ++ ·)
  match Url.ofText .ascii address with
  | .error fault => .error fault.message
  | .ok _ =>
    if authorization.all isHeaderValue then .ok ⟨method, address, authorization, body⟩
    else .error "failed to parse header value"

def send (c : Client) (method path body : String) :
    Client × Wait (Except BackendFault Reply) :=
  match c.request method path body with
  | .error reason => (c, .now (.error (.request ("failed to build request: " ++ reason))))
  | .ok sent =>
    let (reply, network) := c.network.send
    ({ c with network, sent := c.sent ++ [sent] },
      (reply.map fun outcome => outcome.mapError .request).within c.timeout
        (.error (.timeout c.timeout)))

/-- The fault of a reply that is no success; its body is waited for without a limit. -/
def statusFault (r : Reply) : Wait BackendFault :=
  r.body.map fun body => .status r.status (Text.decodeLossy (body.toOption.getD []))

def succeeded : Except BackendFault Reply → Wait (Except BackendFault Reply)
  | .error fault => .now (.error fault)
  | .ok reply => if reply.isSuccess then .now (.ok reply) else (statusFault reply).map .error

def post (c : Client) (body : String) : Client × Wait (Except BackendFault Reply) :=
  let (c, reply) := c.send "POST" "/chat/completions" body
  (c, reply.bind succeeded)

/-- The pause before an attempt that so many others may follow: it grows by half a second
from one attempt to the next. -/
def pause (again : Nat) : Duration := ⟨500 * (maxAttempts - 1 - again)⟩

/-- Asks for a completion, again after a fault that may pass. -/
def attempt (c : Client) (body : String) : Nat → Client × Wait (Except BackendFault Reply)
  | 0 => c.post body
  | again + 1 =>
    match c.post body with
    | (c, .done after (.error fault)) =>
      if fault.isRetryable then
        let (c, reply) := c.attempt body again
        (c, reply.delayed (after + pause again))
      else (c, .done after (.error fault))
    | outcome => outcome

def jsonOf (bytes : List UInt8) : Except BackendFault Json :=
  match Text.decodeUtf8? bytes with
  | some text => (Json.parse text).mapError .undecodable
  | none => .error (.undecodable "invalid byte sequence")

/-- The decoded body of an answer. -/
def answerOf (fresh : Nat → String) (timeout : Duration) (r : Reply) : Answer :=
  let body := (r.body.map (·.mapError .request)).within timeout (.error (.timeout timeout))
  body.map fun bytes => do completionOf fresh (← jsonOf (← bytes))

def complete (fresh : Nat → String) (c : Client) (r : ChatRequest) : Client × Answer :=
  let (c, reply) := c.attempt (bodyJson r false).text (maxAttempts - 1)
  (c, reply.bind fun
    | .error fault => .now (.error fault)
    | .ok reply => answerOf fresh c.timeout reply)

/-- What a body yields piece by piece, up to the mark of the end or a fault. -/
def streamOf (fresh : Nat → String) (timeout : Duration) (ending : BodyEnd) (d : Decoder) :
    List (List UInt8) → List (Wait (Except BackendFault Chunk))
  | [] =>
    match ending with
    | .complete => (d.finish fresh).2.map fun chunk => .now (.ok chunk)
    | .stalled => [.done timeout (.error (.timeout timeout))]
    | .aborted message => [.now (.error (.request message))]
  | piece :: rest =>
    match d.feed fresh piece with
    | (_, .error fault) => [.now (.error (.undecodable fault.message))]
    | (d, .ok chunks) =>
      chunks.map (fun chunk => .now (.ok chunk)) ++
        if d.assembly.done then [] else streamOf fresh timeout ending d rest

def stream (fresh : Nat → String) (c : Client) (r : ChatRequest) : Client × Opening :=
  let (c, reply) := c.attempt (bodyJson r true).text (maxAttempts - 1)
  (c, reply.map fun reply => reply.map fun reply =>
    ⟨streamOf fresh c.timeout reply.ending {} reply.pieces⟩)

def modelIds (answer : Json) : List String :=
  ((answer.field "data").array?.getD []).filterMap fun model => (model.field "id").string?

/-- The models in a reply, whose body is waited for without a limit. -/
def modelsOf (r : Reply) : Wait (Except BackendFault (List String)) :=
  r.body.map fun body => do
    let bytes ← body.mapError .request
    if !r.isSuccess then .error (.status r.status (Text.decodeLossy bytes))
    else return modelIds (← jsonOf bytes)

def models (c : Client) : Client × Wait (Except BackendFault (List String)) :=
  let (c, reply) := c.send "GET" "/models" ""
  (c, reply.bind fun
    | .error fault => .now (.error fault)
    | .ok reply => modelsOf reply)

end Client

end Responder.Remote
