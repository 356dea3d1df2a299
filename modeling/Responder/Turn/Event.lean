import Responder.Response

/-!
# Events of a turn

A streamed turn tells what happens to its response, one event after the other. Each
event has its place in the stream as a sequence number.
-/

namespace Responder

/-- Something that happens to the response of a turn. The content of an item is at its
index `0`. -/
inductive Event where
  | created (response : Response)
  | inProgress (response : Response)
  | itemAdded (index : Nat) (item : OutputItem)
  | partAdded (itemId : String) (index : Nat) (part : OutputPart)
  | textDelta (itemId : String) (index : Nat) (delta : String)
  | textDone (itemId : String) (index : Nat) (text : String)
  | partDone (itemId : String) (index : Nat) (part : OutputPart)
  | argumentsDone (itemId : String) (index : Nat) (arguments : String)
  | itemDone (index : Nat) (item : OutputItem)
  | completed (response : Response)
  | failed (response : Response)
  | incomplete (response : Response)
  deriving DecidableEq, Repr

namespace Event

def type : Event → String
  | created _ => "response.created"
  | inProgress _ => "response.in_progress"
  | itemAdded .. => "response.output_item.added"
  | partAdded .. => "response.content_part.added"
  | textDelta .. => "response.output_text.delta"
  | textDone .. => "response.output_text.done"
  | partDone .. => "response.content_part.done"
  | argumentsDone .. => "response.function_call_arguments.done"
  | itemDone .. => "response.output_item.done"
  | completed _ => "response.completed"
  | failed _ => "response.failed"
  | incomplete _ => "response.incomplete"

def isTerminal : Event → Bool
  | completed _ | failed _ | incomplete _ => true
  | _ => false

def terminal (r : Response) : Event :=
  match r.status with
  | .completed => completed r
  | .incomplete => incomplete r
  | .failed | .inProgress => failed r

def response? : Event → Option Response
  | created r | inProgress r | completed r | failed r | incomplete r => some r
  | _ => none

/-- The members of an event besides its type. -/
def members : Event → List (String × Json)
  | created r | inProgress r | completed r | failed r | incomplete r => [("response", r.toJson)]
  | itemAdded index item | itemDone index item =>
    [("output_index", .ofNat index), ("item", item.toJson)]
  | partAdded itemId index part | partDone itemId index part =>
    content itemId index ("part", part.toJson)
  | textDelta itemId index delta => content itemId index ("delta", .string delta)
  | textDone itemId index text => content itemId index ("text", .string text)
  | argumentsDone itemId index arguments =>
    [("item_id", .string itemId), ("output_index", .ofNat index),
      ("arguments", .string arguments)]
where
  content (itemId : String) (index : Nat) (member : String × Json) : List (String × Json) :=
    [("item_id", .string itemId), ("output_index", .ofNat index), ("content_index", .ofNat 0),
      member]

end Event

/-- An event with its place in the stream. -/
structure Sequenced where
  event : Event
  number : Nat
  deriving DecidableEq, Repr

namespace Sequenced

def toJson (s : Sequenced) : Json :=
  .ofMembers ([("type", .string s.event.type), ("sequence_number", .ofNat s.number)] ++
    s.event.members)

end Sequenced

end Responder
