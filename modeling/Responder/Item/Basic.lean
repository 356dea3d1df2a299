import Responder.Json.Basic
import Responder.Status

/-!
# Items

The input of a turn is a list of input items, its output a list of output items. Both
are written as JSON objects with a `type` member.
-/

namespace Responder

inductive Role where
  | user | assistant | system | developer
  deriving DecidableEq, Repr

namespace Role

def text : Role → String
  | user => "user"
  | assistant => "assistant"
  | system => "system"
  | developer => "developer"

def all : List Role := [user, assistant, system, developer]

def ofText? (text : String) : Option Role := all.find? (·.text = text)

end Role

inductive InputPart where
  | inputText (text : String)
  | outputText (text : String)
  | image (url : String) (detail : Option String)
  deriving DecidableEq, Repr

namespace InputPart

def toJson : InputPart → Json
  | inputText text => .ofMembers [("type", .string "input_text"), ("text", .string text)]
  | outputText text => .ofMembers [("type", .string "output_text"), ("text", .string text)]
  | image url detail =>
    .ofMembers ([("type", .string "input_image"), ("image_url", .string url)] ++
      (detail.map fun d => ("detail", Json.string d)).toList)

end InputPart

inductive InputItem where
  | message (id : String) (role : Role) (content : List InputPart)
  | functionCall (id callId name arguments : String)
  | functionCallOutput (id callId output : String)
  deriving DecidableEq, Repr

namespace InputItem

def id : InputItem → String
  | message id .. | functionCall id .. | functionCallOutput id .. => id

def toJson : InputItem → Json
  | message id role content => .ofMembers
    [("type", .string "message"), ("id", .string id), ("role", .string role.text),
      ("content", .array (content.map InputPart.toJson))]
  | functionCall id callId name arguments => .ofMembers
    [("type", .string "function_call"), ("id", .string id), ("call_id", .string callId),
      ("name", .string name), ("arguments", .string arguments)]
  | functionCallOutput id callId output => .ofMembers
    [("type", .string "function_call_output"), ("id", .string id),
      ("call_id", .string callId), ("output", .string output)]

end InputItem

inductive OutputPart where
  | outputText (text : String)
  | refusal (text : String)
  deriving DecidableEq, Repr

namespace OutputPart

def toJson : OutputPart → Json
  | outputText text => .ofMembers
    [("type", .string "output_text"), ("text", .string text), ("annotations", .array []),
      ("logprobs", .array [])]
  | refusal text => .ofMembers [("type", .string "refusal"), ("refusal", .string text)]

def text? : OutputPart → Option String
  | outputText text => some text
  | refusal _ => none

end OutputPart

/-- An item of the output of a turn; messages are from the assistant. -/
inductive OutputItem where
  | message (id : String) (status : ItemStatus) (content : List OutputPart)
  | functionCall (id : String) (status : ItemStatus) (callId name arguments : String)
  deriving DecidableEq, Repr

namespace OutputItem

def id : OutputItem → String
  | message id .. | functionCall id .. => id

def status : OutputItem → ItemStatus
  | message _ status _ | functionCall _ status .. => status

def isMessage : OutputItem → Bool
  | message .. => true
  | functionCall .. => false

/-- The text parts of a message, one after the other. -/
def text : OutputItem → String
  | message _ _ content => String.join (content.filterMap OutputPart.text?)
  | functionCall .. => ""

def withStatus (status : ItemStatus) : OutputItem → OutputItem
  | message id _ content => message id status content
  | functionCall id _ callId name arguments => functionCall id status callId name arguments

def toJson : OutputItem → Json
  | message id status content => .ofMembers
    [("type", .string "message"), ("id", .string id), ("status", .string status.text),
      ("role", .string Role.assistant.text), ("content", .array (content.map OutputPart.toJson))]
  | functionCall id status callId name arguments => .ofMembers
    [("type", .string "function_call"), ("id", .string id), ("status", .string status.text),
      ("call_id", .string callId), ("name", .string name), ("arguments", .string arguments)]

end OutputItem

end Responder
