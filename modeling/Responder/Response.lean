import Responder.Chat
import Responder.Failure

/-!
# Responses

A response is one turn of a conversation: what was asked, and what came of it.
-/

namespace Responder

open Decimal (Binary)

inductive TextFormat where
  | text
  | jsonSchema (name : String) (schema : Json) (description : Option String)
      (strict : Option Bool)
  deriving DecidableEq, Repr

namespace TextFormat

def toJson : TextFormat → Json
  | text => .ofMembers [("type", .string "text")]
  | jsonSchema name schema description strict => .ofMembers
    ([("type", .string "json_schema"), ("name", .string name), ("schema", schema)] ++
      (description.map fun d => ("description", Json.string d)).toList ++
      (strict.map fun b => ("strict", Json.bool b)).toList)

end TextFormat

/-- What happens to a conversation that does not fit the context window. -/
inductive Truncation where
  | auto | disabled
  deriving DecidableEq, Repr

namespace Truncation

def text : Truncation → String
  | auto => "auto"
  | disabled => "disabled"

end Truncation

inductive IncompleteReason where
  | cancelled | maxOutputTokens | contentFilter
  deriving DecidableEq, Repr

namespace IncompleteReason

def text : IncompleteReason → String
  | cancelled => "cancelled"
  | maxOutputTokens => "max_output_tokens"
  | contentFilter => "content_filter"

end IncompleteReason

/-- One turn of a conversation. Times are seconds. -/
structure Response where
  id : String
  createdAt : Int := 0
  completedAt : Option Int := none
  status : Status := .inProgress
  error : Option ErrorDetail := none
  incomplete : Option IncompleteReason := none
  model : String
  previous : Option String := none
  instructions : Option String := none
  input : List InputItem := []
  output : List OutputItem := []
  outputText : String := ""
  outputParsed : Option Json := none
  tools : List Tool := []
  toolChoice : ToolChoice := .auto
  format : TextFormat := .text
  temperature : Binary
  topP : Binary
  maxOutputTokens : Option Nat := none
  parallelToolCalls : Bool := true
  store : Bool := true
  usage : Option TokenUsage := none
  metadata : List (String × Json) := []
  truncation : Truncation := .disabled
  deriving DecidableEq, Repr

/-- The single that stands for one. -/
def singleOne : Binary := ⟨false, Nat.pow 2 23, -23⟩

namespace TokenUsage

/-- The total is a count of tokens too, so it comes back to zero at the limit. -/
def toJson (u : TokenUsage) : Json :=
  .ofMembers
    [("input_tokens", .ofNat u.prompt),
      ("input_tokens_details", .ofMembers [("cached_tokens", .ofNat 0)]),
      ("output_tokens", .ofNat u.completion),
      ("output_tokens_details", .ofMembers [("reasoning_tokens", .ofNat 0)]),
      ("total_tokens", .ofNat ((u.prompt + u.completion) % countLimit))]

end TokenUsage

/-- The shortest decimal of a single, as a number. -/
def jsonOfSingle (b : Binary) : Json :=
  let d := Decimal.shortest .single b
  match Decimal.Format.double.round b.negative (d.digits * Nat.pow 10 d.power.toNat)
      (Nat.pow 10 (-d.power).toNat) with
  | some double => .number (.float double)
  | none => .null

namespace Response

def textOf (output : List OutputItem) : String := String.join (output.map OutputItem.text)

/-- Moves to a status, if that is allowed. -/
def transition (r : Response) (next : Status) : Except Failure Response :=
  if r.status.allows next then .ok { r with status := next }
  else .error (.transition r.status next)

def toJson (r : Response) : Json :=
  .ofMembers ([
    ("id", .string r.id),
    ("object", .string "response"),
    ("created_at", .ofInt r.createdAt),
    ("completed_at", r.completedAt.elim .null .ofInt),
    ("status", .string r.status.text),
    ("error", r.error.elim .null ErrorDetail.toJson),
    ("incomplete_details",
      r.incomplete.elim .null fun reason => .ofMembers [("reason", .string reason.text)]),
    ("model", .string r.model),
    ("previous_response_id", .ofStringOption r.previous),
    ("instructions", .ofStringOption r.instructions),
    ("output", .array (r.output.map OutputItem.toJson)),
    ("output_text", .string r.outputText),
    ("tools", .array (r.tools.map Tool.toJson)),
    ("tool_choice", r.toolChoice.toJson),
    ("text", .ofMembers [("format", r.format.toJson)]),
    ("temperature", jsonOfSingle r.temperature),
    ("top_p", jsonOfSingle r.topP),
    ("max_output_tokens", r.maxOutputTokens.elim .null .ofNat),
    ("parallel_tool_calls", .bool r.parallelToolCalls),
    ("store", .bool r.store),
    ("usage", r.usage.elim .null TokenUsage.toJson),
    ("metadata", .object r.metadata),
    ("truncation", .string r.truncation.text)] ++
    (r.outputParsed.map fun parsed => ("output_parsed", parsed)).toList)

end Response

end Responder
