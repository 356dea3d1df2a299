import Responder.Chat

/-!
# Bodies of chat requests

The JSON object that asks for a completion. Both sampling parameters are written as the
doubles that are equal to the singles.
-/

namespace Responder.Remote

def partJson : ChatPart → Json
  | .text text => .ofMembers [("type", .string "text"), ("text", .string text)]
  | .image url detail => .ofMembers
    [("type", .string "image_url"), ("image_url", .ofMembers ([("url", .string url)] ++
      (detail.map fun d => ("detail", Json.string d)).toList))]

def callJson (call : ToolCall) : Json :=
  .ofMembers
    [("id", .string call.id), ("type", .string "function"),
      ("function", .ofMembers
        [("name", .string call.name), ("arguments", .string call.arguments)])]

/-- Content with an image is a list of parts, any other is one text; calls alone have
no content. -/
def contentJson (m : ChatMessage) : Json :=
  if m.hasImage then .array (m.content.map partJson)
  else if m.content.isEmpty && !m.calls.isEmpty then .null
  else .string m.text

def messageJson (m : ChatMessage) : Json :=
  .ofMembers ([("role", .string m.role.text), ("content", contentJson m)] ++
    (if m.calls.isEmpty then [] else [("tool_calls", .array (m.calls.map callJson))]) ++
    (if m.role = .tool then (m.callId.map fun id => ("tool_call_id", Json.string id)).toList
      else []))

def toolJson (t : Tool) : Json :=
  .ofMembers
    [("type", .string "function"), ("function", .ofMembers ([("name", .string t.name)] ++
      (t.description.map fun d => ("description", Json.string d)).toList ++
      (t.parameters.map fun p => ("parameters", p)).toList ++
      (if t.strict then [("strict", .bool true)] else [])))]

def toolChoiceJson : ToolChoice → Json
  | .mode name => .string name
  | .function _ name => .ofMembers
    [("type", .string "function"), ("function", .ofMembers [("name", .string name)])]

def schemaJson (s : OutputSchema) : Json :=
  .ofMembers
    [("type", .string "json_schema"), ("json_schema", .ofMembers
      [("name", .string s.name), ("schema", s.schema), ("strict", .bool s.strict)])]

/-- A single as the double of the same value. -/
def doubleOfSingle (b : Decimal.Binary) : Json :=
  ((Decimal.Format.double.ofBinary b).map fun d => Json.number (.float d)).getD .null

def bodyJson (r : ChatRequest) (stream : Bool) : Json :=
  .ofMembers (
    [("model", .string r.model), ("messages", .array (r.messages.map messageJson)),
      ("temperature", doubleOfSingle r.temperature), ("top_p", doubleOfSingle r.topP)] ++
    (r.maxOutputTokens.map fun n => ("max_tokens", Json.ofNat n)).toList ++
    (if r.tools.isEmpty then [] else
      [("tools", .array (r.tools.map toolJson)), ("tool_choice", toolChoiceJson r.toolChoice),
        ("parallel_tool_calls", .bool r.parallelToolCalls)]) ++
    (r.outputSchema.map fun s => ("response_format", schemaJson s)).toList ++
    (if stream then
      [("stream", .bool true), ("stream_options", .ofMembers [("include_usage", .bool true)])]
      else []))

end Responder.Remote
