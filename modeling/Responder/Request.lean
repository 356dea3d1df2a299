import Responder.Response

/-!
# Requests

The body of a request for a response, as it is written.
-/

namespace Responder

open Json

namespace TextFormat

/-- The variant that a tag names. -/
def tag : Raw → Except Fault Bool
  | .string (some "text") => .ok false
  | .string (some "json_schema") => .ok true
  | .string (some other) => .error (.unknownVariant other)
  | _ => .error (.wrongType "the name of a variant")

def ofFields (get : String → Option Raw) (room : Nat) : Except Fault TextFormat := do
  let name ← Raw.required "name" Raw.asString (get "name")
  let schema ← Raw.required "schema" (Raw.toJson room) (get "schema")
  let description ← Raw.optional Raw.asString (get "description")
  return .jsonSchema name schema description (← Raw.optional Raw.asBool (get "strict"))

def fieldNames : List String := ["name", "schema", "description", "strict"]

/-- A format is an object with a tag, or an array that begins with it. -/
def ofRaw (room : Nat) (raw : Raw) : Except Fault TextFormat := do
  let _ ← raw.toJson room
  match raw with
  | .object members =>
    match Raw.lookup "type" (← Raw.collect ["type"] members) with
    | none => .error (.missingField "type")
    | some value =>
      if ← tag value then ofFields (Raw.lookup · (← Raw.collect fieldNames members)) room
      else return .text
  | .array [] => .error (.missingField "type")
  | .array (value :: rest) =>
    if ← tag value then
      if rest.length ≤ fieldNames.length then
        ofFields (Raw.lookup · (fieldNames.zip rest)) room
      else .error (.wrongLength "no more items than fields")
    else if rest.isEmpty then return .text
    else .error (.wrongLength "the tag alone")
  | _ => .error (.wrongType "an object")

def ofConfig (room : Nat) (raw : Raw) : Except Fault TextFormat := do
  let (get, room) ← raw.fields ["format"] room
  Raw.required "format" (ofRaw room) (get "format")

end TextFormat

/-- What a request says; an input that is left out is null. -/
structure Request where
  model : Option String := none
  input : Json := .null
  instructions : Option String := none
  previous : Option String := none
  stream : Bool := false
  store : Option Bool := none
  tools : List Tool := []
  toolChoice : Option ToolChoice := none
  format : Option TextFormat := none
  temperature : Option Number := none
  topP : Option Number := none
  maxOutputTokens : Option Int := none
  parallelToolCalls : Option Bool := none
  metadata : Option (List (String × Json)) := none
  truncation : Option String := none
  deriving DecidableEq, Repr

namespace Request

def fieldNames : List String :=
  ["model", "input", "instructions", "previous_response_id", "stream", "store", "tools",
    "tool_choice", "text", "temperature", "top_p", "max_output_tokens",
    "parallel_tool_calls", "metadata", "truncation"]

def ofRaw (room : Nat) (raw : Raw) : Except Fault Request := do
  let (get, room) ← raw.fields fieldNames room
  let string name := Raw.optional Raw.asString (get name)
  let bool name := Raw.optional Raw.asBool (get name)
  return {
    model := ← string "model"
    input := ← Raw.defaulted .null (Raw.toJson room) (get "input")
    instructions := ← string "instructions"
    previous := ← string "previous_response_id"
    stream := ← Raw.defaulted false Raw.asBool (get "stream")
    store := ← bool "store"
    tools := ← Raw.defaulted [] (Raw.asList Tool.ofRaw room) (get "tools")
    toolChoice := ← Raw.optional (ToolChoice.ofRaw room) (get "tool_choice")
    format := ← Raw.optional (TextFormat.ofConfig room) (get "text")
    temperature := ← Raw.optional Raw.asNumber (get "temperature")
    topP := ← Raw.optional Raw.asNumber (get "top_p")
    maxOutputTokens := ← Raw.optional Raw.asInt64 (get "max_output_tokens")
    parallelToolCalls := ← bool "parallel_tool_calls"
    metadata := ← Raw.optional (Raw.asObject room) (get "metadata")
    truncation := ← string "truncation" }

def ofText (text : String) : Except String Request :=
  (readAs (ofRaw Raw.maxRoom) text.toList).mapError (·.message text.toList)

end Request

end Responder
