import Responder.Failure
import Responder.Id
import Responder.Item.Basic
import Responder.Json.Shape

/-!
# Normalization of input items

A request may write an input item in several ways. `RawItem` is an item as it is
written, and `normalize` gives the one form in which items are kept: a message without
parts becomes one text part, texts of an assistant are output texts, and an item without
an id gets one.
-/

namespace Responder

open Json

/-- A part of a message as it is written. -/
inductive RawPart where
  | plain (text : String)
  | outputText (text : String)
  | refusal (text : String)
  | image (url detail : Option String)
  | file
  deriving DecidableEq, Repr

namespace RawPart

def kinds : List String :=
  ["text", "input_text", "output_text", "refusal", "input_image", "input_file"]

/-- The kind that a tag names, or gives the number of. -/
def kind? : Json → Except Fault String
  | .string name => if kinds.contains name then .ok name else .error (.unknownVariant name)
  | .number (.int n) =>
    match n.toNat?.bind (kinds[·]?) with
    | some name => .ok name
    | none => .error (.wrongType "the number of a variant")
  | _ => .error (.wrongType "the name of a variant")

def fieldNames : String → List String
  | "refusal" => ["refusal"]
  | "input_image" => ["image_url", "file_id", "detail"]
  | "input_file" => ["filename"]
  | _ => ["text"]

def ofFields (kind : String) (get : String → Option Json) : Except Fault RawPart := do
  let text name := Shape.required name Shape.string (get name)
  let optional name := Shape.optional Shape.string (get name)
  match kind with
  | "output_text" => return .outputText (← text "text")
  | "refusal" => return .refusal (← text "refusal")
  | "input_image" =>
    let url ← optional "image_url"
    let _ ← optional "file_id"
    return .image url (← optional "detail")
  | "input_file" =>
    let _ ← optional "filename"
    return .file
  | _ => return .plain (← text "text")

/-- A part is an object, or an array that begins with the tag. -/
def ofJson (value : Json) : Except Fault RawPart := do
  let (tag, rest) ← match value with
    | .object members =>
      match Json.lookup "type" members with
      | some tag => Except.ok (tag, value)
      | none => .error (.missingField "type")
    | .array (tag :: rest) => .ok (tag, .array rest)
    | .array [] => .error (.missingField "type")
    | _ => .error (.wrongType "an object")
  let kind ← kind? tag
  ofFields kind (← Shape.fields (fieldNames kind) rest)

end RawPart

inductive RawContent where
  | plain (text : String)
  | parts (parts : List RawPart)
  deriving DecidableEq, Repr

namespace RawContent

def ofJson : Json → Except Fault RawContent
  | .string text => .ok (.plain text)
  | .array items =>
    match items.mapM RawPart.ofJson with
    | .ok kept => .ok (.parts kept)
    | .error _ => .error (.noVariant "message content")
  | _ => .error (.noVariant "message content")

end RawContent

structure RawItem where
  type : Option String := none
  id : Option String := none
  role : Option String := none
  content : Option RawContent := none
  callId : Option String := none
  name : Option String := none
  arguments : Option String := none
  output : Option Json := none
  deriving DecidableEq, Repr

namespace RawItem

def fieldNames : List String :=
  ["type", "id", "role", "content", "call_id", "name", "arguments", "output"]

def ofJson (value : Json) : Except Fault RawItem := do
  let get ← Shape.fields fieldNames value
  let string name := Shape.optional Shape.string (get name)
  return {
    type := ← string "type"
    id := ← string "id"
    role := ← string "role"
    content := ← Shape.optional RawContent.ofJson (get "content")
    callId := ← string "call_id"
    name := ← string "name"
    arguments := ← string "arguments"
    output := ← Shape.optional .ok (get "output") }

end RawItem

namespace InputItem

def role? (text : String) : Except Failure Role :=
  match Role.ofText? text with
  | some role => .ok role
  | none => .error (.invalid "input"
      ("invalid role '" ++ text ++ "': must be one of user, assistant, system, developer"))

def textPart (role : Role) (text : String) : InputPart :=
  if role = .assistant then .outputText text else .inputText text

def normalizePart (role : Role) : RawPart → Except Failure InputPart
  | .plain text => .ok (textPart role text)
  | .outputText text | .refusal text => .ok (.outputText text)
  | .image (some url) detail =>
    if url = "" then .error (.invalid "input" "input_image requires an image_url")
    else .ok (.image url detail)
  | .image none _ => .error (.invalid "input" "input_image requires an image_url")
  | .file => .error (.invalid "input" "input_file content is not supported")

def normalizeContent (role : Role) : RawContent → Except Failure (List InputPart)
  | .plain text => .ok [textPart role text]
  | .parts parts => parts.mapM (normalizePart role)

def paramOf (index : Nat) : String := "input[" ++ index.repr ++ "]"

def nonEmpty (param field : String) : Option String → Except Failure String
  | some value => if value = "" then missing else .ok value
  | none => missing
where
  missing := .error (.invalid param (field ++ " is required"))

/-- The kept form of the item at an index; it takes its id from the lane if it has none. -/
def normalize (lane : Lane) (index : Nat) (raw : RawItem) : Except Failure InputItem :=
  let param := paramOf index
  let idOr kind := raw.id.getD (lane.id kind (.input index))
  match raw.type.getD "message" with
  | "message" => do
    let some role := raw.role | .error (.invalid param "message item requires a role")
    let role ← role? role
    let some content := raw.content | .error (.invalid param "message item requires content")
    let content ← normalizeContent role content
    if content = [] then .error (.invalid param "message content must not be empty")
    else .ok (.message (idOr .message) role content)
  | "function_call" => do
    let callId ← nonEmpty param "call_id" raw.callId
    let name ← nonEmpty param "name" raw.name
    .ok (.functionCall (idOr .functionCall) callId name (raw.arguments.getD "{}"))
  | "function_call_output" => do
    let callId ← nonEmpty param "call_id" raw.callId
    match raw.output with
    | some (.string text) => .ok (.functionCallOutput (idOr .message) callId text)
    | some other => .ok (.functionCallOutput (idOr .message) callId other.text)
    | none => .error (.invalid param "function_call_output item requires output")
  | other => .error (.invalid param ("unsupported input item type '" ++ other ++ "'"))

def ofJson (lane : Lane) (index : Nat) (value : Json) : Except Failure InputItem := do
  let raw ← (RawItem.ofJson value).mapError fun fault => .invalid (paramOf index) fault.message
  normalize lane index raw

/-- Reads the items of an input, the first at the given index. -/
def listOfJson (lane : Lane) (index : Nat) : List Json → Except Failure (List InputItem)
  | [] => .ok []
  | value :: rest => do
    let item ← ofJson lane index value
    return item :: (← listOfJson lane (index + 1) rest)

end InputItem

end Responder
