import Responder.Json.Shape

/-!
# Tools

A caller declares function tools, and says with `tool_choice` whether they may, must or
must not be called.
-/

namespace Responder

open Json

structure Tool where
  type : String
  name : String
  description : Option String := none
  parameters : Option Json := none
  strict : Bool := false
  deriving DecidableEq, Repr

namespace Tool

def functionType : String := "function"

def toJson (t : Tool) : Json :=
  .ofMembers ([("type", .string t.type), ("name", .string t.name)] ++
    (t.description.map fun d => ("description", Json.string d)).toList ++
    (t.parameters.map fun p => ("parameters", p)).toList ++ [("strict", .bool t.strict)])

def ofRaw (room : Nat) (raw : Raw) : Except Fault Tool := do
  let (get, room) ← raw.fields ["type", "name", "description", "parameters", "strict"] room
  return {
    type := ← Raw.required "type" Raw.asString (get "type")
    name := ← Raw.required "name" Raw.asString (get "name")
    description := ← Raw.optional Raw.asString (get "description")
    parameters := ← Raw.optional (Raw.toJson room) (get "parameters")
    strict := ← Raw.defaulted false Raw.asBool (get "strict") }

end Tool

/-- Which tools may be called: a mode, or one function that has to be. -/
inductive ToolChoice where
  | mode (name : String)
  | function (type name : String)
  deriving DecidableEq, Repr

namespace ToolChoice

def auto : ToolChoice := .mode "auto"

def isNone (c : ToolChoice) : Bool := c = .mode "none"

def forced? : ToolChoice → Option String
  | mode _ => none
  | function _ name => some name

def toJson : ToolChoice → Json
  | mode name => .string name
  | function type name => .ofMembers [("type", .string type), ("name", .string name)]

/-- A string names a mode, an object with a type and a name a function. -/
def ofRaw (room : Nat) (raw : Raw) : Except Fault ToolChoice := do
  let _ ← raw.toJson room
  match raw with
  | .string (some name) => return .mode name
  | .object members =>
    match Raw.collect ["type", "name"] members with
    | .ok found =>
      match Raw.lookup "type" found, Raw.lookup "name" found with
      | some (.string (some type)), some (.string (some name)) => return .function type name
      | _, _ => .error (.noVariant "tool choice")
    | .error _ => .error (.noVariant "tool choice")
  | _ => .error (.noVariant "tool choice")

end ToolChoice

end Responder
