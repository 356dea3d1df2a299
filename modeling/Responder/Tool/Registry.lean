import Responder.Chat
import Responder.Failure
import Responder.Id

/-!
# The tools of a turn

A registry holds tools that were checked on admission. `shape` turns a backend's call
into an output item, and refuses one that breaks what the caller declared.
-/

namespace Responder

/-- The tools of a turn, and which of them may be called. -/
structure Registry where
  tools : List Tool
  choice : ToolChoice
  deriving DecidableEq, Repr

namespace Registry

def isNameChar (c : Char) : Bool := Id.isAlphanumeric c || c == '_' || c == '-'

def isToolName (name : String) : Bool :=
  let chars := name.toList
  1 ≤ chars.length && chars.length ≤ 64 && chars.all isNameChar

/-- Checks the tool at an index, given those before it. -/
def checkTool (index : Nat) (before : List Tool) (tool : Tool) : Except Failure Unit := do
  let param := "tools[" ++ index.repr ++ "]"
  if tool.type ≠ Tool.functionType then
    .error (.invalid param ("unsupported tool type '" ++ tool.type ++ "'"))
  else if !isToolName tool.name then
    .error (.invalid (param ++ ".name")
      "tool name must be 1-64 characters of letters, digits, '_' or '-'")
  else
    if let some parameters := tool.parameters then
      (Schema.checkParameters parameters).mapError fun place =>
        .invalid (param ++ ".parameters")
          ("invalid parameters schema: " ++ (Schema.reportOfMalformed place).text)
    if before.any (·.name = tool.name) then
      .error (.invalid (param ++ ".name") ("duplicate tool name '" ++ tool.name ++ "'"))

def checkTools (before : List Tool) : List Tool → Except Failure Unit
  | [] => .ok ()
  | tool :: rest => do
    checkTool before.length before tool
    checkTools (before ++ [tool]) rest

def checkChoice (tools : List Tool) : ToolChoice → Except Failure Unit
  | .mode "auto" | .mode "none" => .ok ()
  | .mode "required" =>
    if tools = [] then
      .error (.invalid "tool_choice" "tool_choice 'required' needs at least one declared tool")
    else .ok ()
  | .mode other =>
    .error (.invalid "tool_choice"
      ("invalid tool_choice '" ++ other ++ "': must be auto, none or required"))
  | .function type name =>
    if type ≠ Tool.functionType then
      .error (.invalid "tool_choice.type" ("unsupported tool_choice type '" ++ type ++ "'"))
    else if tools.any (·.name = name) then .ok ()
    else .error (.invalid "tool_choice.name"
      ("tool_choice names undeclared tool '" ++ name ++ "'"))

/-- The registry of a request, if its tools and its choice are in order. -/
def ofRequest (maxTools : Nat) (tools : List Tool) (choice : ToolChoice) :
    Except Failure Registry := do
  if maxTools < tools.length then
    .error (.invalid "tools"
      ("too many tools: " ++ tools.length.repr ++ " (maximum " ++ maxTools.repr ++ ")"))
  else
    checkTools [] tools
    checkChoice tools choice
    return ⟨tools, choice⟩

def find? (r : Registry) (name : String) : Option Tool := r.tools.find? (·.name = name)

def isAvailable (r : Registry) (name : String) : Bool := (r.find? name).isSome

def parameters? (r : Registry) (name : String) : Option Json := (r.find? name).bind (·.parameters)

/-- Blank arguments stand for an empty object. -/
def argumentsText (text : String) : String :=
  if Text.isBlankText text.toList then "{}" else text

def argumentsFault (r : Registry) (name text : String) : Option String :=
  let said := "arguments for '" ++ name ++ "' "
  match Json.parse text with
  | .error message => some (said ++ "are not valid JSON: " ++ message)
  | .ok value =>
    if value.object?.isNone then some (said ++ "must be a JSON object")
    else match r.parameters? name with
      | none => none
      | some schema =>
        match Schema.validate schema value with
        | .ok () => none
        | .error place =>
          some (said ++ "do not match its parameters: " ++ (Schema.reportOfMismatch place).text)

/-- Why a call breaks what the caller declared. -/
def callFault (r : Registry) (call : ToolCall) : Option String :=
  if r.choice.isNone then
    some ("backend called tool '" ++ call.name ++ "' although tool_choice is 'none'")
  else
    match r.choice.forced?.filter (· ≠ call.name) with
    | some forced =>
      some ("backend called '" ++ call.name ++ "' but tool_choice requires '" ++ forced ++ "'")
    | none =>
      if !r.isAvailable call.name then
        some ("backend called undeclared tool '" ++ call.name ++ "'")
      else r.argumentsFault call.name (argumentsText call.arguments)

/-- The output item of a call, at an index of the output. -/
def shape (r : Registry) (lane : Lane) (index : Nat) (call : ToolCall) :
    Except Failure OutputItem :=
  match r.callFault call with
  | some message => .error (.toolContract message)
  | none =>
    let callId := if call.id = "" then lane.id .call (.output index) else call.id
    .ok (.functionCall (lane.id .functionCall (.output index)) .completed callId call.name
      (argumentsText call.arguments))

end Registry

end Responder
