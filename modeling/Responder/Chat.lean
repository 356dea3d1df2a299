import Responder.Decimal.Binary
import Responder.Item.Basic
import Responder.Tool.Basic

/-!
# Chats

A backend is asked with a chat: a list of messages with the declared tools. It answers
with a completion, at once or as a stream of chunks.
-/

namespace Responder

inductive ChatRole where
  | system | user | assistant | tool
  deriving DecidableEq, Repr

namespace ChatRole

def text : ChatRole → String
  | system => "system"
  | user => "user"
  | assistant => "assistant"
  | tool => "tool"

def ofRole : Role → ChatRole
  | .user => user
  | .assistant => assistant
  | .system | .developer => system

end ChatRole

inductive ChatPart where
  | text (text : String)
  | image (url : String) (detail : Option String)
  deriving DecidableEq, Repr

namespace ChatPart

def text? : ChatPart → Option String
  | text words => some words
  | image .. => none

def isImage : ChatPart → Bool
  | text _ => false
  | image .. => true

end ChatPart

/-- A call of a tool, as a backend gives it. -/
structure ToolCall where
  id : String
  name : String
  arguments : String
  deriving DecidableEq, Repr

structure ChatMessage where
  role : ChatRole
  content : List ChatPart := []
  calls : List ToolCall := []
  callId : Option String := none
  deriving DecidableEq, Repr

namespace ChatMessage

def ofText (role : ChatRole) (text : String) : ChatMessage := { role, content := [.text text] }

def ofCall (call : ToolCall) : ChatMessage := { role := .assistant, calls := [call] }

/-- The text parts, one after the other. -/
def text (m : ChatMessage) : String := String.join (m.content.filterMap ChatPart.text?)

def hasImage (m : ChatMessage) : Bool := m.content.any ChatPart.isImage

def isCall (m : ChatMessage) : Bool := m.role == .assistant && !m.calls.isEmpty

def partOfInput : InputPart → ChatPart
  | .inputText text | .outputText text => .text text
  | .image url detail => .image url detail

def ofInputItem : InputItem → ChatMessage
  | .message _ role content => { role := .ofRole role, content := content.map partOfInput }
  | .functionCall _ callId name arguments => ofCall ⟨callId, name, arguments⟩
  | .functionCallOutput _ callId output =>
    { role := .tool, content := [.text output], callId := some callId }

def partOfOutput : OutputPart → ChatPart
  | .outputText text | .refusal text => .text text

def ofOutputItem : OutputItem → ChatMessage
  | .message _ _ content => { role := .assistant, content := content.map partOfOutput }
  | .functionCall _ _ callId name arguments => ofCall ⟨callId, name, arguments⟩

end ChatMessage

structure OutputSchema where
  name : String
  schema : Json
  strict : Bool
  deriving DecidableEq, Repr

/-- What a backend is asked. Both sampling parameters are singles. -/
structure ChatRequest where
  model : String
  messages : List ChatMessage
  tools : List Tool
  toolChoice : ToolChoice
  outputSchema : Option OutputSchema
  temperature : Decimal.Binary
  topP : Decimal.Binary
  maxOutputTokens : Option Nat
  parallelToolCalls : Bool
  deriving DecidableEq, Repr

namespace ChatRequest

def lastUserText (r : ChatRequest) : Option String :=
  (r.messages.reverse.find? (·.role = .user)).map ChatMessage.text

end ChatRequest

inductive FinishReason where
  | stop | length | toolCalls | contentFilter
  deriving DecidableEq, Repr

namespace FinishReason

/-- An unknown reason is an ordinary stop. -/
def ofText : String → FinishReason
  | "length" => length
  | "tool_calls" | "function_call" => toolCalls
  | "content_filter" => contentFilter
  | _ => stop

def text : FinishReason → String
  | stop => "stop"
  | length => "length"
  | toolCalls => "tool_calls"
  | contentFilter => "content_filter"

end FinishReason

/-- Counts of tokens are kept in 32 bits. -/
def countLimit : Nat := Nat.pow 2 32

structure TokenUsage where
  prompt : Nat
  completion : Nat
  deriving DecidableEq, Repr

structure Completion where
  text : Option String
  calls : List ToolCall
  finish : FinishReason
  usage : Option TokenUsage
  deriving DecidableEq, Repr

inductive Chunk where
  | text (delta : String)
  | call (call : ToolCall)
  | usage (usage : TokenUsage)
  | finished (reason : FinishReason)
  deriving DecidableEq, Repr

end Responder
