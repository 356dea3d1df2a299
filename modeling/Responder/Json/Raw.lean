import Responder.Json.Basic
import Responder.Json.Token

/-!
# JSON texts as they are written

`Raw` keeps what a value forgets: number literals, the order of the members of an
object, and members of one name. A machine with a stack of open containers builds it
from the tokens. `toJson` gives the value; it refuses numbers out of range, strings
with a lone surrogate, and containers nested more deeply than it has room for.
-/

namespace Responder.Json

/-- A JSON text, taken apart. A name or a string is missing if it has a lone surrogate. -/
inductive Raw where
  | null
  | bool (value : Bool)
  | number (literal : Literal)
  | string (text : Option String)
  | array (items : List Raw)
  | object (members : List (Option String × Raw))
  deriving Repr, Inhabited

/-- An open container, its newest item or member first. -/
inductive Frame where
  | array (items : List Raw)
  | object (members : List (Option String × Raw)) (name : Option String)

inductive Expecting where
  | value
  | firstItem
  | firstName
  | name
  | colon
  | separator
  | nothing
  deriving DecidableEq, Repr

/-- The containers around the next token, innermost first, and the finished value. -/
structure Builder where
  frames : List Frame := []
  expecting : Expecting := .value
  result : Option Raw := none

namespace Builder

/-- Puts a finished value where it belongs. -/
def deliver (value : Raw) : List Frame → Builder
  | [] => { expecting := .nothing, result := some value }
  | .array items :: outer => { frames := .array (value :: items) :: outer, expecting := .separator }
  | .object members name :: outer =>
    { frames := .object ((name, value) :: members) none :: outer, expecting := .separator }

def closeArray : List Frame → Except Fault Builder
  | .array items :: outer => .ok (deliver (.array items.reverse) outer)
  | _ => .error .unexpectedCharacter

def closeObject : List Frame → Except Fault Builder
  | .object members _ :: outer => .ok (deliver (.object members.reverse) outer)
  | _ => .error .unexpectedCharacter

def beginValue (frames : List Frame) : Token → Except Fault Builder
  | .openArray => .ok { frames := .array [] :: frames, expecting := .firstItem }
  | .openObject => .ok { frames := .object [] none :: frames, expecting := .firstName }
  | .null => .ok (deliver .null frames)
  | .bool b => .ok (deliver (.bool b) frames)
  | .number literal => .ok (deliver (.number literal) frames)
  | .string text => .ok (deliver (.string text) frames)
  | .closeArray | .closeObject | .comma | .colon => .error .unexpectedCharacter

/-- Reads the name of a member. -/
def takeName (text : Option String) : List Frame → Except Fault Builder
  | .object members _ :: outer =>
    .ok { frames := .object members text :: outer, expecting := .colon }
  | _ => .error .unexpectedCharacter

/-- Reads a token after a value inside a container. -/
def separate (frames : List Frame) : Token → Except Fault Builder
  | .comma =>
    match frames with
    | .array _ :: _ => .ok { frames, expecting := .value }
    | .object .. :: _ => .ok { frames, expecting := .name }
    | [] => .error .unexpectedCharacter
  | .closeArray => closeArray frames
  | .closeObject => closeObject frames
  | _ => .error .unexpectedCharacter

def step (b : Builder) (token : Token) : Except Fault Builder :=
  match b.expecting, token with
  | .value, token => beginValue b.frames token
  | .firstItem, .closeArray => closeArray b.frames
  | .firstItem, token => beginValue b.frames token
  | .firstName, .closeObject => closeObject b.frames
  | .firstName, .string text => takeName text b.frames
  | .name, .string text => takeName text b.frames
  | .colon, .colon => .ok { b with expecting := .value }
  | .separator, token => separate b.frames token
  | _, _ => .error .unexpectedCharacter

end Builder

namespace Raw

def stepPlaced (b : Builder) (placed : Placed) : Except TextFault Builder :=
  (b.step placed.token).mapError (⟨·, placed.offset⟩)

def read (text : List Char) : Except TextFault Raw := do
  let built ← (← tokens text).foldlM stepPlaced {}
  match built.result with
  | some raw => .ok raw
  | none => .error ⟨.unexpectedEnd, text.length⟩

/-- One container less may be opened inside; the last one is refused. -/
def enter (room : Nat) : Except Fault Nat :=
  if room ≤ 1 then .error .tooDeep else .ok (room - 1)

/-- Containers may be nested 127 deep. -/
def maxRoom : Nat := 128

def text? (text : Option String) : Except Fault String :=
  match text with
  | some text => .ok text
  | none => .error .loneSurrogate

mutual

/-- The value, with room for so many containers inside each other. -/
def toJson (room : Nat) : Raw → Except Fault Json
  | .null => .ok .null
  | .bool b => .ok (.bool b)
  | .number literal =>
    match literal.number? with
    | some n => .ok (.number n)
    | none => .error .numberTooLarge
  | .string text => do return .string (← text? text)
  | .array items => do
    let room ← enter room
    return .array (← toJsonItems room items)
  | .object members => do
    let room ← enter room
    return .ofMembers (← toJsonMembers room members)

def toJsonItems (room : Nat) : List Raw → Except Fault (List Json)
  | [] => .ok []
  | item :: rest => do
    let value ← toJson room item
    return value :: (← toJsonItems room rest)

def toJsonMembers (room : Nat) :
    List (Option String × Raw) → Except Fault (List (String × Json))
  | [] => .ok []
  | (name, item) :: rest => do
    let name ← text? name
    let value ← toJson room item
    return (name, value) :: (← toJsonMembers room rest)

end

end Raw

/-- Reads a text as a value of a given shape; a wrong shape is found at the end. -/
def readAs {α : Type} (shape : Raw → Except Fault α) (text : List Char) :
    Except TextFault α := do
  let raw ← Raw.read text
  (shape raw).mapError (⟨·, text.length⟩)

def read (text : List Char) : Except TextFault Json := readAs (Raw.toJson Raw.maxRoom) text

/-- Reads a text as a value; a fault is given as a message with its place. -/
def parse (text : String) : Except String Json :=
  (read text.toList).mapError (·.message text.toList)

end Responder.Json
