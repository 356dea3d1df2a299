import Responder.Backend.Basic
import Responder.Json.Raw
import Responder.Text

/-!
# Decoding of answers

A whole answer is one JSON object. A server that streams answers with frames, each ended by
an empty line. The bytes that arrive may end inside a frame, so a decoder keeps them until
the frame is complete. The first line of a frame that begins with `data:` holds a JSON object,
or the mark of the end. The fragments of a tool call are gathered by its index and given out
when the answer is finished.
-/

namespace Responder.Remote

inductive FrameFault where
  | notJson (message : String)
  | notText (message : String)
  deriving DecidableEq, Repr

namespace FrameFault

def message : FrameFault → String
  | notJson message => "JSON parse error: " ++ message
  | notText message => "frame is not valid UTF-8: " ++ message

end FrameFault

/-- Cuts bytes at empty lines: the complete frames, and the bytes after them. -/
def splitFrames : List UInt8 → List (List UInt8) × List UInt8
  | [] => ([], [])
  | 10 :: 10 :: rest =>
    let (frames, tail) := splitFrames rest
    ([] :: frames, tail)
  | 13 :: 10 :: 13 :: 10 :: rest =>
    let (frames, tail) := splitFrames rest
    ([] :: frames, tail)
  | b :: rest =>
    match splitFrames rest with
    | ([], tail) => ([], b :: tail)
    | (frame :: frames, tail) => ((b :: frame) :: frames, tail)

/-- The lines of a text, without their line feeds. -/
def lines : List Char → List (List Char)
  | [] => [[]]
  | c :: rest =>
    if c = '\n' then [] :: lines rest
    else match lines rest with
      | first :: others => (c :: first) :: others
      | [] => [[c]]

def dataMark : List Char := "data:".toList

/-- The data of a frame. -/
def frameData (frame : List Char) : Option (List Char) :=
  ((lines frame).find? fun line => dataMark.isPrefixOf line).map fun line =>
    Text.trim (line.drop dataMark.length)

/-- The data of the frame that ends a stream. -/
def endMark : List Char := "[DONE]".toList

/-- A tool call of which fragments have arrived. -/
structure CallBuffer where
  id : String := ""
  name : String := ""
  arguments : String := ""
  deriving DecidableEq, Repr

namespace CallBuffer

/-- Adds a fragment: an id replaces, a name and arguments are appended. -/
def add (b : CallBuffer) (fragment : Json) : CallBuffer :=
  let function := fragment.field "function"
  { id := (fragment.field "id").string?.getD b.id
    name := b.name ++ (function.field "name").string?.getD ""
    arguments := b.arguments ++ (function.field "arguments").string?.getD "" }

/-- The call, with an id of its own if none arrived. -/
def call (b : CallBuffer) (fresh : String) : ToolCall :=
  { id := if b.id = "" then fresh else b.id
    name := b.name
    arguments := if b.arguments = "" then "{}" else b.arguments }

end CallBuffer

/-- Changes the buffer of an index, among buffers in ascending order of their indices. -/
def updateCall (index : Nat) (change : CallBuffer → CallBuffer) :
    List (Nat × CallBuffer) → List (Nat × CallBuffer)
  | [] => [(index, change {})]
  | (other, buffer) :: rest =>
    if index < other then (index, change {}) :: (other, buffer) :: rest
    else if index = other then (index, change buffer) :: rest
    else (other, buffer) :: updateCall index change rest

def tokenCount (usage : Json) (name : String) : Nat :=
  ((usage.field name).nat?.getD 0) % countLimit

def usage? (answer : Json) : Option TokenUsage :=
  match answer.field? "usage" with
  | some (.object members) =>
    some ⟨tokenCount (.object members) "prompt_tokens",
      tokenCount (.object members) "completion_tokens"⟩
  | _ => none

def choice? (answer : Json) : Option Json :=
  (answer.field? "choices").bind fun choices => choices.array?.bind List.head?

/-! ## Whole answers -/

/-- A tool call of an answer; one without an id gets one. -/
def callOf (fresh : String) (call : Json) : ToolCall :=
  let function := call.field "function"
  { id := match (call.field "id").string? with
      | some "" | none => fresh
      | some id => id
    name := (function.field "name").string?.getD ""
    arguments := (function.field "arguments").string?.getD "{}" }

def completionOf (fresh : Nat → String) (answer : Json) : Except BackendFault Completion :=
  match choice? answer with
  | none => .error (.undecodable "completion has no choices")
  | some choice =>
    let message := choice.field "message"
    let calls := (message.field "tool_calls").array?.getD []
    .ok {
      text := (message.field "content").string?.filter (· ≠ "")
      calls := calls.mapIdx fun index call => callOf (fresh index) call
      finish := ((choice.field "finish_reason").string?.map FinishReason.ofText).getD .stop
      usage := usage? answer }

/-! ## Streamed answers -/

/-- What is known of an answer that is still arriving. -/
structure Assembly where
  calls : List (Nat × CallBuffer) := []
  finished : Bool := false
  /-- Whether the mark of the end has arrived. -/
  done : Bool := false
  deriving DecidableEq, Repr

namespace Assembly

/-- Finishes the answer: its calls, each with an id for its index, and the reason. -/
def flush (fresh : Nat → String) (a : Assembly) (reason : FinishReason) : Assembly × List Chunk :=
  ({ a with calls := [], finished := true },
    a.calls.map (fun (index, buffer) => .call (buffer.call (fresh index))) ++ [.finished reason])

def finish (fresh : Nat → String) (a : Assembly) : Assembly × List Chunk :=
  if a.finished then (a, [])
  else a.flush fresh (if a.calls = [] then .stop else .toolCalls)

def addCall (calls : List (Nat × CallBuffer)) (fragment : Json) : List (Nat × CallBuffer) :=
  updateCall ((fragment.field "index").nat?.getD 0) (·.add fragment) calls

def takeObject (fresh : Nat → String) (a : Assembly) (answer : Json) : Assembly × List Chunk :=
  let choice := (choice? answer).getD .null
  let delta := choice.field "delta"
  let text := match (delta.field "content").string? with
    | some "" | none => []
    | some words => [Chunk.text words]
  let fragments := (delta.field "tool_calls").array?.getD []
  let gathered := { a with calls := fragments.foldl addCall a.calls }
  let usage := (usage? answer).toList.map Chunk.usage
  match (choice.field "finish_reason").string? with
  | some reason =>
    if a.finished then (gathered, text ++ usage)
    else
      let (flushed, chunks) := gathered.flush fresh (.ofText reason)
      (flushed, text ++ usage ++ chunks)
  | none => (gathered, text ++ usage)

def takeData (fresh : Nat → String) (a : Assembly) (data : List Char) :
    Assembly × Except FrameFault (List Chunk) :=
  if data = endMark then
    let (ended, chunks) := { a with done := true }.finish fresh
    (ended, .ok chunks)
  else match Json.parse (String.ofList data) with
    | .ok answer =>
      let (taken, chunks) := a.takeObject fresh answer
      (taken, .ok chunks)
    | .error message => (a, .error (.notJson message))

/-- Takes the text of a frame; one without data is passed over. -/
def takeText (fresh : Nat → String) (a : Assembly) (text : List Char) :
    Assembly × Except FrameFault (List Chunk) :=
  match frameData text with
  | some data => a.takeData fresh data
  | none => (a, .ok [])

/-- Takes frames up to the mark of the end, or to one that cannot be decoded: what is
known then, the frames that are left, and the chunks. -/
def takeFrames (fresh : Nat → String) (a : Assembly) :
    List (List UInt8) → Assembly × List (List UInt8) × Except FrameFault (List Chunk)
  | [] => (a, [], .ok [])
  | frame :: rest =>
    match Text.decodeUtf8? frame with
    | none => (a, rest, .error (.notText "invalid byte sequence"))
    | some text =>
      if Text.isBlankText text.toList then takeFrames fresh a rest
      else match a.takeText fresh text.toList with
        | (taken, .error fault) => (taken, rest, .error fault)
        | (taken, .ok chunks) =>
          if taken.done then (taken, rest, .ok chunks)
          else
            let (last, left, more) := takeFrames fresh taken rest
            (last, left, more.map (chunks ++ ·))

end Assembly

/-- A decoder between two reads: complete frames that are not taken yet, the bytes after
them, and what is known of the answer. -/
structure Decoder where
  frames : List (List UInt8) := []
  tail : List UInt8 := []
  assembly : Assembly := {}
  deriving DecidableEq, Repr

namespace Decoder

def feed (fresh : Nat → String) (d : Decoder) (bytes : List UInt8) :
    Decoder × Except FrameFault (List Chunk) :=
  let (frames, tail) := splitFrames (d.tail ++ bytes)
  let (assembly, left, chunks) := d.assembly.takeFrames fresh (d.frames ++ frames)
  (⟨left, tail, assembly⟩, chunks)

def finish (fresh : Nat → String) (d : Decoder) : Decoder × List Chunk :=
  let (assembly, chunks) := d.assembly.finish fresh
  ({ d with assembly }, chunks)

end Decoder

end Responder.Remote
