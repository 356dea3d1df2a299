import Responder.Backend.Basic
import Responder.Id
import Responder.Json.Writer
import Responder.Schema.Sample
import Responder.Text

/-!
# The mock backend

A backend whose answers are a function of the request: a call of a tool with made-up
arguments, a made-up value of the output schema, or one of three fixed texts. Knobs make
it misbehave.
-/

namespace Responder

structure Mock where
  /-- Every request fails with this message. -/
  failure : Option String := none
  /-- A stream fails in place of the text delta of this index. -/
  failAfter : Option Nat := none
  /-- The answer calls this tool. -/
  undeclaredTool : Option String := none
  /-- The answer is this text. -/
  text : Option String := none
  finish : Option FinishReason := none
  emptyOutput : Bool := false
  /-- How long a whole answer takes, and each text delta and each call of a stream. -/
  delay : Duration := .zero
  deriving DecidableEq, Repr

namespace Mock

def modelName : String := "mock-model"

def greeting : String := "Hello, nice day!"

def counting : String := "1, 2, 3, 4, 5"

def imageReply : String :=
  "I can see the image you shared. It appears to be a small red icon or symbol."

/-- What a text has to contain, in any case of letters, to be answered by counting. -/
def countingCue : List Char := "count from 1 to 5".toList

/-- Cuts a text before each space that does not begin a piece; `current` is the piece
so far. -/
def splitFrom (current : List Char) : List Char → List (List Char)
  | [] => if current = [] then [] else [current]
  | c :: rest =>
    if c = ' ' ∧ current ≠ [] then current :: splitFrom [c] rest
    else splitFrom (current ++ [c]) rest

def splitTokens (text : String) : List String :=
  (splitFrom [] text.toList).map String.ofList

def contains (inner : List Char) : List Char → Bool
  | [] => inner.isEmpty
  | c :: rest => inner.isPrefixOf (c :: rest) || contains inner rest

def asksForCounting (text : String) : Bool := contains countingCue (text.toList.map Char.toLower)

/-- Words are counted in place of tokens, at least one. -/
def promptTokens (r : ChatRequest) : Nat :=
  max 1 (r.messages.foldr (fun m n => Text.countWords m.text.toList + n) 0 % countLimit)

def callTokens : Nat := 15

def callAnswer (fresh name arguments : String) (prompt : Nat) : Completion :=
  { text := none, calls := [⟨fresh, name, arguments⟩], finish := .toolCalls
    usage := some ⟨prompt, callTokens⟩ }

/-- The tool that is called: the forced one, or the first. -/
def toolOf (first : Tool) (r : ChatRequest) : Tool :=
  (r.toolChoice.forced?.bind fun name => r.tools.find? (·.name = name)).getD first

def textOf (m : Mock) (r : ChatRequest) : String :=
  match m.text, r.outputSchema with
  | some text, _ => text
  | none, some schema => (Schema.sample schema.schema).text
  | none, none =>
    if r.messages.any fun msg => msg.role = .user ∧ msg.hasImage then imageReply
    else if (r.lastUserText.map asksForCounting).getD false then counting
    else greeting

def textAnswer (m : Mock) (r : ChatRequest) : Completion :=
  let text := m.textOf r
  { text := some text, calls := [], finish := m.finish.getD .stop
    usage := some ⟨promptTokens r, (splitTokens text).length % countLimit⟩ }

/-- The answer to a request; `fresh` is the id of a call. -/
def plan (fresh : String) (m : Mock) (r : ChatRequest) : Except BackendFault Completion :=
  match m.failure with
  | some message => .error (.status 503 message)
  | none =>
    if m.emptyOutput then
      .ok { text := none, calls := [], finish := .stop, usage := some ⟨promptTokens r, 0⟩ }
    else
      match m.undeclaredTool with
      | some name => .ok (callAnswer fresh name "{}" (promptTokens r))
      | none =>
        match r.tools with
        | first :: _ =>
          if m.text.isNone ∧ !r.toolChoice.isNone then
            let tool := toolOf first r
            let arguments := (tool.parameters.map Schema.sample).getD (.object [])
            .ok (callAnswer fresh tool.name arguments.text (promptTokens r))
          else .ok (m.textAnswer r)
        | [] => .ok (m.textAnswer r)

/-- The deltas of a text, cut off where the stream fails. -/
def deltas (m : Mock) (text : Option String) :
    List (Wait (Except BackendFault Chunk)) × Bool :=
  let tokens := (text.map splitTokens).getD []
  let texts (tokens : List String) := tokens.map fun t => .done m.delay (.ok (.text t))
  match m.failAfter.filter (· < tokens.length) with
  | some index =>
    (texts (tokens.take index) ++ [.now (.error (.request "mock stream interrupted"))], true)
  | none => (texts tokens, false)

def streamOf (m : Mock) (c : Completion) : ChunkStream :=
  let (texts, failed) := m.deltas c.text
  if failed then ⟨texts⟩
  else ⟨texts ++ c.calls.map (fun call => .done m.delay (.ok (.call call))) ++
    c.usage.toList.map (fun usage => .now (.ok (.usage usage))) ++
    [.now (.ok (.finished c.finish))]⟩

def complete (fresh : String) (m : Mock) (r : ChatRequest) : Answer :=
  .done m.delay (m.plan fresh r)

/-- The stream of a request. That there is none is known at once. -/
def stream (fresh : String) (m : Mock) (r : ChatRequest) : Opening :=
  .now ((m.plan fresh r).map m.streamOf)

end Mock

end Responder
