import Responder.Tool.Registry
import Responder.Response

/-!
# Accumulation of a response

While a turn runs, an accumulator holds what has come of it. Text that arrives goes to
the open message; a call closes it. `finalize` decides the status and gives the finished
response.
-/

namespace Responder

inductive Outcome where
  | finished
  | failed (failure : Failure)
  | cancelled
  deriving DecidableEq, Repr

/-- A response in progress. -/
structure Accumulator where
  response : Response
  /-- The index of the message that takes text. -/
  openText : Option Nat := none
  usage : Option TokenUsage := none
  finish : Option FinishReason := none
  deriving DecidableEq, Repr

namespace Accumulator

def pushItem (a : Accumulator) (item : OutputItem) : Accumulator :=
  { a with response := { a.response with output := a.response.output ++ [item] } }

def nextIndex (a : Accumulator) : Nat := a.response.output.length

def openMessage (a : Accumulator) (id : String) : Accumulator :=
  { a.pushItem (.message id .inProgress []) with openText := some a.nextIndex }

def extendText (delta : String) : OutputItem → OutputItem
  | .message id status (.outputText text :: rest) =>
    .message id status (.outputText (text ++ delta) :: rest)
  | .message id status content => .message id status (.outputText delta :: content)
  | item => item

/-- Closes a message; one without content gets an empty text. -/
def closeMessage : OutputItem → OutputItem
  | .message id _ [] => .message id .completed [.outputText ""]
  | .message id _ content => .message id .completed content
  | item => item

def modifyItem (a : Accumulator) (index : Nat) (change : OutputItem → OutputItem) : Accumulator :=
  { a with response := { a.response with output := a.response.output.modify index change } }

/-- The open message and its index. -/
def openItem? (a : Accumulator) : Option (Nat × OutputItem) :=
  a.openText.bind fun index => (a.response.output[index]?).map (index, ·)

def pushText (a : Accumulator) (delta : String) : Accumulator :=
  match a.openText with
  | some index => a.modifyItem index (extendText delta)
  | none => a

def closeText (a : Accumulator) : Accumulator :=
  match a.openText with
  | some index => { a.modifyItem index closeMessage with openText := none }
  | none => a

def recordUsage (a : Accumulator) (usage : TokenUsage) : Accumulator :=
  { a with usage := some usage }

def recordFinish (a : Accumulator) (reason : FinishReason) : Accumulator :=
  { a with finish := some reason }

/-- Adds calls in order, up to one that is refused. -/
def pushCalls (registry : Registry) (lane : Lane) (a : Accumulator) :
    List ToolCall → Accumulator × Option Failure
  | [] => (a, none)
  | call :: rest =>
    match registry.shape lane a.nextIndex call with
    | .ok item => pushCalls registry lane (a.pushItem item) rest
    | .error failure => (a, some failure)

/-- Adds a whole answer. -/
def install (registry : Registry) (lane : Lane) (a : Accumulator) (c : Completion) :
    Accumulator × Outcome :=
  let a := (match c.usage with
    | some usage => a.recordUsage usage
    | none => a).recordFinish c.finish
  let a := match c.text with
    | some text =>
      a.pushItem (.message (lane.id .message (.output a.nextIndex)) .completed
        [.outputText text])
    | none => a
  match pushCalls registry lane a c.calls with
  | (a, some failure) => (a, .failed failure)
  | (a, none) => (a, .finished)

/-- What a status comes with. -/
structure Verdict where
  status : Status
  failure : Option Failure := none
  incomplete : Option IncompleteReason := none
  parsed : Option Json := none
  deriving DecidableEq, Repr

def settleFinished (schema : Option Json) (a : Accumulator) : Verdict :=
  let output := a.response.output
  if output = [] then
    { status := .failed, failure := some (.backend "backend produced no output") }
  else match a.finish with
    | some .length => { status := .incomplete, incomplete := some .maxOutputTokens }
    | some .contentFilter => { status := .incomplete, incomplete := some .contentFilter }
    | _ =>
      match schema.filter fun _ => output.any OutputItem.isMessage with
      | none => { status := .completed }
      | some schema =>
        match Schema.validateText schema (Response.textOf output) with
        | .ok parsed => { status := .completed, parsed := some parsed }
        | .error fault => { status := .failed, failure := some fault.report.failure }

def settle (schema : Option Json) (a : Accumulator) : Outcome → Verdict
  | .finished => a.settleFinished schema
  | .failed failure => { status := .failed, failure := some failure }
  | .cancelled => { status := .incomplete, incomplete := some .cancelled }

/-- The status of items that are still open. -/
def closeItem (status : Status) (item : OutputItem) : OutputItem :=
  if item.status = ItemStatus.inProgress then
    item.withStatus (if status = Status.completed then ItemStatus.completed else .incomplete)
  else item

def finalize (a : Accumulator) (schema : Option Json) (now : Int) (outcome : Outcome) : Response :=
  let verdict := a.settle schema outcome
  let response := { a.response with
    outputText := Response.textOf a.response.output
    outputParsed := verdict.parsed
    output := a.response.output.map (closeItem verdict.status)
    error := verdict.failure.map Failure.detail
    incomplete := verdict.incomplete
    usage := a.usage
    completedAt := if verdict.status = Status.completed then some now else none }
  match response.transition verdict.status with
  | .ok response => response
  | .error failure =>
    { response with
      status := .failed, error := some failure.detail, incomplete := none
      outputParsed := none, completedAt := none }

end Accumulator

end Responder
