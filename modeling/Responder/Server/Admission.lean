import Responder.Chat.Context
import Responder.Config.Basic
import Responder.Item.Normal
import Responder.Request
import Responder.Tool.Registry

/-!
# Admission

A request is checked as a whole before its turn starts. What is checked first is told
first.
-/

namespace Responder.Admission

open Decimal (Binary Format)

/-- What a request is checked against. -/
structure Setting where
  limits : Limits
  store : Store
  count : Context.Counter
  lane : Lane
  now : Int

/-- What a turn starts from. -/
structure Admitted where
  response : Response
  request : ChatRequest
  registry : Registry
  deriving DecidableEq, Repr

def isBlank (text : String) : Bool := Text.isBlankText text.toList

/-- The model that is named, or the default. -/
def model (limits : Limits) (named : Option String) : Except Failure String :=
  match named.filter (!isBlank ·) <|> limits.defaultModel with
  | some name => .ok name
  | none => .error (.invalid "model" "model is required")

def rawItems (limits : Limits) : Json → Except Failure (List Json)
  | .array [] => .error (.invalid "input" "input must contain at least one item")
  | .array items =>
    if limits.maxInputItems < items.length then
      .error (.invalid "input" ("too many input items: " ++ items.length.repr ++ " (maximum " ++
        limits.maxInputItems.repr ++ ")"))
    else .ok items
  | .string _ => .error (.invalid "input"
      "input must be an array of input items; a bare string is not accepted")
  | .null => .error (.invalid "input" "input is required")
  | _ => .error (.invalid "input" "input must be an array of input items")

def single? : Json.Number → Option Binary
  | .int n => Format.single.ofInt n
  | .float b => Format.single.ofBinary b

def isWithin (bound : Nat) (b : Binary) : Bool :=
  b.isZero || (!b.negative && b.numerator ≤ bound * b.denominator)

/-- A sampling parameter as a single; one if it is left out. -/
def sampling (name : String) (bound : Nat) : Option Json.Number → Except Failure Binary
  | none => .ok singleOne
  | some n =>
    match (single? n).filter (isWithin bound) with
    | some b => .ok b
    | none => .error (.invalid name (name ++ " must be between 0 and " ++ bound.repr))

def maxOutputTokens : Option Int → Except Failure (Option Nat)
  | none => .ok none
  | some n =>
    if n ≤ 0 then
      .error (.invalid "max_output_tokens" "max_output_tokens must be greater than 0")
    else if (Nat.pow 2 32 : Nat) ≤ n then
      .error (.invalid "max_output_tokens" "max_output_tokens is too large")
    else .ok (some n.toNat)

def truncation : Option String → Except Failure Truncation
  | none | some "disabled" => .ok .disabled
  | some "auto" => .ok .auto
  | some other => .error (.invalid "truncation"
      ("invalid truncation '" ++ other ++ "': must be auto or disabled"))

/-- A response that is to be continued has an id, and its continuation is stored. -/
def checkPrevious (store : Bool) : Option String → Except Failure Unit
  | none => .ok ()
  | some id =>
    if !store then
      .error (.invalid "store" "previous_response_id cannot be used with store=false")
    else if !Id.isResponseId id then
      .error (.invalid "previous_response_id" ("invalid response id '" ++ id ++ "'"))
    else .ok ()

def outputSchema : TextFormat → Except Failure (Option OutputSchema)
  | .text => .ok none
  | .jsonSchema name schema _ strict =>
    if name.utf8ByteSize = 0 ∨ 64 < name.utf8ByteSize then
      .error (.invalid "text.format.name" "schema name must be 1-64 characters")
    else do
      (Schema.checkOutput schema).mapError fun place => (Schema.reportOfMalformed place).failure
      return some ⟨name, schema, strict.getD false⟩

def ancestry (store : Store) : Option String → Except Failure (List Response)
  | none => .ok []
  | some id => Ancestry.resolve store id

/-- Checks a request and builds what its turn starts from. -/
def accept (s : Setting) (r : Request) : Except Failure Admitted := do
  let model ← model s.limits r.model
  let input ← InputItem.listOfJson s.lane 0 (← rawItems s.limits r.input)
  let temperature ← sampling "temperature" 2 r.temperature
  let topP ← sampling "top_p" 1 r.topP
  let maxOutputTokens ← maxOutputTokens r.maxOutputTokens
  let truncation ← truncation r.truncation
  let store := r.store.getD true
  checkPrevious store r.previous
  let toolChoice := r.toolChoice.getD .auto
  let registry ← Registry.ofRequest s.limits.maxTools r.tools toolChoice
  let format := r.format.getD .text
  let outputSchema ← outputSchema format
  let ancestry ← ancestry s.store r.previous
  let messages ←
    Context.build s.count s.limits.contextWindow truncation r.instructions ancestry input
  let parallelToolCalls := r.parallelToolCalls.getD true
  return {
    registry
    request := {
      model, messages, tools := r.tools, toolChoice, outputSchema, temperature, topP
      maxOutputTokens, parallelToolCalls }
    response := {
      id := s.lane.id .response .response, createdAt := s.now, model, previous := r.previous
      instructions := r.instructions, input, tools := r.tools, toolChoice, format, temperature
      topP, maxOutputTokens, parallelToolCalls, store, metadata := r.metadata.getD []
      truncation } }

end Responder.Admission
