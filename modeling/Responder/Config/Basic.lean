import Responder.Config.SocketAddress
import Responder.Text
import Responder.Wait

/-!
# Configuration

The server is configured by environment variables. A blank variable counts as not set.
-/

namespace Responder

inductive ConfigFault where
  | invalid (name value reason : String)
  | missing (name : String)
  deriving DecidableEq, Repr

namespace ConfigFault

def message : ConfigFault → String
  | invalid name value reason => name ++ " has invalid value '" ++ value ++ "': " ++ reason
  | missing name => name ++ " is required when ANTWORT_BACKEND=openai"

end ConfigFault

inductive BackendChoice where
  | mock
  | remote (baseUrl : String) (apiKey : Option String)
  deriving DecidableEq, Repr

/-- What the server admits, and how much it keeps ready for a slow reader. -/
structure Limits where
  maxInputItems : Nat := 1000
  maxTools : Nat := 128
  /-- How many events wait for a reader before the turn waits too. -/
  eventBuffer : Nat := 64
  contextWindow : Nat := 64000
  /-- The model of requests that name none. -/
  defaultModel : Option String := none
  deriving DecidableEq, Repr

structure Config where
  listenAddress : SocketAddress
  backend : BackendChoice
  backendTimeoutSeconds : Nat
  /-- The bound of the store; zero stands for none. -/
  storeMaxEntries : Nat
  limits : Limits
  deriving DecidableEq, Repr

namespace Config

/-- Why a text is no natural of 64 bits. -/
inductive NumberFault where
  | digit
  | tooLarge

def NumberFault.message : NumberFault → String
  | digit => "invalid digit found in string"
  | tooLarge => "number too large to fit in target type"

/-- Reads digits one by one; what is wrong first counts. -/
def readDigits (value : Nat) : List Char → Except NumberFault Nat
  | [] => .ok value
  | c :: rest =>
    match Json.digit? c with
    | none => .error .digit
    | some d =>
      if Json.wordLimit ≤ value * 10 + d then .error .tooLarge
      else readDigits (value * 10 + d) rest

/-- A natural of 64 bits; a plus sign may stand before it. -/
def readNumber (text : List Char) : Except NumberFault Nat :=
  match text with
  | '+' :: c :: rest => readDigits 0 (c :: rest)
  | [] => .error .digit
  | _ => readDigits 0 text

def names : List String :=
  ["ANTWORT_BACKEND", "ANTWORT_BACKEND_URL", "ANTWORT_BACKEND_API_KEY",
    "ANTWORT_STREAM_BUFFER", "ANTWORT_LISTEN_ADDR", "ANTWORT_BACKEND_TIMEOUT_SECS",
    "ANTWORT_STORE_MAX_ENTRIES", "ANTWORT_MAX_INPUT_ITEMS", "ANTWORT_MAX_TOOLS",
    "ANTWORT_DEFAULT_MODEL"]

abbrev Environment := String → Option String

/-- A variable that is not blank. -/
def setting? (env : Environment) (name : String) : Option String :=
  (env name).filter fun value => !Text.isBlankText value.toList

def number (env : Environment) (name : String) (default : Nat) : Except ConfigFault Nat :=
  match setting? env name with
  | none => .ok default
  | some raw =>
    (readNumber (Text.trim raw.toList)).mapError fun fault => .invalid name raw fault.message

def defaultAddress : SocketAddress := .v4 [0, 0, 0, 0] 8080

def address (env : Environment) (name : String) : Except ConfigFault SocketAddress :=
  match setting? env name with
  | none => .ok defaultAddress
  | some raw =>
    match SocketAddress.ofText? (Text.trim raw.toList) with
    | some address => .ok address
    | none => .error (.invalid name raw "invalid socket address syntax")

def backendChoice (env : Environment) : Except ConfigFault BackendChoice :=
  match setting? env "ANTWORT_BACKEND" with
  | none | some "mock" => .ok .mock
  | some "openai" =>
    match setting? env "ANTWORT_BACKEND_URL" with
    | some url => .ok (.remote url (setting? env "ANTWORT_BACKEND_API_KEY"))
    | none => .error (.missing "ANTWORT_BACKEND_URL")
  | some other => .error (.invalid "ANTWORT_BACKEND" other "expected mock or openai")

/-- A buffer of events holds at least one. -/
def eventBuffer (env : Environment) : Except ConfigFault Nat := do
  let size ← number env "ANTWORT_STREAM_BUFFER" ({} : Limits).eventBuffer
  if size = 0 then .error (.invalid "ANTWORT_STREAM_BUFFER" "0" "must be at least 1")
  else return size

def ofEnvironment (env : Environment) : Except ConfigFault Config := do
  let backend ← backendChoice env
  let eventBuffer ← eventBuffer env
  let listenAddress ← address env "ANTWORT_LISTEN_ADDR"
  let backendTimeoutSeconds ← number env "ANTWORT_BACKEND_TIMEOUT_SECS" 120
  let storeMaxEntries ← number env "ANTWORT_STORE_MAX_ENTRIES" 0
  let maxInputItems ← number env "ANTWORT_MAX_INPUT_ITEMS" ({} : Limits).maxInputItems
  let maxTools ← number env "ANTWORT_MAX_TOOLS" ({} : Limits).maxTools
  return {
    listenAddress, backend, backendTimeoutSeconds, storeMaxEntries
    limits := {
      maxInputItems, maxTools, eventBuffer
      defaultModel := setting? env "ANTWORT_DEFAULT_MODEL" } }

end Config

end Responder
