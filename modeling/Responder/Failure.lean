import Responder.Schema.Check
import Responder.Schema.Validate
import Responder.Status

/-!
# Failures of requests and turns

A failure before a turn starts is answered at once; one during a turn becomes the
`error` member of a failed response.
-/

namespace Responder

inductive Failure where
  | validation (param : Option String) (message : String)
  | previousNotFound (id : String)
  | notFound (id : String)
  | backend (message : String)
  | outputNotJson (message : String)
  | outputMismatch (message : String)
  | toolContract (message : String)
  | transition (start next : Status)
  | store (message : String)
  deriving DecidableEq, Repr

/-- The `error` member of a failed response. -/
structure ErrorDetail where
  type : String
  code : String
  message : String
  deriving DecidableEq, Repr

namespace ErrorDetail

def toJson (d : ErrorDetail) : Json :=
  .ofMembers [("type", .string d.type), ("code", .string d.code), ("message", .string d.message)]

end ErrorDetail

namespace Failure

/-- A request is refused because of one of its members. -/
def invalid (param message : String) : Failure := .validation (some param) message

def message : Failure → String
  | validation _ message => message
  | previousNotFound id => "previous response '" ++ id ++ "' not found"
  | notFound id => "response '" ++ id ++ "' not found"
  | backend message => "backend error: " ++ message
  | outputNotJson message => "structured output is not valid JSON: " ++ message
  | outputMismatch message => "structured output does not match schema: " ++ message
  | toolContract message => "tool contract violation: " ++ message
  | transition start next =>
    "invalid status transition from " ++ start.text ++ " to " ++ next.text
  | store message => "storage error: " ++ message

def typeAndCode : Failure → String × String
  | backend _ => ("server_error", "backend_error")
  | outputNotJson _ => ("model_error", "structured_output_parse_error")
  | outputMismatch _ => ("model_error", "structured_output_schema_mismatch")
  | toolContract _ => ("model_error", "tool_contract_violation")
  | validation .. => ("invalid_request", "invalid_request")
  | previousNotFound _ | notFound _ => ("not_found", "not_found")
  | transition .. | store _ => ("server_error", "internal_error")

def detail (f : Failure) : ErrorDetail := ⟨f.typeAndCode.1, f.typeAndCode.2, f.message⟩

end Failure

namespace Schema

/-- A fault of a schema, of a value or of a text, in words. -/
inductive Report where
  | notJson (message : String)
  | mismatch (path message : String)
  | malformed (path message : String)
  deriving DecidableEq, Repr

namespace Report

/-- What is wrong, after the path of its place. -/
def text : Report → String
  | notJson message => message
  | mismatch path message | malformed path message => path ++ ": " ++ message

/-- A schema is part of a request; a text and a value are part of a turn. -/
def failure (r : Report) : Failure :=
  match r with
  | notJson message => .outputNotJson message
  | mismatch .. => .outputMismatch r.text
  | malformed .. => .invalid "text.format.schema" ("invalid JSON schema: " ++ r.text)

end Report

def reportOfMalformed (place : At Malformed) : Report :=
  .malformed (pathText root place.steps) place.cause.message

def reportOfMismatch (place : At Mismatch) : Report :=
  .mismatch (pathText root place.steps) place.cause.message

def TextMismatch.report : TextMismatch → Report
  | .notJson message => .notJson message
  | .mismatch place => reportOfMismatch place

end Schema

end Responder
