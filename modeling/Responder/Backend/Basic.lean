import Responder.Chat
import Responder.Wait

/-!
# Answers of backends

A backend answers with a completion or with a stream, or fails. A script is a backend that
gives one prepared answer after the other, whatever it is asked.
-/

namespace Responder

inductive BackendFault where
  | request (message : String)
  | status (code : Nat) (body : String)
  | undecodable (message : String)
  | timeout (after : Duration)
  deriving DecidableEq, Repr

namespace BackendFault

def message : BackendFault → String
  | request message => "backend request failed: " ++ message
  | status code body => "backend returned status " ++ code.repr ++ ": " ++ body
  | undecodable message => "backend response could not be decoded: " ++ message
  | timeout after => "backend timed out after " ++ after.text

def isRetryable : BackendFault → Bool
  | request _ | timeout _ => true
  | status code _ => 500 ≤ code
  | undecodable _ => false

end BackendFault

/-- What a backend sends: each result is waited for after the one before it, so one that
never arrives holds up all that follow. -/
structure ChunkStream where
  results : List (Wait (Except BackendFault Chunk))

/-- The end of waiting for a whole answer. -/
abbrev Answer := Wait (Except BackendFault Completion)

/-- The end of waiting for a stream to begin. -/
abbrev Opening := Wait (Except BackendFault ChunkStream)

/-- What one request is answered with, whether it asks for a whole answer or a stream. -/
structure Prepared where
  answer : Answer
  opening : Opening

/-- Prepared answers in order; the last one answers all requests that follow. -/
structure Script where
  answers : List Prepared
  models : Except BackendFault (List String) := .ok []

namespace Script

/-- The answer to one request, and the script for the next. Without answers a request
waits forever. -/
def next (s : Script) : Prepared × Script :=
  match s.answers with
  | [] => (⟨.forever, .forever⟩, s)
  | [last] => (last, s)
  | first :: rest => (first, { s with answers := rest })

end Script

end Responder
