import Responder.Backend.Basic
import Responder.Turn.Accumulator
import Responder.Turn.Event

/-!
# Actions

What a turn has still to do is a list of actions. At some of them it has to wait: for
room in the channel of its events, or for its backend; only there can it be interrupted.
-/

namespace Responder

/-- Something that comes from the backend. -/
inductive Arrival where
  | answer (outcome : Except BackendFault Completion)
  /-- The beginning of a stream. -/
  | opening (outcome : Except BackendFault ChunkStream)
  /-- A result of a stream, and the rest of it. -/
  | result (result : Except BackendFault Chunk) (rest : ChunkStream)

inductive Action where
  /-- Puts an event on the channel. -/
  | emit (event : Event)
  | ask
  | askStream
  /-- Waits for something that never comes. -/
  | idle
  /-- Waits for a time, and takes what arrives then. -/
  | take (time : Duration) (arrival : Arrival)
  | read (source : ChunkStream)
  | append (delta : String)
  | call (call : ToolCall)
  | settle (outcome : Outcome)

/-- A bound on the steps of reading a stream to its end. -/
def ChunkStream.budget (source : ChunkStream) : Nat := 5 + 9 * source.results.length

/-- A bound on the steps of taking what arrives. -/
def Arrival.budget : Arrival → Nat
  | answer _ | opening (.error _) => 1
  | opening (.ok source) => 1 + source.budget
  | result _ rest => 8 + rest.budget

namespace Action

/-- Whether a turn can be interrupted here. -/
def waits : Action → Bool
  | emit _ | ask | askStream | idle | take .. | read _ => true
  | append _ | call _ | settle _ => false

/-- A bound on the steps that an action leads to. -/
def budget : Action → Nat
  | emit _ | ask | askStream | idle | settle _ => 1
  | append _ => 2
  | call _ => 4
  | take _ arrival => arrival.budget
  | read source => source.budget

end Action

end Responder
