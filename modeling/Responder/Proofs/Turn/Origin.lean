import Responder.Proofs.Turn.Run

/-!
# What a turn keeps of its response

What the request decides of a response stands from its admission on: its id, the response it
continues, its input and its settings. A turn changes only what comes of it.
-/

namespace Responder

/-- A response as it was admitted, without all that has come of it. -/
def Response.asked (r : Response) : Response :=
  { r with
    completedAt := none, status := .inProgress, error := none, incomplete := none, output := []
    outputText := "", outputParsed := none, usage := none }

namespace Accumulator

variable {a : Accumulator}

@[simp] theorem asked_pushText (a : Accumulator) (delta : String) :
    (a.pushText delta).response.asked = a.response.asked := by
  unfold pushText
  split <;> rfl

@[simp] theorem asked_closeText (a : Accumulator) :
    a.closeText.response.asked = a.response.asked := by
  unfold closeText
  split <;> rfl

theorem asked_pushCalls (registry : Registry) (lane : Lane) (a : Accumulator)
    (calls : List ToolCall) :
    (pushCalls registry lane a calls).1.response.asked = a.response.asked := by
  induction calls generalizing a with
  | nil => rfl
  | cons call rest ih =>
    simp only [pushCalls]
    split
    · next item _ => exact ih (a.pushItem item)
    · rfl

theorem asked_install (registry : Registry) (lane : Lane) (a : Accumulator) (c : Completion) :
    (a.install registry lane c).1.response.asked = a.response.asked := by
  have calls (b : Accumulator) (same : b.response.asked = a.response.asked) :
      (pushCalls registry lane b c.calls).1.response.asked = a.response.asked :=
    (asked_pushCalls registry lane b c.calls).trans same
  unfold install
  dsimp only
  split <;> next taken =>
    rw [← calls _ _, taken]
    cases c.usage <;> cases c.text <;> rfl

theorem asked_finalize (a : Accumulator) (schema : Option Json) (now : Int) (outcome : Outcome) :
    (a.finalize schema now outcome).asked = a.response.asked := by
  simp only [finalize, Response.transition]
  split
  · next allowed =>
    split at allowed
    · cases allowed
      rfl
    · cases allowed
  · rfl

end Accumulator

/-- A backend that never answers. -/
def Prepared.never : Prepared := ⟨.forever, .forever⟩

/-- The response of a turn, finished or not. -/
def Stage.response : Stage → Response
  | working a _ | settling a _ => a.response
  | closing response | ended response => response

namespace Turn

variable {p : Prepared} {t next : Turn}

theorem asked_awaiting (clock : Duration) (a : Accumulator) (w : Wait Arrival) :
    (Stage.awaiting clock a w).response = a.response := by
  cases w <;> rfl

theorem asked_takeResult (a : Accumulator) (rest : ChunkStream)
    (result : Except BackendFault Chunk) :
    (t.takeResult a rest result).response.asked = a.response.asked := by
  cases result with
  | error fault => rfl
  | ok chunk =>
    cases chunk with
    | text delta =>
      simp only [takeResult, takeText]
      split
      · rfl
      · split <;> rfl
    | call call => exact Accumulator.asked_closeText a
    | usage usage => rfl
    | finished reason => exact Accumulator.asked_closeText (a.recordFinish reason)

theorem asked_takeArrival (a : Accumulator) (arrival : Arrival) :
    (t.takeArrival a arrival).response.asked = a.response.asked := by
  cases arrival with
  | answer outcome =>
    cases outcome with
    | error fault => rfl
    | ok completion => exact Accumulator.asked_install t.registry t.lane a completion
  | opening outcome => cases outcome <;> rfl
  | result result rest => exact asked_takeResult a rest result

theorem Shift.asked {stage after : Stage} {events : List Event}
    (h : Shift p t stage events after) : after.response.asked = stage.response.asked := by
  cases h with
  | ask | askStream | read => rw [asked_awaiting]; rfl
  | take time arrival a rest => exact asked_takeArrival a arrival
  | exhaust a rest => exact Accumulator.asked_closeText a
  | append delta a rest opened => exact Accumulator.asked_pushText a delta
  | appendNothing delta a rest opened => exact Accumulator.asked_pushText a delta
  | finish now a outcome => exact Accumulator.asked_finalize a t.schema now outcome
  | emit | call | refuse | settle | interrupt | tell | lose => rfl

/-- A finished response is not changed any more. -/
theorem Shift.finished {stage after : Stage} {events : List Event} {r : Response}
    (h : Shift p t stage events after) (closing : stage = .closing r ∨ stage = .ended r) :
    after = .ended r := by
  cases h with
  | tell | lose =>
    obtain same | same := closing
    · cases same
      rfl
    · cases same
  | _ => obtain same | same := closing <;> cases same

/-- What a turn keeps whatever happens to it. -/
structure Continues (t next : Turn) : Prop where
  id : next.id = t.id
  asked : next.stage.response.asked = t.stage.response.asked
  finished : t.isInFlight = false → next.isInFlight = false

theorem Continues.refl (t : Turn) : Continues t t := ⟨rfl, rfl, fun h => h⟩

theorem Continues.trans {t u v : Turn} (h : Continues t u) (k : Continues u v) :
    Continues t v :=
  ⟨k.id.trans h.id, k.asked.trans h.asked, fun ended => k.finished (h.finished ended)⟩

theorem isInFlight_eq_false : t.isInFlight = false ↔
    ∃ r, t.stage = .closing r ∨ t.stage = .ended r := by
  unfold isInFlight
  cases t.stage <;> simp

/-- A turn whose stage stands goes on. -/
theorem Continues.of_stage (kept : Kept t next) (stage : next.stage = t.stage) :
    Continues t next := by
  refine ⟨kept.id, by rw [stage], fun ended => ?_⟩
  rw [isInFlight_eq_false, stage, ← isInFlight_eq_false]
  exact ended

theorem Move.continues (m : Move p t next) : Continues t next := by
  obtain ⟨events, shifted⟩ | ⟨kept, stage, -⟩ := m.cases_shifted
  · refine ⟨shifted.kept.id, shifted.shift.asked, fun ended => ?_⟩
    obtain ⟨r, closing⟩ := isInFlight_eq_false.1 ended
    exact isInFlight_eq_false.2 ⟨r, .inr (shifted.shift.finished closing)⟩
  · exact .of_stage kept stage

theorem receive_continues {event : Sequenced} (h : t.receive? = some (event, next)) :
    Continues t next := by
  obtain ⟨kept, stage, -⟩ := receive_spec h
  exact .of_stage kept stage

end Turn

end Responder
