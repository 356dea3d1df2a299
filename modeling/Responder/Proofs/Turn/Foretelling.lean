import Responder.Proofs.Turn.Calm

/-!
# What an uninterrupted turn comes to

What a backend answers decides what a turn accumulates and how it settles, unless the turn
is interrupted: neither the clock nor the client has a part in it. `foretell` evaluates all
that a turn has left to do at once, and every shift but an interruption keeps its value.
-/

namespace Responder

namespace Accumulator

variable {registry : Registry} {lane : Lane}

/-- Adds a piece of text: a message is opened for it if none is open. -/
def addText (lane : Lane) (a : Accumulator) (delta : String) : Accumulator :=
  if delta = "" then a
  else if a.openText.isSome then a.pushText delta
  else (a.openMessage (lane.id .message (.output a.nextIndex))).pushText delta

/-- Adds the results of a stream to its end, unless one of them never arrives. -/
def consume (registry : Registry) (lane : Lane) (a : Accumulator) :
    List (Wait (Except BackendFault Chunk)) → Option (Accumulator × Outcome)
  | [] => some (a.closeText, .finished)
  | .forever :: _ => none
  | .done _ (.error fault) :: _ => some (a, .failed (.backend fault.message))
  | .done _ (.ok (.text delta)) :: rest => consume registry lane (a.addText lane delta) rest
  | .done _ (.ok (.call call)) :: rest =>
    match registry.shape lane a.closeText.nextIndex call with
    | .ok item => consume registry lane (a.closeText.pushItem item) rest
    | .error failure => some (a.closeText, .failed failure)
  | .done _ (.ok (.usage usage)) :: rest => consume registry lane (a.recordUsage usage) rest
  | .done _ (.ok (.finished reason)) :: _ => some ((a.recordFinish reason).closeText, .finished)

/-- It does not matter how long a result is waited for. -/
theorem consume_after (a : Accumulator) (after : Duration) (result : Except BackendFault Chunk)
    (rest : List (Wait (Except BackendFault Chunk))) :
    a.consume registry lane (.done after result :: rest) =
      a.consume registry lane (.now result :: rest) := by
  cases result with
  | error fault => rfl
  | ok chunk => cases chunk <;> rfl

/-- Adds what arrives from the backend, and all that follows it. -/
def arrive (registry : Registry) (lane : Lane) (a : Accumulator) :
    Arrival → Option (Accumulator × Outcome)
  | .answer (.error fault) | .opening (.error fault) =>
    some (a, .failed (.backend fault.message))
  | .answer (.ok completion) => some (a.install registry lane completion)
  | .opening (.ok source) => a.consume registry lane source.results
  | .result result rest => a.consume registry lane (.now result :: rest.results)

/-- Does all that is left to do. -/
def foretell (p : Prepared) (registry : Registry) (lane : Lane) (a : Accumulator) :
    List Action → Option (Accumulator × Outcome)
  | [] | .idle :: _ => none
  | .emit _ :: rest => a.foretell p registry lane rest
  | .ask :: _ => p.answer.value?.bind fun outcome => a.arrive registry lane (.answer outcome)
  | .askStream :: _ =>
    p.opening.value?.bind fun outcome => a.arrive registry lane (.opening outcome)
  | .take _ arrival :: _ => a.arrive registry lane arrival
  | .read source :: _ => a.consume registry lane source.results
  | .append delta :: rest => (a.pushText delta).foretell p registry lane rest
  | .call call :: rest =>
    match registry.shape lane a.nextIndex call with
    | .ok item => (a.pushItem item).foretell p registry lane rest
    | .error failure => some (a, .failed failure)
  | .settle outcome :: _ => some (a, outcome)

theorem foretell_emits {p : Prepared} (a : Accumulator) (events : List Event)
    (rest : List Action) :
    a.foretell p registry lane (events.map .emit ++ rest) = a.foretell p registry lane rest := by
  induction events with
  | nil => rfl
  | cons event more ih => exact ih

theorem foretell_ask {p : Prepared} {after : Duration} {c : Completion}
    (answer : p.answer = .done after (.ok c)) (a : Accumulator) :
    a.foretell p registry lane [.ask] = some (a.install registry lane c) := by
  simp only [foretell, answer, Wait.value?, Option.bind_some, arrive]

theorem foretell_opening (registry : Registry) (lane : Lane) {p : Prepared} {after : Duration}
    {source : ChunkStream} (opens : p.opening = .done after (.ok source)) (a : Accumulator)
    (response : Response) :
    a.foretell p registry lane (Turn.opening response) =
      a.consume registry lane source.results := by
  simp only [Turn.opening, foretell, opens, Wait.value?, Option.bind_some, arrive]

end Accumulator

namespace Turn

variable {p : Prepared} {start t : Turn} {read : List Sequenced} {ending : Option Outcome}
  {a : Accumulator} {goal : Accumulator × Outcome}

/-- A turn at a stage is on the way to a goal, or was interrupted on it. -/
def Heads (p : Prepared) (registry : Registry) (lane : Lane) (schema : Option Json)
    (goal : Accumulator × Outcome) (ending : Option Outcome) : Stage → Prop
  | .working a actions => a.foretell p registry lane actions = some goal
  | .settling a outcome => ending = some outcome ∧ (outcome = .cancelled ∨ (a, outcome) = goal)
  | .closing r | .ended r => ending = some .cancelled ∨
      ending = some goal.2 ∧ ∃ now, r = goal.1.finalize schema now goal.2

section
variable {schema : Option Json}

theorem heads_text {rest : ChunkStream} {delta : String}
    (h : (a.addText t.lane delta).consume t.registry t.lane rest.results = some goal) :
    Heads p t.registry t.lane schema goal ending (t.takeResult a rest (.ok (.text delta))) := by
  unfold Accumulator.addText at h
  simp only [takeResult, takeText]
  split
  · next empty =>
    rw [if_pos empty] at h
    exact h
  · next full =>
    rw [if_neg full] at h
    split
    · next opened =>
      rw [if_pos opened] at h
      exact h
    · next closed =>
      rw [if_neg closed] at h
      exact h

theorem heads_call {rest : ChunkStream} {call : ToolCall}
    (h : a.consume t.registry t.lane (.now (.ok (.call call)) :: rest.results) = some goal) :
    Heads p t.registry t.lane schema goal ending (t.takeResult a rest (.ok (.call call))) := by
  obtain ⟨events, -, closing⟩ := closingEvents_emits a
  simp only [takeResult, closing, Heads, Accumulator.foretell_emits]
  simp only [Accumulator.foretell]
  exact h

theorem heads_result {rest : ChunkStream} (result : Except BackendFault Chunk)
    (h : a.consume t.registry t.lane (.now result :: rest.results) = some goal) :
    Heads p t.registry t.lane schema goal ((t.takeResult a rest result).outcome? <|> ending)
      (t.takeResult a rest result) := by
  cases result with
  | error fault => exact ⟨rfl, .inr (Option.some.inj h)⟩
  | ok chunk =>
    cases chunk with
    | text delta => exact heads_text h
    | call call => exact heads_call h
    | usage usage => exact h
    | finished reason =>
      obtain ⟨events, -, closing⟩ := closingEvents_emits (a.recordFinish reason)
      simp only [takeResult, closing, Heads, Accumulator.foretell_emits]
      exact h

theorem heads_arrival (arrival : Arrival)
    (h : a.arrive t.registry t.lane arrival = some goal) :
    Heads p t.registry t.lane schema goal ((t.takeArrival a arrival).outcome? <|> ending)
      (t.takeArrival a arrival) := by
  cases arrival with
  | answer outcome => cases outcome <;> exact ⟨rfl, .inr (Option.some.inj h)⟩
  | opening outcome =>
    cases outcome with
    | error fault => exact ⟨rfl, .inr (Option.some.inj h)⟩
    | ok source => exact h
  | result result rest => exact heads_result result h

theorem heads_awaiting {α : Type} {clock : Duration} {w : Wait α} {arrival : α → Arrival}
    (h : (w.value?.bind fun value => a.arrive t.registry t.lane (arrival value)) = some goal) :
    Heads p t.registry t.lane schema goal ending (.awaiting clock a (w.map arrival)) := by
  cases w with
  | forever => cases h
  | done after value => exact h

/-- A turn that heads for a goal goes on to do so. -/
theorem Shift.heads {events : List Event} {stage next : Stage} (h : Shift p t stage events next)
    (heads : Heads p t.registry t.lane t.schema goal ending stage) :
    Heads p t.registry t.lane t.schema goal (next.outcome? <|> ending) next := by
  cases h with
  | emit a event rest => exact heads
  | ask clock a rest =>
    rw [Stage.outcome?_awaiting]
    exact heads_awaiting heads
  | askStream clock a rest =>
    rw [Stage.outcome?_awaiting]
    exact heads_awaiting heads
  | take time arrival a rest => exact heads_arrival arrival heads
  | read clock result results a rest =>
    rw [Stage.outcome?_awaiting]
    refine heads_awaiting ?_
    cases result with
    | forever => cases heads
    | done after value => exact (Accumulator.consume_after ..).symm.trans heads
  | exhaust a rest =>
    obtain ⟨events, -, closing⟩ := closingEvents_emits a
    simp only [closing, Heads, Accumulator.foretell_emits]
    exact heads
  | append delta a rest opened => exact heads
  | appendNothing delta a rest opened => exact heads
  | call call a rest shaped =>
    obtain ⟨events, -, told⟩ := callEvents_emits a.nextIndex ‹OutputItem›
    simp only [Heads, Accumulator.foretell, shaped] at heads
    simp only [told, Heads, Accumulator.foretell_emits]
    exact heads
  | refuse call a rest shaped =>
    simp only [Heads, Accumulator.foretell, shaped] at heads
    exact ⟨rfl, .inr (Option.some.inj heads)⟩
  | settle outcome a rest => exact ⟨rfl, .inr (Option.some.inj heads)⟩
  | interrupt a action rest waits =>
    -- The only shift that leaves the way to the goal.
    exact ⟨rfl, .inl rfl⟩
  | finish now a outcome =>
    obtain ⟨rfl, rfl | rfl⟩ := heads
    · exact .inl rfl
    · exact .inr ⟨rfl, now, rfl⟩
  | tell response => exact heads
  | lose response gone => exact heads

end

/-- A turn of which something is foretold heads for it all along its run. -/
theorem Run.heads {a : Accumulator} {actions : List Action} (run : Run p start read ending t)
    (working : start.stage = .working a actions)
    (told : a.foretell p start.registry start.lane actions = some goal) :
    Heads p start.registry start.lane start.schema goal ending t.stage := by
  refine run.stage_invariant (P := Heads p start.registry start.lane start.schema goal) ?_ ?_
  · rw [working]
    exact told
  · intro u events stage ending kept shift before
    have schema : u.schema = start.schema := by simp only [Turn.schema, kept.request]
    rw [← kept.registry, ← kept.lane, ← schema] at before ⊢
    exact shift.heads before

/-- An uninterrupted turn comes to what its backend's answer decides. -/
theorem Finishes.comes_to {a : Accumulator} {actions : List Action} {r : Response}
    (h : Finishes p start r) (working : start.stage = .working a actions)
    (told : a.foretell p start.registry start.lane actions = some goal) :
    ∃ now, r = goal.1.finalize start.schema now goal.2 := by
  obtain ⟨read, ending, t, run, finished, calm⟩ := h
  have heads := run.heads working told
  obtain hs | hs := response?_cases finished
  · rw [hs] at heads
    exact (heads.resolve_left calm).2
  · rw [hs] at heads
    exact (heads.resolve_left calm).2

theorem busy_of_heads {registry : Registry} {lane : Lane} {schema : Option Json} {stage : Stage}
    (h : Heads p registry lane schema goal ending stage) : stage.Busy := by
  cases stage with
  | working a actions =>
    cases actions with
    | nil => cases h
    | cons action rest =>
      refine ⟨action, rest, rfl, ?_⟩
      rintro rfl
      cases h
  | settling | closing | ended => trivial

/-- A turn of which something is foretold can finish, whatever else its backend would send. -/
theorem exists_finishes_of_foretold {a : Accumulator} {actions : List Action}
    (working : start.stage = .working a actions)
    (told : a.foretell p start.registry start.lane actions = some goal)
    (quiet : start.stage.Quiet) (roomy : start.Roomy) (present : start.clientGone = false) :
    ∃ r, Finishes p start r := by
  obtain ⟨more, ending, last, r, calm, ended, -⟩ :=
    Calm.goes.ends (fun calm => busy_of_heads (calm.run.heads working told)) (.start present)
      roomy present
  exact ⟨r, calm.finishes quiet (by simp only [response?, ended])⟩

end Turn

end Responder
