import Responder.Proofs.Turn.Agreement

/-!
# What a turn accumulates

A turn extends what it has accumulated by what its backend sends, in a few ways. Main
statement: a finished response is finalized from something that accrued so, and its outcome
comes from the backend, from a call that was refused or from an interruption. This holds for
every run, blocking or streamed, wherever it was cut off.
-/

namespace Responder

namespace Prepared

/-- A result in the stream of a backend. -/
def Sends (p : Prepared) (result : Except BackendFault Chunk) : Prop :=
  ∃ source, p.opening.value? = some (.ok source) ∧ ∃ w ∈ source.results, w.value? = some result

/-- A fault in place of an answer, or in a stream. -/
def Faults (p : Prepared) (fault : BackendFault) : Prop :=
  p.answer.value? = some (.error fault) ∨ p.opening.value? = some (.error fault) ∨
    p.Sends (.error fault)

/-- A call in an answer or in a stream. -/
def Calls (p : Prepared) (call : ToolCall) : Prop :=
  (∃ c, p.answer.value? = some (.ok c) ∧ call ∈ c.calls) ∨ p.Sends (.ok (.call call))

end Prepared

/-- What can have come of a response, by the answers of a backend. -/
inductive Accumulator.Accrues (p : Prepared) (registry : Registry) (lane : Lane)
    (first : Response) : Accumulator → Prop
  | start : Accrues p registry lane first { response := first }
  | say {a : Accumulator} (id text : String) : Accrues p registry lane first a →
      Accrues p registry lane first (a.pushItem (.message id .completed [.outputText text]))
  | openMessage {a : Accumulator} (id : String) : Accrues p registry lane first a →
      Accrues p registry lane first (a.openMessage id)
  | pushText {a : Accumulator} (delta : String) : Accrues p registry lane first a →
      Accrues p registry lane first (a.pushText delta)
  | closeText {a : Accumulator} : Accrues p registry lane first a →
      Accrues p registry lane first a.closeText
  | recordUsage {a : Accumulator} (usage : TokenUsage) : Accrues p registry lane first a →
      Accrues p registry lane first (a.recordUsage usage)
  | recordFinish {a : Accumulator} (reason : FinishReason) : Accrues p registry lane first a →
      Accrues p registry lane first (a.recordFinish reason)
  | call {a : Accumulator} {call : ToolCall} {item : OutputItem} : p.Calls call →
      registry.shape lane a.nextIndex call = .ok item → Accrues p registry lane first a →
      Accrues p registry lane first (a.pushItem item)

/-- Where an outcome comes from. -/
inductive Outcome.From (p : Prepared) (registry : Registry) : Outcome → Prop
  | finished : From p registry .finished
  | cancelled : From p registry .cancelled
  | fault {fault : BackendFault} : p.Faults fault →
      From p registry (.failed (.backend fault.message))
  | refused {call : ToolCall} {message : String} : p.Calls call →
      registry.callFault call = some message → From p registry (.failed (.toolContract message))

/-- What is left of the stream of a backend. -/
def ChunkStream.From (p : Prepared) (source : ChunkStream) : Prop :=
  ∀ w ∈ source.results, ∀ result ∈ w.value?, p.Sends result

def Arrival.From (p : Prepared) : Arrival → Prop
  | .answer outcome => p.answer.value? = some outcome
  | .opening outcome => p.opening.value? = some outcome
  | .result sent rest => p.Sends sent ∧ rest.From p

/-- An action with what a backend has sent. -/
def Action.From (p : Prepared) : Action → Prop
  | .take _ arrival => arrival.From p
  | .read source => source.From p
  | .call made => p.Calls made
  | .settle outcome => outcome = .finished
  | .emit _ | .ask | .askStream | .idle | .append _ => True

/-- A response that is finalized from what accrued. -/
def Accrued (p : Prepared) (registry : Registry) (lane : Lane) (first : Response)
    (schema : Option Json) (ending : Option Outcome) (r : Response) : Prop :=
  ∃ (a : Accumulator) (outcome : Outcome) (now : Int), ending = some outcome ∧
    a.Accrues p registry lane first ∧ outcome.From p registry ∧ r = a.finalize schema now outcome

/-- What a turn has accumulated, and what it has left to do. -/
def Stage.Accrues (p : Prepared) (registry : Registry) (lane : Lane) (first : Response)
    (schema : Option Json) (ending : Option Outcome) : Stage → Prop
  | working a actions => a.Accrues p registry lane first ∧ ∀ action ∈ actions, action.From p
  | settling a outcome => ending = some outcome ∧ a.Accrues p registry lane first ∧
      outcome.From p registry
  | closing r | ended r => Accrued p registry lane first schema ending r

section
variable {p : Prepared} {registry : Registry} {lane : Lane} {first : Response} {a : Accumulator}

theorem Registry.shape_error {index : Nat} {call : ToolCall} {failure : Failure}
    (h : registry.shape lane index call = .error failure) :
    ∃ message, registry.callFault call = some message ∧ failure = .toolContract message := by
  unfold shape at h
  split at h
  · next message fault =>
    cases h
    exact ⟨message, fault, rfl⟩
  · cases h

namespace Accumulator

theorem Accrues.status (h : a.Accrues p registry lane first) :
    a.response.status = first.status := by
  induction h with
  | start => rfl
  | pushText delta _ ih => exact (pushText_status _ delta).trans ih
  | closeText _ ih => exact (closeText_status _).trans ih
  | say _ _ _ ih | openMessage _ _ ih | recordUsage _ _ ih | recordFinish _ _ ih | call _ _ _ ih =>
    exact ih

theorem Accrues.pushCalls (h : a.Accrues p registry lane first) {calls : List ToolCall}
    (made : ∀ call ∈ calls, p.Calls call) :
    (pushCalls registry lane a calls).1.Accrues p registry lane first ∧
      ∀ failure ∈ (pushCalls registry lane a calls).2,
        (Outcome.failed failure).From p registry := by
  induction calls generalizing a with
  | nil => exact ⟨h, nofun⟩
  | cons call rest ih =>
    have own : p.Calls call := made call List.mem_cons_self
    simp only [Accumulator.pushCalls]
    split
    · next item shaped =>
      exact ih (h.call own shaped) fun other mem => made other (List.mem_cons_of_mem _ mem)
    · next failure shaped =>
      obtain ⟨message, fault, rfl⟩ := Registry.shape_error shaped
      refine ⟨h, ?_⟩
      rintro _ ⟨⟩
      exact .refused own fault

theorem Accrues.install (h : a.Accrues p registry lane first) {c : Completion}
    (made : ∀ call ∈ c.calls, p.Calls call) :
    (a.install registry lane c).1.Accrues p registry lane first ∧
      (a.install registry lane c).2.From p registry := by
  have tallied : (a.tally c.usage c.finish).Accrues p registry lane first := by
    unfold tally
    cases c.usage with
    | none => exact h.recordFinish c.finish
    | some usage => exact (h.recordUsage usage).recordFinish c.finish
  have said : (a.say lane c).Accrues p registry lane first := by
    unfold Accumulator.say
    cases c.text with
    | none => exact tallied
    | some text => exact tallied.say _ text
  have pushed := said.pushCalls made
  rw [install_eq]
  split
  · next failure taken =>
    rw [taken] at pushed
    exact ⟨pushed.1, pushed.2 failure rfl⟩
  · next taken =>
    rw [taken] at pushed
    exact ⟨pushed.1, .finished⟩

end Accumulator

end

namespace Turn

variable {p : Prepared} {start t : Turn} {first : Response} {schema : Option Json}
  {ending : Option Outcome} {a : Accumulator} {rest : List Action}

theorem from_emits (events : List Event) (left : ∀ action ∈ rest, action.From p) :
    ∀ action ∈ events.map Action.emit ++ rest, action.From p := by
  intro action mem
  obtain emits | later := List.mem_append.1 mem
  · obtain ⟨event, -, rfl⟩ := List.mem_map.1 emits
    trivial
  · exact left action later

theorem from_tail {action : Action} (left : ∀ other ∈ action :: rest, other.From p) :
    ∀ other ∈ rest, other.From p :=
  fun other mem => left other (List.mem_cons_of_mem _ mem)

/-- The open message is closed before something else is done. -/
theorem accrues_closeText (h : a.Accrues p t.registry t.lane first)
    (left : ∀ action ∈ rest, action.From p) :
    Stage.Accrues p t.registry t.lane first schema ending
      (.working a.closeText (closingEvents a ++ rest)) := by
  obtain ⟨events, -, closing⟩ := closingEvents_emits a
  rw [closing]
  exact ⟨h.closeText, from_emits events left⟩

theorem accrues_text (h : a.Accrues p t.registry t.lane first) {source : ChunkStream}
    (sent : source.From p) (delta : String) :
    Stage.Accrues p t.registry t.lane first schema ending
      (t.takeResult a source (.ok (.text delta))) := by
  have reads : ∀ action ∈ [Action.read source], action.From p := List.forall_mem_singleton.2 sent
  have appends : ∀ action ∈ [Action.append delta, .read source], action.From p :=
    List.forall_mem_cons.2 ⟨trivial, reads⟩
  simp only [takeResult, takeText]
  split
  · exact ⟨h, reads⟩
  · split
    · exact ⟨h, appends⟩
    · exact ⟨h.openMessage _, from_emits [_, _] appends⟩

theorem accrues_result (h : a.Accrues p t.registry t.lane first) {source : ChunkStream}
    (sent : source.From p) {result : Except BackendFault Chunk} (own : p.Sends result) :
    Stage.Accrues p t.registry t.lane first schema
      ((t.takeResult a source result).outcome? <|> ending) (t.takeResult a source result) := by
  have reads : ∀ action ∈ [Action.read source], action.From p := List.forall_mem_singleton.2 sent
  cases result with
  | error fault => exact ⟨rfl, h, .fault (.inr (.inr own))⟩
  | ok chunk =>
    cases chunk with
    | text delta => exact accrues_text h sent delta
    | call made => exact accrues_closeText h (List.forall_mem_cons.2 ⟨.inr own, reads⟩)
    | usage usage => exact ⟨h.recordUsage usage, reads⟩
    | finished reason =>
      exact accrues_closeText (h.recordFinish reason) (List.forall_mem_singleton.2 rfl)

theorem accrues_arrival (h : a.Accrues p t.registry t.lane first) {arrival : Arrival}
    (own : arrival.From p) :
    Stage.Accrues p t.registry t.lane first schema
      ((t.takeArrival a arrival).outcome? <|> ending) (t.takeArrival a arrival) := by
  cases arrival with
  | answer outcome =>
    cases outcome with
    | error fault => exact ⟨rfl, h, .fault (.inl own)⟩
    | ok c =>
      obtain ⟨accrues, origin⟩ := h.install fun call mem => .inl ⟨c, own, mem⟩
      exact ⟨rfl, accrues, origin⟩
  | opening outcome =>
    cases outcome with
    | error fault => exact ⟨rfl, h, .fault (.inr (.inl own))⟩
    | ok source =>
      have sent : source.From p := fun w mem result value => ⟨source, own, w, mem, value⟩
      exact ⟨h, List.forall_mem_singleton.2 sent⟩
  | result result source => exact accrues_result h own.2 own.1

theorem accrues_awaiting {α : Type} (h : a.Accrues p t.registry t.lane first) (clock : Duration)
    {w : Wait α} {arrival : α → Arrival}
    (own : ∀ value ∈ w.value?, (arrival value).From p) :
    Stage.Accrues p t.registry t.lane first schema ending
      (.awaiting clock a (w.map arrival)) := by
  cases w with
  | forever => exact ⟨h, List.forall_mem_singleton.2 trivial⟩
  | done after value => exact ⟨h, List.forall_mem_singleton.2 (own value rfl)⟩

/-- Every shift extends what accrued in one of the ways, or ends it for a reason. -/
theorem Shift.accrues {events : List Event} {stage next : Stage}
    (shift : Shift p t stage events next)
    (h : stage.Accrues p t.registry t.lane first t.schema ending) :
    next.Accrues p t.registry t.lane first t.schema (next.outcome? <|> ending) := by
  cases shift with
  | emit a event rest => exact ⟨h.1, from_tail h.2⟩
  | ask clock a rest =>
    rw [Stage.outcome?_awaiting]
    exact accrues_awaiting h.1 clock fun value same => same
  | askStream clock a rest =>
    rw [Stage.outcome?_awaiting]
    exact accrues_awaiting h.1 clock fun value same => same
  | take time arrival a rest =>
    have own : arrival.From p := h.2 _ List.mem_cons_self
    exact accrues_arrival h.1 own
  | read clock result results a rest =>
    have sent : ChunkStream.From p ⟨result :: results⟩ := h.2 _ List.mem_cons_self
    rw [Stage.outcome?_awaiting]
    apply accrues_awaiting h.1 clock
    intro value same
    have later : ChunkStream.From p ⟨results⟩ := fun w mem => sent w (List.mem_cons_of_mem _ mem)
    exact ⟨sent result List.mem_cons_self value same, later⟩
  | exhaust a rest => exact accrues_closeText h.1 (List.forall_mem_singleton.2 rfl)
  | append delta a rest opened =>
    exact ⟨h.1.pushText delta, from_emits [_] (from_tail h.2)⟩
  | appendNothing delta a rest opened => exact ⟨h.1.pushText delta, from_tail h.2⟩
  | call call a rest shaped =>
    have own : p.Calls call := h.2 _ List.mem_cons_self
    obtain ⟨events, -, told⟩ := callEvents_emits a.nextIndex ‹OutputItem›
    rw [told]
    exact ⟨h.1.call own shaped, from_emits events (from_tail h.2)⟩
  | refuse call a rest shaped =>
    have own : p.Calls call := h.2 _ List.mem_cons_self
    obtain ⟨message, fault, rfl⟩ := Registry.shape_error shaped
    exact ⟨rfl, h.1, .refused own fault⟩
  | settle outcome a rest =>
    have finished : outcome = .finished := h.2 _ List.mem_cons_self
    rw [finished]
    exact ⟨rfl, h.1, .finished⟩
  | interrupt a action rest waits => exact ⟨rfl, h.1, .cancelled⟩
  | finish now a outcome =>
    obtain ⟨rfl, accrues, origin⟩ := h
    exact ⟨a, outcome, now, rfl, accrues, origin, rfl⟩
  | tell response => exact h
  | lose response gone => exact h

variable {read : List Sequenced} {final : Response} {actions : List Action}

/-- What a turn finishes with has accrued by the answers of its backend. -/
theorem Run.accrued (works : start.stage = .working { response := first } actions)
    (left : ∀ action ∈ actions, action.From p) (run : Run p start read ending t)
    (finished : t.response? = some final) :
    Accrued p start.registry start.lane first start.schema ending final := by
  have holds : t.stage.Accrues p start.registry start.lane first start.schema ending := by
    refine run.stage_invariant (P := fun ending stage =>
      stage.Accrues p start.registry start.lane first start.schema ending) ?_ ?_
    · rw [works]
      exact ⟨.start, left⟩
    · intro u events stage ending kept shift before
      have schema : u.schema = start.schema := by simp only [Turn.schema, kept.request]
      rw [← kept.registry, ← kept.lane, ← schema] at before ⊢
      exact shift.accrues before
  obtain closing | ended := response?_cases finished
  · rw [closing] at holds
    exact holds
  · rw [ended] at holds
    exact holds

theorem admitted_accrued {admitted : Admission.Admitted} {s : Admission.Setting} {seen : Nat}
    {streamed : Bool} (run : Run p (admitted.turn s seen streamed) read ending t)
    (finished : t.response? = some final) :
    Accrued p admitted.registry s.lane admitted.response
      (admitted.request.outputSchema.map (·.schema)) ending final := by
  have asks : ∀ action ∈ [Action.ask], action.From p := List.forall_mem_singleton.2 trivial
  have opens : ∀ action ∈ opening admitted.response, action.From p :=
    from_emits [_, _] (List.forall_mem_singleton.2 trivial)
  cases streamed with
  | false => exact run.accrued rfl asks finished
  | true => exact run.accrued rfl opens finished

end Turn

end Responder
