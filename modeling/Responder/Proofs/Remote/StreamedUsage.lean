import Responder.Proofs.Remote.EventStream
import Responder.Proofs.Turn.Agreement

/-!
# Usage of streamed turns

A streamed turn is over with the first object that gives a reason to finish. Main statement: its
response reports the last usage up to this object. Usage that comes later is read from the
network, but no turn is left to record it.
-/

namespace Responder

namespace Remote

/-- The objects of a stream up to the one that finishes the answer. -/
def heard : List Json → List Json
  | [] => []
  | object :: rest =>
    if (finishReason? object).isSome then [object] else object :: heard rest

theorem heard_cases (objects : List Json) :
    (heard objects = objects ∧ ∀ object ∈ objects, finishReason? object = none) ∨
    ∃ early object rest reason, objects = early ++ object :: rest ∧
      heard objects = early ++ [object] ∧ (∀ object ∈ early, finishReason? object = none) ∧
      finishReason? object = some reason := by
  induction objects with
  | nil => exact .inl ⟨rfl, nofun⟩
  | cons first rest ih =>
    cases given : finishReason? first with
    | some reason =>
      have last : heard (first :: rest) = [first] := by
        rw [heard, given]
        rfl
      exact .inr ⟨[], first, rest, reason, rfl, last, nofun, given⟩
    | none =>
      have goes : heard (first :: rest) = first :: heard rest := by
        rw [heard, given]
        rfl
      rw [goes]
      have unfinished {others : List Json} (h : ∀ object ∈ others, finishReason? object = none) :
          ∀ object ∈ first :: others, finishReason? object = none := by
        intro object mem
        obtain rfl | mem := List.mem_cons.1 mem
        · exact given
        · exact h object mem
      obtain ⟨all, going⟩ | ⟨early, object, later, reason, rfl, until_, going, last⟩ := ih
      · exact .inl ⟨by rw [all], unfinished going⟩
      · exact .inr ⟨first :: early, object, later, reason, rfl, by rw [until_]; rfl,
          unfinished going, last⟩

/-- A stream tells text and usage of what is heard, then the calls, and then that the answer is
finished. -/
theorem told_heard (fresh : Nat → String) (objects : List Json) :
    ∃ calls reason later, Assembly.told fresh {} objects =
      (heard objects).flatMap said ++ (List.map Chunk.call calls ++ .finished reason :: later) := by
  have made (calls : List (Nat × CallBuffer)) :
      callsOf fresh calls = (calls.map fun entry => entry.2.call (fresh entry.1)).map .call := by
    rw [List.map_map]
    rfl
  obtain ⟨all, going⟩ | ⟨early, object, rest, reason, rfl, until_, going, last⟩ :=
    heard_cases objects
  · obtain ⟨reason, told⟩ := Assembly.told_unfinished fresh {} rfl going
    rw [all, told, made]
    exact ⟨_, _, [], rfl⟩
  · rw [until_, Assembly.told_last rfl going last, made]
    exact ⟨_, _, _, rfl⟩

/-- What a stream opens with, once there is a reply. -/
theorem Client.stream_opening {client : Client} {request : ChatRequest} {reply : Reply}
    {after : Duration} (fresh : Nat → String)
    (replied : (client.attempt (bodyJson request true).text (maxAttempts - 1)).2 =
      .done after (.ok reply)) :
    ∃ timeout, (client.stream fresh request).2 =
      .done after (.ok ⟨streamOf fresh timeout reply.ending {} reply.pieces⟩) := by
  rw [stream]
  generalize client.attempt (bodyJson request true).text (maxAttempts - 1) = outcome at replied
  obtain ⟨next, answered⟩ := outcome
  cases replied
  exact ⟨next.timeout, rfl⟩

/-- What a stream opens with, once there is a reply whose body is complete. -/
theorem Client.stream_opens {client : Client} {request : ChatRequest} {reply : Reply}
    {after : Duration} (fresh : Nat → String)
    (replied : (client.attempt (bodyJson request true).text (maxAttempts - 1)).2 =
      .done after (.ok reply)) (complete : reply.ending = .complete) :
    ∃ timeout, (client.stream fresh request).2 =
      .done after (.ok ⟨streamOf fresh timeout .complete {} reply.pieces⟩) :=
  complete ▸ stream_opening fresh replied

end Remote

namespace Accumulator

variable {registry : Registry} {lane : Lane} {a : Accumulator}

theorem addText_usage (lane : Lane) (a : Accumulator) (delta : String) :
    (a.addText lane delta).usage = a.usage :=
  addTexts_usage lane a [delta]

/-- Text and usage leave the last usage recorded. -/
theorem consume_plain {chunks : List Chunk}
    (plain : ∀ chunk ∈ chunks, chunk.call? = none ∧ chunk.reason? = none)
    (rest : List (Wait (Except BackendFault Chunk))) :
    ∃ b : Accumulator,
      a.consume registry lane (chunks.map (fun chunk => .now (.ok chunk)) ++ rest) =
        b.consume registry lane rest ∧
      b.usage = ((chunks.filterMap Chunk.usage?).getLast? <|> a.usage) := by
  induction chunks generalizing a with
  | nil => exact ⟨a, rfl, rfl⟩
  | cons chunk more ih =>
    have later := fun chunk mem => plain chunk (List.mem_cons_of_mem _ mem)
    cases chunk with
    | text delta =>
      obtain ⟨b, same, usage⟩ := ih later (a := a.addText lane delta)
      exact ⟨b, same, by rw [usage, addText_usage]; rfl⟩
    | usage counted =>
      obtain ⟨b, same, usage⟩ := ih later (a := a.recordUsage counted)
      refine ⟨b, same, usage.trans ?_⟩
      have view : (.usage counted :: more).filterMap Chunk.usage? =
          counted :: more.filterMap Chunk.usage? := rfl
      rw [view, List.getLast?_cons]
      cases (more.filterMap Chunk.usage?).getLast? <;> rfl
    | call made => cases (plain _ List.mem_cons_self).1
    | finished reason => cases (plain _ List.mem_cons_self).2

/-- Calls and the end of an answer record no usage. -/
theorem consume_end (calls : List ToolCall) (reason : FinishReason)
    (rest : List (Wait (Except BackendFault Chunk))) :
    ∃ (b : Accumulator) (outcome : Outcome), a.consume registry lane
        ((calls.map Chunk.call).map (fun chunk => .now (.ok chunk)) ++
          .now (.ok (.finished reason)) :: rest) = some (b, outcome) ∧ b.usage = a.usage := by
  induction calls generalizing a with
  | nil => exact ⟨_, _, rfl, closeText_usage (a.recordFinish reason)⟩
  | cons call more ih =>
    simp only [List.map_cons, List.cons_append, Wait.now, consume] at ih ⊢
    split
    · next item shaped =>
      obtain ⟨b, outcome, same, usage⟩ := ih (a := a.closeText.pushItem item)
      exact ⟨b, outcome, same, usage.trans (closeText_usage a)⟩
    · exact ⟨_, _, rfl, closeText_usage a⟩

end Accumulator

namespace Turn

variable {p : Prepared} {admitted : Admission.Admitted} {s : Admission.Setting}
  {objects : List Json} {ended : Bool}

/-- What the stream of a reply comes to: no turn hears what follows the end of an answer. -/
theorem usage_of_stream {fresh : Nat → String} {after timeout : Duration}
    {pieces : List (List UInt8)} (stream : Remote.EventStream objects ended pieces.flatten)
    (opens : p.opening =
      .done after (.ok ⟨Remote.Client.streamOf fresh timeout .complete {} pieces⟩)) (seen : Nat) :
    (∃ x, Finishes p (admitted.turn s seen true) x) ∧
      ∀ x, Finishes p (admitted.turn s seen true) x →
        x.usage = ((Remote.heard objects).filterMap Remote.usage?).getLast? := by
  have streamed := Remote.Client.streamOf_complete fresh timeout {} pieces
  rw [Remote.Decoder.readAll_stream stream] at streamed
  dsimp only at streamed
  rw [streamed] at opens
  constructor
  · have told : ((Remote.Assembly.told fresh {} objects).map fun chunk =>
        Wait.now (Except.ok chunk : Except BackendFault Chunk)).map Wait.value? =
          (Remote.Assembly.told fresh {} objects).map fun chunk => some (.ok chunk) := by
      rw [List.map_map]
      rfl
    exact exists_finishes (turn_lively (streamArrives_of_values opens told)) (turn_quiet _ _ _ _)
      turn_roomy rfl
  · intro x finishes
    obtain ⟨calls, reason, later, told⟩ := Remote.told_heard fresh objects
    rw [told, List.map_append, List.map_append, List.map_cons] at opens
    have foretold := Accumulator.foretell_opening admitted.registry s.lane opens
      { response := admitted.response } admitted.response
    dsimp only at foretold
    obtain ⟨b, said, recorded⟩ := Accumulator.consume_plain (fun _ => Remote.plain_of_said) _
    obtain ⟨c, outcome, ends, same⟩ := Accumulator.consume_end calls reason _
    obtain ⟨now, rfl⟩ := finishes.comes_to rfl (foretold.trans (said.trans ends))
    rw [Accumulator.usage_finalize, same, recorded, Remote.usages_said]
    cases ((Remote.heard objects).filterMap Remote.usage?).getLast? <;> rfl

/-- An uninterrupted turn reports the last usage that its upstream sends up to the object that
finishes the answer, and so the last of all if none comes after it. -/
theorem streamed_usage {client : Remote.Client} {reply : Remote.Reply} {after : Duration}
    (replied : (client.attempt (Remote.bodyJson admitted.request true).text
      (Remote.Client.maxAttempts - 1)).2 = .done after (.ok reply))
    (complete : reply.ending = .complete)
    (stream : Remote.EventStream objects ended reply.pieces.flatten)
    (opens : p.opening = (client.stream (Backend.callId s.lane) admitted.request).2)
    (seen : Nat) :
    (∃ x, Finishes p (admitted.turn s seen true) x) ∧
      ∀ x, Finishes p (admitted.turn s seen true) x →
        x.usage = ((Remote.heard objects).filterMap Remote.usage?).getLast? := by
  obtain ⟨timeout, opened⟩ := Remote.Client.stream_opens (Backend.callId s.lane) replied complete
  exact usage_of_stream stream (opens.trans opened) seen

end Turn

namespace Remote

/-- A client whose requests are all answered with a stream of the same objects. -/
def replying (objects : List Json) : Client where
  baseUrl := "http://localhost:8000"
  timeout := .ofSeconds 60
  network := .replies [.now { pieces := [streamBytes objects] }]

/-- A client whose requests are all answered with the same pieces. -/
def serving (pieces : List (List UInt8)) : Client where
  baseUrl := "http://localhost:8000"
  timeout := .ofSeconds 60
  network := .replies [.now { pieces }]

theorem serving_replies (pieces : List (List UInt8)) (body : String) :
    ((serving pieces).attempt body (Client.maxAttempts - 1)).2 = .done .zero (.ok { pieces }) := by
  have base : (serving pieces).base = (serving []).base := rfl
  have addressed : (Url.ofText .ascii ((serving []).base ++ "/chat/completions")).isOk = true := by
    decide +kernel
  have posted : ((serving pieces).post body).2 = .done .zero (.ok { pieces }) := by
    unfold Client.post Client.send Client.request
    rw [base]
    cases url : Url.ofText .ascii ((serving []).base ++ "/chat/completions") with
    | error fault =>
      rw [url] at addressed
      cases addressed
    | ok parsed =>
      dsimp only
      rw [url]
      rfl
  unfold Client.maxAttempts Client.attempt
  generalize (serving pieces).post body = outcome at posted
  obtain ⟨next, answered⟩ := outcome
  cases posted
  rfl

theorem replying_replies (objects : List Json) (body : String) :
    ((replying objects).attempt body (Client.maxAttempts - 1)).2 =
      .done .zero (.ok { pieces := [streamBytes objects] }) :=
  serving_replies [streamBytes objects] body

/-- A word of an answer. -/
def word : Json := .ofMembers
  [("choices", .array [.ofMembers [("delta", .ofMembers [("content", .string "a")])]])]

/-- The end of an answer. -/
def stop : Json := .ofMembers
  [("choices", .array [.ofMembers [("delta", .ofMembers []), ("finish_reason", .string "stop")]])]

/-- Usage in an object of its own. -/
def count : Json := .ofMembers
  [("choices", .array []),
    ("usage", .ofMembers [("prompt_tokens", .ofNat 1), ("completion_tokens", .ofNat 2)])]

end Remote

namespace Turn

open Admission (accept startup greeting)
open Remote (replying replying_replies word stop count streamBytes)

/-- Usage before the end is reported. -/
theorem early_usage_reported : ∃ admitted p x, accept startup greeting = .ok admitted ∧
    p.opening = ((replying [word, count, stop]).stream (Backend.callId startup.lane)
      admitted.request).2 ∧
    Finishes p (admitted.turn startup 0 true) x ∧ x.usage = some ⟨1, 2⟩ := by
  obtain ⟨admitted, accepted⟩ := Admission.accept_greeting
  have stream : Remote.EventStream [word, count, stop] true
      [streamBytes [word, count, stop]].flatten := by
    rw [List.flatten_singleton]
    exact .of_objects (by decide +kernel) (by decide +kernel)
  let p : Prepared := ⟨.forever,
    ((replying [word, count, stop]).stream (Backend.callId startup.lane) admitted.request).2⟩
  obtain ⟨⟨x, finishes⟩, usage⟩ :=
    streamed_usage (p := p) (replying_replies _ _) rfl stream rfl 0
  exact ⟨admitted, p, x, accepted, rfl, finishes, usage x finishes⟩

/-- Usage after the end is lost, although it is the last that its stream tells. -/
theorem late_usage_lost : ∃ admitted p x, accept startup greeting = .ok admitted ∧
    p.opening = ((replying [word, stop, count]).stream (Backend.callId startup.lane)
      admitted.request).2 ∧
    Remote.EventStream [word, stop, count] true (streamBytes [word, stop, count]) ∧
    ([word, stop, count].filterMap Remote.usage?).getLast? = some ⟨1, 2⟩ ∧
    Finishes p (admitted.turn startup 0 true) x ∧ x.usage = none := by
  obtain ⟨admitted, accepted⟩ := Admission.accept_greeting
  have stream : Remote.EventStream [word, stop, count] true
      (streamBytes [word, stop, count]) :=
    .of_objects (by decide +kernel) (by decide +kernel)
  have pieces : Remote.EventStream [word, stop, count] true
      [streamBytes [word, stop, count]].flatten := by
    rw [List.flatten_singleton]
    exact stream
  let p : Prepared := ⟨.forever,
    ((replying [word, stop, count]).stream (Backend.callId startup.lane) admitted.request).2⟩
  have replied := replying_replies [word, stop, count] (Remote.bodyJson admitted.request true).text
  obtain ⟨timeout, opens⟩ :=
    Remote.Client.stream_opens (Backend.callId startup.lane) replied rfl
  obtain ⟨⟨x, finishes⟩, usage⟩ := usage_of_stream (p := p) pieces opens 0
  exact ⟨admitted, p, x, accepted, rfl, stream, by decide +kernel, finishes, usage x finishes⟩

end Turn

end Responder
