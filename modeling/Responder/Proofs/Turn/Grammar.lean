import Responder.Proofs.Server.Admission
import Responder.Proofs.Turn.Calm
import Responder.Proofs.Turn.Telling

/-!
# The grammar of an event stream

A stream of events begins with two events on the response, goes on with a block for each
item of the output, and ends with one event on the finished response. Main statement: this
is what each streamed turn sends, whatever its backend answers, and whenever it is cancelled
or its client leaves; only these two and a fault of the stream cut it off early.
-/

namespace Responder

/-- The events of one item: all of them carry its index and its id. -/
inductive Block (index : Nat) : List Event → Prop
  | text (added done : OutputItem) (id : String) (part whole : OutputPart)
      (deltas : List String) (text : String) : added.id = id → added.isMessage = true →
      done.id = id → done.isMessage = true → deltas ≠ [] →
      Block index ([.itemAdded index added, .partAdded id index part] ++
        deltas.map (.textDelta id index) ++
        [.textDone id index text, .partDone id index whole, .itemDone index done])
  | call (added done : OutputItem) (id arguments : String) : added.id = id →
      added.isMessage = false → done.id = id → done.isMessage = false →
      Block index [.itemAdded index added, .argumentsDone id index arguments,
        .itemDone index done]

/-- A stream of events without its last one. -/
inductive Narrative : List Event → Prop
  | mk (created inProgress : Response) (blocks : List (List Event)) :
      (∀ index (h : index < blocks.length), Block index blocks[index]) →
      Narrative (.created created :: .inProgress inProgress :: blocks.flatten)

namespace Passage

theorem events_block (index : Nat) (passage : Passage) : Block index (passage.events index) := by
  cases passage with
  | message speech spoken =>
    obtain ⟨id, deltas⟩ := speech
    exact .text (.message id .inProgress []) _ id _ _ deltas _ rfl rfl rfl rfl spoken
  | call id callId name arguments =>
    exact .call (.functionCall id .inProgress callId name "") _ id arguments rfl rfl rfl rfl

end Passage

namespace Account

variable {first : Response}

theorem blocks_spec (k : Account) (index : Nat) (h : index < k.blocks.length) :
    Block index k.blocks[index] := by
  simp only [blocks, List.getElem_mapIdx]
  exact Passage.events_block index _

theorem events_narrative {k : Account} (closed : k.current = none) :
    Narrative (k.events first) := by
  have whole := Narrative.mk first first k.blocks k.blocks_spec
  simpa [events, currentEvents, closed] using whole

/-- Each account can be completed to a whole narrative. -/
theorem events_prefix (k : Account) (first : Response) :
    ∃ whole, Narrative whole ∧ k.events first <+: whole := by
  obtain ⟨passages, _ | s⟩ := k
  · exact ⟨_, events_narrative rfl, List.prefix_refl _⟩
  · -- One more piece of text lets the open message be closed.
    have said : s.deltas ++ [""] ≠ [] := by simp
    refine ⟨events ⟨passages ++ [.message ⟨s.id, s.deltas ++ [""]⟩ said], none⟩ first,
      events_narrative rfl, ?_⟩
    rw [← events_close said, ← events_extend, List.append_assoc]
    exact List.prefix_append ..

end Account

theorem Block.not_terminal {index : Nat} {events : List Event} (h : Block index events) :
    ∀ event ∈ events, event.isTerminal = false := by
  intro event mem
  cases h with
  | text added done id part whole deltas text =>
    simp only [List.mem_append, List.mem_cons, List.mem_map, List.not_mem_nil, or_false] at mem
    obtain ((rfl | rfl) | ⟨delta, -, rfl⟩) | rfl | rfl | rfl := mem <;> rfl
  | call added done id arguments =>
    simp only [List.mem_cons, List.not_mem_nil, or_false] at mem
    obtain rfl | rfl | rfl := mem <;> rfl

theorem Narrative.not_terminal {events : List Event} (h : Narrative events) :
    ∀ event ∈ events, event.isTerminal = false := by
  obtain ⟨created, inProgress, blocks, each⟩ := h
  intro event mem
  simp only [List.mem_cons, List.mem_flatten] at mem
  obtain rfl | rfl | ⟨block, inBlocks, mem⟩ := mem
  · rfl
  · rfl
  · obtain ⟨index, h, rfl⟩ := List.mem_iff_getElem.1 inBlocks
    exact (each index h).not_terminal event mem

namespace Turn

open Admission (Setting Admitted accept accept_spec)

variable {p : Prepared} {t : Turn} {first : Response} {read : List Sequenced}
  {ending : Option Outcome}

/-- A narrative that may be cut off: by an interruption anywhere, by a fault of the stream
only after the stream was asked for. -/
def Narrates (ending : Option Outcome) (body : List Event) : Prop :=
  (∃ whole, Narrative whole ∧ body <+: whole) ∧
    ∀ outcome, ending = some outcome → Narrative body ∨ outcome = .cancelled ∨
      ∃ fault : BackendFault, outcome = .failed (.backend fault.message) ∧
        ∃ created inProgress rest, body = .created created :: .inProgress inProgress :: rest

theorem Told.narrates {a : Accumulator} {outcome : Outcome} {body : List Event}
    (told : Told first a outcome body) : Narrates (some outcome) body := by
  obtain ⟨k, pending, -, events, all, current⟩ := told
  obtain ⟨whole, narrative, pre⟩ := k.events_prefix first
  refine ⟨⟨whole, narrative, (List.prefix_append body pending).trans (events ▸ pre)⟩, ?_⟩
  intro other same
  cases same
  by_cases cancelled : outcome = .cancelled
  · exact .inr (.inl cancelled)
  · obtain rfl := all cancelled
    rw [List.append_nil] at events
    subst events
    obtain closed | cancelled' | ⟨fault, failed⟩ := current
    · exact .inl (Account.events_narrative closed)
    · exact absurd cancelled' cancelled
    · exact .inr (.inr ⟨fault, failed, first, first, _, rfl⟩)

/-- The events of a turn at a stage: a narrative, and at the end the event on the finished
response, which is lost only with the client. -/
def Obeys (gone : Bool) (events : List Event) (ending : Option Outcome) (stage : Stage) : Prop :=
  ∃ body last, events = body ++ last ∧ Narrates ending body ∧
    (∀ event ∈ body, event.isTerminal = false) ∧
    match stage with
    | .working .. => last = []
    | .settling .. | .closing _ => ending.isSome ∧ last = []
    | .ended r => ending.isSome ∧ (last = [.terminal r] ∨ last = [] ∧ gone = true)

theorem Narrates.not_terminal {body : List Event} (h : Narrates ending body) :
    ∀ event ∈ body, event.isTerminal = false := by
  obtain ⟨⟨whole, narrative, pre⟩, -⟩ := h
  exact fun event mem => narrative.not_terminal event (pre.subset mem)

theorem Telling.obeys {schema : Option Json} {gone : Bool} {events : List Event} {stage : Stage}
    (undecided : ∀ a actions, stage = .working a actions → ending = none)
    (h : Telling first schema gone events ending stage) : Obeys gone events ending stage := by
  cases stage with
  | working a actions =>
    obtain ⟨k, pending, rest, -, -, -, told⟩ := h
    obtain ⟨whole, narrative, pre⟩ := k.events_prefix first
    have cut : events <+: whole := (List.prefix_append events pending).trans (told ▸ pre)
    have narrates : Narrates ending events := by
      refine ⟨⟨whole, narrative, cut⟩, fun outcome decided => ?_⟩
      rw [undecided a actions rfl] at decided
      cases decided
    exact ⟨events, [], (List.append_nil _).symm, narrates, narrates.not_terminal, rfl⟩
  | settling a outcome =>
    obtain ⟨rfl, told⟩ := h
    have quiet := told.narrates.not_terminal
    exact ⟨events, [], (List.append_nil _).symm, told.narrates, quiet, rfl, rfl⟩
  | closing r =>
    obtain ⟨a, outcome, now, rfl, -, told⟩ := h
    have quiet := told.narrates.not_terminal
    exact ⟨events, [], (List.append_nil _).symm, told.narrates, quiet, rfl, rfl⟩
  | ended r =>
    obtain ⟨body, ⟨a, outcome, now, rfl, -, told⟩, sent⟩ := h
    have quiet := told.narrates.not_terminal
    obtain rfl | ⟨rfl, gone⟩ := sent
    · exact ⟨body, [.terminal r], rfl, told.narrates, quiet, rfl, .inl rfl⟩
    · exact ⟨events, [], (List.append_nil _).symm, told.narrates, quiet, rfl, .inr ⟨rfl, gone⟩⟩

section
variable {s : Setting} {r : Request} {admitted : Admitted} {seen : Nat}

theorem streams_telling (accepted : accept s r = .ok admitted)
    (run : Run p (admitted.turn s seen true) read ending t) :
    Streams (Telling admitted.response (admitted.turn s seen true).schema) read ending t := by
  refine run.streams rfl (telling_opening (accept_spec accepted).output) Telling.leave ?_
  intro u before events stage ending kept shift telling
  have same : u.schema = (admitted.turn s seen true).schema := by
    simp only [schema, kept.request]
  rw [← same] at telling ⊢
  exact telling.shift shift

theorem turn_lively (arrives : p.StreamArrives) : (admitted.turn s seen true).stage.Lively p :=
  lively_emits [_, _] (lively_single arrives)

theorem turn_roomy : (admitted.turn s seen true).Roomy := by
  intro channel h
  cases h
  exact Nat.le_max_left 1 _

end

end Turn

end Responder
