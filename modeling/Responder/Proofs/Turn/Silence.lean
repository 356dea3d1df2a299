import Responder.Proofs.Turn.Reconstruction
import Responder.Proofs.Turn.Structured

/-!
# Completed responses that say nothing

A streamed turn opens a message only for a piece of text that is not empty, while a whole
answer becomes a message even if its text is empty. Main statement: a completed response calls
a tool or has text, unless its turn was answered at once, by an empty text without a call.
-/

namespace Responder

/-- An output in which a tool is called, or that has text. -/
def OutputItem.Speaks (output : List OutputItem) : Prop :=
  (∃ item ∈ output, item.isMessage = false) ∨ Response.textOf output ≠ ""

/-- A response that calls a tool, or has text. -/
def Response.Speaks (r : Response) : Prop :=
  (∃ item ∈ r.output, item.isMessage = false) ∨ r.outputText ≠ ""

/-- An event that brings no empty piece of text. -/
def Event.Worded (event : Event) : Prop := ∀ piece ∈ event.delta?, piece.2 ≠ ""

/-- An action that leads to no empty piece of text. -/
def Action.Worded : Action → Prop
  | .emit event => event.Worded
  | .append delta => delta ≠ ""
  | .ask | .askStream | .idle | .take .. | .read _ | .call _ | .settle _ => True

/-- A turn at this stage has nothing left to do that leads to an empty piece of text. -/
def Stage.Worded : Stage → Prop
  | working _ actions => ∀ action ∈ actions, action.Worded
  | settling .. | closing _ | ended _ => True

namespace OutputItem

theorem speaks_closed (status : Status) (output : List OutputItem) :
    Speaks (output.map (Accumulator.closeItem status)) ↔ Speaks output := by
  simp only [Speaks, Accumulator.textOf_closed, List.mem_map]
  simp

theorem speaks_of_text {output : List OutputItem} {item : OutputItem} (mem : item ∈ output)
    (spoken : item.text ≠ "") : Speaks output := by
  refine .inr fun silent => ?_
  obtain ⟨before, after, rfl⟩ := List.append_of_mem mem
  simp only [Response.textOf, List.map_append, List.map_cons, String.join_append,
    String.join_cons, String.append_eq_empty_iff] at silent
  exact spoken silent.2.1

end OutputItem

namespace Accumulator

variable {a : Accumulator} {registry : Registry} {lane : Lane} {schema : Option Json} {now : Int}
  {outcome : Outcome} {c : Completion}

theorem speaks_finalize (fresh : a.response.status = .inProgress) :
    (a.finalize schema now outcome).Speaks ↔ OutputItem.Speaks a.response.output := by
  rw [← OutputItem.speaks_closed (a.settle schema outcome).status, OutputItem.Speaks,
    textOf_closed, finalize_eq fresh]
  rfl

theorem finished_of_completed (fresh : a.response.status = .inProgress)
    (completed : (a.finalize schema now outcome).status = .completed) :
    outcome = .finished ∧ a.response.output ≠ [] := by
  have settles := settles schema a outcome
  rw [finalize_eq fresh] at completed
  dsimp only at completed
  generalize a.settle schema outcome = verdict at settles completed
  cases settles with
  | plain some | parsed some => exact ⟨rfl, some⟩
  | silent | cut | misfit | failed | cancelled => cases completed

theorem say_output (lane : Lane) (a : Accumulator) (c : Completion) :
    (a.say lane c).response.output = a.response.output ++ c.text.toList.map fun text =>
      .message (lane.id .message (.output a.nextIndex)) .completed [.outputText text] := by
  unfold say tally
  cases c.text <;> cases c.usage <;> simp [pushItem, recordUsage, recordFinish]

theorem shape_isMessage {index : Nat} {call : ToolCall} {item : OutputItem}
    (shaped : registry.shape lane index call = .ok item) : item.isMessage = false := by
  unfold Registry.shape at shaped
  split at shaped <;> cases shaped
  rfl

theorem pushCalls_prefix (registry : Registry) (lane : Lane) (a : Accumulator)
    (calls : List ToolCall) :
    a.response.output <+: (pushCalls registry lane a calls).1.response.output := by
  induction calls generalizing a with
  | nil => exact List.prefix_rfl
  | cons call rest ih =>
    simp only [pushCalls]
    split
    · next item _ => exact (List.prefix_append _ [item]).trans (ih (a.pushItem item))
    · exact List.prefix_rfl

/-- Calls that are all accepted are told as calls. -/
theorem pushCalls_speaks {calls : List ToolCall} (some : calls ≠ [])
    (unrefused : (pushCalls registry lane a calls).2 = none) :
    OutputItem.Speaks (pushCalls registry lane a calls).1.response.output := by
  obtain ⟨call, rest, rfl⟩ := List.exists_cons_of_ne_nil some
  simp only [pushCalls] at unrefused ⊢
  split at unrefused
  · next item shaped =>
    have added := pushCalls_prefix registry lane (a.pushItem item) rest
    have told := added.subset (List.mem_append_right _ (List.mem_singleton_self item))
    exact .inl ⟨item, told, shape_isMessage shaped⟩
  · cases unrefused

/-- A whole answer that is not empty says something if it has text that is not empty, or a
call. -/
theorem install_speaks {x : Response} {b : Accumulator} (empty : x.output = [])
    (installed : install registry lane { response := x } c = (b, .finished))
    (full : b.response.output ≠ []) :
    OutputItem.Speaks b.response.output ↔ ¬(c.text = some "" ∧ c.calls = []) := by
  rw [install_eq] at installed
  split at installed
  · cases installed
  · next taken =>
    cases installed
    have said := say_output lane { response := x } c
    rw [empty, List.nil_append] at said
    by_cases silent : c.calls = []
    · rw [silent] at taken
      cases taken
      rw [said] at full ⊢
      cases text : c.text with
      | none => simp [text] at full
      | some text =>
        simp [OutputItem.Speaks, Response.textOf, OutputItem.isMessage, OutputItem.text,
          OutputPart.text?, silent]
    · refine iff_of_true ?_ fun h => silent h.2
      have unrefused := congrArg Prod.snd taken
      have speaks := pushCalls_speaks silent unrefused
      rw [taken] at speaks
      exact speaks

end Accumulator

namespace Account

variable {first : Response}

/-- An account whose pieces of text are not empty says something, once it tells of a passage. -/
theorem speaks {passage : Passage} {more : List Passage} {current : Option Speech}
    (worded : ∀ event ∈ events ⟨passage :: more, current⟩ first, event.Worded) :
    OutputItem.Speaks (output ⟨passage :: more, current⟩) := by
  have told : passage.item ∈ output ⟨passage :: more, current⟩ :=
    List.mem_append_left _ List.mem_cons_self
  cases passage with
  | call id callId name arguments => exact .inl ⟨_, told, rfl⟩
  | message speech spoken =>
    obtain ⟨delta, rest, pieces⟩ := List.exists_cons_of_ne_nil spoken
    have here : .textDelta speech.id 0 delta ∈ (Passage.message speech spoken).events 0 := by
      simp [Passage.events, Speech.openEvents, pieces]
    have sent : .textDelta speech.id 0 delta ∈
        events ⟨.message speech spoken :: more, current⟩ first :=
      mem_events.2 (.inr (.inr (.inl ⟨0, _, rfl, here⟩)))
    have full : delta ≠ "" := worded _ sent (0, delta) rfl
    refine OutputItem.speaks_of_text told ?_
    rw [Passage.item_text]
    simp only [Passage.deltas, pieces, String.join_cons]
    exact fun silent => full (String.append_eq_empty_iff.1 silent).1

end Account

namespace Turn

open Admission (Setting Admitted accept accept_spec)

section streamed

variable {p : Prepared} {t : Turn} {a : Accumulator} {rest : List Action}

theorem worded_closingEvents (a : Accumulator) (left : ∀ action ∈ rest, action.Worded) :
    ∀ action ∈ closingEvents a ++ rest, action.Worded := by
  refine List.forall_mem_append.2 ⟨?_, left⟩
  unfold closingEvents
  split <;> simp [Action.Worded, Event.Worded, Event.delta?]

theorem worded_callEvents (index : Nat) (item : OutputItem)
    (left : ∀ action ∈ rest, action.Worded) :
    ∀ action ∈ callEvents index item ++ rest, action.Worded := by
  refine List.forall_mem_append.2 ⟨?_, left⟩
  cases item <;> simp [callEvents, Action.Worded, Event.Worded, Event.delta?]

theorem worded_takeResult (a : Accumulator) (source : ChunkStream)
    (result : Except BackendFault Chunk) : (t.takeResult a source result).Worded := by
  have reads : ∀ action ∈ [Action.read source], action.Worded := by simp [Action.Worded]
  cases result with
  | error fault => trivial
  | ok chunk =>
    cases chunk with
    | text delta =>
      simp only [takeResult, takeText]
      split
      · exact reads
      · next full =>
        split <;> simp [Stage.Worded, Action.Worded, Event.Worded, Event.delta?, full]
    | call call => exact worded_closingEvents a (List.forall_mem_cons.2 ⟨trivial, reads⟩)
    | usage usage => exact reads
    | finished reason => exact worded_closingEvents _ (List.forall_mem_singleton.2 trivial)

theorem worded_takeArrival (a : Accumulator) (arrival : Arrival) :
    (t.takeArrival a arrival).Worded := by
  cases arrival with
  | answer outcome => cases outcome <;> trivial
  | opening outcome =>
    cases outcome with
    | error fault => trivial
    | ok source => exact List.forall_mem_singleton.2 trivial
  | result result source => exact worded_takeResult a source result

theorem worded_awaiting (clock : Duration) (a : Accumulator) (w : Wait Arrival) :
    (Stage.awaiting clock a w).Worded := by
  cases w <;> exact List.forall_mem_singleton.2 trivial

/-- No shift leads to an empty piece of text. -/
theorem Shift.worded {events : List Event} {stage next : Stage} (h : Shift p t stage events next)
    (worded : stage.Worded) : (∀ event ∈ events, event.Worded) ∧ next.Worded := by
  have silent : ∀ event ∈ ([] : List Event), event.Worded := List.forall_mem_nil _
  cases h with
  | emit a event rest =>
    obtain ⟨own, left⟩ := List.forall_mem_cons.1 worded
    exact ⟨List.forall_mem_singleton.2 own, left⟩
  | ask clock a rest => exact ⟨silent, worded_awaiting clock a _⟩
  | askStream clock a rest => exact ⟨silent, worded_awaiting clock a _⟩
  | read clock result results a rest => exact ⟨silent, worded_awaiting clock a _⟩
  | take time arrival a rest => exact ⟨silent, worded_takeArrival a arrival⟩
  | exhaust a rest =>
    exact ⟨silent, worded_closingEvents a (List.forall_mem_singleton.2 trivial)⟩
  | append delta a rest opened =>
    obtain ⟨full, left⟩ := List.forall_mem_cons.1 worded
    refine ⟨silent, List.forall_mem_cons.2 ⟨?_, left⟩⟩
    rintro _ ⟨⟩
    exact full
  | appendNothing delta a rest opened => exact ⟨silent, (List.forall_mem_cons.1 worded).2⟩
  | call call a rest shaped =>
    exact ⟨silent, worded_callEvents _ _ (List.forall_mem_cons.1 worded).2⟩
  | refuse | settle | interrupt | finish | lose => exact ⟨silent, trivial⟩
  | tell response =>
    refine ⟨List.forall_mem_singleton.2 ?_, trivial⟩
    unfold Event.terminal
    cases response.status <;> exact nofun

end streamed

section whole

variable {p : Prepared} {t : Turn} {registry : Registry} {lane : Lane} {first : Response}
  {schema : Option Json}

/-- What a turn that waits for a whole answer has left to do. -/
inductive Asks (p : Prepared) : List Action → Prop
  | ask : Asks p [.ask]
  | idle : Asks p [.idle]
  | take (time : Duration) {outcome : Except BackendFault Completion} :
      p.answer.value? = some outcome → Asks p [.take time (.answer outcome)]

/-- What has come of a whole answer, if that is how the turn ended. -/
def Installed (p : Prepared) (registry : Registry) (lane : Lane) (first : Response)
    (a : Accumulator) (outcome : Outcome) : Prop :=
  a.response.status = first.status ∧ (outcome = .finished →
    ∃ c, p.answer.value? = some (.ok c) ∧
      Accumulator.install registry lane { response := first } c = (a, .finished))

/-- What holds of a turn that waits for a whole answer. -/
def AtOnce (p : Prepared) (registry : Registry) (lane : Lane) (first : Response)
    (schema : Option Json) : Stage → Prop
  | .working a actions => a = { response := first } ∧ Asks p actions
  | .settling a outcome => Installed p registry lane first a outcome
  | .closing r | .ended r => ∃ a outcome now, r = a.finalize schema now outcome ∧
      Installed p registry lane first a outcome

theorem atOnce_awaiting (clock : Duration) :
    AtOnce p registry lane first schema
      (.awaiting clock { response := first } (p.answer.map .answer)) := by
  cases answer : p.answer with
  | forever => exact ⟨rfl, .idle⟩
  | done after outcome => exact ⟨rfl, .take _ (by rw [answer]; rfl)⟩

/-- Nothing is added to a whole answer once it is there. -/
theorem Shift.atOnce {events : List Event} {stage next : Stage} (h : Shift p t stage events next)
    (atOnce : AtOnce p t.registry t.lane first t.schema stage) :
    AtOnce p t.registry t.lane first t.schema next := by
  cases h with
  | ask clock a rest =>
    obtain ⟨rfl, -⟩ := atOnce
    exact atOnce_awaiting clock
  | take time arrival a rest =>
    obtain ⟨rfl, asks⟩ := atOnce
    cases asks with
    | @take _ outcome answer =>
      cases outcome with
      | error fault => exact ⟨rfl, nofun⟩
      | ok c =>
        have begins : Accumulator.Accrues p t.registry t.lane first { response := first } := .start
        have accrues := (begins.install fun call mem => .inl ⟨c, answer, mem⟩).1
        exact ⟨accrues.status, fun finished => ⟨c, answer, Prod.ext rfl finished⟩⟩
  | interrupt a action rest waits =>
    obtain ⟨rfl, -⟩ := atOnce
    exact ⟨rfl, nofun⟩
  | finish now a outcome => exact ⟨a, outcome, now, rfl, atOnce⟩
  | tell response => exact atOnce
  | lose response gone => exact atOnce
  | emit | askStream | read | exhaust | append | appendNothing | call | refuse | settle =>
    cases atOnce.2

end whole

section
variable {s : Setting} {r : Request} {admitted : Admitted} {p : Prepared} {seen : Nat}
  {streamed : Bool} {read : List Sequenced} {ending : Option Outcome} {t : Turn}
  {final : Response}

theorem streamed_speaks (accepted : accept s r = .ok admitted)
    (run : Run p (admitted.turn s seen true) read ending t)
    (finished : t.response? = some final) (completed : final.status = .completed) :
    final.Speaks := by
  have fresh := (accept_spec accepted).status
  have opens : (admitted.turn s seen true).stage.Worded := by
    simp [Admitted.turn, opening, Stage.Worded, Action.Worded, Event.Worded, Event.delta?]
  have worded : ∀ event ∈ (sent read t).map (·.event), event.Worded := by
    refine (run.streams (P := fun _ events _ stage =>
      (∀ event ∈ events, event.Worded) ∧ stage.Worded) rfl ⟨List.forall_mem_nil _, opens⟩
      (fun h => h) ?_).holds.1
    rintro u before events stage ending - shift ⟨told, worded⟩
    obtain ⟨more, after⟩ := shift.worded worded
    exact ⟨List.forall_mem_append.2 ⟨told, more⟩, after⟩
  obtain ⟨body, told, concluded⟩ : ∃ body, body ⊆ (sent read t).map (·.event) ∧
      Concluded admitted.response (admitted.turn s seen true).schema body ending final := by
    have holds := (streams_telling accepted run).holds
    obtain closing | ended := response?_cases finished
    · rw [closing] at holds
      exact ⟨_, List.Subset.refl _, holds⟩
    · rw [ended] at holds
      obtain ⟨body, concluded, whole | ⟨cut, -⟩⟩ := holds
      · exact ⟨body, whole ▸ List.subset_append_left .., concluded⟩
      · exact ⟨body, cut ▸ List.Subset.refl _, concluded⟩
  obtain ⟨a, outcome, now, -, rfl, ⟨passages, current⟩, pending, tells, events, all, cut⟩ :=
    concluded
  have inProgress : a.response.status = .inProgress := by
    rw [tells.response]
    exact fresh
  obtain ⟨rfl, full⟩ := Accumulator.finished_of_completed inProgress completed
  -- The turn was not cut off, so that all its messages are closed and told of.
  obtain rfl : current = none := by
    obtain closed | cancelled | ⟨fault, failed⟩ := cut
    · exact closed
    · cases cancelled
    · cases failed
  rw [all (by simp), List.append_nil] at events
  rw [Accumulator.speaks_finalize inProgress, tells.response]
  cases passages with
  | nil => exact absurd (congrArg Response.output tells.response) full
  | cons passage more =>
    exact Account.speaks fun event mem => worded event (told (events ▸ mem))

theorem whole_speaks (accepted : accept s r = .ok admitted)
    (run : Run p (admitted.turn s seen false) read ending t)
    (finished : t.response? = some final) (completed : final.status = .completed) :
    ∃ c, p.answer.value? = some (.ok c) ∧
      (final.Speaks ↔ ¬(c.text = some "" ∧ c.calls = [])) := by
  have fresh := accept_spec accepted
  have holds : AtOnce p admitted.registry s.lane admitted.response
      (admitted.turn s seen false).schema t.stage := by
    refine run.stage_invariant (P := fun _ stage => AtOnce p admitted.registry s.lane
      admitted.response (admitted.turn s seen false).schema stage) ?_ ?_
    · exact ⟨rfl, .ask⟩
    intro u events stage ending kept shift before
    have schema : u.schema = (admitted.turn s seen false).schema := by
      simp only [Turn.schema, kept.request]
    have registry : u.registry = admitted.registry := kept.registry
    have lane : u.lane = s.lane := kept.lane
    rw [← schema, ← registry, ← lane] at before ⊢
    exact shift.atOnce before
  obtain ⟨a, outcome, now, rfl, same, installed⟩ : ∃ a outcome now,
      final = a.finalize (admitted.turn s seen false).schema now outcome ∧
        Installed p admitted.registry s.lane admitted.response a outcome := by
    obtain closing | ended := response?_cases finished
    · rw [closing] at holds
      exact holds
    · rw [ended] at holds
      exact holds
  have inProgress := same.trans fresh.status
  obtain ⟨rfl, full⟩ := Accumulator.finished_of_completed inProgress completed
  obtain ⟨c, answer, installed⟩ := installed rfl
  rw [Accumulator.speaks_finalize inProgress]
  exact ⟨c, answer, Accumulator.install_speaks fresh.output installed full⟩

/-- However a turn runs that completes, its response calls a tool or has text, unless it was
answered at once, by an empty text without a call. -/
theorem completed_speaks (accepted : accept s r = .ok admitted)
    (run : Run p (admitted.turn s seen streamed) read ending t)
    (finished : t.response? = some final) (completed : final.status = .completed) :
    final.Speaks ↔ ¬(streamed = false ∧ ∃ c, p.answer.value? = some (.ok c) ∧
      c.text = some "" ∧ c.calls = []) := by
  cases streamed with
  | true => exact iff_of_true (streamed_speaks accepted run finished completed) nofun
  | false =>
    obtain ⟨c, answer, speaks⟩ := whole_speaks accepted run finished completed
    simp [speaks, answer]

/-- A text is the whole response, if nothing is asked of its form. -/
theorem answering_plain (text : String) (accepted : accept s r = .ok admitted)
    (asked : r.outputSchema = none) : ∃ final,
      Finishes (answering text) (admitted.turn s seen false) final ∧
      final.status = .completed := by
  have fresh := accept_spec accepted
  have schema : (admitted.turn s seen false).schema = none := fresh.outputSchema_eq.trans asked
  have answer : (answering text).answer = .done .zero (.ok _) := rfl
  obtain ⟨final, finishes⟩ : ∃ final, Finishes _ (admitted.turn s seen false) final :=
    exists_finishes_of_answer answer seen
  obtain ⟨now, rfl⟩ := finishes.comes_to rfl (Accumulator.foretell_ask answer _)
  refine ⟨_, finishes, ?_⟩
  rw [schema, Accumulator.finalize_eq fresh.status]
  simp [Accumulator.install, Accumulator.pushCalls, Accumulator.settle,
    Accumulator.settleFinished, Accumulator.pushItem, Accumulator.recordFinish]

/-- A greeting that is answered by a word. -/
theorem word_speaks :
    ∃ admitted read ending t final, accept Admission.startup Admission.greeting = .ok admitted ∧
      Run (answering "hello") (admitted.turn Admission.startup 0 false) read ending t ∧
      t.response? = some final ∧ final.status = .completed ∧ final.Speaks := by
  obtain ⟨admitted, accepted⟩ := Admission.accept_greeting
  obtain ⟨final, ⟨read, ending, t, run, finished, -⟩, completed⟩ :=
    answering_plain "hello" accepted rfl
  refine ⟨admitted, read, ending, t, final, accepted, run, finished, completed, ?_⟩
  refine (completed_speaks accepted run finished completed).2 ?_
  rintro ⟨-, c, ⟨⟩, empty, -⟩
  revert empty
  decide

/-- A greeting that is answered by an empty text: the response completes and says nothing. -/
theorem empty_silent :
    ∃ admitted read ending t final, accept Admission.startup Admission.greeting = .ok admitted ∧
      Run (answering "") (admitted.turn Admission.startup 0 false) read ending t ∧
      t.response? = some final ∧ final.status = .completed ∧ ¬final.Speaks := by
  obtain ⟨admitted, accepted⟩ := Admission.accept_greeting
  obtain ⟨final, ⟨read, ending, t, run, finished, -⟩, completed⟩ :=
    answering_plain "" accepted rfl
  obtain ⟨c, answer, speaks⟩ := whole_speaks accepted run finished completed
  cases answer
  exact ⟨admitted, read, ending, t, final, accepted, run, finished, completed,
    fun told => speaks.1 told ⟨rfl, rfl⟩⟩

end

end Turn

end Responder
