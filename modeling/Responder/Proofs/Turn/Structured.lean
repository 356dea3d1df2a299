import Responder.Proofs.Json.Margins
import Responder.Proofs.Turn.Verdict

/-!
# Structured output

An answer that has to follow a schema is trimmed before it is read, but told as it came. Main
statement: a completed response tells a value that the schema allows and that its trimmed text
stands for; the text as it is told can be read exactly if nothing but white space of JSON was
trimmed, and then stands for the same value.
-/

namespace Responder

theorem Response.textOf_message (id : String) (status : ItemStatus) (text : String) :
    textOf [.message id status [.outputText text]] = text := by
  simp [textOf, OutputItem.text, OutputPart.text?]

namespace Accumulator

variable {a : Accumulator} {json : Json} {now : Int} {outcome : Outcome}

/-- A response that completes with a message has the value of its text. -/
theorem finalize_structured (fresh : a.response.status = .inProgress)
    (completed : (a.finalize (some json) now outcome).status = .completed)
    (spoken : (a.finalize (some json) now outcome).output.any OutputItem.isMessage = true) :
    ∃ value, (a.finalize (some json) now outcome).outputParsed = some value ∧
      Schema.validateText json (a.finalize (some json) now outcome).outputText = .ok value := by
  have settles := settles (some json) a outcome
  rw [finalize_eq fresh] at completed spoken ⊢
  dsimp only at completed spoken ⊢
  rw [any_isMessage_closed] at spoken
  generalize a.settle (some json) outcome = verdict at settles completed ⊢
  cases settles with
  | parsed some asked _ valid =>
    cases asked
    exact ⟨_, rfl, valid⟩
  | plain some unchecked =>
    obtain asked | silent := unchecked
    · cases asked
    · cases silent.symm.trans spoken
  | silent | cut | misfit | failed | cancelled => cases completed

/-- A response that has a message and is not cut off completes if its text is valid. -/
theorem finalize_parsed {value : Json} (fresh : a.response.status = .inProgress)
    (spoken : a.response.output.any OutputItem.isMessage = true)
    (uncut : a.finish ≠ some .length) (unfiltered : a.finish ≠ some .contentFilter)
    (valid : Schema.validateText json (Response.textOf a.response.output) = .ok value) :
    (a.finalize (some json) now .finished).status = .completed ∧
      (a.finalize (some json) now .finished).outputParsed = some value := by
  have full : a.response.output ≠ [] := by
    intro empty
    rw [empty] at spoken
    cases spoken
  have verdict : a.settle (some json) .finished =
      { status := .completed, parsed := some value } := by
    simp [settle, settleFinished, full, spoken, Option.filter, valid]
  rw [finalize_eq fresh, verdict]
  exact ⟨rfl, rfl⟩

/-- A message that is valid once it is trimmed completes a response, and is told as it came. -/
theorem finalize_message {id text : String} {value : Json}
    (fresh : a.response.status = .inProgress)
    (output : a.response.output = [.message id .completed [.outputText text]])
    (finish : a.finish = some .stop) (valid : Schema.validateText json text = .ok value) :
    (a.finalize (some json) now .finished).status = .completed ∧
      (a.finalize (some json) now .finished).output.any OutputItem.isMessage = true ∧
      (a.finalize (some json) now .finished).outputText = text := by
  have told : Response.textOf a.response.output = text := by
    rw [output, Response.textOf_message]
  have spoken : a.response.output.any OutputItem.isMessage = true := by
    rw [output]
    rfl
  rw [← told] at valid
  refine ⟨(finalize_parsed fresh spoken (by simp [finish]) (by simp [finish]) valid).1, ?_⟩
  rw [finalize_eq fresh]
  exact ⟨(any_isMessage_closed ..).trans spoken, told⟩

end Accumulator

namespace Turn

open Admission (Setting Admitted accept accept_spec)

variable {s : Setting} {r : Request} {admitted : Admitted} {p : Prepared} {seen : Nat}
  {streamed : Bool} {read : List Sequenced} {ending : Option Outcome} {t : Turn}
  {final : Response} {json : Json}

/-- However a turn runs that completes with a message, its trimmed text stands for the value that
it tells, and the schema allows this value. The text as it is told stands for the same value or, if
white space is around it that is none in JSON, for nothing. -/
theorem structured_output (accepted : accept s r = .ok admitted)
    (asked : r.outputSchema = some json)
    (run : Run p (admitted.turn s seen streamed) read ending t)
    (finished : t.response? = some final) (completed : final.status = .completed)
    (spoken : final.output.any OutputItem.isMessage = true) :
    ∃ value, final.outputParsed = some value ∧ Schema.validate json value = .ok () ∧
      Json.parse (String.ofList (Text.trim final.outputText.toList)) = .ok value ∧
      ∀ other, Json.parse final.outputText = .ok other ↔
        other = value ∧ Json.PlainMargins final.outputText.toList := by
  have fresh := accept_spec accepted
  obtain ⟨a, outcome, now, rfl, accrues, -, rfl⟩ := admitted_accrued run finished
  have inProgress : a.response.status = .inProgress := accrues.status.trans fresh.status
  rw [fresh.outputSchema_eq, asked] at completed spoken ⊢
  obtain ⟨value, parsed, valid⟩ :=
    Accumulator.finalize_structured inProgress completed spoken
  obtain ⟨trimmed, valid⟩ := Schema.validateText_eq_ok_iff.1 valid
  exact ⟨value, parsed, valid, trimmed, Json.parse_eq_ok_of_trim trimmed⟩

/-- A backend that answers with a text, whole. -/
def answering (text : String) : Prepared where
  answer := .now (.ok ⟨some text, [], .stop, none⟩)
  opening := .forever

/-- A text that is valid once it is trimmed completes its turn, and is told as it came. -/
theorem answering_completes {text : String} {value : Json} (accepted : accept s r = .ok admitted)
    (asked : r.outputSchema = some json) (valid : Schema.validateText json text = .ok value) :
    ∃ final, Finishes (answering text) (admitted.turn s seen false) final ∧
      final.status = .completed ∧ final.output.any OutputItem.isMessage = true ∧
      final.outputText = text := by
  have fresh := accept_spec accepted
  have schema : (admitted.turn s seen false).schema = some json := fresh.outputSchema_eq.trans asked
  have output : admitted.response.output = [] := fresh.output
  have answer : (answering text).answer = .done .zero (.ok _) := rfl
  obtain ⟨final, finishes⟩ : ∃ final, Finishes _ (admitted.turn s seen false) final :=
    exists_finishes_of_answer answer seen
  obtain ⟨now, rfl⟩ := finishes.comes_to rfl (Accumulator.foretell_ask answer _)
  rw [schema] at finishes
  exact ⟨_, finishes,
    Accumulator.finalize_message fresh.status (congrArg (· ++ [_]) output) rfl valid⟩

/-- A schema for objects. -/
def objectSchema : Json := .object [("type", .string "object")]

/-- A request for an object. -/
def objectWanted : Request :=
  { Admission.greeting with format := some (.jsonSchema "answer" objectSchema none none) }

theorem objectWanted_completes (text : String)
    (valid : (Schema.validateText objectSchema text).toOption = some (.object [])) :
    ∃ admitted read ending t final, accept Admission.startup objectWanted = .ok admitted ∧
      Run (answering text) (admitted.turn Admission.startup 0 false) read ending t ∧
      t.response? = some final ∧ final.status = .completed ∧
      final.output.any OutputItem.isMessage = true ∧ final.outputText = text := by
  have accepts : (accept Admission.startup objectWanted).toOption.isSome = true := by
    decide +kernel
  obtain ⟨admitted, accepted⟩ := Option.isSome_iff_exists.1 accepts
  have accepted := toOption_eq_some_iff.1 accepted
  obtain ⟨final, ⟨read, ending, t, run, finished, -⟩, told⟩ :=
    answering_completes accepted rfl (toOption_eq_some_iff.1 valid)
  exact ⟨admitted, read, ending, t, final, accepted, run, finished, told⟩

/-- An empty object between a line feed and a space is told, and can be read as it is. -/
theorem object_readable :
    ∃ admitted read ending t final, accept Admission.startup objectWanted = .ok admitted ∧
      Run (answering "\n\x7b\x7d ") (admitted.turn Admission.startup 0 false) read ending t ∧
      t.response? = some final ∧ final.outputText = "\n\x7b\x7d " ∧
      ∃ value, final.outputParsed = some value ∧ Json.parse final.outputText = .ok value := by
  obtain ⟨admitted, read, ending, t, final, accepted, run, finished, completed, spoken, told⟩ :=
    objectWanted_completes "\n\x7b\x7d " (by decide +kernel)
  obtain ⟨value, parsed, -, -, reads⟩ :=
    structured_output accepted rfl run finished completed spoken
  have plain : Json.PlainMargins final.outputText.toList := by
    rw [told]
    decide +kernel
  exact ⟨admitted, read, ending, t, final, accepted, run, finished, told, value, parsed,
    (reads value).2 ⟨rfl, plain⟩⟩

/-- Behind a space that must not be broken it completes the turn as well, but the text that is
told is no JSON. -/
theorem object_unreadable :
    ∃ admitted read ending t final, accept Admission.startup objectWanted = .ok admitted ∧
      Run (answering "\u00a0\x7b\x7d") (admitted.turn Admission.startup 0 false) read ending t ∧
      t.response? = some final ∧ final.status = .completed ∧
      final.output.any OutputItem.isMessage = true ∧
      ∀ value, Json.parse final.outputText ≠ .ok value := by
  obtain ⟨admitted, read, ending, t, final, accepted, run, finished, completed, spoken, told⟩ :=
    objectWanted_completes "\u00a0\x7b\x7d" (by decide +kernel)
  have unread : (Json.parse final.outputText).toOption = none := by
    rw [told]
    decide +kernel
  refine ⟨admitted, read, ending, t, final, accepted, run, finished, completed, spoken, ?_⟩
  intro value same
  rw [toOption_eq_some_iff.2 same] at unread
  cases unread

end Turn

end Responder
