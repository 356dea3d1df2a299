import Responder.Proofs.Turn.Accrual

/-!
# Verdicts on turns

The status of a finished response, its error, its details, its parsed output and its time of
completion are set apart from each other, in the end by one verdict. Main statement: they go
together in every finished response, and the error tells what has caused it.
-/

namespace Responder

/-- The schema that a request asks its output to follow. -/
def Request.outputSchema (r : Request) : Option Json :=
  match r.format with
  | some (.jsonSchema _ schema _ _) => some schema
  | some .text | none => none

theorem Admission.Accepted.outputSchema_eq {s : Setting} {r : Request} {admitted : Admitted}
    (h : Accepted s r admitted) :
    admitted.request.outputSchema.map (·.schema) = r.outputSchema := by
  have asked := h.schema
  unfold Request.outputSchema
  cases format : r.format with
  | none =>
    rw [format] at asked
    rw [← Except.ok.inj asked]
    rfl
  | some format' =>
    rw [format] at asked
    cases format' with
    | text =>
      rw [← Except.ok.inj asked]
      rfl
    | jsonSchema name schema description strict =>
      simp only [Option.getD_some, Admission.outputSchema] at asked
      split at asked
      · cases asked
      · obtain ⟨_, -, made⟩ := bind_eq_ok.1 asked
        rw [← Except.ok.inj made]
        rfl

theorem mapError_eq_ok {ε δ α : Type} {x : Except ε α} {f : ε → δ} {a : α} :
    x.mapError f = .ok a ↔ x = .ok a := by
  cases x <;> simp [Except.mapError]

theorem Schema.validateText_eq_ok_iff {schema value : Json} {text : String} :
    validateText schema text = .ok value ↔
      Json.parse (String.ofList (Text.trim text.toList)) = .ok value ∧
        validate schema value = .ok () := by
  simp only [validateText, bind_eq_ok, mapError_eq_ok]
  constructor
  · rintro ⟨_, read, _, valid, ⟨⟩⟩
    exact ⟨read, valid⟩
  · rintro ⟨read, valid⟩
    exact ⟨value, read, (), valid, rfl⟩

namespace Accumulator

/-- What a verdict can be, and of what. -/
inductive Settles (schema : Option Json) (a : Accumulator) : Outcome → Verdict → Prop
  | silent : a.response.output = [] → Settles schema a .finished
      { status := .failed, failure := some (.backend "backend produced no output") }
  | cut (reason : IncompleteReason) : a.response.output ≠ [] → Settles schema a .finished
      { status := .incomplete, incomplete := some reason }
  | plain : a.response.output ≠ [] →
      schema = none ∨ a.response.output.any OutputItem.isMessage = false →
      Settles schema a .finished { status := .completed }
  | parsed {json value : Json} : a.response.output ≠ [] → schema = some json →
      a.response.output.any OutputItem.isMessage = true →
      Schema.validateText json (Response.textOf a.response.output) = .ok value →
      Settles schema a .finished { status := .completed, parsed := some value }
  | misfit {json : Json} {fault : Schema.TextMismatch} : a.response.output ≠ [] →
      schema = some json → a.response.output.any OutputItem.isMessage = true →
      Schema.validateText json (Response.textOf a.response.output) = .error fault →
      Settles schema a .finished { status := .failed, failure := some fault.report.failure }
  | failed (failure : Failure) :
      Settles schema a (.failed failure) { status := .failed, failure := some failure }
  | cancelled : Settles schema a .cancelled
      { status := .incomplete, incomplete := some .cancelled }

variable {schema : Option Json} {a : Accumulator}

theorem settles_finished (schema : Option Json) (a : Accumulator) :
    Settles schema a .finished (a.settleFinished schema) := by
  unfold settleFinished
  dsimp only
  split
  · next empty => exact .silent empty
  · next some =>
    split
    · exact .cut _ some
    · exact .cut _ some
    · split
      · next unchecked =>
        refine .plain some ?_
        rw [Option.filter_eq_none_iff] at unchecked
        cases schema with
        | none => exact .inl rfl
        | some json => exact .inr (by simpa using unchecked json rfl)
      · next json checked =>
        obtain ⟨given, spoken⟩ := Option.filter_eq_some_iff.1 checked
        split
        · next value valid => exact .parsed some given spoken valid
        · next fault invalid => exact .misfit some given spoken invalid

theorem settles (schema : Option Json) (a : Accumulator) (outcome : Outcome) :
    Settles schema a outcome (a.settle schema outcome) := by
  cases outcome with
  | finished => exact settles_finished schema a
  | failed failure => exact .failed failure
  | cancelled => exact .cancelled

theorem closeItem_closed (status : Status) (item : OutputItem) :
    (closeItem status item).status ≠ .inProgress := by
  unfold closeItem
  split
  · cases item <;> simp only [OutputItem.withStatus, OutputItem.status] <;> split <;> decide
  · assumption

theorem textOf_closed (status : Status) (output : List OutputItem) :
    Response.textOf (output.map (closeItem status)) = Response.textOf output := by
  simp only [Response.textOf, List.map_map, Function.comp_def, closeItem_text]

theorem any_isMessage_closed (status : Status) (output : List OutputItem) :
    (output.map (closeItem status)).any OutputItem.isMessage = output.any OutputItem.isMessage := by
  simp only [List.any_map, Function.comp_def, closeItem_isMessage]

end Accumulator

/-- The texts of a message in order, without its refusals. -/
def OutputItem.texts : OutputItem → List String
  | .message _ _ content => content.filterMap fun
    | .outputText text => some text
    | .refusal _ => none
  | .functionCall .. => []

/-- A message is among the items. -/
def HasMessage (output : List OutputItem) : Prop :=
  ∃ id status content, OutputItem.message id status content ∈ output

theorem any_isMessage_iff {output : List OutputItem} :
    output.any OutputItem.isMessage = true ↔ HasMessage output := by
  rw [List.any_eq_true]
  constructor
  · rintro ⟨item, told, isMessage⟩
    cases item with
    | message id status content => exact ⟨id, status, content, told⟩
    | functionCall => cases isMessage
  · rintro ⟨id, status, content, told⟩
    exact ⟨_, told, rfl⟩

theorem OutputItem.join_texts (item : OutputItem) : String.join item.texts = item.text := by
  cases item with
  | message id status content =>
    have parts : (fun
        | .outputText text => some text
        | .refusal _ => none : OutputPart → Option String) = OutputPart.text? := by
      funext part
      cases part <;> rfl
    simp only [texts, text, parts]
  | functionCall => rfl

theorem Response.textOf_eq_join (output : List OutputItem) :
    textOf output = String.join (output.flatMap OutputItem.texts) := by
  induction output with
  | nil => rfl
  | cons item rest ih =>
    rw [List.flatMap_cons, String.join_append, OutputItem.join_texts, ← ih]
    exact String.join_cons

/-- All that a finished response says of how it ended goes together. -/
structure Consistent (schema : Option Json) (r : Response) : Prop where
  status : r.status ≠ .inProgress
  error : r.error.isSome ↔ r.status = .failed
  incomplete : r.incomplete.isSome ↔ r.status = .incomplete
  completedAt : r.completedAt.isSome ↔ r.status = .completed
  output : r.status = .completed → r.output ≠ []
  items : ∀ item ∈ r.output, item.status ≠ .inProgress
  outputText : r.outputText = String.join (r.output.flatMap OutputItem.texts)
  outputParsed : r.outputParsed.isSome ↔
    r.status = .completed ∧ schema.isSome ∧ HasMessage r.output
  valid : ∀ value ∈ r.outputParsed, ∀ json ∈ schema, Schema.validate json value = .ok ()

/-- What makes a turn fail, and the error that tells it. -/
inductive Cause (p : Prepared) (registry : Registry) (schema : Option Json)
    (ending : Option Outcome) (r : Response) : ErrorDetail → Prop
  | fault {fault : BackendFault} : p.Faults fault →
      ending = some (.failed (.backend fault.message)) → Cause p registry schema ending r
        ⟨"server_error", "backend_error", "backend error: " ++ fault.message⟩
  | silent : ending = some .finished → r.output = [] → Cause p registry schema ending r
      ⟨"server_error", "backend_error", "backend error: backend produced no output"⟩
  | refused {call : ToolCall} {message : String} : p.Calls call →
      registry.callFault call = some message →
      ending = some (.failed (.toolContract message)) → Cause p registry schema ending r
        ⟨"model_error", "tool_contract_violation", "tool contract violation: " ++ message⟩
  | notJson {json : Json} {message : String} : ending = some .finished → schema = some json →
      HasMessage r.output →
      Schema.validateText json r.outputText = .error (.notJson message) →
      Cause p registry schema ending r ⟨"model_error", "structured_output_parse_error",
        "structured output is not valid JSON: " ++ message⟩
  | mismatch {json : Json} {place : Schema.At Schema.Mismatch} : ending = some .finished →
      schema = some json → HasMessage r.output →
      Schema.validateText json r.outputText = .error (.mismatch place) →
      Cause p registry schema ending r ⟨"model_error", "structured_output_schema_mismatch",
        "structured output does not match schema: " ++ (Schema.reportOfMismatch place).text⟩

namespace Accumulator

variable {p : Prepared} {registry : Registry} {lane : Lane} {first : Response}
  {schema : Option Json} {a : Accumulator} {now : Int} {outcome : Outcome}

theorem finalize_consistent (fresh : a.response.status = .inProgress) :
    Consistent schema (a.finalize schema now outcome) := by
  have settles := settles schema a outcome
  have terminal : (a.settle schema outcome).status.isTerminal = true := settle_isTerminal a
  rw [finalize_eq fresh]
  generalize a.settle schema outcome = verdict at settles terminal ⊢
  refine ⟨?_, ?_, ?_, ?_, ?_, ?_, ?_, ?_, ?_⟩
  · simpa [Status.isTerminal] using terminal
  · cases settles <;> simp
  · cases settles <;> simp
  · cases settles <;> simp
  · intro completed empty
    have none : a.response.output = [] := List.map_eq_nil_iff.1 empty
    cases settles with
    | plain some | parsed some => exact some none
    | silent | cut | misfit | failed | cancelled => cases completed
  · intro item mem
    obtain ⟨_, -, rfl⟩ := List.mem_map.1 mem
    exact closeItem_closed verdict.status _
  · exact (textOf_closed ..).symm.trans (Response.textOf_eq_join _)
  · dsimp only
    rw [← any_isMessage_iff, any_isMessage_closed]
    cases settles with
    | plain some unchecked =>
      obtain rfl | silent := unchecked
      · simp
      · simp [silent]
    | parsed some asked spoken valid => simp [asked, spoken]
    | silent | cut | misfit | failed | cancelled => simp
  · intro value mem json given
    cases settles <;> cases mem
    next some asked spoken valid =>
    cases asked.symm.trans given
    exact (Schema.validateText_eq_ok_iff.1 valid).2

theorem finalize_cause (fresh : a.response.status = .inProgress)
    (origin : outcome.From p registry) :
    ∀ detail ∈ (a.finalize schema now outcome).error,
      Cause p registry schema (some outcome) (a.finalize schema now outcome) detail := by
  have settles := settles schema a outcome
  rw [finalize_eq fresh]
  generalize a.settle schema outcome = verdict at settles ⊢
  rintro detail told
  obtain ⟨failure, failed, rfl⟩ := Option.map_eq_some_iff.1 told
  cases settles with
  | silent empty =>
    cases failed
    exact .silent rfl (List.map_eq_nil_iff.2 empty)
  | @misfit json fault some asked spoken misfit =>
    cases failed
    rw [← any_isMessage_closed .failed, any_isMessage_iff] at spoken
    cases fault with
    | notJson message => exact .notJson rfl asked spoken misfit
    | mismatch place => exact .mismatch rfl asked spoken misfit
  | failed failure =>
    cases failed
    cases origin with
    | fault own => exact .fault own rfl
    | refused own refused => exact .refused own refused rfl
  | cut | plain | parsed | cancelled => cases failed

end Accumulator

namespace Turn

open Admission (Setting Admitted accept accept_spec)

/-- However a turn runs and wherever it is cut off, its finished response is consistent, and
its error tells what made it fail. -/
theorem finished_consistent {s : Setting} {r : Request} {admitted : Admitted} {p : Prepared}
    {seen : Nat} {streamed : Bool} {read : List Sequenced} {ending : Option Outcome} {t : Turn}
    {final : Response} (accepted : accept s r = .ok admitted)
    (run : Run p (admitted.turn s seen streamed) read ending t)
    (finished : t.response? = some final) :
    Consistent r.outputSchema final ∧
      ∀ detail ∈ final.error, Cause p admitted.registry r.outputSchema ending final detail := by
  have fresh := accept_spec accepted
  obtain ⟨a, outcome, now, rfl, accrues, origin, rfl⟩ := admitted_accrued run finished
  have inProgress : a.response.status = .inProgress := accrues.status.trans fresh.status
  rw [fresh.outputSchema_eq]
  exact ⟨Accumulator.finalize_consistent inProgress, Accumulator.finalize_cause inProgress origin⟩

/-- A greeting that is greeted back. -/
theorem greeting_consistent :
    ∃ admitted read ending t final, accept Admission.startup Admission.greeting = .ok admitted ∧
      Run .hello (admitted.turn Admission.startup 0 true) read ending t ∧
      t.response? = some final ∧ Consistent none final := by
  obtain ⟨admitted, accepted⟩ := Admission.accept_greeting
  have lively : (admitted.turn Admission.startup 0 true).stage.Lively .hello :=
    turn_lively Prepared.hello_arrives
  obtain ⟨final, read, ending, t, run, finished, -⟩ :=
    exists_finishes lively (turn_quiet admitted Admission.startup 0 true) turn_roomy rfl
  exact ⟨admitted, read, ending, t, final, accepted, run, finished,
    (finished_consistent accepted run finished).1⟩

end Turn

end Responder
