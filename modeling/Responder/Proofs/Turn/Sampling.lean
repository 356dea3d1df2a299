import Responder.Proofs.Backend.Pieces
import Responder.Proofs.Schema.Conforming
import Responder.Proofs.Schema.Reading
import Responder.Proofs.Turn.Silence

/-!
# Turns that are answered by a sample

Main statement: the sample of a schema is accepted by it if each schema in it names one type and
is not narrowed further; a turn that has to follow the schema and is answered by the text of the
sample completes, with the sample as its value.
-/

namespace Responder

/-- An answer with this text that is not cut off, and whose calls are without fault. -/
structure Completion.Tells (registry : Registry) (text : String) (c : Completion) : Prop where
  text : c.text = some text
  calls : ∀ call ∈ c.calls, registry.callFault call = none
  uncut : c.finish ≠ .length
  unfiltered : c.finish ≠ .contentFilter

/-- A backend that answers a turn in this way: with all at once, or with a stream in which the
text comes in pieces. -/
inductive Prepared.Gives (p : Prepared) (c : Completion) : Bool → Prop
  | whole {after : Duration} : p.answer = .done after (.ok c) → Gives p c false
  | streamed {after : Duration} {source : ChunkStream} {pieces : List String} :
      p.opening = .done after (.ok source) → (∀ piece ∈ pieces, piece ≠ "") →
      String.join pieces = c.text.getD "" →
      source.results.map Wait.value? = (c.chunks pieces).map (fun chunk => some (.ok chunk)) →
      Gives p c true

namespace Accumulator

variable {registry : Registry} {lane : Lane} {c : Completion} {json value : Json} {text : String}

theorem shape_text {index : Nat} {call : ToolCall} {item : OutputItem}
    (shaped : registry.shape lane index call = .ok item) : item.text = "" := by
  unfold Registry.shape at shaped
  split at shaped <;> cases shaped
  rfl

/-- Calls have no text. -/
theorem textOf_pushCalls (registry : Registry) (lane : Lane) (a : Accumulator)
    (calls : List ToolCall) :
    Response.textOf (pushCalls registry lane a calls).1.response.output =
      Response.textOf a.response.output := by
  induction calls generalizing a with
  | nil => rfl
  | cons call rest ih =>
    simp only [pushCalls]
    split
    · next item shaped =>
      have snoc := Response.textOf_snoc a.response.output item
      rw [shape_text shaped, String.append_empty] at snoc
      exact (ih (a.pushItem item)).trans snoc
    · rfl

/-- An answer whose text is valid completes a response that has to follow a schema. -/
theorem install_parsed (lane : Lane) {a : Accumulator} (fresh : a.response.status = .inProgress)
    (empty : a.response.output = []) (tells : c.Tells registry text)
    (valid : Schema.validateText json text = .ok value) :
    ∃ b, a.install registry lane c = (b, .finished) ∧ ∀ now,
      (b.finalize (some json) now .finished).status = .completed ∧
      (b.finalize (some json) now .finished).outputParsed = some value := by
  refine ⟨_, install_unrefused a tells.calls, fun now => ?_⟩
  obtain ⟨-, finish, status⟩ := say_frame lane a c
  obtain ⟨output, frame⟩ := pushCalls_frame registry lane (a.say lane c) c.calls
  have said : (a.say lane c).response.output =
      [.message (lane.id .message (.output a.nextIndex)) .completed [.outputText text]] := by
    rw [say_output, empty, tells.text]
    rfl
  have spoken := pushCalls_prefix registry lane (a.say lane c) c.calls
  have told := textOf_pushCalls registry lane (a.say lane c) c.calls
  rw [said] at spoken told
  refine finalize_parsed ?_ ?_ ?_ ?_ ?_
  · rw [frame]
    exact status.trans fresh
  · exact List.any_eq_true.2 ⟨_, spoken.subset (List.mem_singleton_self _), rfl⟩
  · rw [frame]
    exact fun cut => tells.uncut (Option.some.inj (finish.symm.trans cut))
  · rw [frame]
    exact fun cut => tells.unfiltered (Option.some.inj (finish.symm.trans cut))
  · rw [told, Response.textOf_message]
    exact valid

end Accumulator

namespace Schema

theorem validateText_ne_empty {schema value : Json} {text : String}
    (valid : validateText schema text = .ok value) : text ≠ "" := by
  rintro rfl
  obtain ⟨read, -⟩ := validateText_eq_ok_iff.1 valid
  have unread : (Json.parse "").toOption = none := by decide +kernel
  have nothing : (Json.parse "").toOption = some value := toOption_eq_some_iff.2 read
  cases unread.symm.trans nothing

/-- The text of an object that is a sample is valid, and is read as the sample. -/
theorem Sampled.validateText {schema : Json} (h : Sampled schema)
    (typed : schema.field? "type" = some (.string "object"))
    (shallow : schema.depth < Json.Raw.maxRoom) :
    validateText schema (sample schema).text = .ok (sample schema) := by
  have same : sample schema = sampleOf schema .object := h.sample_eq typed
  have legible : Json.Legible schema.depth (sample schema) := by
    rw [same]
    exact h.legible_object fun part stands => (h.part stands).legible
  have trimmed : Text.trim (sample schema).text.toList = (sample schema).text.toList := by
    rw [same]
    exact Json.trim_object _
  refine validateText_eq_ok_iff.2 ⟨?_, h.accepted⟩
  rw [trimmed, String.ofList_toList]
  exact Json.parse_text legible shallow

end Schema

namespace Turn

open Admission (Setting Admitted accept accept_spec)
open Schema (Reached Simple forall_reached sample)

variable {s : Setting} {r : Request} {admitted : Admitted} {p : Prepared} {seen : Nat}
  {streamed : Bool} {c : Completion} {final : Response} {schema value : Json} {text : String}

/-- A turn whose backend answers it can finish. -/
theorem exists_finishes_of_gives (gives : p.Gives c streamed) :
    ∃ final, Finishes p (admitted.turn s seen streamed) final := by
  cases gives with
  | whole answer => exact exists_finishes_of_answer answer seen
  | streamed opens full joined told =>
    have arrives : p.StreamArrives := streamArrives_of_values opens told
    exact exists_finishes (turn_lively arrives) (turn_quiet _ _ _ _) turn_roomy rfl

/-- A turn that has to follow a schema and is answered by a valid text completes with its value,
unless it is interrupted. -/
theorem completes_of_gives (accepted : accept s r = .ok admitted)
    (asked : r.outputSchema = some schema) (tells : c.Tells admitted.registry text)
    (valid : Schema.validateText schema text = .ok value) (gives : p.Gives c streamed)
    (finishes : Finishes p (admitted.turn s seen streamed) final) :
    final.status = .completed ∧ final.outputParsed = some value := by
  have fresh := accept_spec accepted
  have follows : (admitted.turn s seen streamed).schema = some schema :=
    fresh.outputSchema_eq.trans asked
  let start : Accumulator := { response := admitted.response }
  have status : start.response.status = .inProgress := fresh.status
  obtain ⟨b, installed, completed⟩ :=
    Accumulator.install_parsed s.lane status fresh.output tells valid
  cases gives with
  | whole answer =>
    have told := (Accumulator.foretell_ask answer start).trans (congrArg some installed)
    obtain ⟨now, rfl⟩ := finishes.comes_to rfl told
    rw [follows]
    exact completed now
  | streamed opens full joined told =>
    have said : c.text ≠ some "" := by
      rw [tells.text]
      exact fun empty => Schema.validateText_ne_empty valid (Option.some.inj empty)
    obtain ⟨goal, streams, alike, whole, parted⟩ :=
      Accumulator.install_alike admitted.registry s.lane s.lane fresh.output fresh.output said
        full joined
    rw [← Accumulator.consume_values told] at streams
    have opened := Accumulator.foretell_opening admitted.registry s.lane opens start
      admitted.response
    obtain ⟨now, rfl⟩ := finishes.comes_to rfl (opened.trans streams)
    have agree := alike.finalize (whole.trans status) (parted.trans status) (some schema) now now
    rw [installed] at agree
    rw [follows, ← agree.status, ← agree.outputParsed]
    exact completed now

/-- The sample of a schema is accepted by it if each schema in it names one type, has neither
options nor branches and needs its own properties only. Unless the schema is nested too deeply for
a text, which none is that was read with its request, the sample's text completes any turn that
has to follow the schema and is not interrupted, with the sample as its value. -/
theorem sample_conforms (ordered : schema.InOrder) (checked : Schema.checkOutput schema = .ok ())
    (simple : ∀ node, Reached schema node → Simple node) :
    Schema.validate schema (sample schema) = .ok () ∧
      (schema.depth < Json.Raw.maxRoom → ∀ {s : Setting} {r : Request} {admitted : Admitted}
        {p : Prepared} {c : Completion} {seen : Nat} {streamed : Bool},
        accept s r = .ok admitted → r.outputSchema = some schema →
        c.Tells admitted.registry (sample schema).text → p.Gives c streamed →
        (∃ final, Finishes p (admitted.turn s seen streamed) final) ∧
          ∀ final, Finishes p (admitted.turn s seen streamed) final →
            final.status = .completed ∧ final.outputParsed = some (sample schema)) ∧
      ∀ (body : String) (r : Request), Request.ofText body = .ok r →
        r.outputSchema = some schema → schema.depth < Json.Raw.maxRoom := by
  obtain ⟨typed, shaped⟩ := (Schema.checkOutput_eq_ok_iff schema).1 checked
  have sampled : Schema.Sampled schema :=
    ⟨fun node inside => simple node (Schema.reached_of_inside simple inside), shaped, ordered⟩
  refine ⟨sampled.accepted, ?_, fun body r read asked => (Request.schema_read read asked).2⟩
  intro shallow s r admitted p c seen streamed accepted asked tells gives
  have valid := sampled.validateText typed shallow
  exact ⟨exists_finishes_of_gives gives,
    fun final finishes => completes_of_gives accepted asked tells valid gives finishes⟩

/-- A schema for a row of a table: its notes are a list of anything. -/
def rowSchema : Json := .object
  [("properties", .object
      [("notes", .object [("type", .string "array")]),
        ("size", .object [("type", .string "number")])]),
    ("required", .array [.string "size"]), ("type", .string "object")]

/-- A schema for a table. -/
def tableSchema : Json := .object
  [("additionalProperties", .bool false),
    ("properties", .object
      [("rows", .object [("items", rowSchema), ("type", .string "array")])]),
    ("required", .array [.string "rows"]), ("type", .string "object")]

theorem inOrder_tableSchema : tableSchema.InOrder := by
  simp only [tableSchema, rowSchema, Json.inOrder_object_iff, Json.inOrder_array_iff,
    List.forall_mem_cons, List.not_mem_nil, IsEmpty.forall_iff, implies_true,
    Json.InOrder.string, Json.InOrder.bool]
  decide +kernel

theorem simple_leaf (name : String) :
    ∀ node, Reached (.object [("type", .string name)]) node → Simple node := by
  refine forall_reached ⟨⟨name, rfl⟩, rfl, rfl, by rintro _ ⟨⟩⟩ ?_
  rintro part (⟨⟨⟩⟩ | ⟨⟨⟩⟩)

theorem simple_rowSchema : ∀ node, Reached rowSchema node → Simple node := by
  refine forall_reached ⟨⟨_, rfl⟩, rfl, rfl, ?_⟩ ?_
  · rintro names ⟨⟩ name mem
    refine ⟨_, rfl, ?_⟩
    cases List.mem_singleton.1 mem
    decide
  · rintro part (⟨⟨⟩, mem⟩ | ⟨⟨⟩⟩)
    cases mem with
    | head => exact simple_leaf "array"
    | tail _ mem =>
      cases List.mem_singleton.1 mem
      exact simple_leaf "number"

theorem simple_tableSchema : ∀ node, Reached tableSchema node → Simple node := by
  refine forall_reached ⟨⟨_, rfl⟩, rfl, rfl, ?_⟩ ?_
  · rintro names ⟨⟩ name mem
    refine ⟨_, rfl, ?_⟩
    cases List.mem_singleton.1 mem
    decide
  · rintro part (⟨⟨⟩, mem⟩ | ⟨⟨⟩⟩)
    cases List.mem_singleton.1 mem
    refine forall_reached ⟨⟨_, rfl⟩, rfl, rfl, by rintro _ ⟨⟩⟩ ?_
    rintro part (⟨⟨⟩⟩ | ⟨⟨⟩⟩)
    exact simple_rowSchema

/-- A request for a table. -/
def tableWanted : Request :=
  { Admission.greeting with format := some (.jsonSchema "table" tableSchema none none) }

/-- The mock streams a table that fits its schema. -/
theorem table_sampled :
    ∃ admitted p final, accept Admission.startup tableWanted = .ok admitted ∧
      p.opening = Mock.stream "" {} { Mock.unspoken with
        outputSchema := some ⟨"table", tableSchema, false⟩ } ∧
      Finishes p (admitted.turn Admission.startup 0 true) final ∧
      final.status = .completed ∧ final.outputParsed = some (sample tableSchema) := by
  have checked : Schema.checkOutput tableSchema = .ok () := Schema.eq_ok_of_isOk (by decide +kernel)
  have accepts : (accept Admission.startup tableWanted).toOption.isSome = true := by
    decide +kernel
  obtain ⟨admitted, accepted⟩ := Option.isSome_iff_exists.1 accepts
  have accepted := toOption_eq_some_iff.1 accepted
  let chat : ChatRequest :=
    { Mock.unspoken with outputSchema := some ⟨"table", tableSchema, false⟩ }
  let c : Completion := Mock.textAnswer {} chat
  let p : Prepared := ⟨Mock.complete "" {} chat, Mock.stream "" {} chat⟩
  have tells : c.Tells admitted.registry (sample tableSchema).text :=
    ⟨rfl, List.forall_mem_nil _, nofun, nofun⟩
  have parts := Mock.piecesOf_pieces c
  have gives : p.Gives c true :=
    .streamed rfl parts.full parts.whole (Mock.streamOf_values rfl c)
  have shallow : tableSchema.depth < Json.Raw.maxRoom := by decide +kernel
  obtain ⟨-, completes, -⟩ := sample_conforms inOrder_tableSchema checked simple_tableSchema
  obtain ⟨⟨final, finishes⟩, completed⟩ := completes shallow accepted rfl tells gives
  exact ⟨admitted, p, final, accepted, rfl, finishes, completed final finishes⟩

end Turn

end Responder
