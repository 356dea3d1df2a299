import Responder.Proofs.Tool.Contract
import Responder.Proofs.Turn.Accrual
import Responder.Proofs.Turn.Interruption
import Responder.Proofs.Turn.Refusal

/-!
# Turns keep the contract of their tools

A call enters the output of a turn only if the request allows it. Main statement: this holds of
every finished response, and the first call that is not allowed makes its turn fail, with all
that came before it and nothing that comes after it.
-/

open scoped List

namespace Responder

open Admission (Setting Admitted Accepted accept accept_spec)

namespace Accumulator

variable {s : Setting} {r : Request} {admitted : Admitted} {p : Prepared} {lane : Lane}
  {first : Response} {a : Accumulator}

theorem outline_obeys (item : OutputItem) : item.outline.Obeys r = item.Obeys r := by
  cases item <;> rfl

theorem obeys_pushItem {item : OutputItem} (h : ∀ other ∈ a.outline, other.Obeys r)
    (last : item.Obeys r) : ∀ other ∈ (a.pushItem item).outline, other.Obeys r := by
  intro other mem
  rw [outline_pushItem] at mem
  obtain before | new := List.mem_append.1 mem
  · exact h other before
  · rw [List.mem_singleton.1 new, outline_obeys]
    exact last

/-- Every call that accrued keeps to the request. -/
theorem Accrues.obeys (accepted : Accepted s r admitted) (empty : first.output = [])
    (h : a.Accrues p admitted.registry lane first) : ∀ item ∈ a.outline, item.Obeys r := by
  induction h with
  | start =>
    intro item mem
    rw [outline_eq_nil empty] at mem
    cases mem
  | say id text _ ih => exact obeys_pushItem ih trivial
  | openMessage id _ ih => exact obeys_pushItem ih trivial
  | pushText delta _ ih =>
    rw [outline_pushText]
    exact ih
  | closeText _ ih =>
    rw [outline_closeText]
    exact ih
  | recordUsage _ _ ih => exact ih
  | recordFinish _ _ ih => exact ih
  | call _ shaped _ ih => exact obeys_pushItem ih (accepted.shape_obeys shaped)

end Accumulator

namespace Turn

variable {p p' : Prepared} {start t : Turn} {before : List ToolCall} {message : String}

/-- A turn fails at a call. Its response has the calls before this one, and is made of the same
items as if the answer had ended there. A turn that is cut off has the first of these items. -/
structure FailsAt (p p' : Prepared) (start : Turn) (before : List ToolCall) (message : String) :
    Prop where
  ends : ∃ x, Finishes p start x
  failed : ∀ x, Finishes p start x → x.status = .failed ∧
    x.error = some ⟨"model_error", "tool_contract_violation",
      "tool contract violation: " ++ message⟩
  made : ∀ x, Finishes p start x →
    x.output.filterMap OutputItem.call? = before.map ToolCall.shown
  ends' : ∃ y, Finishes p' start y
  keeps : ∀ x y, Finishes p start x → Finishes p' start y → x.output = y.output
  begins : ∀ {read : List Sequenced} {ending : Option Outcome} {t : Turn} {x y : Response},
    Run p start read ending t → t.response? = some x → Finishes p start y →
      x.output.map OutputItem.outline <+: y.output.map OutputItem.outline

/-- What is foretold decides that a turn fails at a call. -/
theorem failsAt_of_foretold {a b : Accumulator} {actions : List Action}
    (working : start.stage = .working a actions)
    (told : a.foretell p start.registry start.lane actions =
      some (b, .failed (.toolContract message)))
    (told' : a.foretell p' start.registry start.lane actions = some (b, .finished))
    (fresh : b.response.status = .inProgress)
    (closed : ∀ item ∈ b.response.output, item.status ≠ .inProgress)
    (made : b.made = before.map ToolCall.shown) (quiet : start.stage.Quiet)
    (roomy : start.Roomy) (present : start.clientGone = false) :
    FailsAt p p' start before message := by
  refine ⟨exists_finishes_of_foretold working told quiet roomy present, ?_, ?_,
    exists_finishes_of_foretold working told' quiet roomy present, ?_, ?_⟩
  · intro x finishes
    obtain ⟨now, rfl⟩ := finishes.comes_to working told
    rw [Accumulator.finalize_eq fresh]
    exact ⟨rfl, rfl⟩
  · intro x finishes
    obtain ⟨now, rfl⟩ := finishes.comes_to working told
    rw [Accumulator.made_finalize]
    exact made
  · intro x y finishes finishes'
    obtain ⟨now, rfl⟩ := finishes.comes_to working told
    obtain ⟨now', rfl⟩ := finishes'.comes_to working told'
    rw [Accumulator.output_finalize fresh closed,
      Accumulator.output_finalize fresh closed]
  · intro read ending t x y run finished finishes
    have begins := run.begins working told finished
    obtain ⟨now, rfl⟩ := finishes.comes_to working told
    rw [Accumulator.outline_finalize]
    exact begins

/-- The turns of an admitted request keep the contract of its tools. -/
structure KeepsContract (s : Setting) (r : Request) (admitted : Admitted) : Prop where
  /-- Every call in a response is allowed, wherever the turn was cut off. -/
  obeys : ∀ {p : Prepared} {seen : Nat} {streamed : Bool} {read : List Sequenced}
    {ending : Option Outcome} {t : Turn} {final : Response},
    Run p (admitted.turn s seen streamed) read ending t → t.response? = some final →
      ∀ item ∈ final.output, item.Obeys r
  /-- The first call of a whole answer that is not allowed. -/
  whole : ∀ {p p' : Prepared} {after after' : Duration} {c : Completion}
    {before rest : List ToolCall} {call : ToolCall},
    p.answer = .done after (.ok c) → c.calls = before ++ call :: rest →
      (∀ other ∈ before, r.AllowsCall other) → ¬ r.AllowsCall call →
      p'.answer = .done after' (.ok { c with calls := before }) →
      ∀ seen, ∃ message, admitted.registry.callFault call = some message ∧
        FailsAt p p' (admitted.turn s seen false) before message
  /-- The first call of a stream that is not allowed. -/
  streamed : ∀ {p p' : Prepared} {after after' lag : Duration}
    {early late : List (Wait (Except BackendFault Chunk))} {before : List ToolCall}
    {call : ToolCall},
    p.opening = .done after (.ok ⟨early ++ .done lag (.ok (.call call)) :: late⟩) →
      Accumulator.Passes r.AllowsCall before early → ¬ r.AllowsCall call →
      p'.opening = .done after' (.ok ⟨early⟩) →
      ∀ seen, ∃ message, admitted.registry.callFault call = some message ∧
        FailsAt p p' (admitted.turn s seen true) before message

variable {s : Setting} {r : Request} {admitted : Admitted}

theorem obeys_of_run (accepted : Accepted s r admitted) {seen : Nat} {streamed : Bool}
    {read : List Sequenced} {ending : Option Outcome} {final : Response}
    (run : Run p (admitted.turn s seen streamed) read ending t)
    (finished : t.response? = some final) : ∀ item ∈ final.output, item.Obeys r := by
  obtain ⟨a, outcome, now, -, accrues, -, rfl⟩ := admitted_accrued run finished
  intro item mem
  have there := List.mem_map_of_mem (f := OutputItem.outline) mem
  rw [Accumulator.outline_finalize] at there
  rw [← Accumulator.outline_obeys]
  exact accrues.obeys accepted accepted.output _ there

theorem exists_fault (accepted : Accepted s r admitted) {call : ToolCall}
    (refused : ¬ r.AllowsCall call) :
    ∃ message, admitted.registry.callFault call = some message := by
  rw [← Option.ne_none_iff_exists']
  exact mt accepted.callFault_eq_none_iff.1 refused

theorem whole_failsAt (accepted : Accepted s r admitted) {after after' : Duration}
    {c : Completion} {rest : List ToolCall} {call : ToolCall}
    (answer : p.answer = .done after (.ok c)) (calls : c.calls = before ++ call :: rest)
    (fits : ∀ other ∈ before, r.AllowsCall other)
    (refused : admitted.registry.callFault call = some message)
    (answer' : p'.answer = .done after' (.ok { c with calls := before })) (seen : Nat) :
    FailsAt p p' (admitted.turn s seen false) before message := by
  have unrefused : ∀ other ∈ before, admitted.registry.callFault other = none :=
    fun other mem => accepted.callFault_eq_none_iff.2 (fits other mem)
  let a : Accumulator := { response := admitted.response }
  let said := a.say s.lane c
  let b := (Accumulator.pushCalls admitted.registry s.lane said before).1
  have fails : a.install admitted.registry s.lane c = (b, .failed (.toolContract message)) :=
    a.install_refused calls unrefused refused
  have finishes : a.install admitted.registry s.lane { c with calls := before } = (b, .finished) :=
    a.install_unrefused unrefused
  have empty : a.Tidy := .of_empty accepted.output
  have tidy : b.Tidy := (empty.say s.lane c).pushCalls admitted.registry s.lane before
  obtain ⟨output, frame⟩ :
      ∃ output, b = { said with response := { said.response with output } } :=
    Accumulator.pushCalls_frame admitted.registry s.lane said before
  obtain ⟨-, -, status⟩ := Accumulator.say_frame s.lane a c
  refine failsAt_of_foretold rfl
    ((Accumulator.foretell_ask answer a).trans (congrArg some fails))
    ((Accumulator.foretell_ask answer' a).trans (congrArg some finishes)) ?_ ?_ ?_
    (turn_quiet admitted s seen false) (waiting_roomy seen) rfl
  · rw [frame]
    exact status.trans accepted.status
  · apply tidy.closed
    rw [frame]
    exact Accumulator.openText_say s.lane a c
  · have none : said.made = [] :=
      (Accumulator.made_say s.lane a c).trans (Accumulator.made_eq_nil accepted.output)
    calc b.made = said.made ++ before.map ToolCall.shown :=
          Accumulator.made_pushCalls said unrefused
      _ = before.map ToolCall.shown := by rw [none, List.nil_append]

theorem streamed_failsAt (accepted : Accepted s r admitted) {after after' lag : Duration}
    {early late : List (Wait (Except BackendFault Chunk))} {call : ToolCall}
    (opens : p.opening = .done after (.ok ⟨early ++ .done lag (.ok (.call call)) :: late⟩))
    (passes : Accumulator.Passes r.AllowsCall before early)
    (refused : admitted.registry.callFault call = some message)
    (opens' : p'.opening = .done after' (.ok ⟨early⟩)) (seen : Nat) :
    FailsAt p p' (admitted.turn s seen true) before message := by
  let a : Accumulator := { response := admitted.response }
  have empty : a.Tidy := .of_empty accepted.output
  have unrefused := passes.imp fun _ => accepted.callFault_eq_none_iff.2
  obtain ⟨b, tidy, status, made, same⟩ := unrefused.consume s.lane empty
  have told := (Accumulator.foretell_opening admitted.registry s.lane opens a
    admitted.response).trans (same _)
  have told' := (Accumulator.foretell_opening admitted.registry s.lane opens' a
    admitted.response).trans ((congrArg _ (List.append_nil early).symm).trans (same []))
  simp only [Accumulator.consume, Accumulator.shape_refused refused] at told told'
  refine failsAt_of_foretold rfl told told' ?_ ?_ ?_ (turn_quiet admitted s seen true)
    turn_roomy rfl
  · exact (Accumulator.closeText_status b).trans (status.trans accepted.status)
  · exact tidy.closeText.closed (Accumulator.closeText_closed b)
  · rw [Accumulator.made_closeText, made, Accumulator.made_eq_nil accepted.output, List.nil_append]

/-- Every turn of an admitted request keeps the contract of its tools. -/
theorem keeps_contract (accepted : accept s r = .ok admitted) : KeepsContract s r admitted := by
  have fresh := accept_spec accepted
  refine ⟨obeys_of_run fresh, ?_, ?_⟩
  · intro p p' after after' c before rest call answer calls fits refused answer' seen
    obtain ⟨message, fault⟩ := exists_fault fresh refused
    exact ⟨message, fault, whole_failsAt fresh answer calls fits fault answer' seen⟩
  · intro p p' after after' lag early late before call opens passes refused opens' seen
    obtain ⟨message, fault⟩ := exists_fault fresh refused
    exact ⟨message, fault, streamed_failsAt fresh opens passes fault opens' seen⟩

/-- A tool that has to be told the place to look at. -/
def lookTool : Tool where
  type := Tool.functionType
  name := "look"
  parameters := some (.ofMembers [("type", .string "object"),
    ("required", .array [.string "place"])])

def lookRequest : Request := { Admission.greeting with tools := [lookTool] }

theorem accept_lookRequest : ∃ admitted, accept Admission.startup lookRequest = .ok admitted := by
  have accepted : (accept Admission.startup lookRequest).toOption.isSome = true := by
    decide +kernel
  cases h : accept Admission.startup lookRequest with
  | ok admitted => exact ⟨admitted, rfl⟩
  | error failure =>
    rw [h] at accepted
    cases accepted

def lookAtHill : ToolCall := ⟨"", "look", "\x7b\"place\":\"hill\"\x7d"⟩

def lookAnywhere : ToolCall := ⟨"", "look", ""⟩

/-- The same calls, whole and in a stream. -/
def prepareCalls (calls : List ToolCall) : Prepared where
  answer := .now (.ok { text := none, calls, finish := .toolCalls, usage := none })
  opening := .now (.ok ⟨calls.map fun call => .now (.ok (.call call))⟩)

/-- The second call names no place: the turn fails with the first one. -/
theorem look_keeps_contract :
    ∃ admitted, accept Admission.startup lookRequest = .ok admitted ∧ ∀ streamed, ∃ x,
      Finishes (prepareCalls [lookAtHill, lookAnywhere, lookAtHill])
        (admitted.turn Admission.startup 0 streamed) x ∧
      x.status = .failed ∧ x.output.filterMap OutputItem.call? = [lookAtHill.shown] ∧
      ∀ item ∈ x.output, item.Obeys lookRequest := by
  obtain ⟨admitted, accepted⟩ := accept_lookRequest
  have fresh := accept_spec accepted
  have allowed (call : ToolCall) : (⟨[lookTool], .auto⟩ : Registry).callFault call = none ↔
      lookRequest.AllowsCall call := by
    have registry : admitted.registry = ⟨[lookTool], .auto⟩ := fresh.registry
    rw [← registry]
    exact fresh.callFault_eq_none_iff
  have hill : lookRequest.AllowsCall lookAtHill := (allowed _).1 (by decide +kernel)
  have anywhere : ¬ lookRequest.AllowsCall lookAnywhere := mt (allowed _).2 (by decide +kernel)
  have keeps := keeps_contract accepted
  let p := prepareCalls [lookAtHill, lookAnywhere, lookAtHill]
  let p' := prepareCalls [lookAtHill]
  have fails (streamed : Bool) : ∃ message,
      FailsAt p p' (admitted.turn Admission.startup 0 streamed) [lookAtHill] message := by
    cases streamed with
    | false =>
      have answer : p.answer =
          .done .zero (.ok ⟨none, [lookAtHill] ++ lookAnywhere :: [lookAtHill], .toolCalls,
            none⟩) := rfl
      have answer' : p'.answer = .done .zero (.ok ⟨none, [lookAtHill], .toolCalls, none⟩) := rfl
      obtain ⟨message, -, fails⟩ :=
        keeps.whole answer rfl (List.forall_mem_singleton.2 hill) anywhere answer' 0
      exact ⟨message, fails⟩
    | true =>
      have opens : p.opening = .done .zero (.ok ⟨[.now (.ok (.call lookAtHill))] ++
          .done .zero (.ok (.call lookAnywhere)) :: [.now (.ok (.call lookAtHill))]⟩) := rfl
      have opens' : p'.opening = .done .zero (.ok ⟨[.now (.ok (.call lookAtHill))]⟩) := rfl
      obtain ⟨message, -, fails⟩ :=
        keeps.streamed opens (.call .zero hill .nil) anywhere opens' 0
      exact ⟨message, fails⟩
  refine ⟨admitted, accepted, fun streamed => ?_⟩
  obtain ⟨message, fails⟩ := fails streamed
  obtain ⟨x, finishes⟩ := fails.ends
  have ⟨read, ending, t, run, finished, _⟩ := finishes
  exact ⟨x, finishes, (fails.failed x finishes).1, fails.made x finishes,
    keeps.obeys run finished⟩

end Turn

end Responder
