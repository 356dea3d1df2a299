import Responder.Proofs.Item.Reading
import Responder.Proofs.Server.Turns
import Responder.Proofs.Tool.Contract
import Responder.Proofs.Turn.Refusal

/-!
# Whole responses

A message has no content when it is opened, and a turn that is cut off leaves it so. Main
statement: a response that was completed has nothing but whole items, and its input stands in
the form in which items are kept.
-/

namespace Responder

theorem OutputItem.whole_withStatus (status : ItemStatus) (item : OutputItem) :
    (item.withStatus status).Whole = item.Whole := by
  cases item <;> rfl

namespace Accumulator

/-- Only the open message may be without content. -/
def Whole (a : Accumulator) : Prop :=
  ∀ index item, a.response.output[index]? = some item →
    item.Whole ∨ (a.openText = some index ∧ item.isMessage = true)

variable {a : Accumulator}

theorem Whole.of_empty (empty : a.response.output = []) : a.Whole := by
  intro index item there
  rw [empty] at there
  cases there

theorem Whole.pushItem (h : a.Whole) {item : OutputItem} (whole : item.Whole) :
    (a.pushItem item).Whole := by
  intro index other there
  simp only [Accumulator.pushItem, List.getElem?_append] at there
  split at there
  · exact h index other there
  · rw [List.getElem?_singleton] at there
    split at there
    · cases there
      exact .inl whole
    · cases there

theorem Whole.openMessage (h : a.Whole) (id : String) (closed : a.openText = none) :
    (a.openMessage id).Whole := by
  intro index other there
  simp only [Accumulator.openMessage, Accumulator.pushItem, List.getElem?_append] at there
  split at there
  · obtain whole | ⟨opened, -⟩ := h index other there
    · exact .inl whole
    · cases closed.symm.trans opened
  · rw [List.getElem?_singleton] at there
    split at there
    · next beyond here =>
      cases there
      refine .inr ⟨?_, rfl⟩
      simp only [Accumulator.openMessage, nextIndex, Option.some.injEq]
      omega
    · cases there

theorem Whole.pushText (h : a.Whole) (delta : String) : (a.pushText delta).Whole := by
  have extends' (item : OutputItem) (whole : item.Whole ∨ item.isMessage = true) :
      (extendText delta item).Whole := by
    cases item with
    | message id status content =>
      unfold extendText
      split <;> simp_all [OutputItem.Whole]
    | functionCall => exact whole.resolve_right nofun
  unfold Accumulator.pushText
  split
  · intro index item there
    simp only [modifyItem, List.getElem?_modify] at there
    obtain ⟨old, was, same⟩ := Option.map_eq_some_iff.1 there
    split at same
    · rw [← same]
      exact .inl (extends' old ((h index old was).imp_right And.right))
    · rw [← same]
      exact h index old was
  · exact h

theorem Whole.closeText (h : a.Whole) : a.closeText.Whole := by
  have closes (item : OutputItem) (whole : item.Whole ∨ item.isMessage = true) :
      (closeMessage item).Whole := by
    cases item with
    | message id status content =>
      cases content with
      | nil => exact List.cons_ne_nil _ _
      | cons part rest => exact List.cons_ne_nil part rest
    | functionCall => exact whole.resolve_right nofun
  unfold Accumulator.closeText
  split
  · next current opened =>
    intro index item there
    simp only [modifyItem, List.getElem?_modify] at there
    obtain ⟨old, was, same⟩ := Option.map_eq_some_iff.1 there
    split at same
    · rw [← same]
      exact .inl (closes old ((h index old was).imp_right And.right))
    · next other =>
      rw [← same]
      obtain whole | ⟨here, -⟩ := h index old was
      · exact .inl whole
      · exact absurd (Option.some.inj (opened.symm.trans here)) other
  · exact h

theorem openText_pushText (a : Accumulator) (delta : String) :
    (a.pushText delta).openText = a.openText := by
  unfold pushText
  split <;> rfl

theorem Whole.closed (h : a.Whole) (closed : a.openText = none) :
    ∀ item ∈ a.response.output, item.Whole := by
  intro item mem
  obtain ⟨index, there⟩ := List.mem_iff_getElem?.1 mem
  obtain whole | ⟨opened, -⟩ := h index item there
  · exact whole
  · cases closed.symm.trans opened

theorem closeItem_whole (status : Status) (item : OutputItem) :
    (closeItem status item).Whole = item.Whole :=
  closeItem_keeps OutputItem.Whole OutputItem.whole_withStatus status item

end Accumulator

/-- A call has a name if all tools have one. -/
def Registry.Named (registry : Registry) : Prop := ∀ tool ∈ registry.tools, tool.name ≠ ""

namespace Registry

variable {registry : Registry} {lane : Lane} {index : Nat} {call : ToolCall} {item : OutputItem}

theorem shape_whole (named : registry.Named) (shaped : registry.shape lane index call = .ok item) :
    item.Whole := by
  unfold shape at shaped
  split at shaped
  · cases shaped
  · next fits =>
    cases shaped
    obtain ⟨-, -, tool, found, -⟩ := callFault_eq_none_iff.1 fits
    have called : tool.name = call.name := by simpa using List.find?_some found
    refine ⟨?_, called ▸ named tool (List.mem_of_find?_eq_some found)⟩
    split
    · exact Lane.id_ne_empty lane .call _
    · next given => exact given

theorem checkTool_named {before : List Tool} {tool : Tool}
    (checked : checkTool index before tool = .ok ()) : tool.name ≠ "" := by
  intro empty
  have short : isToolName tool.name = false := by
    rw [empty]
    rfl
  simp only [checkTool, short, Bool.not_false, if_true] at checked
  split at checked <;> cases checked

theorem checkTools_named {before tools : List Tool} (checked : checkTools before tools = .ok ()) :
    ∀ tool ∈ tools, tool.name ≠ "" := by
  induction tools generalizing before with
  | nil => exact nofun
  | cons tool rest ih =>
    obtain ⟨_, first, later⟩ := bind_eq_ok.1 checked
    exact List.forall_mem_cons.2 ⟨checkTool_named first, ih later⟩

theorem ofRequest_named {maxTools : Nat} {tools : List Tool} {choice : ToolChoice}
    (h : ofRequest maxTools tools choice = .ok registry) : registry.Named := by
  unfold ofRequest at h
  split at h
  · cases h
  · obtain ⟨_, checked, h⟩ := bind_eq_ok.1 h
    obtain ⟨_, -, h⟩ := bind_eq_ok.1 h
    cases h
    exact checkTools_named checked

end Registry

/-- What only arrives while no message is open. -/
def Arrival.Seals : Arrival → Prop
  | .answer _ => True
  | .opening _ | .result .. => False

/-- An action that is only done while no message is open. -/
def Action.Seals : Action → Prop
  | .ask | .settle .finished => True
  | .take _ arrival => arrival.Seals
  | _ => False

/-- A response whose items are whole if it was completed. -/
def Response.Whole (r : Response) : Prop := r.status = .completed → ∀ item ∈ r.output, item.Whole

/-- A stage that comes to a whole response. -/
def Stage.Whole : Stage → Prop
  | working a actions => a.Whole ∧ (a.openText = none ∨ ∀ action ∈ actions, ¬ action.Seals)
  | settling a outcome => a.Whole ∧ (outcome = .finished → a.openText = none)
  | closing r | ended r => r.Whole

namespace Accumulator

variable {a : Accumulator} {registry : Registry} {lane : Lane}

theorem Whole.pushCalls (h : a.Whole) (named : registry.Named) (lane : Lane)
    (calls : List ToolCall) : (pushCalls registry lane a calls).1.Whole := by
  induction calls generalizing a with
  | nil => exact h
  | cons call rest ih =>
    simp only [Accumulator.pushCalls]
    split
    · next item shaped => exact ih (h.pushItem (Registry.shape_whole named shaped))
    · exact h

theorem Whole.install (h : a.Whole) (named : registry.Named) (lane : Lane) (c : Completion) :
    (a.install registry lane c).1.Whole := by
  have tallied : (a.tally c.usage c.finish).Whole := by
    cases c.usage <;> exact h
  have said : (a.say lane c).Whole := by
    unfold Accumulator.say
    split
    · exact tallied.pushItem (List.cons_ne_nil _ _)
    · exact tallied
  have pushed := said.pushCalls named lane c.calls
  rw [install_eq]
  split <;> next taken => rwa [taken] at pushed

theorem openText_install (registry : Registry) (lane : Lane) (a : Accumulator) (c : Completion) :
    (a.install registry lane c).1.openText = a.openText := by
  obtain ⟨output, frame⟩ := pushCalls_frame registry lane (a.say lane c) c.calls
  have kept : (Accumulator.pushCalls registry lane (a.say lane c) c.calls).1.openText =
      a.openText := by
    rw [frame]
    exact openText_say lane a c
  rw [install_eq]
  split <;> next taken => rwa [taken] at kept

/-- Only what has come to its end is completed. -/
theorem Whole.finalize (h : a.Whole) {schema : Option Json} {now : Int} {outcome : Outcome}
    (closed : outcome = .finished → a.openText = none) :
    (a.finalize schema now outcome).Whole := by
  intro completed
  have finished : outcome = .finished ∧
      (a.finalize schema now outcome).output =
        a.response.output.map (closeItem (a.settle schema outcome).status) := by
    simp only [Accumulator.finalize, Response.transition] at completed ⊢
    split at completed
    · next r allowed =>
      split at allowed
      · cases allowed
        refine ⟨?_, rfl⟩
        cases outcome with
        | finished => rfl
        | failed failure => cases completed
        | cancelled => cases completed
      · cases allowed
    · cases completed
  rw [finished.2, List.forall_mem_map]
  intro item mem
  rw [closeItem_whole]
  exact h.closed (closed finished.1) item mem

end Accumulator

namespace Turn

variable {p : Prepared} {t next : Turn} {a : Accumulator} {rest : List Action}

theorem not_seals_emits (events : List Event) (left : ∀ action ∈ rest, ¬ action.Seals) :
    ∀ action ∈ events.map Action.emit ++ rest, ¬ action.Seals := by
  intro action mem
  obtain emits | later := List.mem_append.1 mem
  · obtain ⟨event, -, rfl⟩ := List.mem_map.1 emits
    exact not_false
  · exact left action later

theorem whole_takeResult (whole : a.Whole) (result : Except BackendFault Chunk)
    (source : ChunkStream) : (t.takeResult a source result).Whole := by
  have reads : ∀ action ∈ [Action.read source], ¬ action.Seals :=
    List.forall_mem_singleton.2 not_false
  have appends (delta : String) : ∀ action ∈ [Action.append delta, .read source], ¬ action.Seals :=
    List.forall_mem_cons.2 ⟨not_false, reads⟩
  cases result with
  | error fault => exact ⟨whole, nofun⟩
  | ok chunk =>
    cases chunk with
    | text delta =>
      simp only [takeResult, takeText]
      split
      · exact ⟨whole, .inr reads⟩
      · split
        · exact ⟨whole, .inr (appends delta)⟩
        · next closed =>
          have none := Option.not_isSome_iff_eq_none.1 closed
          exact ⟨whole.openMessage _ none, .inr (not_seals_emits [_, _] (appends delta))⟩
    | call call => exact ⟨whole.closeText, .inl a.closeText_closed⟩
    | usage usage => exact ⟨whole, .inr reads⟩
    | finished reason =>
      have closing : (a.recordFinish reason).Whole := whole
      exact ⟨closing.closeText, .inl (a.recordFinish reason).closeText_closed⟩

theorem whole_takeArrival (named : t.registry.Named) (whole : a.Whole) (arrival : Arrival)
    (sealed : a.openText = none ∨ ¬ arrival.Seals) :
    (t.takeArrival a arrival).Whole := by
  cases arrival with
  | answer outcome =>
    have closed : a.openText = none := sealed.resolve_right (fun seals => seals trivial)
    cases outcome with
    | error fault => exact ⟨whole, nofun⟩
    | ok c =>
      refine ⟨whole.install named t.lane c, fun _ => ?_⟩
      exact (Accumulator.openText_install t.registry t.lane a c).trans closed
  | opening outcome =>
    cases outcome with
    | error fault => exact ⟨whole, nofun⟩
    | ok source => exact ⟨whole, .inr (List.forall_mem_singleton.2 not_false)⟩
  | result result rest => exact whole_takeResult whole result rest

theorem whole_awaiting (whole : a.Whole) (clock : Duration) (w : Wait Arrival)
    (sealed : a.openText = none ∨ ∀ arrival ∈ w.value?, ¬ arrival.Seals) :
    (Stage.awaiting clock a w).Whole := by
  cases w with
  | forever => exact ⟨whole, .inr (List.forall_mem_singleton.2 not_false)⟩
  | done after arrival =>
    refine ⟨whole, sealed.imp_right fun other => List.forall_mem_singleton.2 ?_⟩
    exact other arrival rfl

theorem Shift.whole {stage after : Stage} {events : List Event} (named : t.registry.Named)
    (h : Shift p t stage events after) (whole : stage.Whole) : after.Whole := by
  have tail {a : Accumulator} {action : Action} {rest : List Action}
      (sealed : a.openText = none ∨ ∀ other ∈ action :: rest, ¬ other.Seals) :
      a.openText = none ∨ ∀ other ∈ rest, ¬ other.Seals :=
    sealed.imp_right fun all other mem => all other (List.mem_cons_of_mem _ mem)
  have first {a : Accumulator} {action : Action} {rest : List Action}
      (sealed : a.openText = none ∨ ∀ other ∈ action :: rest, ¬ other.Seals) :
      a.openText = none ∨ ¬ action.Seals :=
    sealed.imp_right fun all => all action List.mem_cons_self
  cases h with
  | emit a event rest => exact ⟨whole.1, tail whole.2⟩
  | ask clock a rest =>
    have closed : a.openText = none := (first whole.2).resolve_right fun seals => seals trivial
    exact whole_awaiting whole.1 clock _ (.inl closed)
  | askStream clock a rest =>
    refine whole_awaiting whole.1 clock _ (.inr ?_)
    cases p.opening with
    | forever => exact nofun
    | done lag outcome =>
      rintro _ ⟨⟩
      exact not_false
  | take time arrival a rest => exact whole_takeArrival named whole.1 arrival (first whole.2)
  | read clock result results a rest =>
    refine whole_awaiting whole.1 clock _ (.inr ?_)
    cases result with
    | forever => exact nofun
    | done lag outcome =>
      rintro _ ⟨⟩
      exact not_false
  | exhaust a rest => exact ⟨whole.1.closeText, .inl a.closeText_closed⟩
  | append delta a rest opened =>
    refine ⟨whole.1.pushText delta, ?_⟩
    rw [Accumulator.openText_pushText]
    exact (tail whole.2).imp_right (not_seals_emits [_])
  | appendNothing delta a rest opened =>
    refine ⟨whole.1.pushText delta, ?_⟩
    rw [Accumulator.openText_pushText]
    exact tail whole.2
  | call call a rest shaped =>
    refine ⟨whole.1.pushItem (Registry.shape_whole named shaped), ?_⟩
    obtain ⟨events, -, emits⟩ := callEvents_emits a.nextIndex _
    rw [emits]
    exact (tail whole.2).imp_right (not_seals_emits events)
  | refuse call a rest refused => exact ⟨whole.1, nofun⟩
  | settle outcome a rest =>
    refine ⟨whole.1, ?_⟩
    rintro rfl
    exact (first whole.2).resolve_right fun seals => seals trivial
  | interrupt a action rest waits => exact ⟨whole.1, nofun⟩
  | finish now a outcome => exact whole.1.finalize whole.2
  | tell response => exact whole
  | lose response gone => exact whole

/-- A turn whose response can be read back once it is completed. -/
structure Readable (t : Turn) : Prop where
  input : ∀ item ∈ t.stage.response.input, item.Normal
  named : t.registry.Named
  whole : t.stage.Whole

theorem Readable.step (h : t.Readable) (step : t.Step next) : next.Readable := by
  have registry : next.registry = t.registry := step.kept.registry
  have asked : next.stage.response.asked = t.stage.response.asked := by
    cases step with
    | move m => exact m.continues.asked
    | receive taken => exact (receive_continues taken).asked
  have same := congrArg Response.input asked
  have input : next.stage.response.input = t.stage.response.input := same
  refine ⟨input ▸ h.input, registry ▸ h.named, ?_⟩
  cases step with
  | move m =>
    obtain ⟨events, shifted⟩ | ⟨-, stage, -⟩ := m.cases_shifted
    · exact shifted.shift.whole h.named h.whole
    · exact stage ▸ h.whole
  | receive taken => exact (receive_spec taken).2.1 ▸ h.whole

theorem accept_input {s : Admission.Setting} {r : Request} {admitted : Admission.Admitted}
    (h : Admission.accept s r = .ok admitted) : ∀ item ∈ admitted.response.input, item.Normal := by
  obtain ⟨items, -, read⟩ := Admission.accept_read h
  exact InputItem.listOfJson_normal read

theorem readable_admitted {s : Admission.Setting} {r : Request} {admitted : Admission.Admitted}
    (accepted : Admission.accept s r = .ok admitted) (seen : Nat) (streamed : Bool) :
    (admitted.turn s seen streamed).Readable := by
  have spec := Admission.accept_spec accepted
  have empty : Accumulator.Whole { response := admitted.response } := .of_empty spec.output
  exact ⟨accept_input accepted, Registry.ofRequest_named spec.checked, empty, .inl rfl⟩

end Turn

namespace Server

variable {start s : Server} {log : List Response} {r : Response}

/-- A stored response can be read back: its input stands in the form in which items are kept, and
if it was completed its output is whole. -/
theorem Run.readable (new : start.New) (run : Run start log s) (stored : r ∈ log) :
    (∀ item ∈ r.input, item.Normal) ∧ r.Whole := by
  obtain ⟨t, mem, finished⟩ := run.turn_of_stored new r stored
  have h := run.turns Turn.readable_admitted (fun step h => h.step step) new t mem
  have input := h.input
  have whole := h.whole
  obtain stage | stage := Turn.response?_cases finished <;> rw [stage] at input whole
  · exact ⟨input, whole⟩
  · exact ⟨input, whole⟩

end Server

end Responder
