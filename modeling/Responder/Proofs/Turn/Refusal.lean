import Responder.Proofs.Turn.Outline

/-!
# Calls that are refused

A call that is refused ends what its answer comes to. Main statement: the answer leaves what it
would leave if it had ended before this call, all of it closed, and with the calls before it.
-/

namespace Responder.Accumulator

section tidy

/-- Only the open message is in progress. -/
def Tidy (a : Accumulator) : Prop :=
  ∀ index item, a.response.output[index]? = some item → item.status = .inProgress →
    item.isMessage = true ∧ a.openText = some index

variable {a : Accumulator} {registry : Registry} {lane : Lane}

theorem Tidy.of_empty (h : a.response.output = []) : a.Tidy := by
  intro index item there
  rw [h] at there
  cases there

/-- What is not in progress can be added, and so can a message if none is open. -/
theorem Tidy.pushItem (h : a.Tidy) {item : OutputItem} (closed : item.status ≠ .inProgress) :
    (a.pushItem item).Tidy := by
  intro index other there opened
  simp only [Accumulator.pushItem, List.getElem?_append] at there
  split at there
  · exact h index other there opened
  · rw [List.getElem?_singleton] at there
    split at there
    · cases there
      exact absurd opened closed
    · cases there

theorem Tidy.openMessage (h : a.Tidy) (id : String) (closed : a.openText = none) :
    (a.openMessage id).Tidy := by
  intro index other there opened
  simp only [Accumulator.openMessage, Accumulator.pushItem, List.getElem?_append] at there
  split at there
  · have open' := (h index other there opened).2
    rw [closed] at open'
    cases open'
  · rw [List.getElem?_singleton] at there
    split at there
    · next beyond here =>
      cases there
      refine ⟨rfl, ?_⟩
      simp only [Accumulator.openMessage, nextIndex, Option.some.injEq]
      omega
    · cases there

theorem Tidy.pushText (h : a.Tidy) (delta : String) : (a.pushText delta).Tidy := by
  have keeps (item : OutputItem) : (extendText delta item).status = item.status ∧
      (extendText delta item).isMessage = item.isMessage := by
    unfold extendText
    split <;> exact ⟨rfl, rfl⟩
  unfold Accumulator.pushText
  split
  · intro index item there opened
    simp only [modifyItem, List.getElem?_modify] at there
    obtain ⟨old, was, same⟩ := Option.map_eq_some_iff.1 there
    split at same
    · rw [← same, (keeps old).1] at opened
      rw [← same, (keeps old).2]
      exact h index old was opened
    · rw [← same] at opened ⊢
      exact h index old was opened
  · exact h

theorem Tidy.closeText (h : a.Tidy) : a.closeText.Tidy := by
  unfold Accumulator.closeText
  split
  · next current closes =>
    intro index item there opened
    simp only [modifyItem, List.getElem?_modify] at there
    obtain ⟨old, was, same⟩ := Option.map_eq_some_iff.1 there
    exfalso
    split at same
    · cases old with
      | message id status content => cases content <;> (cases same; cases opened)
      | functionCall =>
        cases same
        cases (h index _ was opened).1
    · next other =>
      cases same
      have open' := (h index _ was opened).2
      exact other (Option.some.inj (closes.symm.trans open'))
  · exact h

theorem Tidy.closed (h : a.Tidy) (none : a.openText = none) :
    ∀ item ∈ a.response.output, item.status ≠ .inProgress := by
  intro item mem opened
  obtain ⟨index, there⟩ := List.mem_iff_getElem?.1 mem
  have open' := (h index item there opened).2
  rw [none] at open'
  cases open'

theorem Tidy.addText (h : a.Tidy) (lane : Lane) (delta : String) : (a.addText lane delta).Tidy := by
  unfold Accumulator.addText
  split
  · exact h
  · split
    · exact h.pushText delta
    · next closed =>
      exact (h.openMessage _ (Option.not_isSome_iff_eq_none.1 closed)).pushText delta

theorem shape_closed {index : Nat} {call : ToolCall} {item : OutputItem}
    (shaped : registry.shape lane index call = .ok item) : item.status ≠ .inProgress := by
  unfold Registry.shape at shaped
  split at shaped
  · cases shaped
  · cases shaped
    exact nofun

theorem Tidy.pushCalls (h : a.Tidy) (registry : Registry) (lane : Lane) (calls : List ToolCall) :
    (pushCalls registry lane a calls).1.Tidy := by
  induction calls generalizing a with
  | nil => exact h
  | cons call rest ih =>
    simp only [Accumulator.pushCalls]
    split
    · next item shaped => exact ih (h.pushItem (shape_closed shaped))
    · exact h

theorem Tidy.say (h : a.Tidy) (lane : Lane) (c : Completion) : (a.say lane c).Tidy := by
  have tallied : (a.tally c.usage c.finish).Tidy := by
    cases c.usage <;> exact h
  unfold Accumulator.say
  split
  · exact tallied.pushItem nofun
  · exact tallied

/-- Finishing a response leaves items that are closed as they are. -/
theorem output_finalize {schema : Option Json} {now : Int} {outcome : Outcome}
    (fresh : a.response.status = .inProgress)
    (closed : ∀ item ∈ a.response.output, item.status ≠ .inProgress) :
    (a.finalize schema now outcome).output = a.response.output := by
  rw [finalize_eq fresh]
  dsimp only
  generalize (a.settle schema outcome).status = status
  calc a.response.output.map (closeItem status)
      = a.response.output.map id :=
        List.map_congr_left fun item mem => closeItem_eq status (closed item mem)
    _ = a.response.output := List.map_id _

end tidy

section refusal

variable {a : Accumulator} {registry : Registry} {lane : Lane} {call : ToolCall} {message : String}

theorem shape_refused (refused : registry.callFault call = some message) (index : Nat) :
    registry.shape lane index call = .error (.toolContract message) := by
  unfold Registry.shape
  rw [refused]

/-- Of a list of calls those up to the first that is refused are added. -/
theorem pushCalls_refused (a : Accumulator) {before : List ToolCall}
    (fits : ∀ other ∈ before, registry.callFault other = none)
    (refused : registry.callFault call = some message) (rest : List ToolCall) :
    pushCalls registry lane a (before ++ call :: rest) =
      ((pushCalls registry lane a before).1, some (.toolContract message)) := by
  induction before generalizing a with
  | nil => simp only [List.nil_append, pushCalls, shape_refused refused]
  | cons other more ih =>
    have fit : registry.callFault other = none := fits other List.mem_cons_self
    simp only [List.cons_append, pushCalls, Registry.shape, fit]
    exact ih _ fun next mem => fits next (List.mem_cons_of_mem _ mem)

/-- A whole answer fails at the first call that is refused, with what is added before it. -/
theorem install_refused (a : Accumulator) {c : Completion} {before rest : List ToolCall}
    (calls : c.calls = before ++ call :: rest)
    (fits : ∀ other ∈ before, registry.callFault other = none)
    (refused : registry.callFault call = some message) :
    a.install registry lane c =
      ((pushCalls registry lane (a.say lane c) before).1, .failed (.toolContract message)) := by
  rw [install_eq, calls, pushCalls_refused _ fits refused]

/-- What can be said before the calls of an answer opens no message. -/
theorem openText_say (lane : Lane) (a : Accumulator) (c : Completion) :
    (a.say lane c).openText = a.openText := by
  unfold say tally
  cases c.text <;> cases c.usage <;> rfl

theorem addText_status (lane : Lane) (a : Accumulator) (delta : String) :
    (a.addText lane delta).response.status = a.response.status := by
  unfold addText
  split
  · rfl
  · split
    · exact pushText_status a delta
    · exact pushText_status (a.openMessage _) delta

/-- Results of a stream that a turn takes and goes on, with the calls among them. -/
inductive Passes (fits : ToolCall → Prop) :
    List ToolCall → List (Wait (Except BackendFault Chunk)) → Prop
  | nil : Passes fits [] []
  | text {calls : List ToolCall} {rest : List (Wait (Except BackendFault Chunk))}
      (after : Duration) (delta : String) : Passes fits calls rest →
      Passes fits calls (.done after (.ok (.text delta)) :: rest)
  | usage {calls : List ToolCall} {rest : List (Wait (Except BackendFault Chunk))}
      (after : Duration) (usage : TokenUsage) : Passes fits calls rest →
      Passes fits calls (.done after (.ok (.usage usage)) :: rest)
  | call {call : ToolCall} {calls : List ToolCall}
      {rest : List (Wait (Except BackendFault Chunk))} (after : Duration) : fits call →
      Passes fits calls rest →
      Passes fits (call :: calls) (.done after (.ok (.call call)) :: rest)

theorem Passes.imp {fits fits' : ToolCall → Prop} (weaker : ∀ call, fits call → fits' call)
    {calls : List ToolCall} {results : List (Wait (Except BackendFault Chunk))}
    (passes : Passes fits calls results) : Passes fits' calls results := by
  induction passes with
  | nil => exact .nil
  | text after delta _ ih => exact .text after delta ih
  | usage after usage _ ih => exact .usage after usage ih
  | call after fit _ ih => exact .call after (weaker _ fit) ih

/-- What passes is added, whatever comes later. -/
theorem Passes.consume {before : List ToolCall} {early : List (Wait (Except BackendFault Chunk))}
    (passes : Passes (fun call => registry.callFault call = none) before early) (lane : Lane)
    (tidy : a.Tidy) :
    ∃ b : Accumulator, b.Tidy ∧ b.response.status = a.response.status ∧
      b.made = a.made ++ before.map ToolCall.shown ∧
      ∀ later, a.consume registry lane (early ++ later) = b.consume registry lane later := by
  induction passes generalizing a with
  | nil => exact ⟨a, tidy, rfl, (List.append_nil _).symm, fun _ => rfl⟩
  | text after delta _ ih =>
    obtain ⟨b, tidy', status, made, same⟩ := ih (tidy.addText lane delta)
    rw [addText_status] at status
    rw [made_addText] at made
    exact ⟨b, tidy', status, made, same⟩
  | usage after usage _ ih => exact ih (a := a.recordUsage usage) tidy
  | @call call calls rest after fits _ ih =>
    obtain ⟨item, shaped, shown, closed⟩ := shape_ok fits lane a.closeText.nextIndex
    obtain ⟨b, tidy', status, made, same⟩ := ih (tidy.closeText.pushItem closed)
    refine ⟨b, tidy', status.trans (closeText_status a), ?_, ?_⟩
    · rw [made, made_pushItem, made_closeText, shown, List.append_assoc]
      rfl
    · intro later
      simp only [List.cons_append, Accumulator.consume, shaped]
      exact same later

end refusal

end Responder.Accumulator
