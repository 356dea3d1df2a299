import Responder.Proofs.Turn.Agreement

/-!
# Outlines

The text and the status of an item change while a turn runs, but not its id, nor what it calls.
An outline has what stays: text leaves it as it is, and so does the end of the turn.
-/

namespace Responder

namespace OutputItem

/-- An item without its status and the content of a message. -/
def outline : OutputItem → OutputItem
  | message id _ _ => message id .completed []
  | functionCall id _ callId name arguments => functionCall id .completed callId name arguments

/-- The name and the arguments of a call. -/
def call? : OutputItem → Option (String × String)
  | message .. => none
  | functionCall _ _ _ name arguments => some (name, arguments)

theorem filterMap_call?_outline (output : List OutputItem) :
    (output.map outline).filterMap call? = output.filterMap call? := by
  rw [List.filterMap_map]
  congr 1
  funext item
  cases item <;> rfl

end OutputItem

/-- The name and the arguments that the item of a call has. -/
def ToolCall.shown (call : ToolCall) : String × String :=
  (call.name, Registry.argumentsText call.arguments)

namespace Accumulator

variable {registry : Registry} {lane : Lane} {a : Accumulator}

def outline (a : Accumulator) : List OutputItem := a.response.output.map OutputItem.outline

/-- The calls among the items. -/
def made (a : Accumulator) : List (String × String) := a.outline.filterMap OutputItem.call?

theorem outline_eq_nil (empty : a.response.output = []) : a.outline = [] := by
  rw [outline, empty, List.map_nil]

theorem made_eq_nil (empty : a.response.output = []) : a.made = [] := by
  rw [made, outline_eq_nil empty, List.filterMap_nil]

theorem outline_pushItem (a : Accumulator) (item : OutputItem) :
    (a.pushItem item).outline = a.outline ++ [item.outline] := List.map_append

theorem outline_modifyItem (a : Accumulator) (index : Nat) {change : OutputItem → OutputItem}
    (keeps : ∀ item, (change item).outline = item.outline) :
    (a.modifyItem index change).outline = a.outline := by
  unfold outline modifyItem
  apply List.ext_getElem?
  intro place
  rw [List.getElem?_map, List.getElem?_map, List.getElem?_modify]
  cases a.response.output[place]? with
  | none => rfl
  | some item =>
    by_cases here : index = place
    · simp [here, keeps]
    · simp [here]

theorem extendText_outline (delta : String) (item : OutputItem) :
    (extendText delta item).outline = item.outline := by
  unfold extendText
  split <;> rfl

theorem closeMessage_outline (item : OutputItem) : (closeMessage item).outline = item.outline := by
  unfold closeMessage
  split <;> rfl

theorem outline_pushText (a : Accumulator) (delta : String) :
    (a.pushText delta).outline = a.outline := by
  unfold pushText
  split
  · exact outline_modifyItem a _ (extendText_outline delta)
  · rfl

theorem outline_closeText (a : Accumulator) : a.closeText.outline = a.outline := by
  unfold closeText
  split
  · exact outline_modifyItem a _ closeMessage_outline
  · rfl

theorem closeItem_outline (status : Status) (item : OutputItem) :
    (closeItem status item).outline = item.outline :=
  closeItem_keeps OutputItem.outline (fun _ item => by cases item <;> rfl) status item

/-- A finished response has the outline of what was accumulated. -/
theorem outline_finalize (a : Accumulator) (schema : Option Json) (now : Int) (outcome : Outcome) :
    (a.finalize schema now outcome).output.map OutputItem.outline = a.outline := by
  have closed (status : Status) :
      (a.response.output.map (closeItem status)).map OutputItem.outline = a.outline := by
    simp only [List.map_map, Function.comp_def, closeItem_outline]
    rfl
  simp only [finalize, Response.transition]
  split
  · next allowed =>
    split at allowed
    · cases allowed
      exact closed _
    · cases allowed
  · exact closed _

theorem made_finalize (a : Accumulator) (schema : Option Json) (now : Int) (outcome : Outcome) :
    (a.finalize schema now outcome).output.filterMap OutputItem.call? = a.made := by
  rw [← OutputItem.filterMap_call?_outline, outline_finalize, made]

theorem made_pushItem (a : Accumulator) (item : OutputItem) :
    (a.pushItem item).made = a.made ++ item.call?.toList := by
  unfold made
  rw [outline_pushItem, List.filterMap_append]
  cases item <;> rfl

theorem made_closeText (a : Accumulator) : a.closeText.made = a.made := by
  rw [made, outline_closeText, made]

theorem made_addText (lane : Lane) (a : Accumulator) (delta : String) :
    (a.addText lane delta).made = a.made := by
  have extended (b : Accumulator) : (b.pushText delta).made = b.made := by
    rw [made, outline_pushText, made]
  have opened (id : String) : (a.openMessage id).made = a.made :=
    (made_pushItem a (.message id .inProgress [])).trans (List.append_nil _)
  unfold addText
  split
  · rfl
  · split
    · exact extended a
    · exact (extended _).trans (opened _)

theorem made_say (lane : Lane) (a : Accumulator) (c : Completion) :
    (a.say lane c).made = a.made := by
  have tallied : (a.tally c.usage c.finish).made = a.made := by
    cases c.usage <;> rfl
  unfold say
  split
  · rw [made_pushItem, tallied]
    exact List.append_nil _
  · exact tallied

/-- A call that is without fault becomes an item with its name and its arguments. -/
theorem shape_ok {call : ToolCall} (fits : registry.callFault call = none) (lane : Lane)
    (index : Nat) : ∃ item, registry.shape lane index call = .ok item ∧
      item.call? = some call.shown ∧ item.status ≠ .inProgress := by
  unfold Registry.shape
  rw [fits]
  exact ⟨_, rfl, rfl, nofun⟩

theorem made_pushCalls (a : Accumulator) {calls : List ToolCall}
    (fits : ∀ call ∈ calls, registry.callFault call = none) :
    (pushCalls registry lane a calls).1.made = a.made ++ calls.map ToolCall.shown := by
  induction calls generalizing a with
  | nil => exact (List.append_nil _).symm
  | cons call rest ih =>
    obtain ⟨item, shaped, shown, -⟩ := shape_ok (fits call List.mem_cons_self) lane a.nextIndex
    simp only [pushCalls, shaped]
    rw [ih _ fun other mem => fits other (List.mem_cons_of_mem _ mem), made_pushItem, shown,
      List.append_assoc]
    rfl

end Accumulator

end Responder
