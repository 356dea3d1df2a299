import Responder.Turn.Accumulator

/-!
# Finished responses

Finishing a response closes the items that are still open, and changes nothing else of its
output. A response that is in progress takes the status of the verdict.
-/

namespace Responder.Accumulator

variable {a : Accumulator} {schema : Option Json} {now : Int} {outcome : Outcome}

/-- What does not look at the status of an item sees no difference. -/
theorem closeItem_keeps {α : Type} (view : OutputItem → α)
    (blind : ∀ status item, view (OutputItem.withStatus status item) = view item)
    (status : Status) (item : OutputItem) : view (closeItem status item) = view item := by
  unfold closeItem
  split
  · exact blind _ item
  · rfl

@[simp] theorem closeItem_id (status : Status) (item : OutputItem) :
    (closeItem status item).id = item.id :=
  closeItem_keeps OutputItem.id (fun _ item => by cases item <;> rfl) status item

@[simp] theorem closeItem_isMessage (status : Status) (item : OutputItem) :
    (closeItem status item).isMessage = item.isMessage :=
  closeItem_keeps OutputItem.isMessage (fun _ item => by cases item <;> rfl) status item

@[simp] theorem closeItem_text (status : Status) (item : OutputItem) :
    (closeItem status item).text = item.text :=
  closeItem_keeps OutputItem.text (fun _ item => by cases item <;> rfl) status item

theorem closeItem_eq {item : OutputItem} (status : Status) (closed : item.status ≠ .inProgress) :
    closeItem status item = item := if_neg closed

theorem settleFinished_isTerminal (a : Accumulator) :
    (a.settleFinished schema).status.isTerminal = true := by
  unfold settleFinished
  dsimp only
  split
  · rfl
  · split
    · rfl
    · rfl
    · split
      · rfl
      · split <;> rfl

theorem settle_isTerminal (a : Accumulator) :
    (a.settle schema outcome).status.isTerminal = true := by
  cases outcome with
  | finished => exact settleFinished_isTerminal a
  | failed failure => rfl
  | cancelled => rfl

/-- The finished response, if the response was in progress. -/
theorem finalize_eq (fresh : a.response.status = .inProgress) :
    a.finalize schema now outcome =
      let verdict := a.settle schema outcome
      { a.response with
        status := verdict.status
        outputText := Response.textOf a.response.output
        outputParsed := verdict.parsed
        output := a.response.output.map (closeItem verdict.status)
        error := verdict.failure.map Failure.detail
        incomplete := verdict.incomplete
        usage := a.usage
        completedAt := if verdict.status = Status.completed then some now else none } := by
  have allowed : Status.inProgress.allows (a.settle schema outcome).status = true :=
    settle_isTerminal a
  simp only [finalize, Response.transition, fresh, allowed, if_true]

/-- A finished response reports the usage that was recorded last. -/
theorem usage_finalize (a : Accumulator) (schema : Option Json) (now : Int) (outcome : Outcome) :
    (a.finalize schema now outcome).usage = a.usage := by
  simp only [finalize, Response.transition]
  split
  · next allowed =>
    split at allowed
    · cases allowed
      rfl
    · cases allowed
  · rfl

end Responder.Accumulator
