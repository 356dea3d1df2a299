import Responder.Proofs.Turn.Outline

/-!
# What an interrupted turn has

The output of a turn only grows: items are added behind those that are there, and text to the
one that is open. So a turn that is interrupted has the first of the items that it would have
come to.
-/

open scoped List

namespace Responder

namespace Accumulator

variable {p : Prepared} {registry : Registry} {lane : Lane} {a : Accumulator}
  {goal : Accumulator × Outcome}

theorem prefix_pushItem (a : Accumulator) (item : OutputItem) :
    a.outline <+: (a.pushItem item).outline := by
  rw [outline_pushItem]
  exact List.prefix_append ..

theorem prefix_addText (lane : Lane) (a : Accumulator) (delta : String) :
    a.outline <+: (a.addText lane delta).outline := by
  unfold addText
  split
  · exact List.prefix_rfl
  · split
    · simp only [outline_pushText, List.prefix_rfl]
    · rw [outline_pushText]
      exact prefix_pushItem a _

theorem prefix_pushCalls (registry : Registry) (lane : Lane) (a : Accumulator)
    (calls : List ToolCall) : a.outline <+: (pushCalls registry lane a calls).1.outline := by
  induction calls generalizing a with
  | nil => exact List.prefix_rfl
  | cons call rest ih =>
    simp only [pushCalls]
    split
    · next item _ => exact (prefix_pushItem a item).trans (ih (a.pushItem item))
    · exact List.prefix_rfl

theorem prefix_install (registry : Registry) (lane : Lane) (a : Accumulator) (c : Completion) :
    a.outline <+: (a.install registry lane c).1.outline := by
  have tallied : (a.tally c.usage c.finish).outline = a.outline := by
    cases c.usage <;> rfl
  have said : a.outline <+: (a.say lane c).outline := by
    unfold say
    rw [← tallied]
    split
    · exact prefix_pushItem ..
    · exact List.prefix_rfl
  have called := said.trans (prefix_pushCalls registry lane (a.say lane c) c.calls)
  rw [install_eq]
  split
  · next taken => rwa [taken] at called
  · next taken => rwa [taken] at called

/-- What is consumed comes behind what is there. -/
theorem prefix_consume {results : List (Wait (Except BackendFault Chunk))}
    (h : a.consume registry lane results = some goal) : a.outline <+: goal.1.outline := by
  induction results generalizing a with
  | nil =>
    cases h
    simp only [outline_closeText, List.prefix_rfl]
  | cons w rest ih =>
    cases w with
    | forever => cases h
    | done after result =>
      cases result with
      | error fault =>
        cases h
        exact List.prefix_rfl
      | ok chunk =>
        cases chunk with
        | text delta => exact (prefix_addText lane a delta).trans (ih h)
        | call call =>
          simp only [consume] at h
          rw [← outline_closeText]
          split at h
          · next item _ => exact (prefix_pushItem a.closeText item).trans (ih h)
          · cases h
            exact List.prefix_rfl
        | usage usage => exact ih (a := a.recordUsage usage) h
        | finished reason =>
          cases h
          have same : (a.recordFinish reason).closeText.outline = a.outline :=
            outline_closeText (a.recordFinish reason)
          simp only [same, List.prefix_rfl]

theorem prefix_arrive {arrival : Arrival} (h : a.arrive registry lane arrival = some goal) :
    a.outline <+: goal.1.outline := by
  cases arrival with
  | answer outcome =>
    cases outcome with
    | error fault =>
      cases h
      exact List.prefix_rfl
    | ok c =>
      cases h
      exact prefix_install registry lane a c
  | opening outcome =>
    cases outcome with
    | error fault =>
      cases h
      exact List.prefix_rfl
    | ok source => exact prefix_consume h
  | result result rest => exact prefix_consume h

/-- What is foretold has the items that are there, and more behind them. -/
theorem prefix_foretell {actions : List Action}
    (h : a.foretell p registry lane actions = some goal) : a.outline <+: goal.1.outline := by
  induction actions generalizing a with
  | nil => cases h
  | cons action rest ih =>
    cases action with
    | emit event => exact ih h
    | ask =>
      obtain ⟨outcome, -, arrives⟩ := Option.bind_eq_some_iff.1 h
      exact prefix_arrive arrives
    | askStream =>
      obtain ⟨outcome, -, arrives⟩ := Option.bind_eq_some_iff.1 h
      exact prefix_arrive arrives
    | idle => cases h
    | take time arrival => exact prefix_arrive h
    | read source => exact prefix_consume h
    | append delta =>
      rw [← outline_pushText a delta]
      exact ih h
    | call call =>
      simp only [foretell] at h
      split at h
      · next item _ => exact (prefix_pushItem a item).trans (ih h)
      · cases h
        exact List.prefix_rfl
    | settle outcome =>
      cases h
      exact List.prefix_rfl

end Accumulator

namespace Turn

variable {p : Prepared} {start t : Turn} {read : List Sequenced} {ending : Option Outcome}
  {goal : Accumulator × Outcome}

/-- An outcome that is decided comes with the first of the items of a goal. -/
def Begins (goal : Accumulator × Outcome) : Stage → Prop
  | .working .. => True
  | .settling a _ => a.outline <+: goal.1.outline
  | .closing r | .ended r => r.output.map OutputItem.outline <+: goal.1.outline

theorem begins_result {a : Accumulator} {rest : ChunkStream} {result : Except BackendFault Chunk}
    (same : ∀ b outcome, t.takeResult a rest result = .settling b outcome →
      b.outline <+: goal.1.outline) :
    Begins goal (t.takeResult a rest result) := by
  cases result with
  | error fault => exact same _ _ rfl
  | ok chunk =>
    cases chunk with
    | text delta =>
      simp only [takeResult, takeText]
      split
      · trivial
      · split <;> trivial
    | call | usage | finished => trivial

theorem begins_arrival {a : Accumulator} {arrival : Arrival}
    (same : ∀ b outcome, t.takeArrival a arrival = .settling b outcome →
      b.outline <+: goal.1.outline) :
    Begins goal (t.takeArrival a arrival) := by
  cases arrival with
  | answer outcome => cases outcome <;> exact same _ _ rfl
  | opening outcome =>
    cases outcome with
    | error fault => exact same _ _ rfl
    | ok source => trivial
  | result result rest => exact begins_result same

theorem begins_awaiting (clock : Duration) (a : Accumulator) (w : Wait Arrival) :
    Begins goal (.awaiting clock a w) := by
  cases w <;> trivial

/-- Whatever decides the outcome of a turn, an interruption as well, leaves it the first of the
items that it was heading for. -/
theorem Shift.begins {stage next : Stage} {events : List Event}
    (h : Shift p t stage events next)
    (heads : Heads p t.registry t.lane t.schema goal ending stage) (begins : Begins goal stage) :
    Begins goal next := by
  have after := h.heads heads
  cases h with
  | take time arrival a rest =>
    apply begins_arrival
    intro b outcome same
    rw [same] at after
    obtain ⟨-, rfl | same'⟩ := after
    · have quiet := takeArrival_quiet (t := t) a arrival
      rw [same] at quiet
      exact absurd rfl quiet
    · simp only [← same', List.prefix_rfl]
  | interrupt a action rest waits => exact Accumulator.prefix_foretell heads
  | refuse call a rest shaped => exact Accumulator.prefix_foretell heads
  | settle outcome a rest => exact Accumulator.prefix_foretell heads
  | finish now a outcome =>
    simp only [Begins, Accumulator.outline_finalize]
    exact begins
  | tell response => exact begins
  | lose response gone => exact begins
  | ask | askStream | read => exact begins_awaiting ..
  | emit | exhaust | append | appendNothing | call => trivial

/-- A finished response has the first of the items that its turn was heading for, even if the
turn was cut off. -/
theorem Run.begins {a : Accumulator} {actions : List Action} {final : Response}
    (run : Run p start read ending t) (working : start.stage = .working a actions)
    (told : a.foretell p start.registry start.lane actions = some goal)
    (finished : t.response? = some final) :
    final.output.map OutputItem.outline <+: goal.1.outline := by
  have both : Heads p start.registry start.lane start.schema goal ending t.stage ∧
      Begins goal t.stage := by
    refine run.stage_invariant (P := fun ending stage =>
      Heads p start.registry start.lane start.schema goal ending stage ∧ Begins goal stage) ?_ ?_
    · rw [working]
      exact ⟨told, trivial⟩
    · intro u events stage ending kept shift before
      have schema : u.schema = start.schema := by simp only [Turn.schema, kept.request]
      rw [← kept.registry, ← kept.lane, ← schema] at before ⊢
      exact ⟨shift.heads before.1, shift.begins before.1 before.2⟩
  obtain hs | hs := response?_cases finished
  · rw [hs] at both
    exact both.2
  · rw [hs] at both
    exact both.2

end Turn

end Responder
