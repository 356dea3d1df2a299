import Responder.Proofs.Server.Turns

/-!
# The last event of a turn

A streamed turn puts its finished response on the channel as its last event. Main statement: no
other event on the channel is one that ends a stream.
-/

namespace Responder

theorem Event.response?_terminal (r : Response) : (terminal r).response? = some r := by
  unfold terminal
  split <;> rfl

/-- Whether an action leaves the last event of a stream alone. -/
def Action.isPlain : Action → Bool
  | .emit event => !event.isTerminal
  | _ => true

/-- No action that is left puts a last event on the channel. -/
def Stage.Plain : Stage → Prop
  | working _ actions => actions.all Action.isPlain = true
  | settling .. | closing _ | ended _ => True

namespace Turn

variable {p : Prepared} {t next : Turn} {stage after : Stage} {events : List Event}

theorem plain_append {a b : Accumulator} {before rest : List Action}
    (front : before.all Action.isPlain = true) (back : (Stage.working a rest).Plain) :
    (Stage.working b (before ++ rest)).Plain :=
  List.all_append.trans (Bool.and_eq_true_iff.2 ⟨front, back⟩)

theorem plain_cons {a : Accumulator} {action : Action} {rest : List Action}
    (h : (Stage.working a (action :: rest)).Plain) :
    action.isPlain = true ∧ rest.all Action.isPlain = true :=
  Bool.and_eq_true_iff.1 h

theorem plain_closingEvents (a : Accumulator) :
    (closingEvents a).all Action.isPlain = true := by
  unfold closingEvents
  split <;> rfl

theorem plain_callEvents (index : Nat) (item : OutputItem) :
    (callEvents index item).all Action.isPlain = true := by
  cases item <;> rfl

theorem plain_awaiting (clock : Duration) (a : Accumulator) (w : Wait Arrival) :
    (Stage.awaiting clock a w).Plain := by
  cases w <;> rfl

theorem plain_takeResult (a : Accumulator) (rest : ChunkStream)
    (result : Except BackendFault Chunk) : (t.takeResult a rest result).Plain := by
  cases result with
  | error fault => trivial
  | ok chunk =>
    cases chunk with
    | text delta =>
      simp only [takeResult, takeText]
      split
      · rfl
      · split <;> rfl
    | usage usage => rfl
    | call call =>
      have calls : (Stage.working a [.call call, .read rest]).Plain := rfl
      exact plain_append (plain_closingEvents a) calls
    | finished reason =>
      have settles : (Stage.working a [.settle .finished]).Plain := rfl
      exact plain_append (plain_closingEvents _) settles

theorem plain_takeArrival (a : Accumulator) (arrival : Arrival) :
    (t.takeArrival a arrival).Plain := by
  cases arrival with
  | answer outcome => cases outcome <;> trivial
  | opening outcome =>
    cases outcome with
    | error fault => trivial
    | ok source => rfl
  | result result rest => exact plain_takeResult a rest result

theorem Shift.plain (h : Shift p t stage events after) (plain : stage.Plain) : after.Plain := by
  cases h with
  | ask | askStream | read => exact plain_awaiting ..
  | take time arrival a rest => exact plain_takeArrival a arrival
  | exhaust a rest =>
    have settles : (Stage.working a [.settle .finished]).Plain := rfl
    exact plain_append (plain_closingEvents a) settles
  | emit | append | appendNothing => exact (plain_cons plain).2
  | call call a rest shaped =>
    have left : (Stage.working a rest).Plain := (plain_cons plain).2
    exact plain_append (plain_callEvents _ _) left
  | refuse | settle | interrupt | finish | tell | lose => trivial

/-- The only events that end a stream tell of the response of the turn. -/
structure Announces (t : Turn) : Prop where
  plain : t.stage.Plain
  told : ∀ event ∈ t.queue.map (·.event), event.isTerminal = true →
    ∃ r, t.response? = some r ∧ event = .terminal r

theorem Shift.told (h : Shift p t stage events next.stage) (plain : stage.Plain) :
    ∀ event ∈ events, event.isTerminal = true → ∃ r, next.response? = some r ∧
      event = .terminal r := by
  intro event mem last
  generalize ends : next.stage = after at h
  cases h with
  | emit a told rest =>
    have silent := (plain_cons plain).1
    simp only [Action.isPlain, ← List.mem_singleton.1 mem, last, Bool.not_true,
      Bool.false_eq_true] at silent
  | tell r =>
    refine ⟨r, ?_, List.mem_singleton.1 mem⟩
    rw [Turn.response?, ends]
  | _ => cases mem

theorem queue_of_client (same : next.client = t.client) : next.queue = t.queue := by
  simp only [queue, channel?, same]

theorem events_push (c : Reception) (events : List Event) (reads : t.client = c)
    (after : next.client = c.push events) :
    next.queue.map (·.event) ⊆ t.queue.map (·.event) ++ events := by
  cases c with
  | waiting =>
    have nothing : next.queue = [] := by simp only [queue, channel?, after, Reception.push]; rfl
    rw [nothing]
    exact List.nil_subset _
  | reading channel =>
    rw [queue_of_reading reads, queue_of_reading after, Channel.foldl_push_events]
    exact List.Subset.refl _

theorem Step.announces (step : t.Step next) (h : t.Announces) : next.Announces := by
  have keeps {r : Response} (finished : t.response? = some r) : next.response? = some r :=
    step.response? finished
  cases step with
  | move m =>
    obtain ⟨events, shifted⟩ | ⟨-, stage, client, -⟩ := m.cases_shifted
    · refine ⟨shifted.shift.plain h.plain, fun event mem last => ?_⟩
      obtain old | new := List.mem_append.1 (events_push _ events rfl shifted.client mem)
      · obtain ⟨r, finished, same⟩ := h.told event old last
        exact ⟨r, keeps finished, same⟩
      · exact shifted.shift.told h.plain event new last
    · refine ⟨stage ▸ h.plain, fun event mem last => ?_⟩
      rw [queue_of_client client] at mem
      obtain ⟨r, finished, same⟩ := h.told event mem last
      exact ⟨r, keeps finished, same⟩
  | receive taken =>
    obtain ⟨-, stage, -, c, rest, client, queue, after⟩ := receive_spec taken
    refine ⟨stage ▸ h.plain, fun event mem last => ?_⟩
    rw [queue_of_reading after] at mem
    have old : event ∈ t.queue.map (·.event) := by
      rw [queue_of_reading client, queue]
      exact List.mem_cons_of_mem _ mem
    obtain ⟨r, finished, same⟩ := h.told event old last
    exact ⟨r, keeps finished, same⟩

theorem announces_admitted (admitted : Admission.Admitted) (s : Admission.Setting) (seen : Nat)
    (streamed : Bool) : (admitted.turn s seen streamed).Announces := by
  cases streamed <;> exact ⟨rfl, List.forall_mem_nil _⟩

/-- An event that ends a stream tells of the finished response. -/
theorem Announces.receive (h : t.Announces) {event : Sequenced}
    (taken : t.receive? = some (event, next)) (last : event.event.isTerminal = true) :
    ∃ r, t.response? = some r ∧ event.event = .terminal r := by
  obtain ⟨-, -, -, c, rest, client, queue, -⟩ := receive_spec taken
  refine h.told _ ?_ last
  rw [queue_of_reading client, queue]
  exact List.mem_cons_self

end Turn

end Responder
