import Responder.Server.Basic

/-!
# Runs of a turn

A turn moves in small steps. What happens around it is left open: when the clock is looked
at, when a cancellation is heard, when the client reads or leaves. `Shift` says all that a
move can do to the stage of a turn and which events it puts on the channel; what holds of
runs is proved from it, one case for each kind of action.
-/

namespace Responder

namespace Channel

theorem foldl_push_capacity (c : Channel) (events : List Event) :
    (events.foldl push c).capacity = c.capacity := by
  induction events generalizing c with
  | nil => rfl
  | cons event rest ih => exact ih (c.push event)

theorem foldl_push_events (c : Channel) (events : List Event) :
    (events.foldl push c).queue.map (·.event) = c.queue.map (·.event) ++ events := by
  induction events generalizing c with
  | nil => exact (List.append_nil _).symm
  | cons event rest ih => simp [ih, push]

/-- Events enter a channel with the numbers that come next. -/
theorem foldl_push_numbers {c : Channel} {before : List Nat} (events : List Event)
    (h : before ++ c.queue.map (·.number) = List.range c.next) :
    before ++ (events.foldl push c).queue.map (·.number) =
      List.range (events.foldl push c).next := by
  induction events generalizing c with
  | nil => exact h
  | cons event rest ih =>
    apply ih
    simp only [push, List.map_append, List.map_cons, List.map_nil, List.range_succ]
    rw [← List.append_assoc, h]

end Channel

namespace Reception

/-- The client with more events on their way to it. -/
def push (c : Reception) (events : List Event) : Reception :=
  match c with
  | .waiting => .waiting
  | .reading channel => .reading (events.foldl Channel.push channel)

theorem push_nil (c : Reception) : c.push [] = c := by
  cases c <;> rfl

end Reception

namespace Stage

/-- The outcome, while the response is not finished yet. -/
def outcome? : Stage → Option Outcome
  | settling _ outcome => some outcome
  | working .. | closing _ | ended _ => none

/-- The stage of a turn that begins to wait. -/
def awaiting (clock : Duration) (a : Accumulator) : Wait Arrival → Stage
  | .forever => working a [.idle]
  | .done after arrival => working a [.take (clock + after) arrival]

@[simp] theorem outcome?_awaiting (clock : Duration) (a : Accumulator) (w : Wait Arrival) :
    (awaiting clock a w).outcome? = none := by
  cases w <;> rfl

end Stage

namespace Turn

variable {p : Prepared} {start t next : Turn} {read : List Sequenced} {ending : Option Outcome}

theorem response?_cases {r : Response} (h : t.response? = some r) :
    t.stage = .closing r ∨ t.stage = .ended r := by
  unfold response? at h
  split at h
  · cases h
  · cases h
  · next hs => exact .inl (Option.some.inj h ▸ hs)
  · next hs => exact .inr (Option.some.inj h ▸ hs)

/-- The events that are on their way to the client. -/
def queue (t : Turn) : List Sequenced := (t.channel?.map (·.queue)).getD []

/-- What a turn does on its own, when its backend answers with `p`. -/
inductive Own (p : Prepared) : Turn → Turn → Prop
  | step {t next : Turn} (clock : Duration) : t.step clock = some next → Own p t next
  | ask {t : Turn} {a : Accumulator} {rest : List Action} (clock : Duration) :
      t.stage = .working a (.ask :: rest) → Own p t (t.await clock a (p.answer.map .answer))
  | askStream {t : Turn} {a : Accumulator} {rest : List Action} (clock : Duration) :
      t.stage = .working a (.askStream :: rest) →
      Own p t (t.await clock a (p.opening.map .opening))
  | hear {t : Turn} (seen : Nat) : Own p t { t with seen }
  | finish {t : Turn} (now : Int) : Own p t (t.finish now)

/-- A move of a turn. One that waits may be cancelled, and its client may leave at any
time. -/
inductive Move (p : Prepared) : Turn → Turn → Prop
  | own {t next : Turn} : Own p t next → Move p t next
  | cancel {t : Turn} : t.waits = true → Move p t t.interrupt
  | leave {t : Turn} : Move p t { t with clientGone := true }

/-- A run: the events that the client has read, the outcome if it is decided, and the turn
that is reached. -/
inductive Run (p : Prepared) (start : Turn) : List Sequenced → Option Outcome → Turn → Prop
  | start : Run p start [] start.stage.outcome? start
  | move {read : List Sequenced} {ending : Option Outcome} {t next : Turn} :
      Run p start read ending t → Move p t next →
      Run p start read (next.stage.outcome? <|> ending) next
  | read {read : List Sequenced} {ending : Option Outcome} {t next : Turn} {event : Sequenced} :
      Run p start read ending t → t.receive? = some (event, next) →
      Run p start (read ++ [event]) ending next

/-- What a move never changes. -/
structure Kept (t next : Turn) : Prop where
  id : next.id = t.id
  lane : next.lane = t.lane
  request : next.request = t.request
  registry : next.registry = t.registry

theorem Kept.frame (t : Turn) (client : Reception) (stage : Stage) :
    Kept t { t with client, stage } := ⟨rfl, rfl, rfl, rfl⟩

theorem Kept.trans {t u v : Turn} (h : Kept t u) (k : Kept u v) : Kept t v :=
  ⟨k.id.trans h.id, k.lane.trans h.lane, k.request.trans h.request, k.registry.trans h.registry⟩

/-- What a move can do to the stage of a turn, and the events it puts on the channel. -/
inductive Shift (p : Prepared) (t : Turn) : Stage → List Event → Stage → Prop
  | emit (a : Accumulator) (event : Event) (rest : List Action) :
      Shift p t (.working a (.emit event :: rest)) [event] (.working a rest)
  | ask (clock : Duration) (a : Accumulator) (rest : List Action) :
      Shift p t (.working a (.ask :: rest)) []
        (.awaiting clock a (p.answer.map .answer))
  | askStream (clock : Duration) (a : Accumulator) (rest : List Action) :
      Shift p t (.working a (.askStream :: rest)) []
        (.awaiting clock a (p.opening.map .opening))
  | take (time : Duration) (arrival : Arrival) (a : Accumulator) (rest : List Action) :
      Shift p t (.working a (.take time arrival :: rest)) [] (t.takeArrival a arrival)
  | read (clock : Duration) (result : Wait (Except BackendFault Chunk))
      (results : List (Wait (Except BackendFault Chunk))) (a : Accumulator)
      (rest : List Action) :
      Shift p t (.working a (.read ⟨result :: results⟩ :: rest)) []
        (.awaiting clock a (result.map fun result => .result result ⟨results⟩))
  | exhaust (a : Accumulator) (rest : List Action) :
      Shift p t (.working a (.read ⟨[]⟩ :: rest)) []
        (.working a.closeText (closingEvents a ++ [.settle .finished]))
  | append (delta : String) (a : Accumulator) (rest : List Action) {index : Nat}
      {item : OutputItem} : (a.pushText delta).openItem? = some (index, item) →
      Shift p t (.working a (.append delta :: rest)) []
        (.working (a.pushText delta) (.emit (.textDelta item.id index delta) :: rest))
  | appendNothing (delta : String) (a : Accumulator) (rest : List Action) :
      (a.pushText delta).openItem? = none →
      Shift p t (.working a (.append delta :: rest)) [] (.working (a.pushText delta) rest)
  | call (call : ToolCall) (a : Accumulator) (rest : List Action) {item : OutputItem} :
      t.registry.shape t.lane a.nextIndex call = .ok item →
      Shift p t (.working a (.call call :: rest)) []
        (.working (a.pushItem item) (callEvents a.nextIndex item ++ rest))
  | refuse (call : ToolCall) (a : Accumulator) (rest : List Action) {failure : Failure} :
      t.registry.shape t.lane a.nextIndex call = .error failure →
      Shift p t (.working a (.call call :: rest)) [] (.settling a (.failed failure))
  | settle (outcome : Outcome) (a : Accumulator) (rest : List Action) :
      Shift p t (.working a (.settle outcome :: rest)) [] (.settling a outcome)
  | interrupt (a : Accumulator) (action : Action) (rest : List Action) :
      action.waits = true →
      Shift p t (.working a (action :: rest)) [] (.settling a .cancelled)
  | finish (now : Int) (a : Accumulator) (outcome : Outcome) :
      Shift p t (.settling a outcome) [] (.closing (a.finalize t.schema now outcome))
  | tell (response : Response) :
      Shift p t (.closing response) [.terminal response] (.ended response)
  | lose (response : Response) : t.clientGone = true →
      Shift p t (.closing response) [] (.ended response)

theorem Shift.working {events : List Event} {stage after : Stage} {a : Accumulator}
    {actions : List Action} (h : Shift p t stage events after)
    (works : after = .working a actions) : ∃ b others, stage = .working b others := by
  cases h with
  | finish | tell | lose => cases works
  | _ => exact ⟨_, _, rfl⟩

@[simp] theorem await_stage (clock : Duration) (a : Accumulator) (w : Wait Arrival) :
    (t.await clock a w).stage = .awaiting clock a w := by
  cases w <;> rfl

@[simp] theorem await_client (clock : Duration) (a : Accumulator) (w : Wait Arrival) :
    (t.await clock a w).client = t.client := by
  cases w <;> rfl

theorem await_kept (clock : Duration) (a : Accumulator) (w : Wait Arrival) :
    Kept t (t.await clock a w) := by
  cases w <;> exact .frame ..

theorem await_clientGone (clock : Duration) (a : Accumulator) (w : Wait Arrival) :
    (t.await clock a w).clientGone = t.clientGone := by
  cases w <;> rfl

/-- A move that shifts the stage and puts events on the channel. -/
structure Shifted (p : Prepared) (t : Turn) (events : List Event) (next : Turn) : Prop where
  kept : Kept t next
  gone : next.clientGone = t.clientGone
  shift : Shift p t t.stage events next.stage
  client : next.client = t.client.push events

theorem Shifted.silent {stage : Stage} (h : Shift p t t.stage [] stage) :
    Shifted p t [] { t with stage } :=
  ⟨.frame .., rfl, h, t.client.push_nil.symm⟩

theorem Shifted.await {clock : Duration} {a : Accumulator} {w : Wait Arrival}
    (h : Shift p t t.stage [] (.awaiting clock a w)) : Shifted p t [] (t.await clock a w) := by
  refine ⟨await_kept .., await_clientGone .., ?_, ?_⟩
  · rw [await_stage]
    exact h
  · rw [await_client, Reception.push_nil]

theorem perform_shifted {clock : Duration} {a : Accumulator} {rest : List Action}
    {action : Action} (hs : t.stage = .working a (action :: rest))
    (h : t.perform clock a rest action = some next) : ∃ events, Shifted p t events next := by
  cases action with
  | emit event =>
    simp only [perform] at h
    split at h
    · next channel hc =>
      split at h
      · cases h
        exact ⟨[event], .frame .., rfl, hs ▸ .emit a event rest, by rw [hc]; rfl⟩
      · cases h
    · next hc =>
      cases h
      exact ⟨[event], .frame .., rfl, hs ▸ .emit a event rest, by rw [hc]; rfl⟩
  | ask => cases h
  | askStream => cases h
  | idle => cases h
  | take time arrival =>
    simp only [perform] at h
    split at h
    · cases h
      exact ⟨[], .silent (hs ▸ .take time arrival a rest)⟩
    · cases h
  | read source =>
    obtain ⟨results⟩ := source
    cases results with
    | nil =>
      cases h
      exact ⟨[], .silent (hs ▸ .exhaust a rest)⟩
    | cons result results =>
      cases h
      exact ⟨[], .await (hs ▸ .read clock result results a rest)⟩
  | append delta =>
    simp only [perform] at h
    split at h
    · next index item ho =>
      cases h
      exact ⟨[], .silent (hs ▸ .append delta a rest ho)⟩
    · next ho =>
      cases h
      exact ⟨[], .silent (hs ▸ .appendNothing delta a rest ho)⟩
  | call call =>
    simp only [perform] at h
    split at h
    · next item ho =>
      cases h
      exact ⟨[], .silent (hs ▸ .call call a rest ho)⟩
    · next failure ho =>
      cases h
      exact ⟨[], .silent (hs ▸ .refuse call a rest ho)⟩
  | settle outcome =>
    cases h
    exact ⟨[], .silent (hs ▸ .settle outcome a rest)⟩

theorem interrupt_shifted (h : t.waits = true) : Shifted p t [] t.interrupt := by
  simp only [waits] at h
  split at h
  · next a action rest hs =>
    simp only [interrupt, hs]
    exact .silent (hs ▸ .interrupt a action rest h)
  · cases h

theorem step_shifted {clock : Duration} (h : t.step clock = some next) :
    ∃ events, Shifted p t events next := by
  unfold step at h
  split at h
  · next a action rest hs =>
    split at h
    · next gone =>
      cases h
      refine ⟨[], interrupt_shifted ?_⟩
      simp only [waits, hs]
      exact (Bool.and_eq_true_iff.1 gone).2
    · exact perform_shifted hs h
  · next response hs =>
    split at h
    · next channel hc =>
      split at h
      · next gone =>
        cases h
        exact ⟨[], .silent (hs ▸ .lose response gone)⟩
      · split at h
        · cases h
          exact ⟨[.terminal response], .frame .., rfl, hs ▸ .tell response, by rw [hc]; rfl⟩
        · cases h
    · next hc =>
      cases h
      exact ⟨[.terminal response], .frame .., rfl, hs ▸ .tell response, by rw [hc]; rfl⟩
  all_goals cases h

/-- What a turn does on its own is what `Shift` says, or changes neither the stage nor the
channel. -/
theorem Own.cases_shifted (m : Own p t next) :
    (∃ events, Shifted p t events next) ∨ (Kept t next ∧ next.stage = t.stage ∧
      next.client = t.client ∧ next.clientGone = t.clientGone) := by
  cases m with
  | step clock h => exact .inl (step_shifted h)
  | ask clock h => exact .inl ⟨[], .await (h ▸ .ask clock _ _)⟩
  | askStream clock h => exact .inl ⟨[], .await (h ▸ .askStream clock _ _)⟩
  | hear => exact .inr ⟨⟨rfl, rfl, rfl, rfl⟩, rfl, rfl, rfl⟩
  | finish now =>
    unfold Turn.finish
    split
    · next a outcome hs => exact .inl ⟨[], .silent (hs ▸ .finish now a outcome)⟩
    · exact .inr ⟨.frame .., rfl, rfl, rfl⟩

theorem Move.cases_shifted (m : Move p t next) :
    (∃ events, Shifted p t events next) ∨ (Kept t next ∧ next.stage = t.stage ∧
      next.client = t.client ∧ (next.clientGone = t.clientGone ∨ next.clientGone = true)) := by
  cases m with
  | own m =>
    obtain shifted | ⟨kept, stage, client, gone⟩ := m.cases_shifted
    · exact .inl shifted
    · exact .inr ⟨kept, stage, client, .inl gone⟩
  | cancel h => exact .inl ⟨[], interrupt_shifted h⟩
  | leave => exact .inr ⟨⟨rfl, rfl, rfl, rfl⟩, rfl, rfl, .inr rfl⟩

theorem Move.kept (m : Move p t next) : Kept t next := by
  obtain ⟨events, shifted⟩ | ⟨kept, -⟩ := m.cases_shifted
  · exact shifted.kept
  · exact kept

theorem receive_spec {event : Sequenced} (h : t.receive? = some (event, next)) :
    Kept t next ∧ next.stage = t.stage ∧ next.clientGone = t.clientGone ∧
      ∃ c rest, t.client = .reading c ∧ c.queue = event :: rest ∧
        next.client = .reading { c with queue := rest } := by
  simp only [receive?] at h
  split at h
  · cases h
  · next c hc =>
    obtain ⟨⟨first, after⟩, ht, he⟩ := Option.map_eq_some_iff.1 h
    simp only [Channel.take?] at ht
    split at ht
    · cases ht
    · next rest hq =>
      cases ht
      cases he
      exact ⟨.frame .., rfl, rfl, c, rest, hc, hq, rfl⟩

namespace Run

theorem kept (run : Run p start read ending t) : Kept start t := by
  induction run with
  | start => exact .frame ..
  | move _ m ih => exact ih.trans m.kept
  | read _ h ih => exact ih.trans (receive_spec h).1

/-- The outcome of a run is that of its turn, as long as the turn has one. -/
theorem outcome_eq (run : Run p start read ending t) : (t.stage.outcome? <|> ending) = ending := by
  induction run with
  | start => cases start.stage.outcome? <;> rfl
  | @move _ _ _ next => cases next.stage.outcome? <;> rfl
  | read _ h ih =>
    rw [(receive_spec h).2.1]
    exact ih

/-- What every shift keeps holds all along a run. -/
theorem stage_invariant {P : Option Outcome → Stage → Prop}
    (first : P start.stage.outcome? start.stage)
    (shift : ∀ {u : Turn} {events : List Event} {stage : Stage} {ending : Option Outcome},
      Kept start u → Shift p u u.stage events stage → P ending u.stage →
      P (stage.outcome? <|> ending) stage)
    (run : Run p start read ending t) : P ending t.stage := by
  induction run with
  | start => exact first
  | move before m ih =>
    obtain ⟨events, shifted⟩ | ⟨-, same, -⟩ := m.cases_shifted
    · exact shift before.kept shifted.shift ih
    · rw [same, before.outcome_eq]
      exact ih
  | read _ h ih =>
    rw [(receive_spec h).2.1]
    exact ih

theorem undecided (run : Run p start read ending t) :
    ∀ a actions, t.stage = .working a actions → ending = none := by
  refine run.stage_invariant
    (P := fun ending stage => ∀ a actions, stage = .working a actions → ending = none) ?_ ?_
  · intro a actions hs
    rw [hs]
    rfl
  · intro u events stage ending _ shift before a actions hs
    obtain ⟨b, others, was⟩ := shift.working hs
    rw [before b others was, hs]
    rfl

end Run

/-- The events that a turn has put on its channel: those that were read, and those that
are on their way. -/
def sent (read : List Sequenced) (t : Turn) : List Sequenced := read ++ t.queue

/-- What holds of a streamed turn: its client reads, the events that were sent are numbered
from zero on, and `P` holds of them. -/
structure Streams (P : Bool → List Event → Option Outcome → Stage → Prop)
    (read : List Sequenced) (ending : Option Outcome) (t : Turn) : Prop where
  reading : ∃ channel, t.client = .reading channel ∧
    (sent read t).map (·.number) = List.range channel.next
  holds : P t.clientGone ((sent read t).map (·.event)) ending t.stage

variable {P : Bool → List Event → Option Outcome → Stage → Prop}

theorem queue_of_reading {channel : Channel} (h : t.client = .reading channel) :
    t.queue = channel.queue := by
  simp only [queue, channel?, h]
  rfl

/-- What every shift keeps, together with the events that were sent, holds all along a run
whose channel is new at its start. -/
theorem Run.streams {capacity : Nat} (new : start.client = .reading { capacity })
    (first : P start.clientGone [] start.stage.outcome? start.stage)
    (leave : ∀ {gone : Bool} {events : List Event} {ending : Option Outcome} {stage : Stage},
      P gone events ending stage → P true events ending stage)
    (shift : ∀ {u : Turn} {before events : List Event} {stage : Stage} {ending : Option Outcome},
      Kept start u → Shift p u u.stage events stage → P u.clientGone before ending u.stage →
      P u.clientGone (before ++ events) (stage.outcome? <|> ending) stage)
    (run : Run p start read ending t) : Streams P read ending t := by
  induction run with
  | start =>
    refine ⟨⟨_, new, ?_⟩, ?_⟩
    · simp [sent, queue_of_reading new]
    · simpa [sent, queue_of_reading new] using first
  | @move read _ t next before m ih =>
    obtain ⟨⟨channel, reading, numbers⟩, holds⟩ := ih
    obtain ⟨events, shifted⟩ | ⟨-, stage, client, gone⟩ := m.cases_shifted
    · -- The numbers go on where the channel left off, whatever of it was read.
      have reading' : next.client = .reading (events.foldl Channel.push channel) := by
        rw [shifted.client, reading]
        rfl
      simp only [sent, List.map_append, queue_of_reading reading] at numbers holds
      refine ⟨⟨_, reading', ?_⟩, ?_⟩
      · rw [sent, List.map_append, queue_of_reading reading']
        exact Channel.foldl_push_numbers events numbers
      · rw [sent, List.map_append, queue_of_reading reading', Channel.foldl_push_events,
          ← List.append_assoc, shifted.gone]
        exact shift before.kept shifted.shift holds
    · have same : sent read next = sent read t := by
        simp only [sent, queue, channel?, client]
      refine ⟨⟨channel, client.trans reading, same ▸ numbers⟩, ?_⟩
      rw [same, stage, before.outcome_eq]
      obtain gone | gone := gone
      · rw [gone]
        exact holds
      · rw [gone]
        exact leave holds
  | @read read _ t next event _ h ih =>
    obtain ⟨⟨channel, reading, numbers⟩, holds⟩ := ih
    obtain ⟨-, stage, gone, c, rest, client, hq, after⟩ := receive_spec h
    obtain rfl : channel = c := by
      rw [reading] at client
      exact Reception.reading.inj client
    have same : sent (read ++ [event]) next = sent read t := by
      rw [sent, sent, queue_of_reading after, queue_of_reading reading, hq]
      simp
    refine ⟨⟨_, after, same ▸ numbers⟩, ?_⟩
    rw [same, stage, gone]
    exact holds

end Turn

end Responder
