import Responder.Proofs.Turn.Account

/-!
# A streamed turn tells what it does

At each point of a run the events that were sent, followed by those that are about to be
sent, are the events of an account of the accumulator. What is left to do after them fits
the account: a message is closed only when it has text, and nothing is called or settled as
finished while one is open. An interruption cuts the events off but leaves the account.
-/

namespace Responder.Turn

open Accumulator

variable {p : Prepared} {t start : Turn} {first : Response} {a : Accumulator}
  {passages : List Passage} {s : Speech}

/-- What a turn may have left to do, once the events of its account are sent. -/
inductive Remainder : Option Speech → List Action → Prop
  | askStream : Remainder none [.askStream]
  | opening (time : Duration) (outcome : Except BackendFault ChunkStream) :
      Remainder none [.take time (.opening outcome)]
  | idle (current : Option Speech) : Remainder current [.idle]
  | read {current : Option Speech} (spoken : ∀ s ∈ current, s.deltas ≠ [])
      (source : ChunkStream) : Remainder current [.read source]
  | result {current : Option Speech} (spoken : ∀ s ∈ current, s.deltas ≠ []) (time : Duration)
      (result : Except BackendFault Chunk) (rest : ChunkStream) :
      Remainder current [.take time (.result result rest)]
  | append (s : Speech) (delta : String) (source : ChunkStream) :
      Remainder (some s) [.append delta, .read source]
  | call (call : ToolCall) (source : ChunkStream) : Remainder none [.call call, .read source]
  | settle : Remainder none [.settle .finished]

/-- The events that were sent when the outcome was decided. Only an interruption leaves some
out, and only a fault of the stream leaves a message open besides. -/
def Told (first : Response) (a : Accumulator) (outcome : Outcome) (events : List Event) : Prop :=
  ∃ k : Account, ∃ pending, k.Tells first a ∧ events ++ pending = k.events first ∧
    (outcome ≠ .cancelled → pending = []) ∧
    (k.current = none ∨ outcome = .cancelled ∨
      ∃ fault : BackendFault, outcome = .failed (.backend fault.message))

/-- A response and the events before it, as the outcome has it. -/
def Concluded (first : Response) (schema : Option Json) (events : List Event)
    (ending : Option Outcome) (r : Response) : Prop :=
  ∃ a outcome now, ending = some outcome ∧ r = a.finalize schema now outcome ∧
    Told first a outcome events

/-- What holds of a streamed turn at each point of a run. -/
def Telling (first : Response) (schema : Option Json) (gone : Bool) (events : List Event)
    (ending : Option Outcome) : Stage → Prop
  | .working a actions => ∃ k : Account, ∃ pending rest,
      actions = pending.map .emit ++ rest ∧ Remainder k.current rest ∧ k.Tells first a ∧
        events ++ pending = k.events first
  | .settling a outcome => ending = some outcome ∧ Told first a outcome events
  | .closing r => Concluded first schema events ending r
  | .ended r => ∃ body, Concluded first schema body ending r ∧
      (events = body ++ [.terminal r] ∨ events = body ∧ gone = true)

theorem closingEvents_some (h : Account.Tells first ⟨passages, some s⟩ a) :
    closingEvents a = (s.closeEvents passages.length).map .emit := by
  simp [closingEvents, h.openItem?, Speech.closeMessage_openItem, Speech.closeEvents,
    Speech.closedItem, OutputItem.id, OutputItem.text, OutputPart.text?, String.join_cons]

theorem closingEvents_none (h : Account.Tells first ⟨passages, none⟩ a) :
    closingEvents a = [] := by
  simp [closingEvents, openItem?, h.openText]

/-- A call that is accepted becomes a complete passage. -/
theorem shape_passage {registry : Registry} {lane : Lane} {index : Nat} {call : ToolCall}
    {item : OutputItem} (h : registry.shape lane index call = .ok item) :
    ∃ passage : Passage, item = passage.item ∧
      ∀ place, callEvents place item = (passage.events place).map .emit := by
  simp only [Registry.shape] at h
  split at h
  · cases h
  · cases h
    exact ⟨.call _ _ _ _, rfl, fun _ => rfl⟩

theorem emit_eq_append {event : Event} {tail rest : List Action} {pending : List Event}
    {current : Option Speech} (left : Remainder current rest)
    (h : .emit event :: tail = pending.map .emit ++ rest) :
    ∃ more, pending = event :: more ∧ tail = more.map .emit ++ rest := by
  cases pending with
  | nil =>
    simp only [List.map_nil, List.nil_append] at h
    subst h
    cases left
  | cons head more =>
    simp only [List.map_cons, List.cons_append, List.cons.injEq, Action.emit.injEq] at h
    exact ⟨more, by rw [h.1], h.2⟩

section
variable {schema : Option Json} {gone : Bool} {events : List Event} {ending : Option Outcome}

/-- The current message is closed before something else is done. -/
theorem telling_closeText {k : Account} {rest : List Action}
    (spoken : ∀ s ∈ k.current, s.deltas ≠ []) (tells : k.Tells first a)
    (told : events = k.events first) (left : Remainder none rest) :
    Telling first schema gone events ending (.working a.closeText (closingEvents a ++ rest)) := by
  obtain ⟨passages, _ | s⟩ := k
  · rw [closingEvents_none tells, tells.closeText_eq]
    exact ⟨_, [], rest, rfl, left, tells, by rw [told, List.append_nil]⟩
  · have said : s.deltas ≠ [] := spoken s rfl
    rw [closingEvents_some tells]
    exact ⟨_, _, rest, rfl, left, tells.closeText said, told ▸ Account.events_close said⟩

theorem telling_read {k : Account} {source : ChunkStream}
    (spoken : ∀ s ∈ k.current, s.deltas ≠ []) (tells : k.Tells first a)
    (told : events = k.events first) :
    Telling first schema gone events ending (.working a [.read source]) :=
  ⟨k, [], _, rfl, .read spoken source, tells, by rw [told, List.append_nil]⟩

theorem telling_text {k : Account} {rest : ChunkStream} (delta : String)
    (spoken : ∀ s ∈ k.current, s.deltas ≠ []) (tells : k.Tells first a)
    (told : events = k.events first) :
    Telling first schema gone events ending (t.takeResult a rest (.ok (.text delta))) := by
  simp only [takeResult, takeText]
  split
  · exact telling_read spoken tells told
  · obtain ⟨passages, _ | s⟩ := k
    · rw [if_neg (by simp [tells.openText]), tells.nextIndex]
      exact ⟨_, [_, _], _, rfl, .append _ delta rest, tells.openMessage _,
        told ▸ Account.events_open _⟩
    · rw [if_pos (by simp [tells.openText])]
      exact ⟨_, [], _, rfl, .append s delta rest, tells, by rw [told, List.append_nil]⟩

theorem telling_result {k : Account} {rest : ChunkStream}
    (result : Except BackendFault Chunk) (spoken : ∀ s ∈ k.current, s.deltas ≠ [])
    (tells : k.Tells first a) (told : events = k.events first) :
    Telling first schema gone events ((t.takeResult a rest result).outcome? <|> ending)
      (t.takeResult a rest result) := by
  cases result with
  | error fault =>
    exact ⟨rfl, k, [], tells, by rw [told, List.append_nil], fun _ => rfl, .inr (.inr ⟨fault, rfl⟩)⟩
  | ok chunk =>
    cases chunk with
    | text delta => exact telling_text delta spoken tells told
    | call call => exact telling_closeText spoken tells told (.call call rest)
    | usage usage => exact telling_read spoken (tells.recordUsage usage) told
    | finished reason =>
      exact telling_closeText spoken (tells.recordFinish reason) told .settle

theorem telling_awaiting {α : Type} {k : Account} {clock : Duration} {w : Wait α}
    {arrival : α → Arrival} (left : ∀ time value, Remainder k.current [.take time (arrival value)])
    (tells : k.Tells first a) (told : events = k.events first) :
    Telling first schema gone events ending (.awaiting clock a (w.map arrival)) := by
  cases w with
  | forever => exact ⟨k, [], _, rfl, .idle _, tells, by rw [told, List.append_nil]⟩
  | done after value => exact ⟨k, [], _, rfl, left _ _, tells, by rw [told, List.append_nil]⟩

theorem Telling.leave {stage : Stage} (h : Telling first schema gone events ending stage) :
    Telling first schema true events ending stage := by
  cases stage with
  | working a actions => exact h
  | settling a outcome => exact h
  | closing r => exact h
  | ended r =>
    obtain ⟨body, concluded, all | ⟨some, -⟩⟩ := h
    · exact ⟨body, concluded, .inl all⟩
    · exact ⟨body, concluded, .inr ⟨some, rfl⟩⟩

/-- Before an action that emits nothing, all events of the account are sent. -/
theorem Telling.all_sent {action : Action} {tail : List Action}
    (h : Telling first schema gone events ending (.working a (action :: tail)))
    (other : ∀ event, action ≠ .emit event) :
    ∃ passages current, Remainder current (action :: tail) ∧
      Account.Tells first ⟨passages, current⟩ a ∧
      events = Account.events ⟨passages, current⟩ first := by
  obtain ⟨⟨passages, current⟩, pending, rest, actions, left, tells, told⟩ := h
  cases pending with
  | nil =>
    rw [List.append_nil] at told
    exact ⟨passages, current, actions ▸ left, tells, told⟩
  | cons event more =>
    simp only [List.map_cons, List.cons_append, List.cons.injEq] at actions
    exact absurd actions.1 (other event)

/-- Every shift keeps what a streamed turn tells. -/
theorem Telling.shift {more : List Event} {stage next : Stage} (h : Shift p t stage more next)
    (telling : Telling first t.schema t.clientGone events ending stage) :
    Telling first t.schema t.clientGone (events ++ more) (next.outcome? <|> ending) next := by
  cases h with
  | emit a event tail =>
    obtain ⟨k, pending, rest, actions, left, tells, told⟩ := telling
    obtain ⟨others, rfl, rfl⟩ := emit_eq_append left actions
    exact ⟨k, others, rest, rfl, left, tells, by rw [← told, List.append_assoc]; rfl⟩
  | ask clock a tail =>
    obtain ⟨passages, current, left, -⟩ := telling.all_sent (fun _ => nofun)
    cases left
  | askStream clock a tail =>
    obtain ⟨passages, current, left, tells, rfl⟩ := telling.all_sent (fun _ => nofun)
    cases left
    rw [List.append_nil, Stage.outcome?_awaiting]
    exact telling_awaiting .opening tells rfl
  | take time arrival a tail =>
    obtain ⟨passages, current, left, tells, rfl⟩ := telling.all_sent (fun _ => nofun)
    rw [List.append_nil]
    cases left with
    | opening _ outcome =>
      cases outcome with
      | error fault =>
        exact ⟨rfl, _, [], tells, List.append_nil _, fun _ => rfl, .inl rfl⟩
      | ok source => exact telling_read (by simp) tells rfl
    | result spoken _ result rest => exact telling_result result spoken tells rfl
  | read clock result results a tail =>
    obtain ⟨passages, current, left, tells, rfl⟩ := telling.all_sent (fun _ => nofun)
    rw [List.append_nil, Stage.outcome?_awaiting]
    cases left with
    | read spoken =>
      refine telling_awaiting ?_ tells rfl
      exact fun time value => .result spoken time value ⟨results⟩
  | exhaust a tail =>
    obtain ⟨passages, current, left, tells, rfl⟩ := telling.all_sent (fun _ => nofun)
    rw [List.append_nil]
    cases left with
    | read spoken => exact telling_closeText spoken tells rfl .settle
  | append delta a tail opened =>
    obtain ⟨passages, current, left, tells, rfl⟩ := telling.all_sent (fun _ => nofun)
    rw [List.append_nil]
    cases left with
    | append s _ source =>
      -- The open message takes the piece before the event on it is sent.
      have tells' := tells.pushText delta
      cases tells'.openItem?.symm.trans opened
      exact ⟨_, [_], _, rfl, .read (by simp) source, tells', Account.events_extend delta⟩
  | appendNothing delta a tail opened =>
    obtain ⟨passages, current, left, tells, rfl⟩ := telling.all_sent (fun _ => nofun)
    cases left with
    | append s _ source => cases (tells.pushText delta).openItem?.symm.trans opened
  | call call a tail shaped =>
    obtain ⟨passages, current, left, tells, rfl⟩ := telling.all_sent (fun _ => nofun)
    rw [List.append_nil]
    cases left with
    | call _ source =>
      obtain ⟨passage, rfl, callEvents⟩ := shape_passage shaped
      refine ⟨_, _, _, congrArg (· ++ _) (callEvents _), .read (by simp) source,
        tells.pushItem passage, ?_⟩
      rw [tells.nextIndex]
      exact Account.events_add passage
  | refuse call a tail shaped =>
    obtain ⟨passages, current, left, tells, rfl⟩ := telling.all_sent (fun _ => nofun)
    rw [List.append_nil]
    cases left with
    | call => exact ⟨rfl, _, [], tells, List.append_nil _, fun _ => rfl, .inl rfl⟩
  | settle outcome a tail =>
    obtain ⟨passages, current, left, tells, rfl⟩ := telling.all_sent (fun _ => nofun)
    rw [List.append_nil]
    cases left with
    | settle => exact ⟨rfl, _, [], tells, List.append_nil _, fun _ => rfl, .inl rfl⟩
  | interrupt a action tail waits =>
    -- What is pending is never sent, though the accumulator already holds it.
    obtain ⟨k, pending, rest, -, -, tells, told⟩ := telling
    rw [List.append_nil]
    exact ⟨rfl, k, pending, tells, told, fun h => absurd rfl h, .inr (.inl rfl)⟩
  | finish now a outcome =>
    obtain ⟨decided, told⟩ := telling
    rw [List.append_nil]
    exact ⟨a, outcome, now, decided, rfl, told⟩
  | tell response => exact ⟨events, telling, .inl rfl⟩
  | lose response gone => exact ⟨events, telling, .inr ⟨List.append_nil _, gone⟩⟩

/-- What holds of the turn of an admitted request before it starts. -/
theorem telling_opening (empty : first.output = []) :
    Telling first schema gone [] ending (.working { response := first } (opening first)) := by
  have same : first = { first with output := [] } :=
    congrArg (fun output => { first with output }) empty
  exact ⟨⟨[], none⟩, [_, _], [.askStream], rfl, .askStream, ⟨same, rfl⟩, rfl⟩

end

end Responder.Turn
