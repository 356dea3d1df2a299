import Responder.Proofs.Turn.Cancellation

/-!
# What comes to a turn

Much happens around a turn, and little of it comes to the turn: what its backend brings, its
signal, and that its client leaves. Main statement: however its steps lie between those of others,
a turn goes as a machine does that is moved by this alone, and by the room to send the next event.
-/

namespace Responder

/-- What comes to a turn, or that it sends. -/
inductive Happening where
  /-- The next event is sent, or the response to a client that waits for it. -/
  | sent
  | arrived (arrival : Arrival)
  /-- The stream of the backend comes to its end. -/
  | exhausted
  | signalled
  | left

/-- Where a turn stands when it has done all that it can do by itself. -/
inductive Place where
  | telling (a : Accumulator) (event : Event) (rest : List Action)
  /-- It waits for its backend. -/
  | waiting (a : Accumulator)
  /-- The outcome is decided, and the last event not sent. -/
  | decided (a : Accumulator) (outcome : Outcome)
  /-- Nothing more will be sent. -/
  | quiet (a : Accumulator) (outcome : Outcome)

namespace Place

/-- To a client that is gone nothing is sent, and nothing is asked for it any more. -/
def leave : Place → Place
  | telling a _ _ | waiting a => quiet a .cancelled
  | decided a outcome | quiet a outcome => quiet a outcome

def verdict? : Place → Option (Accumulator × Outcome)
  | telling .. | waiting _ => none
  | decided a outcome | quiet a outcome => some (a, outcome)

/-- What can come to a turn at a place; it may be interrupted, or left, at any. -/
def Allows : Place → Happening → Prop
  | waiting _, .arrived _ | waiting _, .exhausted => True
  | _, .signalled | _, .left => True
  | _, _ => False

end Place

namespace Action

/-- What happens when an action is done. -/
def happening : Action → List Happening
  | emit _ => [.sent]
  | take _ arrival => [.arrived arrival]
  | read source => if source.results.isEmpty then [.exhausted] else []
  | ask | askStream | idle | append _ | call _ | settle _ => []

end Action

namespace Turn

variable {start t next : Turn} {a : Accumulator} {p q r : Place} {told told' : List Happening}
  {events events' : List Event} {read got : List Sequenced}

/-- What happens in the next step of a turn. -/
def happening (t : Turn) : List Happening :=
  match t.stage with
  | .working _ (action :: _) => if t.clientGone && action.waits then [] else action.happening
  | .closing _ => if t.clientGone then [] else [.sent]
  | .working _ [] | .settling .. | .ended _ => []

/-- What a turn does, or what is done with it, what happens to it then, and what its client
reads. This is seen from the turn alone: which signals it hears, and who has left, the server
knows. -/
inductive Does (t : Turn) : List Happening → List Sequenced → Turn → Prop
  | step {next : Turn} (clock : Duration) : t.step clock = some next → Does t t.happening [] next
  | ask {a : Accumulator} {rest : List Action} (clock : Duration) (answer : Answer) :
      t.stage = .working a (.ask :: rest) → Does t [] [] (t.await clock a (answer.map .answer))
  | askStream {a : Accumulator} {rest : List Action} (clock : Duration) (opening : Opening) :
      t.stage = .working a (.askStream :: rest) →
      Does t [] [] (t.await clock a (opening.map .opening))
  | finish (now : Int) : Does t [] [] (t.finish now)
  | hear (seen : Nat) : Does t [] [] { t with seen }
  | signal (seen : Nat) : t.waits = true → Does t [.signalled] [] { t with seen }.interrupt
  | leave : Does t (if t.clientGone then [] else [.left]) [] { t with clientGone := true }
  | receive {event : Sequenced} {next : Turn} : t.receive? = some (event, next) →
      Does t [] [event] next

/-- The place that a turn comes to by itself. -/
def ready (t : Turn) (a : Accumulator) : List Action → Place
  | [] | .ask :: _ | .askStream :: _ | .idle :: _ | .take .. :: _ | .read _ :: _ => .waiting a
  | .emit event :: rest => .telling a event rest
  | .append delta :: rest =>
    match (a.pushText delta).openItem? with
    | some (index, item) => .telling (a.pushText delta) (.textDelta item.id index delta) rest
    | none => t.ready (a.pushText delta) rest
  | .call call :: rest =>
    match t.registry.shape t.lane a.nextIndex call with
    | .ok item =>
      match callEvents a.nextIndex item with
      | .emit event :: more => .telling (a.pushItem item) event (more ++ rest)
      | _ => t.ready (a.pushItem item) rest
    | .error failure => .decided a (.failed failure)
  | .settle outcome :: _ => .decided a outcome

/-- The place of a turn whose response is not finished. -/
def place (t : Turn) : Stage → Place
  | .working a actions => t.ready a actions
  | .settling a outcome => .decided a outcome
  | .closing response | .ended response => .waiting { response }

/-- Where a turn stands after something has happened. -/
def meet (t : Turn) : Place → Happening → Place
  | .telling a _ rest, .sent => t.ready a rest
  | .decided a outcome, .sent => .quiet a outcome
  | .waiting a, .arrived arrival => t.place (t.takeArrival a arrival)
  | .waiting a, .exhausted => t.ready a.closeText (closingEvents a ++ [.settle .finished])
  | .telling a _ _, .signalled | .waiting a, .signalled => .decided a .cancelled
  | place, .left => place.leave
  | place, _ => place

/-- The event that is sent from a place. Of the last one the time is open. -/
def Tells (t : Turn) (event : Event) : Place → Prop
  | .telling _ next _ => event = next
  | .decided a outcome => ∃ now, event = .terminal (a.finalize t.schema now outcome)
  | .waiting _ | .quiet .. => False

/-- What the machine of a turn tells while all this happens, and where it stands then. -/
inductive Tale (t : Turn) : Place → List Happening → List Event → Place → Prop
  | nil (p : Place) : Tale t p [] [] p
  | sent {p q : Place} {told : List Happening} {event : Event} {events : List Event} :
      t.Tells event p → Tale t (t.meet p .sent) told events q →
      Tale t p (.sent :: told) (event :: events) q
  | met {p q : Place} {h : Happening} {told : List Happening} {events : List Event} :
      p.Allows h → Tale t (t.meet p h) told events q → Tale t p (h :: told) events q

theorem Tale.append (tale : Tale t p told events q) (more : Tale t q told' events' r) :
    Tale t p (told ++ told') (events ++ events') r := by
  induction tale with
  | nil => exact more
  | sent tells _ ih => exact .sent tells (ih more)
  | met allows _ ih => exact .met allows (ih more)

/-- A stage of a turn that stands at a place, if its client is there. -/
def Stands (t : Turn) (p : Place) : Stage → Prop
  | .working a actions => p = t.ready a actions
  | .settling a outcome => p = .decided a outcome
  | .closing r => ∃ a outcome now, r = a.finalize t.schema now outcome ∧ p = .decided a outcome
  | .ended r => ∃ a outcome now, r = a.finalize t.schema now outcome ∧ p = .quiet a outcome

/-- A turn that began as another one stands at a place. -/
def At (start t : Turn) (p : Place) : Prop :=
  ∃ q, start.Stands q t.stage ∧ p = if t.clientGone then q.leave else q

theorem At.response {r : Response} (stands : At start t p) (answered : t.response? = some r) :
    ∃ a outcome now, p.verdict? = some (a, outcome) ∧
      r = a.finalize start.schema now outcome := by
  obtain ⟨q, place, rfl⟩ := stands
  obtain stage | stage := response?_cases answered
  all_goals
    rw [stage] at place
    obtain ⟨a, outcome, now, same, rfl⟩ := place
    refine ⟨a, outcome, now, ?_, same⟩
    cases t.clientGone <;> rfl

theorem At.ended {r : Response} (stands : At start t p) (ended : t.stage = .ended r) :
    ∃ a outcome, p = .quiet a outcome := by
  obtain ⟨q, place, rfl⟩ := stands
  rw [ended] at place
  obtain ⟨a, outcome, -, -, rfl⟩ := place
  refine ⟨a, outcome, ?_⟩
  cases t.clientGone <;> rfl

/-- One step of a turn is one of the machine, and what it tells is put on the channel. -/
def Follows (start : Turn) (p : Place) (t : Turn) (told : List Happening) (next : Turn) : Prop :=
  ∃ events q, Tale start p told events q ∧ At start next q ∧ Kept t next ∧
    next.client = t.client.push events

theorem Follows.silent (stands : At start next p) (kept : Kept t next)
    (client : next.client = t.client) : Follows start p t [] next :=
  ⟨[], p, .nil p, stands, kept, client.trans t.client.push_nil.symm⟩

theorem takeArrival_kept (kept : Kept start t) (a : Accumulator) (arrival : Arrival) :
    t.takeArrival a arrival = start.takeArrival a arrival := by
  cases arrival with
  | answer outcome =>
    cases outcome with
    | error fault => rfl
    | ok c => simp only [takeArrival, kept.registry, kept.lane]
  | opening outcome => cases outcome <;> rfl
  | result result source =>
    cases result with
    | error fault => rfl
    | ok chunk =>
      cases chunk with
      | text delta => simp only [takeArrival, takeResult, takeText, kept.lane]
      | call | usage | finished => rfl

theorem stands_takeArrival (t : Turn) (a : Accumulator) (arrival : Arrival) :
    t.Stands (t.place (t.takeArrival a arrival)) (t.takeArrival a arrival) := by
  cases arrival with
  | answer outcome => cases outcome <;> rfl
  | opening outcome => cases outcome <;> rfl
  | result result source =>
    cases result with
    | error fault => rfl
    | ok chunk => cases chunk <;> rfl

theorem stands_awaiting (t : Turn) (clock : Duration) (a : Accumulator) (w : Wait Arrival) :
    t.Stands (.waiting a) (.awaiting clock a w) := by
  cases w <;> rfl

theorem ready_waits {action : Action} (waits : action.waits = true) (t : Turn) (a : Accumulator)
    (rest : List Action) :
    (∃ event, action = .emit event ∧ t.ready a (action :: rest) = .telling a event rest) ∨
      (t.ready a (action :: rest) = .waiting a) := by
  cases action with
  | emit event => exact .inl ⟨event, rfl, rfl⟩
  | ask | askStream | idle | take | read => exact .inr rfl
  | append | call | settle => cases waits

theorem leave_ready {action : Action} (waits : action.waits = true) (t : Turn) (a : Accumulator)
    (rest : List Action) : (t.ready a (action :: rest)).leave = .quiet a .cancelled := by
  obtain ⟨event, -, ready⟩ | ready := ready_waits waits t a rest <;> rw [ready] <;> rfl

/-- A turn that is interrupted stands where its client would leave it, or where it decides. -/
theorem At.interrupt (stands : At start t p) (waits : t.waits = true) (seen : Nat) :
    At start { t with seen }.interrupt (start.meet p .signalled) ∧
      (t.clientGone = true → start.meet p .signalled = p) := by
  obtain ⟨q, stands, rfl⟩ := stands
  unfold Turn.waits at waits
  split at waits
  · next a action rest works =>
    rw [works] at stands
    obtain rfl := stands
    have settles : { t with seen }.interrupt =
        { t with seen, stage := .settling a .cancelled } := by
      simp only [Turn.interrupt, works]
    rw [settles]
    cases gone : t.clientGone with
    | true =>
      simp only [if_true, leave_ready waits]
      exact ⟨⟨.decided a .cancelled, rfl, by simp only [if_true, Place.leave, meet]⟩,
        fun _ => rfl⟩
    | false =>
      refine ⟨⟨.decided a .cancelled, rfl, ?_⟩, fun left => absurd left Bool.false_ne_true⟩
      simp only [Bool.false_eq_true, if_false]
      obtain ⟨event, -, ready⟩ | ready := ready_waits waits start a rest <;> rw [ready] <;> rfl
  · cases waits

section perform
variable {clock : Duration} {rest : List Action} {action : Action}

/-- A step that needs no waiting changes nothing but the stage, and leaves the turn where it
stands. -/
theorem Follows.onward {stage : Stage} (stands : At start t p)
    (onward : ∀ q, start.Stands q t.stage → start.Stands q stage) :
    Follows start p t [] { t with stage } := by
  obtain ⟨q, stands, same⟩ := stands
  exact .silent ⟨q, onward q stands, same⟩ (.frame ..) rfl

/-- What happens to a turn whose client is there moves the machine. -/
theorem Follows.met {h : Happening} {stage : Stage} (present : t.clientGone = false)
    (allows : p.Allows h) (stands : start.Stands (start.meet p h) stage) :
    Follows start p t [h] { t with stage } := by
  refine ⟨[], _, .met allows (.nil _), ⟨_, stands, ?_⟩, .frame .., t.client.push_nil.symm⟩
  simp only [present, Bool.false_eq_true, if_false]

theorem Follows.sent {event : Event} {stage : Stage} (present : t.clientGone = false)
    (tells : start.Tells event p) (stands : start.Stands (start.meet p .sent) stage)
    (kept : Kept t next) (gone : next.clientGone = t.clientGone) (after : next.stage = stage)
    (client : next.client = t.client.push [event]) : Follows start p t [.sent] next := by
  refine ⟨[event], _, .sent tells (.nil _), ⟨_, after ▸ stands, ?_⟩, kept, client⟩
  simp only [gone, present, Bool.false_eq_true, if_false]

theorem At.of_present (stands : At start t p) (present : t.clientGone = false) :
    start.Stands p t.stage := by
  obtain ⟨q, stands, rfl⟩ := stands
  simpa only [present, Bool.false_eq_true, if_false] using stands

theorem perform_follows (kept : Kept start t) (stands : At start t p)
    (works : t.stage = .working a (action :: rest))
    (stays : (t.clientGone && action.waits) = false)
    (performed : t.perform clock a rest action = some next) :
    Follows start p t action.happening next := by
  have present (waits : action.waits = true) : t.clientGone = false := by
    rw [waits, Bool.and_true] at stays
    exact stays
  cases action with
  | emit event =>
    have place := stands.of_present (present rfl)
    rw [works] at place
    obtain rfl := place
    have after : start.Stands (start.meet (.telling a event rest) .sent) (.working a rest) := rfl
    simp only [perform] at performed
    split at performed
    · next channel reading =>
      split at performed
      · cases performed
        exact .sent (present rfl) rfl after (.frame ..) rfl rfl (by rw [reading]; rfl)
      · cases performed
    · next waiting =>
      cases performed
      exact .sent (present rfl) rfl after (.frame ..) rfl rfl (by rw [waiting]; rfl)
  | ask | askStream | idle => cases performed
  | take time arrival =>
    have place := stands.of_present (present rfl)
    rw [works] at place
    obtain rfl := place
    simp only [perform] at performed
    split at performed
    · cases performed
      rw [takeArrival_kept kept]
      exact .met (present rfl) trivial (stands_takeArrival start a arrival)
    · cases performed
  | read source =>
    have here := present rfl
    have place := stands.of_present here
    rw [works] at place
    obtain rfl := place
    obtain ⟨_ | ⟨result, results⟩⟩ := source
    · cases performed
      exact .met here trivial rfl
    · cases performed
      refine .silent ⟨.waiting a, ?_, ?_⟩ (await_kept ..) (await_client ..)
      · rw [await_stage]
        exact stands_awaiting ..
      · rw [await_clientGone, here]
        rfl
  | append delta =>
    simp only [perform] at performed
    split at performed
    · next index item opened =>
      cases performed
      refine .onward stands fun q stands => ?_
      rw [works] at stands
      simpa only [Stands, ready, opened] using stands
    · next opened =>
      cases performed
      refine .onward stands fun q stands => ?_
      rw [works] at stands
      simpa only [Stands, ready, opened] using stands
  | call call =>
    simp only [perform] at performed
    split at performed
    · next item shaped =>
      cases performed
      refine .onward stands fun q stands => ?_
      rw [works] at stands
      simp only [Stands, ready, ← kept.registry, ← kept.lane, shaped] at stands ⊢
      cases item <;> exact stands
    · next failure shaped =>
      cases performed
      refine .onward stands fun q stands => ?_
      rw [works] at stands
      simpa only [Stands, ready, ← kept.registry, ← kept.lane, shaped] using stands
  | settle outcome =>
    cases performed
    refine .onward stands fun q stands => ?_
    rw [works] at stands
    exact stands

end perform

/-- Each step of a turn is one of its machine, or changes nothing for it. -/
theorem step_follows {clock : Duration} (kept : Kept start t) (stands : At start t p)
    (stepped : t.step clock = some next) : Follows start p t t.happening next := by
  unfold step at stepped
  split at stepped
  · next a action rest works =>
    split at stepped
    · next left =>
      cases stepped
      obtain ⟨gone, waits⟩ := Bool.and_eq_true_iff.1 left
      have listens : t.waits = true := by
        simp only [Turn.waits, works]
        exact waits
      obtain ⟨after, same⟩ := stands.interrupt listens t.seen
      have silent : t.happening = [] := by simp only [happening, works, left, if_true]
      rw [same gone] at after
      rw [silent]
      exact .silent after (interrupt_shifted (p := .never) listens).kept
        (by simp only [Turn.interrupt, works])
    · next stays =>
      have happens : t.happening = action.happening := by
        simp only [happening, works, stays, Bool.false_eq_true, if_false]
      rw [happens]
      exact perform_follows kept stands works (Bool.eq_false_iff.2 stays) stepped
  · next r closing =>
    obtain ⟨q, place, same⟩ := stands
    rw [closing] at place
    obtain ⟨a, outcome, now, rfl, rfl⟩ := place
    have lost (gone : t.clientGone = true) : Follows start p t t.happening
        { t with stage := .ended (a.finalize start.schema now outcome) } := by
      have silent : t.happening = [] := by simp only [happening, closing, gone, if_true]
      rw [silent]
      refine .silent ⟨.quiet a outcome, ⟨a, outcome, now, rfl, rfl⟩, ?_⟩ (.frame ..) rfl
      rw [same, gone]
      rfl
    have tells (present : t.clientGone = false) : t.happening = [.sent] ∧
        start.Tells (.terminal (a.finalize start.schema now outcome)) p ∧
        start.Stands (start.meet p .sent) (.ended (a.finalize start.schema now outcome)) := by
      simp only [present, Bool.false_eq_true, if_false] at same
      subst same
      refine ⟨?_, ⟨now, rfl⟩, ⟨a, outcome, now, rfl, rfl⟩⟩
      simp only [happening, closing, present, Bool.false_eq_true, if_false]
    split at stepped
    · next channel reading =>
      split at stepped
      · next gone =>
        cases stepped
        exact lost gone
      · next present =>
        split at stepped
        · cases stepped
          have present := Bool.eq_false_iff.2 present
          obtain ⟨happens, tells, after⟩ := tells present
          rw [happens]
          exact .sent present tells after (.frame ..) rfl rfl (by rw [reading]; rfl)
        · cases stepped
    · next waiting =>
      cases stepped
      by_cases gone : t.clientGone = true
      · exact lost gone
      · have present := Bool.eq_false_iff.2 gone
        obtain ⟨happens, tells, after⟩ := tells present
        rw [happens]
        exact .sent present tells after (.frame ..) rfl rfl (by rw [waiting]; rfl)
  all_goals cases stepped

/-- Whatever is done with a turn, it goes on as its machine does, or an event is read. -/
theorem Does.follows (does : t.Does told got next) (kept : Kept start t) (stands : At start t p) :
    (got = [] ∧ Follows start p t told next) ∨
      (told = [] ∧ At start next p ∧ ∃ event, got = [event] ∧ t.receive? = some (event, next)) := by
  cases does with
  | step clock stepped => exact .inl ⟨rfl, step_follows kept stands stepped⟩
  | ask clock answer works | askStream clock opening works =>
    obtain ⟨q, place, same⟩ := stands
    rw [works] at place
    refine .inl ⟨rfl, .silent ⟨q, ?_, ?_⟩ (await_kept ..) (await_client ..)⟩
    · rw [await_stage, show q = .waiting _ from place]
      exact stands_awaiting ..
    · rw [await_clientGone]
      exact same
  | finish now =>
    refine .inl ⟨rfl, ?_⟩
    unfold Turn.finish
    split
    · next a outcome settling =>
      refine .onward stands fun q place => ?_
      rw [settling] at place
      have schema : t.schema = start.schema := by simp only [schema, kept.request]
      exact ⟨a, outcome, now, by rw [schema], place⟩
    · exact .silent stands (.frame ..) rfl
  | hear seen => exact .inl ⟨rfl, .silent stands ⟨rfl, rfl, rfl, rfl⟩ rfl⟩
  | signal seen waits =>
    have allows : p.Allows .signalled := by cases p <;> trivial
    have shifted : Shifted .never { t with seen } [] { t with seen }.interrupt :=
      interrupt_shifted waits
    refine .inl ⟨rfl, [], _, .met allows (.nil _), (stands.interrupt waits seen).1, ?_,
      shifted.client⟩
    have kept : Kept t { t with seen } := ⟨rfl, rfl, rfl, rfl⟩
    exact kept.trans shifted.kept
  | leave =>
    refine .inl ⟨rfl, ?_⟩
    obtain ⟨q, place, same⟩ := stands
    split
    · next gone =>
      refine .silent ⟨q, place, ?_⟩ ⟨rfl, rfl, rfl, rfl⟩ rfl
      simpa only [gone, if_true] using same
    · next present =>
      simp only [present, Bool.false_eq_true, if_false] at same
      subst same
      have allows : p.Allows .left := by cases p <;> trivial
      have after : start.meet p .left = p.leave := by cases p <;> rfl
      refine ⟨[], _, .met allows (.nil _), ⟨p, place, ?_⟩, ⟨rfl, rfl, rfl, rfl⟩,
        t.client.push_nil.symm⟩
      simp only [after, if_true]
  | @receive event next taken =>
    obtain ⟨-, stage, gone, -⟩ := receive_spec taken
    refine .inr ⟨rfl, ?_, event, rfl, taken⟩
    unfold At
    rw [stage, gone]
    exact stands

/-- The events that a streamed turn has told are those that were read and those on their way,
numbered from zero on. To a client that waits no events are told. -/
inductive Carried : Bool → List Event → List Sequenced → Turn → Prop
  | reading {t : Turn} {events : List Event} {read : List Sequenced} {channel : Channel} :
      t.client = .reading channel → (sent read t).map (·.event) = events →
      (sent read t).map (·.number) = List.range channel.next → Carried true events read t
  | waiting {t : Turn} (events : List Event) : t.client = .waiting → Carried false events [] t

section carried
variable {streamed : Bool}

theorem Carried.push (h : Carried streamed events read t)
    (client : next.client = t.client.push events') :
    Carried streamed (events ++ events') read next := by
  cases h with
  | @reading _ _ _ channel reading told numbers =>
    rw [reading] at client
    rw [sent, queue_of_reading reading, List.map_append] at told numbers
    refine .reading client ?_ ?_
    · rw [sent, queue_of_reading client, List.map_append, Channel.foldl_push_events,
        ← List.append_assoc, told]
    · rw [sent, queue_of_reading client, List.map_append]
      exact Channel.foldl_push_numbers events' numbers
  | waiting _ waiting =>
    rw [waiting] at client
    exact .waiting _ client

theorem Carried.receive {event : Sequenced} (h : Carried streamed events read t)
    (taken : t.receive? = some (event, next)) : Carried streamed events (read ++ [event]) next := by
  obtain ⟨-, -, -, c, rest, client, front, after⟩ := receive_spec taken
  cases h with
  | reading reading told numbers =>
    cases client.symm.trans reading
    have same : sent (read ++ [event]) next = sent read t := by
      rw [sent, sent, queue_of_reading client, queue_of_reading after, front, List.append_assoc]
      rfl
    exact .reading after (same ▸ told) (same ▸ numbers)
  | waiting _ waiting => cases client.symm.trans waiting

/-- What a turn has come to that began at a place, when all this has happened to it. -/
def Recounted (start : Turn) (first : Place) (streamed : Bool) (told : List Happening)
    (read : List Sequenced) (t : Turn) : Prop :=
  ∃ events q, Tale start first told events q ∧ At start t q ∧ Kept start t ∧
    Carried streamed events read t

theorem Recounted.does (h : Recounted start p streamed told read t)
    (does : t.Does told' got next) :
    Recounted start p streamed (told ++ told') (read ++ got) next := by
  obtain ⟨events, q, tale, stands, kept, carried⟩ := h
  obtain ⟨rfl, events', r, more, stands, kept', client⟩ | ⟨rfl, stands, event, rfl, taken⟩ :=
    does.follows kept stands
  · rw [List.append_nil]
    exact ⟨_, r, tale.append more, stands, kept.trans kept', carried.push client⟩
  · rw [List.append_nil]
    exact ⟨events, q, tale, stands, kept.trans (receive_spec taken).1, carried.receive taken⟩

end carried

end Turn

end Responder
