import Responder.Proofs.Turn.Run

/-!
# Progress of a turn

Every shift makes less of what a turn has left to do, so a turn shifts only so often. A turn
whose backend answers can always shift without being interrupted, once its client has read
what was sent. Hence each run can be carried on to its end.
-/

namespace Responder

/-- None of the results is waited for in vain. -/
def ChunkStream.Arrives (source : ChunkStream) : Prop := ∀ w ∈ source.results, w ≠ .forever

def Arrival.Arrives : Arrival → Prop
  | answer _ | opening (.error _) => True
  | opening (.ok source) => source.Arrives
  | result _ rest => rest.Arrives

/-- A stream that is asked for is opened or refused, and none of its results is waited for in
vain. -/
def Prepared.StreamArrives (p : Prepared) : Prop :=
  ∃ after outcome, p.opening = .done after outcome ∧ Arrival.Arrives (.opening outcome)

/-- A word in two pieces, or the same word as a whole answer. -/
def Prepared.hello : Prepared where
  answer := .now (.ok { text := some "hello", calls := [], finish := .stop, usage := none })
  opening := .now (.ok ⟨[.now (.ok (.text "hel")), .now (.ok (.text "lo")),
    .now (.ok (.finished .stop))]⟩)

theorem Prepared.hello_arrives : hello.StreamArrives :=
  ⟨_, _, rfl, by simp [Arrival.Arrives, ChunkStream.Arrives, Wait.now]⟩

theorem Arrival.budget_pos (arrival : Arrival) : 0 < arrival.budget := by
  cases arrival with
  | answer => exact Nat.zero_lt_one
  | opening outcome =>
    cases outcome with
    | error => exact Nat.zero_lt_one
    | ok source => simp only [budget]; omega
  | result => simp only [budget]; omega

namespace Action

/-- Actions that another one follows. -/
def Leads : Action → Prop
  | emit _ | append _ | call _ => True
  | ask | askStream | idle | take .. | read _ | settle _ => False

/-- Actions with which all that is left to do may end: none of them waits in vain. -/
def Ends (p : Prepared) : Action → Prop
  | ask => p.answer ≠ .forever
  | askStream => p.StreamArrives
  | take _ arrival => arrival.Arrives
  | read source => source.Arrives
  | settle outcome => outcome ≠ .cancelled
  | idle | emit _ | append _ | call _ => False

/-- What asking the backend may lead to. -/
def reach (p : Prepared) : Nat :=
  match p.opening with
  | .done _ outcome => 1 + (Arrival.opening outcome).budget
  | .forever => 2

theorem one_lt_reach (p : Prepared) : 1 < reach p := by
  unfold reach
  split
  · next outcome _ =>
    have pos := (Arrival.opening outcome).budget_pos
    omega
  · decide

/-- A bound on the shifts that an action leads to. -/
def weight (p : Prepared) : Action → Nat
  | ask | askStream => 1 + reach p
  | action => action.budget

theorem weight_pos (p : Prepared) (action : Action) : 0 < action.weight p := by
  cases action with
  | take _ arrival => exact arrival.budget_pos
  | read => simp only [weight, budget, ChunkStream.budget]; omega
  | ask | askStream => simp only [weight]; omega
  | _ => simp [weight, budget]

end Action

namespace Stage

def Lively (p : Prepared) : Stage → Prop
  | working _ actions => ∃ before last, actions = before ++ [last] ∧
      (∀ action ∈ before, action.Leads) ∧ last.Ends p
  | settling .. | closing _ | ended _ => True

/-- A turn at this stage has something to do, and does not wait for what never comes. -/
def Busy : Stage → Prop
  | working _ actions => ∃ action rest, actions = action :: rest ∧ action ≠ .idle
  | settling .. | closing _ | ended _ => True

/-- A bound on the shifts that are left. -/
def weight (p : Prepared) : Stage → Nat
  | working _ actions => actions.foldr (fun action n => action.weight p + n) 0 + 3
  | settling .. => 2
  | closing _ => 1
  | ended _ => 0

theorem weight_emits (p : Prepared) (a : Accumulator) (events : List Event)
    (rest : List Action) :
    (working a (events.map .emit ++ rest)).weight p =
      events.length + (working a rest).weight p := by
  induction events with
  | nil => simp
  | cons event more ih =>
    simp only [weight, List.map_cons, List.cons_append, List.foldr_cons, List.length_cons,
      Action.weight, Action.budget] at ih ⊢
    omega

end Stage

namespace Turn

variable {p : Prepared} {start t next : Turn} {read : List Sequenced} {ending : Option Outcome}

theorem closingEvents_emits (a : Accumulator) :
    ∃ events : List Event, events.length ≤ 3 ∧ closingEvents a = events.map .emit := by
  unfold closingEvents
  split
  · exact ⟨[_, _, _], Nat.le_refl 3, rfl⟩
  · exact ⟨[], Nat.zero_le 3, rfl⟩

theorem callEvents_emits (index : Nat) (item : OutputItem) :
    ∃ events : List Event, events.length ≤ 3 ∧ callEvents index item = events.map .emit := by
  cases item with
  | message => exact ⟨[], Nat.zero_le 3, rfl⟩
  | functionCall => exact ⟨[_, _, _], Nat.le_refl 3, rfl⟩

theorem takeResult_weight (a : Accumulator) (rest : ChunkStream)
    (result : Except BackendFault Chunk) :
    (t.takeResult a rest result).weight p < 11 + rest.budget := by
  cases result with
  | error fault => simp only [takeResult, Stage.weight]; omega
  | ok chunk =>
    obtain ⟨events, few, closing⟩ := closingEvents_emits a
    cases chunk with
    | text delta =>
      simp only [takeResult, takeText]
      split
      · simp [Stage.weight, Action.weight, Action.budget]
        omega
      · split <;> simp [Stage.weight, Action.weight, Action.budget] <;> omega
    | call call =>
      simp only [takeResult, closing, Stage.weight_emits]
      simp [Stage.weight, Action.weight, Action.budget]
      omega
    | usage usage =>
      simp [takeResult, Stage.weight, Action.weight, Action.budget]
      omega
    | finished reason =>
      obtain ⟨events, few, closing⟩ := closingEvents_emits (a.recordFinish reason)
      simp only [takeResult, closing, Stage.weight_emits]
      simp [Stage.weight, Action.weight, Action.budget]
      omega

theorem takeArrival_weight (a : Accumulator) (arrival : Arrival) :
    (t.takeArrival a arrival).weight p < arrival.budget + 3 := by
  cases arrival with
  | answer outcome =>
    cases outcome <;> simp [takeArrival, Stage.weight, Arrival.budget]
  | opening outcome =>
    cases outcome <;>
      simp [takeArrival, Stage.weight, Arrival.budget, Action.weight, Action.budget]
  | result result rest =>
    have less := takeResult_weight (t := t) (p := p) a rest result
    simp only [takeArrival, Arrival.budget]
    omega

theorem awaiting_weight (clock : Duration) (a : Accumulator) (w : Wait Arrival) (bound : Nat)
    (one : 1 ≤ bound) (h : ∀ after arrival, w = .done after arrival → arrival.budget ≤ bound) :
    (Stage.awaiting clock a w).weight p ≤ bound + 3 := by
  cases w with
  | forever => simpa [Stage.awaiting, Stage.weight, Action.weight, Action.budget] using one
  | done after arrival =>
    simpa [Stage.awaiting, Stage.weight, Action.weight, Action.budget] using h after arrival rfl

/-- Every shift makes less of what is left to do. -/
theorem Shift.weight_lt {events : List Event} {stage after : Stage}
    (h : Shift p t stage events after) : after.weight p < stage.weight p := by
  cases h with
  | emit a event rest => simp [Stage.weight, Action.weight, Action.budget]
  | ask clock a rest =>
    have reach := Action.one_lt_reach p
    have less := awaiting_weight (p := p) clock a (p.answer.map .answer) 1 (Nat.le_refl 1) (by
      intro after arrival h
      cases hw : p.answer with
      | forever => rw [hw] at h; cases h
      | done _ outcome => rw [hw] at h; cases h; exact Nat.le_refl 1)
    simp only [Stage.weight, List.foldr_cons, Action.weight] at less ⊢
    omega
  | askStream clock a rest =>
    have reach := Action.one_lt_reach p
    have less := awaiting_weight (p := p) clock a (p.opening.map .opening) (Action.reach p)
      (by omega) (by
        intro after arrival h
        cases hw : p.opening with
        | forever => rw [hw] at h; cases h
        | done _ outcome =>
          rw [hw] at h
          cases h
          simp only [Action.reach, hw]
          omega)
    simp only [Stage.weight, List.foldr_cons, Action.weight] at less ⊢
    omega
  | take time arrival a rest =>
    have less := takeArrival_weight (t := t) (p := p) a arrival
    simp only [Stage.weight, List.foldr_cons, Action.weight, Action.budget] at less ⊢
    omega
  | read clock result results a rest =>
    have less := awaiting_weight (p := p) clock a
      (result.map fun result => .result result ⟨results⟩) (13 + 9 * results.length) (by omega) (by
        intro after arrival h
        cases result with
        | forever => cases h
        | done _ value => cases h; simp only [Arrival.budget, ChunkStream.budget]; omega)
    simp only [Stage.weight, List.foldr_cons, Action.weight, Action.budget,
      ChunkStream.budget, List.length_cons] at less ⊢
    omega
  | exhaust a rest =>
    obtain ⟨events, few, closing⟩ := closingEvents_emits a
    rw [closing, Stage.weight_emits]
    simp [Stage.weight, Action.weight, Action.budget, ChunkStream.budget]
    omega
  | append delta a rest opened => simp [Stage.weight, Action.weight, Action.budget]
  | appendNothing delta a rest opened => simp [Stage.weight, Action.weight, Action.budget]
  | call call a rest shaped =>
    obtain ⟨events, few, told⟩ := callEvents_emits a.nextIndex ‹OutputItem›
    rw [told, Stage.weight_emits]
    simp [Stage.weight, Action.weight, Action.budget]
    omega
  | refuse call a rest shaped => simp [Stage.weight, Action.weight, Action.budget]
  | settle outcome a rest => simp [Stage.weight, Action.weight, Action.budget]
  | interrupt a action rest waits =>
    have pos := action.weight_pos p
    simp only [Stage.weight, List.foldr_cons]
    omega
  | finish now a outcome => exact Nat.one_lt_two
  | tell response => exact Nat.zero_lt_one
  | lose response gone => exact Nat.zero_lt_one

theorem lively_of_not_working {stage : Stage}
    (decided : ∀ a actions, stage ≠ .working a actions) : stage.Lively p := by
  cases stage with
  | working a actions => exact absurd rfl (decided a actions)
  | settling | closing | ended => trivial

theorem lively_single {a : Accumulator} {last : Action} (h : last.Ends p) :
    (Stage.working a [last]).Lively p := ⟨[], last, rfl, by simp, h⟩

theorem lively_emits {a : Accumulator} {rest : List Action} (events : List Event)
    (h : (Stage.working a rest).Lively p) :
    (Stage.working a (events.map .emit ++ rest)).Lively p := by
  obtain ⟨before, last, rfl, leads, ends⟩ := h
  refine ⟨events.map .emit ++ before, last, (List.append_assoc ..).symm, ?_, ends⟩
  intro action mem
  rcases List.mem_append.1 mem with mem | mem
  · obtain ⟨event, -, rfl⟩ := List.mem_map.1 mem
    exact trivial
  · exact leads action mem

/-- What leads to more is followed by something lively. -/
theorem lively_tail {a b : Accumulator} {action : Action} {rest : List Action}
    (h : (Stage.working a (action :: rest)).Lively p) (leads : action.Leads) :
    (Stage.working b rest).Lively p := by
  obtain ⟨_ | ⟨head, before⟩, last, actions, all, ends⟩ := h
  · cases actions
    cases action <;> first | exact leads.elim | exact ends.elim
  · cases actions
    exact ⟨before, last, rfl, fun other mem => all other (List.mem_cons_of_mem _ mem), ends⟩

theorem lively_last {a : Accumulator} {action : Action} {rest : List Action}
    (h : (Stage.working a (action :: rest)).Lively p) (other : ¬ action.Leads) :
    rest = [] ∧ action.Ends p := by
  obtain ⟨_ | ⟨head, before⟩, last, actions, all, ends⟩ := h
  · cases actions
    exact ⟨rfl, ends⟩
  · cases actions
    exact absurd (all _ (List.mem_cons_self ..)) other

theorem busy_of_lively {stage : Stage} (h : stage.Lively p) : stage.Busy := by
  cases stage with
  | working a actions =>
    cases actions with
    | nil =>
      obtain ⟨before, last, actions, -⟩ := h
      cases before <;> cases actions
    | cons action rest =>
      refine ⟨action, rest, rfl, ?_⟩
      rintro rfl
      exact (lively_last h fun leads => leads).2
  | settling | closing | ended => trivial

theorem lively_awaiting {clock : Duration} {a : Accumulator} {after : Duration}
    {arrival : Arrival} (h : arrival.Arrives) :
    (Stage.awaiting clock a (.done after arrival)).Lively p := lively_single h

theorem takeResult_lively (a : Accumulator) {rest : ChunkStream}
    (result : Except BackendFault Chunk) (h : rest.Arrives) :
    (t.takeResult a rest result).Lively p := by
  have reads (b : Accumulator) : (Stage.working b [.read rest]).Lively p := lively_single h
  cases result with
  | error fault => trivial
  | ok chunk =>
    cases chunk with
    | text delta =>
      have appends (b : Accumulator) : (Stage.working b [.append delta, .read rest]).Lively p :=
        ⟨[.append delta], .read rest, rfl, by simp [Action.Leads], h⟩
      simp only [takeResult, takeText]
      split
      · exact reads a
      · split
        · exact appends a
        · exact lively_emits [_, _] (appends _)
    | call call =>
      obtain ⟨events, -, closing⟩ := closingEvents_emits a
      simp only [takeResult, closing]
      exact lively_emits events ⟨[.call call], .read rest, rfl, by simp [Action.Leads], h⟩
    | usage usage => exact reads _
    | finished reason =>
      obtain ⟨events, -, closing⟩ := closingEvents_emits (a.recordFinish reason)
      simp only [takeResult, closing]
      exact lively_emits events (lively_single nofun)

theorem Shift.lively {events : List Event} {stage after : Stage}
    (h : Shift p t stage events after) (lively : stage.Lively p) : after.Lively p := by
  cases h with
  | emit a event rest => exact lively_tail lively trivial
  | ask clock a rest =>
    obtain ⟨-, ends⟩ := lively_last lively fun leads => leads
    cases hw : p.answer with
    | forever => exact absurd hw ends
    | done after outcome => exact lively_awaiting trivial
  | askStream clock a rest =>
    obtain ⟨-, after, outcome, hw, arrives⟩ := lively_last lively fun leads => leads
    rw [hw]
    exact lively_awaiting arrives
  | take time arrival a rest =>
    obtain ⟨-, arrives⟩ := lively_last lively fun leads => leads
    cases arrival with
    | answer outcome => cases outcome <;> trivial
    | opening outcome =>
      cases outcome with
      | error fault => trivial
      | ok source => exact lively_single arrives
    | result result rest => exact takeResult_lively a result arrives
  | read clock result results a rest =>
    obtain ⟨-, arrives⟩ := lively_last lively fun leads => leads
    cases result with
    | forever => exact absurd rfl (arrives _ (List.mem_cons_self ..))
    | done after value =>
      exact lively_awaiting fun w mem => arrives w (List.mem_cons_of_mem _ mem)
  | exhaust a rest =>
    obtain ⟨events, -, closing⟩ := closingEvents_emits a
    rw [closing]
    exact lively_emits events (lively_single nofun)
  | append delta a rest opened => exact lively_emits [_] (lively_tail lively trivial)
  | appendNothing delta a rest opened => exact lively_tail lively trivial
  | call call a rest shaped =>
    obtain ⟨events, -, told⟩ := callEvents_emits a.nextIndex ‹OutputItem›
    rw [told]
    exact lively_emits events (lively_tail lively trivial)
  | refuse | settle | interrupt | finish | tell | lose => trivial

theorem Run.lively (run : Run p start read ending t) (first : start.stage.Lively p) :
    t.stage.Lively p :=
  run.stage_invariant (P := fun _ stage => stage.Lively p) first fun _ h before => h.lively before

/-- The client can take an event now. -/
def HasRoom (t : Turn) : Prop := ∀ channel, t.client = .reading channel → channel.hasRoom = true

theorem step_of_working {a : Accumulator} {action : Action} {rest : List Action}
    (hs : t.stage = .working a (action :: rest)) (unidle : action ≠ .idle)
    (present : t.clientGone = false) (room : t.HasRoom) (unasked : action ≠ .ask)
    (unasked' : action ≠ .askStream) : ∃ clock next, t.step clock = some next := by
  have step (clock : Duration) : t.step clock = t.perform clock a rest action := by
    simp only [Turn.step, hs, present, Bool.false_and, Bool.false_eq_true, if_false]
  simp only [step]
  cases action with
  | emit event =>
    cases hc : t.client with
    | waiting =>
      simp only [perform, hc]
      exact ⟨.zero, _, rfl⟩
    | reading channel =>
      simp only [perform, hc, room channel hc, if_true]
      exact ⟨.zero, _, rfl⟩
  | ask => exact absurd rfl unasked
  | askStream => exact absurd rfl unasked'
  | idle => exact absurd rfl unidle
  | take time arrival => exact ⟨time, _, if_pos (Nat.le_refl time.millis)⟩
  | read source =>
    obtain ⟨_ | ⟨result, results⟩⟩ := source
    · exact ⟨.zero, _, rfl⟩
    · exact ⟨.zero, _, rfl⟩
  | append delta =>
    simp only [perform]
    split
    · exact ⟨.zero, _, rfl⟩
    · exact ⟨.zero, _, rfl⟩
  | call call =>
    simp only [perform]
    split
    · exact ⟨.zero, _, rfl⟩
    · exact ⟨.zero, _, rfl⟩
  | settle outcome => exact ⟨.zero, _, rfl⟩

/-- A busy turn that has not ended can shift on its own, if its client is there and has
room. -/
theorem exists_shifted (busy : t.stage.Busy) (present : t.clientGone = false)
    (room : t.HasRoom) (going : ∀ r, t.stage ≠ .ended r) :
    ∃ events next, Own p t next ∧ Shifted p t events next := by
  cases hs : t.stage with
  | working a actions =>
    rw [hs] at busy
    obtain ⟨action, rest, rfl, unidle⟩ := busy
    by_cases ask : action = .ask
    · subst ask
      exact ⟨[], _, .ask .zero hs, .await (hs ▸ .ask .zero a rest)⟩
    · by_cases askStream : action = .askStream
      · subst askStream
        exact ⟨[], _, .askStream .zero hs, .await (hs ▸ .askStream .zero a rest)⟩
      · obtain ⟨clock, next, step⟩ := step_of_working hs unidle present room ask askStream
        obtain ⟨events, shifted⟩ := step_shifted (p := p) step
        exact ⟨events, next, .step clock step, shifted⟩
  | settling a outcome =>
    have finish : t.finish 0 = { t with stage := .closing (a.finalize t.schema 0 outcome) } := by
      simp only [Turn.finish, hs]
    refine ⟨[], _, .finish 0, ?_⟩
    rw [finish]
    exact .silent (hs ▸ .finish 0 a outcome)
  | closing r =>
    have step : ∃ next, t.step .zero = some next := by
      cases hc : t.client with
      | waiting =>
        simp only [Turn.step, hs, hc]
        exact ⟨_, rfl⟩
      | reading channel =>
        simp only [Turn.step, hs, hc, present, room channel hc, Bool.false_eq_true, if_false,
          if_true]
        exact ⟨_, rfl⟩
    obtain ⟨next, step⟩ := step
    obtain ⟨events, shifted⟩ := step_shifted (p := p) step
    exact ⟨events, next, .step .zero step, shifted⟩
  | ended r => exact absurd hs (going r)

/-- The client has a place for at least one event. -/
def Roomy (t : Turn) : Prop := ∀ channel, t.client = .reading channel → 0 < channel.capacity

theorem Shifted.roomy {events : List Event} (h : Shifted p t events next) (roomy : t.Roomy) :
    next.Roomy := by
  intro channel hn
  rw [h.client] at hn
  cases hc : t.client with
  | waiting => rw [hc] at hn; cases hn
  | reading before =>
    rw [hc] at hn
    cases hn
    rw [Channel.foldl_push_capacity]
    exact roomy before hc

theorem Run.roomy (run : Run p start read ending t) (first : start.Roomy) : t.Roomy := by
  induction run with
  | start => exact first
  | move _ m ih =>
    obtain ⟨events, shifted⟩ | ⟨-, -, client, -⟩ := m.cases_shifted
    · exact shifted.roomy ih
    · exact fun channel h => ih channel (client ▸ h)
  | read _ h ih =>
    obtain ⟨-, -, -, c, rest, client, -, after⟩ := receive_spec h
    intro channel h
    cases after.symm.trans h
    exact ih c client

/-- Runs of a kind that a turn carries on by itself, and its client by reading. -/
structure Goes (p : Prepared) (R : List Sequenced → Option Outcome → Turn → Prop) : Prop where
  own {read : List Sequenced} {ending : Option Outcome} {t next : Turn} :
    R read ending t → Own p t next → R read (next.stage.outcome? <|> ending) next
  read {read : List Sequenced} {ending : Option Outcome} {t next : Turn} {event : Sequenced} :
    R read ending t → t.receive? = some (event, next) → R (read ++ [event]) ending next

theorem Run.goes : Goes p (Run p start) := ⟨fun run own => run.move (.own own), .read⟩

section
variable {R : List Sequenced → Option Outcome → Turn → Prop}

/-- The client can read all that is on its way. -/
theorem Goes.drain (goes : Goes p R) (run : R read ending t) (roomy : t.Roomy) :
    ∃ more next, R (read ++ more) ending next ∧ next.stage = t.stage ∧
      next.clientGone = t.clientGone ∧ next.Roomy ∧ next.HasRoom := by
  cases hc : t.client with
  | waiting =>
    refine ⟨[], t, by rwa [List.append_nil], rfl, rfl, roomy, ?_⟩
    intro channel h
    rw [hc] at h
    cases h
  | reading channel =>
    have some := roomy channel hc
    clear roomy
    obtain ⟨capacity, queue, next⟩ := channel
    induction queue generalizing t read with
    | nil =>
      refine ⟨[], t, by rwa [List.append_nil], rfl, rfl, ?_, ?_⟩
      · intro channel h
        cases hc.symm.trans h
        exact some
      · intro channel h
        cases hc.symm.trans h
        simpa [Channel.hasRoom] using some
    | cons event rest ih =>
      have taken : t.receive? =
          Option.some (event, { t with client := .reading ⟨capacity, rest, next⟩ }) := by
        simp only [receive?, hc]
        rfl
      obtain ⟨more, last, run', stage, gone, roomy, room⟩ := ih (goes.read run taken) rfl some
      exact ⟨event :: more, last, by simpa using run', stage, gone, roomy, room⟩

/-- A run whose turn is always busy and whose client stays can be carried on to its end. -/
theorem Goes.ends (goes : Goes p R)
    (busy : ∀ {read : List Sequenced} {ending : Option Outcome} {t : Turn},
      R read ending t → t.stage.Busy)
    (run : R read ending t) (roomy : t.Roomy) (present : t.clientGone = false) :
    ∃ more ending' last r, R (read ++ more) ending' last ∧ last.stage = .ended r ∧
      last.clientGone = false := by
  -- The client reads all it can, so that the turn has room for its next shift.
  induction h : t.stage.weight p using Nat.strongRecOn generalizing t read ending with
  | ind weight ih =>
    obtain ⟨more, u, run', stage, gone, roomy', room⟩ := goes.drain run roomy
    by_cases ended : ∃ r, u.stage = .ended r
    · obtain ⟨r, ended⟩ := ended
      exact ⟨more, ending, u, r, run', ended, gone.trans present⟩
    · obtain ⟨events, next, own, shifted⟩ :=
        exists_shifted (busy run') (gone.trans present) room (fun r h => ended ⟨r, h⟩)
      have less : next.stage.weight p < weight := by
        rw [← h, ← stage]
        exact shifted.shift.weight_lt
      obtain ⟨more', ending', last, r, run'', last_ended, stays⟩ :=
        ih _ less (goes.own run' own) (shifted.roomy roomy')
          (shifted.gone.trans (gone.trans present)) rfl
      exact ⟨more ++ more', ending', last, r, List.append_assoc .. ▸ run'', last_ended, stays⟩

/-- A run of a lively turn whose client stays can be carried on to its end. -/
theorem Goes.completes (goes : Goes p R) (run : R read ending t) (lively : t.stage.Lively p)
    (roomy : t.Roomy) (present : t.clientGone = false) :
    ∃ more ending' last r, R (read ++ more) ending' last ∧ last.stage = .ended r ∧
      last.clientGone = false := by
  have both : Goes p fun read ending t => R read ending t ∧ t.stage.Lively p := by
    constructor
    · rintro read ending t next ⟨run, lively⟩ own
      refine ⟨goes.own run own, ?_⟩
      obtain ⟨events, shifted⟩ | ⟨-, same, -⟩ := own.cases_shifted
      · exact shifted.shift.lively lively
      · rw [same]
        exact lively
    · rintro read ending t next event ⟨run, lively⟩ received
      refine ⟨goes.read run received, ?_⟩
      rw [(receive_spec received).2.1]
      exact lively
  obtain ⟨more, ending', last, r, ⟨run', -⟩, ended, stays⟩ :=
    both.ends (fun reached => busy_of_lively reached.2) ⟨run, lively⟩ roomy present
  exact ⟨more, ending', last, r, run', ended, stays⟩

end

end Turn

end Responder
