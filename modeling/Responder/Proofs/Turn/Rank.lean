import Mathlib.Data.Prod.Lex
import Responder.Proofs.Server.Turns
import Responder.Proofs.Turn.Progress

/-!
# The rank of a turn

What asking the backend leads to is not known before, so the asks that are left count more than
all other work. Main statement: whatever is done with a turn, its stage stands or its rank
becomes less; in particular it asks its backend only once.
-/

namespace Responder

/-- Whether an action asks the backend. -/
def Action.asks : Action → Bool
  | .ask | .askStream => true
  | _ => false

namespace Stage

/-- How often a turn at this stage may still ask its backend. -/
def asks : Stage → Nat
  | working _ actions => actions.countP Action.asks
  | settling .. | closing _ | ended _ => 0

/-- The asks that are left, and then all other work. -/
def rank (stage : Stage) : Nat ×ₗ Nat := toLex (stage.asks, stage.weight .never)

/-- The last action leads to no other one. -/
def Led : Stage → Prop
  | working _ actions => ∃ before last, actions = before ++ [last] ∧ ¬ last.Leads
  | settling .. | closing _ | ended _ => True

theorem asks_emits (a : Accumulator) (events : List Event) (rest : List Action) :
    (working a (events.map .emit ++ rest)).asks = (working a rest).asks := by
  have none : (events.map Action.emit).countP Action.asks = 0 := by
    rw [List.countP_eq_zero]
    intro action mem
    obtain ⟨event, -, rfl⟩ := List.mem_map.1 mem
    exact nofun
  simp only [asks, List.countP_append, none, Nat.zero_add]

@[simp] theorem asks_awaiting (clock : Duration) (a : Accumulator) (w : Wait Arrival) :
    (awaiting clock a w).asks = 0 := by
  cases w <;> rfl

theorem led_single (a : Accumulator) {last : Action} (h : ¬ last.Leads) : (working a [last]).Led :=
  ⟨[], last, rfl, h⟩

theorem led_append {a b : Accumulator} {rest : List Action} (before : List Action)
    (h : (working a rest).Led) : (working b (before ++ rest)).Led := by
  obtain ⟨front, last, rfl, ends⟩ := h
  exact ⟨before ++ front, last, (List.append_assoc ..).symm, ends⟩

/-- An action that leads to another one is followed by it. -/
theorem led_tail {a : Accumulator} {action : Action} {rest : List Action}
    (h : (working a (action :: rest)).Led) (leads : action.Leads) : (working a rest).Led := by
  obtain ⟨_ | ⟨first, before⟩, last, same, ends⟩ := h
  · cases same
    exact absurd leads ends
  · cases same
    exact ⟨before, last, rfl, ends⟩

theorem led_awaiting (clock : Duration) (a : Accumulator) (w : Wait Arrival) :
    (awaiting clock a w).Led := by
  cases w <;> exact led_single a fun leads => leads

end Stage

namespace Turn

variable {p : Prepared} {t next u : Turn} {stage after : Stage} {events : List Event}

theorem asks_takeResult (a : Accumulator) (rest : ChunkStream)
    (result : Except BackendFault Chunk) : (t.takeResult a rest result).asks = 0 := by
  cases result with
  | error fault => rfl
  | ok chunk =>
    cases chunk with
    | text delta =>
      simp only [takeResult, takeText]
      split
      · rfl
      · split <;> rfl
    | call call =>
      obtain ⟨events, -, closing⟩ := closingEvents_emits a
      simp only [takeResult, closing, Stage.asks_emits]
      rfl
    | usage usage => rfl
    | finished reason =>
      obtain ⟨events, -, closing⟩ := closingEvents_emits (a.recordFinish reason)
      simp only [takeResult, closing, Stage.asks_emits]
      rfl

theorem asks_takeArrival (a : Accumulator) (arrival : Arrival) :
    (t.takeArrival a arrival).asks = 0 := by
  cases arrival with
  | answer outcome => cases outcome <;> rfl
  | opening outcome => cases outcome <;> rfl
  | result result rest => exact asks_takeResult a rest result

theorem led_takeResult (a : Accumulator) (rest : ChunkStream)
    (result : Except BackendFault Chunk) : (t.takeResult a rest result).Led := by
  have reads (b : Accumulator) : (Stage.working b [.read rest]).Led :=
    Stage.led_single b fun leads => leads
  cases result with
  | error fault => trivial
  | ok chunk =>
    cases chunk with
    | text delta =>
      simp only [takeResult, takeText]
      split
      · exact Stage.led_append [] (reads a)
      · split
        · exact Stage.led_append [_] (reads a)
        · exact Stage.led_append [_, _, _] (reads a)
    | call call =>
      have calls : (Stage.working a [.call call, .read rest]).Led :=
        Stage.led_append [.call call] (reads a)
      exact Stage.led_append _ calls
    | usage usage => exact reads _
    | finished reason =>
      have settles : (Stage.working a [.settle .finished]).Led :=
        Stage.led_single a fun leads => leads
      exact Stage.led_append _ settles

theorem led_takeArrival (a : Accumulator) (arrival : Arrival) :
    (t.takeArrival a arrival).Led := by
  cases arrival with
  | answer outcome => cases outcome <;> trivial
  | opening outcome =>
    cases outcome with
    | error fault => trivial
    | ok source => exact Stage.led_single a fun leads => leads
  | result result rest => exact led_takeResult a rest result

theorem Shift.led (h : Shift p t stage events after) (led : stage.Led) : after.Led := by
  cases h with
  | emit a event rest => exact Stage.led_tail led trivial
  | ask clock a rest => exact Stage.led_awaiting ..
  | askStream clock a rest => exact Stage.led_awaiting ..
  | take time arrival a rest => exact led_takeArrival a arrival
  | read clock result results a rest => exact Stage.led_awaiting ..
  | exhaust a rest =>
    have settles : (Stage.working a [.settle .finished]).Led :=
        Stage.led_single a fun leads => leads
    exact Stage.led_append _ settles
  | append delta a rest opened => exact Stage.led_append [_] (Stage.led_tail led trivial)
  | appendNothing delta a rest opened => exact Stage.led_append [] (Stage.led_tail led trivial)
  | call call a rest shaped => exact Stage.led_append _ (Stage.led_tail led trivial)
  | refuse | settle | interrupt | finish | tell | lose => trivial

/-- A stage at which the next action asks the backend. -/
def Asking : Stage → Prop
  | .working _ (action :: _) => action.asks = true
  | _ => False

/-- Only where the backend is asked does it matter what the backend answers. -/
theorem Shift.cases_asking (h : Shift p t stage events after) :
    (Asking stage ∧ after.asks = 0) ∨ Shift .never t stage events after := by
  cases h with
  | ask clock a rest => exact .inl ⟨rfl, Stage.asks_awaiting ..⟩
  | askStream clock a rest => exact .inl ⟨rfl, Stage.asks_awaiting ..⟩
  | emit a event rest => exact .inr (.emit a event rest)
  | take time arrival a rest => exact .inr (.take time arrival a rest)
  | read clock result results a rest => exact .inr (.read clock result results a rest)
  | exhaust a rest => exact .inr (.exhaust a rest)
  | append delta a rest opened => exact .inr (.append delta a rest opened)
  | appendNothing delta a rest opened => exact .inr (.appendNothing delta a rest opened)
  | call call a rest shaped => exact .inr (.call call a rest shaped)
  | refuse call a rest refused => exact .inr (.refuse call a rest refused)
  | settle outcome a rest => exact .inr (.settle outcome a rest)
  | interrupt a action rest waits => exact .inr (.interrupt a action rest waits)
  | finish now a outcome => exact .inr (.finish now a outcome)
  | tell response => exact .inr (.tell response)
  | lose response gone => exact .inr (.lose response gone)

theorem asks_pos_of_asking (asking : Asking stage) : 0 < stage.asks := by
  cases stage with
  | working a actions =>
    cases actions with
    | nil => exact asking.elim
    | cons action rest => exact List.countP_pos_iff.2 ⟨action, List.mem_cons_self, asking⟩
  | settling | closing | ended => exact asking.elim

theorem Shift.asks_le (h : Shift p t stage events after) : after.asks ≤ stage.asks := by
  have tail (a b : Accumulator) (action : Action) (rest : List Action) :
      (Stage.working b rest).asks ≤ (Stage.working a (action :: rest)).asks :=
    (List.sublist_cons_self action rest).countP_le
  cases h with
  | emit a event rest => exact tail ..
  | ask clock a rest => simp
  | askStream clock a rest => simp
  | take time arrival a rest => simp [asks_takeArrival]
  | read clock result results a rest => simp
  | exhaust a rest =>
    obtain ⟨events, -, closing⟩ := closingEvents_emits a
    rw [closing, Stage.asks_emits]
    exact Nat.zero_le _
  | append delta a rest opened =>
    exact (Stage.asks_emits _ [_] rest).trans_le (tail a _ (.append delta) rest)
  | appendNothing delta a rest opened => exact tail a _ (.append delta) rest
  | call call a rest shaped =>
    obtain ⟨events, -, told⟩ := callEvents_emits a.nextIndex ‹OutputItem›
    rw [told, Stage.asks_emits]
    exact tail ..
  | refuse | settle | interrupt | finish | tell | lose => exact Nat.zero_le _

theorem Shift.rank_lt (h : Shift p t stage events after) : after.rank < stage.rank := by
  rw [Stage.rank, Stage.rank, Prod.Lex.toLex_lt_toLex]
  obtain ⟨asking, asked⟩ | unasked := h.cases_asking
  · left
    rw [asked]
    exact asks_pos_of_asking asking
  · obtain less | same := Nat.lt_or_eq_of_le h.asks_le
    · exact .inl less
    · exact .inr ⟨same, unasked.weight_lt⟩

/-- The stage of a turn stands, and its client does not come back or leave less room. -/
structure Still (t next : Turn) : Prop where
  stage : next.stage = t.stage
  gone : t.clientGone = true → next.clientGone = true
  room : t.HasRoom → next.HasRoom

theorem Still.refl (t : Turn) : Still t t := ⟨rfl, fun gone => gone, fun room => room⟩

theorem Still.trans (h : Still t next) (k : Still next u) : Still t u :=
  ⟨k.stage.trans h.stage, fun gone => k.gone (h.gone gone), fun room => k.room (h.room room)⟩

theorem receive_still {event : Sequenced} (taken : t.receive? = some (event, next)) :
    Still t next := by
  obtain ⟨-, stage, gone, c, rest, client, queue, after⟩ := receive_spec taken
  refine ⟨stage, fun left => gone.trans left, fun room channel reading => ?_⟩
  cases after.symm.trans reading
  have had := room c client
  simp only [Channel.hasRoom, queue, List.length_cons, decide_eq_true_eq] at had ⊢
  omega

theorem Step.cases_shifted (step : t.Step next) :
    (∃ p events, Shifted p t events next) ∨ Still t next := by
  cases step with
  | @move p _ m =>
    obtain ⟨events, shifted⟩ | ⟨-, stage, client, gone⟩ := m.cases_shifted
    · exact .inl ⟨p, events, shifted⟩
    · refine .inr ⟨stage, fun left => ?_, fun room channel reading => ?_⟩
      · obtain same | left' := gone
        · exact same.trans left
        · exact left'
      · exact room channel (client.symm.trans reading)
  | receive taken => exact .inr (receive_still taken)

theorem Leads.rank_lt_or_still (leads : t.Leads next) :
    next.stage.rank < t.stage.rank ∨ Still t next := by
  induction leads with
  | refl => exact .inr (.refl t)
  | @tail u next _ step ih =>
    obtain ⟨p, events, shifted⟩ | still := step.cases_shifted
    · have less := shifted.shift.rank_lt
      obtain before | still := ih
      · exact .inl (less.trans before)
      · exact .inl (still.stage ▸ less)
    · rw [still.stage]
      exact ih.imp_right fun before => before.trans still

theorem Leads.asks_le (leads : t.Leads next) : next.stage.asks ≤ t.stage.asks := by
  induction leads with
  | refl => exact Nat.le_refl _
  | tail _ step ih =>
    obtain ⟨p, events, shifted⟩ | still := step.cases_shifted
    · exact shifted.shift.asks_le.trans ih
    · rw [still.stage]
      exact ih

theorem Step.led (step : t.Step next) (led : t.stage.Led) : next.stage.Led := by
  obtain ⟨p, events, shifted⟩ | still := step.cases_shifted
  · exact shifted.shift.led led
  · exact still.stage ▸ led

theorem led_admitted (admitted : Admission.Admitted) (s : Admission.Setting) (seen : Nat)
    (streamed : Bool) : (admitted.turn s seen streamed).stage.Led := by
  cases streamed with
  | false => exact ⟨[], .ask, rfl, fun leads => leads⟩
  | true => exact ⟨[.emit _, .emit _], .askStream, rfl, fun leads => leads⟩

theorem asks_admitted (admitted : Admission.Admitted) (s : Admission.Setting) (seen : Nat)
    (streamed : Bool) : (admitted.turn s seen streamed).stage.asks = 1 := by
  cases streamed <;> rfl

end Turn

end Responder
