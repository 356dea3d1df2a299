import Responder.Proofs.Server.Turns
import Responder.Proofs.Turn.Verdict

/-!
# Turns that are cancelled

A turn that hears its signal settles where it stands. Main statement: its response is incomplete
and has all that was accumulated, the events that were on their way stay in order, and the last
event follows them as soon as there is room.
-/

namespace Responder

/-- Whether the response of a turn is in progress as long as it is not finished. -/
def Stage.Fresh : Stage → Prop
  | working a _ | settling a _ => a.response.status = .inProgress
  | closing _ | ended _ => True

namespace Accumulator

variable {a : Accumulator} {r : Response}

theorem install_status (registry : Registry) (lane : Lane) (a : Accumulator) (c : Completion) :
    (a.install registry lane c).1.response.status = a.response.status := by
  obtain ⟨output, frame⟩ := pushCalls_frame registry lane (a.say lane c) c.calls
  have said := (say_frame lane a c).2.2
  rw [install_eq]
  split <;> next taken =>
    rw [taken] at frame
    dsimp only at frame ⊢
    rw [frame]
    exact said

/-- A response that was cut off by a cancellation, with all that was accumulated. -/
structure Cut (a : Accumulator) (r : Response) : Prop where
  status : r.status = .incomplete
  reason : r.incomplete = some .cancelled
  error : r.error = none
  output : r.output = a.response.output.map (closeItem .incomplete)
  outputText : r.outputText = Response.textOf a.response.output
  outputParsed : r.outputParsed = none
  usage : r.usage = a.usage
  completedAt : r.completedAt = none
  asked : r.asked = a.response.asked

theorem finalize_cut (fresh : a.response.status = .inProgress) (schema : Option Json)
    (now : Int) : Cut a (a.finalize schema now .cancelled) := by
  have asked := a.asked_finalize schema now .cancelled
  rw [finalize_eq fresh] at asked ⊢
  exact ⟨rfl, rfl, rfl, rfl, rfl, rfl, rfl, rfl, asked⟩

end Accumulator

namespace Turn

variable {p : Prepared} {t next : Turn} {stage after : Stage} {events : List Event}
  {a : Accumulator} {schema : Option Json}

section fresh

theorem fresh_awaiting {clock : Duration} {w : Wait Arrival}
    (fresh : a.response.status = .inProgress) : (Stage.awaiting clock a w).Fresh := by
  cases w <;> exact fresh

theorem fresh_takeResult (source : ChunkStream) (result : Except BackendFault Chunk)
    (fresh : a.response.status = .inProgress) : (t.takeResult a source result).Fresh := by
  cases result with
  | error fault => exact fresh
  | ok chunk =>
    cases chunk with
    | text delta =>
      simp only [takeResult, takeText]
      split
      · exact fresh
      · split <;> exact fresh
    | call call => exact (Accumulator.closeText_status a).trans fresh
    | usage usage => exact fresh
    | finished reason => exact (Accumulator.closeText_status (a.recordFinish reason)).trans fresh

theorem fresh_takeArrival (arrival : Arrival) (fresh : a.response.status = .inProgress) :
    (t.takeArrival a arrival).Fresh := by
  cases arrival with
  | answer outcome =>
    cases outcome with
    | error fault => exact fresh
    | ok c => exact (Accumulator.install_status t.registry t.lane a c).trans fresh
  | opening outcome => cases outcome <;> exact fresh
  | result result source => exact fresh_takeResult source result fresh

theorem Shift.fresh (h : Shift p t stage events after) (fresh : stage.Fresh) : after.Fresh := by
  cases h with
  | ask clock a rest => exact fresh_awaiting fresh
  | askStream clock a rest => exact fresh_awaiting fresh
  | read clock result results a rest => exact fresh_awaiting fresh
  | take time arrival a rest => exact fresh_takeArrival arrival fresh
  | exhaust a rest => exact (Accumulator.closeText_status a).trans fresh
  | append delta a rest opened => exact (Accumulator.pushText_status a delta).trans fresh
  | appendNothing delta a rest opened => exact (Accumulator.pushText_status a delta).trans fresh
  | emit | call | refuse | settle | interrupt => exact fresh
  | finish | tell | lose => trivial

theorem Step.fresh (step : t.Step next) (fresh : t.stage.Fresh) : next.stage.Fresh := by
  cases step with
  | move m =>
    obtain ⟨events, shifted⟩ | ⟨-, stage, -⟩ := m.cases_shifted
    · exact shifted.shift.fresh fresh
    · rw [stage]
      exact fresh
  | receive taken =>
    rw [(receive_spec taken).2.1]
    exact fresh

end fresh

theorem Step.roomy (step : t.Step next) (roomy : t.Roomy) : next.Roomy := by
  cases step with
  | move m =>
    obtain ⟨events, shifted⟩ | ⟨-, -, client, -⟩ := m.cases_shifted
    · exact shifted.roomy roomy
    · intro channel reading
      exact roomy channel (client ▸ reading)
  | receive taken =>
    obtain ⟨-, -, -, c, rest, client, -, after⟩ := receive_spec taken
    intro channel reading
    cases after.symm.trans reading
    exact roomy c client

/-- How far the events of a turn have come that was cancelled with a channel full of them. Those
that were on their way are read or still there, in order, and only the last event comes after
them. -/
inductive Drains (a : Accumulator) (schema : Option Json) (channel : Channel)
    (read : List Sequenced) (t : Turn) : Prop
  | settled {c : Channel} : t.stage = .settling a .cancelled → t.client = .reading c →
      read ++ c.queue = channel.queue → c.next = channel.next → Drains a schema channel read t
  | closing {c : Channel} (now : Int) : t.stage = .closing (a.finalize schema now .cancelled) →
      t.client = .reading c → read ++ c.queue = channel.queue → c.next = channel.next →
      Drains a schema channel read t
  | ended {c : Channel} (now : Int) : t.stage = .ended (a.finalize schema now .cancelled) →
      t.client = .reading c → read ++ c.queue = channel.queue ++
        [⟨.terminal (a.finalize schema now .cancelled), channel.next⟩] →
      Drains a schema channel read t
  | lost {c : Channel} (now : Int) : t.stage = .ended (a.finalize schema now .cancelled) →
      t.clientGone = true → t.client = .reading c → read ++ c.queue = channel.queue →
      Drains a schema channel read t

section drains
variable {channel : Channel} {read : List Sequenced} {start : Turn} {ending : Option Outcome}

theorem Drains.shifted (h : Drains a t.schema channel read t) (shifted : Shifted p t events next) :
    Drains a t.schema channel read next := by
  have shift := shifted.shift
  have client := shifted.client
  cases h with
  | settled stage reading queue number =>
    rw [stage] at shift
    generalize moved : next.stage = after at shift
    cases shift with
    | finish now a outcome =>
      rw [reading] at client
      exact .closing now moved client queue number
  | closing now stage reading queue number =>
    rw [stage] at shift
    generalize moved : next.stage = after at shift
    rw [reading] at client
    cases shift with
    | tell response =>
      refine .ended now moved client ?_
      simp only [List.foldl_cons, List.foldl_nil, Channel.push]
      rw [← List.append_assoc, queue, number]
    | lose response gone => exact .lost now moved (shifted.gone.trans gone) client queue
  | ended now stage | lost now stage =>
    rw [stage] at shift
    cases shift

theorem Drains.still (h : Drains a schema channel read t) (stage : next.stage = t.stage)
    (client : next.client = t.client) (gone : t.clientGone = true → next.clientGone = true) :
    Drains a schema channel read next := by
  cases h with
  | settled was reading queue number =>
    exact .settled (stage.trans was) (client.trans reading) queue number
  | closing now was reading queue number =>
    exact .closing now (stage.trans was) (client.trans reading) queue number
  | ended now was reading queue => exact .ended now (stage.trans was) (client.trans reading) queue
  | lost now was left reading queue =>
    exact .lost now (stage.trans was) (gone left) (client.trans reading) queue

theorem Drains.receive (h : Drains a schema channel read t) {event : Sequenced}
    (taken : t.receive? = some (event, next)) : Drains a schema channel (read ++ [event]) next := by
  obtain ⟨-, stage, gone, c, rest, client, front, after⟩ := receive_spec taken
  have same {all : List Sequenced} (queue : read ++ c.queue = all) :
      read ++ [event] ++ rest = all := by
    rw [← queue, front, List.append_assoc]
    rfl
  cases h with
  | settled was reading queue number =>
    cases client.symm.trans reading
    exact .settled (stage.trans was) after (same queue) number
  | closing now was reading queue number =>
    cases client.symm.trans reading
    exact .closing now (stage.trans was) after (same queue) number
  | ended now was reading queue =>
    cases client.symm.trans reading
    exact .ended now (stage.trans was) after (same queue)
  | lost now was left reading queue =>
    cases client.symm.trans reading
    exact .lost now (stage.trans was) (gone.trans left) after (same queue)

/-- What was on its way to the client of a cancelled turn is delivered in order. -/
theorem Run.drains (run : Run p start read ending t)
    (settled : start.stage = .settling a .cancelled) (reading : start.client = .reading channel) :
    Drains a start.schema channel read t := by
  induction run with
  | start => exact .settled settled reading rfl rfl
  | @move _ _ u next run m ih =>
    have schema : u.schema = start.schema := by simp only [Turn.schema, run.kept.request]
    obtain ⟨events, shifted⟩ | ⟨-, stage, client, gone⟩ := m.cases_shifted
    · rw [← schema] at ih ⊢
      exact ih.shifted shifted
    · refine ih.still stage client fun left => ?_
      obtain same | gone := gone
      · exact same.trans left
      · exact gone
  | read _ taken ih => exact ih.receive taken

/-- If the client stays, a cancelled turn tells it of its response in the end. -/
theorem Run.drains_out (run : Run p start read ending t)
    (settled : start.stage = .settling a .cancelled) (reading : start.client = .reading channel)
    (roomy : start.Roomy) (present : t.clientGone = false) :
    ∃ more ending' last c now, Run p start (read ++ more) ending' last ∧
      last.stage = .ended (a.finalize start.schema now .cancelled) ∧ last.client = .reading c ∧
      read ++ more ++ c.queue = channel.queue ++
        [⟨.terminal (a.finalize start.schema now .cancelled), channel.next⟩] := by
  have lively : start.stage.Lively p := lively_of_not_working fun b actions works => by
    cases settled.symm.trans works
  obtain ⟨more, ending', last, r, run', ended, stays⟩ :=
    Run.goes.completes run (run.lively lively) (run.roomy roomy) present
  refine ⟨more, ending', last, ?_⟩
  cases run'.drains settled reading with
  | settled stage | closing now stage => cases ended.symm.trans stage
  | ended now stage reading queue => exact ⟨_, now, run', stage, reading, queue⟩
  | lost now stage gone => cases stays.symm.trans gone

/-- The last event waits for nothing but room. -/
theorem exists_tell {r : Response} (closing : t.stage = .closing r) (present : t.clientGone = false)
    (room : t.HasRoom) (clock : Duration) :
    ∃ next, t.step clock = some next ∧ next.stage = .ended r := by
  simp only [step, closing, present]
  cases client : t.client with
  | waiting => exact ⟨_, rfl, rfl⟩
  | reading channel =>
    simp only [room channel client, if_true, Bool.false_eq_true, if_false]
    exact ⟨_, rfl, rfl⟩

end drains

end Turn

end Responder
