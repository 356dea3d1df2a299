import Responder.Proofs.Server.Delivery
import Responder.Proofs.Server.Frame
import Responder.Proofs.Turn.Cancellation

/-!
# Cancelling a streamed turn

A turn that streams listens for its signal wherever it is held up: for its backend, for the next
result, or for room on its channel. Main statement: a turn that hears its signal there is settled
as it stands, finished by its next step, stored and told to who has cancelled it, while nothing is
read and nothing comes from a backend; what was on its channel stays in order before the last
event.
-/

namespace Responder

namespace Turn

variable {t : Turn} {a : Accumulator} {actions : List Action} {signals : Signals}

/-- A turn that works and cannot go on by itself listens. -/
theorem waits_of_held {clock : Duration} (works : t.stage = .working a actions) (led : t.stage.Led)
    (held : t.step clock = none) : t.waits = true := by
  cases actions with
  | nil =>
    rw [works] at led
    obtain ⟨before, last, same, -⟩ := led
    cases before <;> cases same
  | cons action rest =>
    simp only [waits, works]
    cases listens : action.waits with
    | true => rfl
    | false =>
      simp only [step, works, listens, Bool.and_false, Bool.false_eq_true, if_false] at held
      cases action with
      | append delta =>
        simp only [perform] at held
        split at held <;> cases held
      | call call =>
        simp only [perform] at held
        split at held <;> cases held
      | settle outcome => cases held
      | _ => cases listens

/-- A turn that hears its signal settles as it stands. -/
theorem heard_cut (works : t.stage = .working a actions)
    (signalled : (signals.listen t.seen t.id).1 = true) :
    t.heard signals =
      { t with seen := (signals.listen t.seen t.id).2, stage := .settling a .cancelled } := by
  simp only [heard, signalled, if_true, interrupt, works]

/-- A turn that has settled comes to the response of its outcome, or has not come to it yet. -/
theorem Leads.of_settling {next : Turn} {outcome : Outcome} (leads : t.Leads next)
    (settling : t.stage = .settling a outcome) : next.stage = .settling a outcome ∨
      ∃ now, next.response? = some (a.finalize t.schema now outcome) := by
  induction leads with
  | refl => exact .inl settling
  | @tail u next leads step ih =>
    obtain same | ⟨now, finished⟩ := ih
    · obtain still | ⟨now, closing⟩ := step.of_settling same
      · exact .inl still
      · have kept : Kept t u := Leads.kept leads
        have schema : u.schema = t.schema := by simp only [schema, kept.request]
        refine .inr ⟨now, ?_⟩
        rw [response?, closing, schema]
    · exact .inr ⟨now, step.response? finished⟩

end Turn

namespace Server

variable {s u start : Server} {t v : Turn} {log : List Response} {id : String} {a : Accumulator}
  {actions : List Action} {channel : Channel} {r : Response}

/-- The step by which a turn is finished that has settled. It reads nothing, asks no backend, and
leaves all other turns alone. -/
structure Closes (s : Server) (t : Turn) (a : Accumulator) (next : Server) (r : Response) :
    Prop where
  advance : s.advance t = some next
  ends : Ends s (s.stored t) next t.id a.response.store r
  turn : next.turn? t.id = some { t with stage := .closing r }
  backend : next.backend = s.backend
  asked : next.asked = s.asked
  others : ∀ {other}, other ≠ t.id → Apart other s next

/-- What becomes of a turn that waits, working for `a` and with `channel` on the way to its client,
when it is cancelled. -/
structure Yields (s : Server) (t : Turn) (a : Accumulator) (channel : Channel) : Prop where
  /-- When it hears its signal, it settles as it stands, and nothing else is changed. -/
  hears : (s.signals.listen t.seen t.id).1 = true → ∃ seen, s.hear t =
    s.modifyTurn t.id fun _ => { t with seen, stage := .settling a .cancelled }
  /-- From then on, whatever others do, its next step finishes it, until it is finished. -/
  finishes : (s.signals.listen t.seen t.id).1 = true → ∀ {log u}, Run (s.hear t) log u →
    (∃ v next, u.turn? t.id = some v ∧ v.stage = .settling a .cancelled ∧
      Closes u v a next (a.finalize t.schema u.now .cancelled)) ∨
    ∃ now, u.answer? t.id = some (a.finalize t.schema now .cancelled)
  /-- Its response is incomplete and has all that was accumulated. -/
  cut : ∀ now, Accumulator.Cut a (a.finalize t.schema now .cancelled)
  /-- Who cancels it is answered with this response. -/
  answers : (s.cancel t.id).2 = .ok (a.finalize t.schema s.now .cancelled)
  /-- The events that were on their way stay in order, and the last event follows them. -/
  drains : ∀ {p seen read ending v},
    Turn.Run p { t with seen, stage := .settling a .cancelled } read ending v →
    Turn.Drains a t.schema channel read v
  /-- It follows them as soon as there is room, -/
  tells : ∀ {v : Turn} {r}, v.stage = .closing r → v.clientGone = false → v.HasRoom →
    ∀ clock, ∃ next, v.step clock = some next ∧ next.stage = .ended r
  /-- and is read in the end by a client that stays. -/
  drainsOut : ∀ {p seen read ending v},
    Turn.Run p { t with seen, stage := .settling a .cancelled } read ending v →
    v.clientGone = false → ∃ more ending' last c now,
      Turn.Run p { t with seen, stage := .settling a .cancelled } (read ++ more) ending' last ∧
      last.stage = .ended (a.finalize t.schema now .cancelled) ∧ last.client = .reading c ∧
      read ++ more ++ c.queue = channel.queue ++
        [⟨.terminal (a.finalize t.schema now .cancelled), channel.next⟩]

section reached
variable (reached : s.Reached)
include reached

theorem Reached.fresh (mem : t ∈ s.turns) : t.stage.Fresh := by
  obtain ⟨start, log, new, run⟩ := reached
  exact run.turns (P := fun t => t.stage.Fresh)
    (fun accepted _ streamed => by
      cases streamed <;> exact (Admission.accept_spec accepted).status)
    (fun step fresh => step.fresh fresh) new t mem

theorem Reached.roomy (mem : t ∈ s.turns) : t.Roomy := by
  obtain ⟨start, log, new, run⟩ := reached
  refine run.turns (P := Turn.Roomy) ?_ (fun step roomy => step.roomy roomy) new t mem
  intro setting request admitted accepted seen streamed
  cases streamed with
  | true => exact Turn.turn_roomy
  | false => exact Turn.waiting_roomy seen

/-- A turn that has settled is finished by its next step, which needs nothing else. -/
theorem Reached.closes (found : s.turn? t.id = some t) {outcome : Outcome}
    (settling : t.stage = .settling a outcome) :
    Closes s t a (s.finish t) (a.finalize t.schema s.now outcome) := by
  have mem := mem_of_turn? found
  obtain ⟨first, log, new, run⟩ := reached
  have sound := run.sound new
  have flies : t.isInFlight = true := by rw [Turn.isInFlight, settling]
  have named := sound.named t mem
  rw [settling] at named
  have fresh : t.id ∉ s.store.entries.map Response.id :=
    fun stored => sound.not_stored mem flies ((sound.recent.map _).subset stored)
  have advance := advance_settling (s := s) settling
  have finish : t.finish s.now =
      { t with stage := .closing (a.finalize t.schema s.now outcome) } := by
    simp only [Turn.finish, settling]
  refine ⟨advance, finish_ends settling named fresh, ?_, ?_, asked_finish s t, fun other => ?_⟩
  · rw [turn?_finish found, finish]
  · obtain ⟨store, whole⟩ := s.finish_frame t
    rw [whole]
    rfl
  · exact advance_apart (Ne.symm other) advance

/-- A turn that has settled is finished with its outcome, whatever others do. -/
theorem Reached.finishes (found : s.turn? id = some t) {outcome : Outcome}
    (settling : t.stage = .settling a outcome) (run : Run s log u) :
    (∃ v next, u.turn? id = some v ∧ v.stage = .settling a outcome ∧
      Closes u v a next (a.finalize t.schema u.now outcome)) ∨
    ∃ now, u.answer? id = some (a.finalize t.schema now outcome) := by
  obtain rfl : t.id = id := id_of_turn? found
  obtain ⟨v, there, leads⟩ := run.turn? reached found
  obtain same | ⟨now, finished⟩ := leads.of_settling settling
  · have own : v.id = t.id := leads.kept.id
    have schema : v.schema = t.schema := by simp only [Turn.schema, leads.kept.request]
    have closes := (reached.run run).closes (own ▸ there) same
    rw [schema] at closes
    exact .inl ⟨v, _, there, same, closes⟩
  · exact .inr ⟨now, by rw [answer?, there]; exact finished⟩

/-- What is answered stays so, however far the server goes. -/
theorem Reached.answer?_goes (goes : Goes s u) (answered : s.answer? id = some r) :
    u.answer? id = some r := by
  obtain ⟨log, run⟩ := goes
  exact run.answer?_lasts reached answered

theorem Reached.runFor_answers (found : s.turn? id = some t) {outcome : Outcome}
    (settling : t.stage = .settling a outcome) (steps : Nat) :
    (s.runFor id (steps + 1)).answer? id = some (a.finalize t.schema s.now outcome) := by
  obtain rfl : t.id = id := id_of_turn? found
  have closes := reached.closes found settling
  have reached' := reached.move (.advance (mem_of_turn? found) closes.advance)
  have answered : (s.finish t).answer? t.id = some (a.finalize t.schema s.now outcome) := by
    rw [answer?, closes.turn]
    rfl
  simp only [runFor, found, Option.bind_some, closes.advance]
  exact reached'.answer?_goes (runFor_goes ..) answered

/-- A turn that waits and hears its signal is finished as soon as the server runs it. -/
theorem Reached.run_answers (found : s.turn? t.id = some t) (waits : t.waits = true)
    (works : t.stage = .working a actions)
    (signalled : (s.signals.listen t.seen t.id).1 = true) :
    (s.run t.id).answer? t.id = some (a.finalize t.schema s.now .cancelled) := by
  have heard := turn?_hear found waits
  rw [Turn.heard_cut works signalled] at heard
  have reached' : (s.hear t).Reached := reached.move (.hear (mem_of_turn? found))
  have now : (s.hear t).now = s.now := by
    rw [hear_eq waits]
    rfl
  have budget : (s.hear t).budgetOf t.id = 1 + 1 := by
    rw [budgetOf, heard]
    rfl
  have answered := reached'.runFor_answers heard rfl 1
  have after : ((s.hear t).runFor t.id (1 + 1)).Reached := by
    obtain ⟨log, run⟩ := runFor_goes (s.hear t) t.id (1 + 1)
    exact reached'.run run
  simp only [Server.run, found, budget]
  rw [now] at answered
  exact after.answer?_goes (runFor_goes ..) answered

/-- Who cancels a turn that waits is answered with what the turn had accumulated, whatever other
turns the server runs meanwhile. -/
theorem Reached.cancel_answers {all : List String} (attends : Attends s all)
    (found : s.turn? t.id = some t) (waits : t.waits = true)
    (works : t.stage = .working a actions) :
    (s.cancel t.id).2 = .ok (a.finalize t.schema s.now .cancelled) := by
  have flies : t.isInFlight = true := by rw [Turn.isInFlight, works]
  have there : (s.turn? t.id).filter Turn.isInFlight = some t := by
    rw [found]
    exact Option.filter_some_pos flies
  have pending := attends.pending t.id
  have found' : (s.signal t.id).turn? t.id = some t := (turn?_signal ..).trans found
  have near : ([] : List String).length < Signals.capacity := by decide
  have signalled := pending.hears near found' ⟨a, actions, works⟩
  have reached' : (s.signal t.id).Reached := reached.move (.signal t.id)
  have now : (s.signal t.id).now = s.now := by simp only [Server.signal]
  have answered : (s.signal t.id).runAll.answer? t.id =
      some (a.finalize t.schema s.now .cancelled) := by
    rw [← now]
    generalize s.signal t.id = u at found' signalled reached'
    -- The turns that are run before leave the turn and its signal alone.
    have known : t.id ∈ u.turns.map (·.id) := List.mem_map_of_mem (mem_of_turn? found')
    obtain ⟨before, after, ids, others⟩ := List.eq_append_cons_of_mem known
    obtain ⟨log, run⟩ := foldl_run_goes u before
    have apart : Apart t.id u (before.foldl Server.run u) := foldl_run_apart others
    have answered := (reached'.run run).run_answers (apart.turn.trans found') waits works
      (apart.signals.symm ▸ signalled)
    rw [apart.now] at answered
    unfold runAll
    rw [ids, List.foldl_append, List.foldl_cons]
    obtain ⟨log', run'⟩ := run_goes (before.foldl Server.run u) t.id
    exact ((reached'.run run).run run').answer?_goes (foldl_run_goes ..) answered
  rw [answer?] at answered
  simp only [cancel, there, answered]

theorem Reached.yields {all : List String} (attends : Attends s all) (mem : t ∈ s.turns)
    (reading : t.client = .reading channel) (works : t.stage = .working a actions)
    (waits : t.waits = true) : Yields s t a channel := by
  have found := turn?_of_mem reached.ids mem
  have fresh : a.response.status = .inProgress := by
    have fresh := reached.fresh mem
    rw [works] at fresh
    exact fresh
  have roomy (seen : Nat) : { t with seen, stage := .settling a .cancelled }.Roomy :=
    fun c reads => reached.roomy mem c reads
  refine ⟨fun signalled => ⟨(s.signals.listen t.seen t.id).2, ?_⟩, fun signalled => ?_,
    a.finalize_cut fresh t.schema,
    reached.cancel_answers attends found waits works, fun run => run.drains rfl reading,
    Turn.exists_tell, fun run => run.drains_out rfl reading (roomy _)⟩
  · rw [hear_eq waits, Turn.heard_cut works signalled]
  · intro log u run
    have heard := turn?_hear found waits
    rw [Turn.heard_cut works signalled] at heard
    have reached' : (s.hear t).Reached := reached.move (.hear mem)
    have finishes := reached'.finishes heard rfl run
    exact finishes

end reached

section
open Admission (greeting)

/-- A server that keeps one event ready for a reader. -/
def narrow : Server := { forgetful with limits := { eventBuffer := 1 } }

/-- A turn that has told that it was created, and has no room to say that it goes on. -/
def parked : Server := (narrow.create greeting true).1

end

end Server

end Responder
