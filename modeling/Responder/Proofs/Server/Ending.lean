import Responder.Proofs.Server.Fairness
import Responder.Proofs.Store.Growth
import Responder.Proofs.Turn.Finalize

/-!
# Ends of turns

From its admission on a turn is in flight or finished. Main statement: it asks its backend once at
most, one move finishes it and stores its response, if that is to be stored and the store is open,
and then nothing changes it; and unless it is forsaken it is finished at some time.
-/

namespace Responder

theorem Accumulator.finalize_isTerminal (a : Accumulator) (schema : Option Json) (now : Int)
    (outcome : Outcome) : (a.finalize schema now outcome).status.isTerminal = true := by
  have settled : (a.settle schema outcome).status.isTerminal = true := settle_isTerminal a
  simp only [finalize, Response.transition]
  split
  · next moved =>
    split at moved
    · cases moved
      exact settled
    · cases moved
  · rfl

namespace Turn

variable {p : Prepared} {t next : Turn} {r : Response}

theorem response?_of_stage (same : next.stage = t.stage) : next.response? = t.response? := by
  unfold response?
  rw [same]

theorem isInFlight_of_stage (same : next.stage = t.stage) : next.isInFlight = t.isInFlight := by
  unfold isInFlight
  rw [same]

theorem isInFlight_iff : t.isInFlight = true ↔ t.response? = none := by
  unfold isInFlight response?
  cases t.stage <;> simp

theorem heard_response? (signals : Signals) (unfinished : t.response? = none) :
    (t.heard signals).response? = none := by
  unfold heard
  split
  · cases stage : t.stage with
    | working a actions => simp only [interrupt, Turn.response?]
    | settling a outcome => simp only [interrupt, Turn.response?]
    | closing r | ended r => simp only [Turn.response?, stage, reduceCtorEq] at unfinished
  · exact unfinished

theorem takeResult_isInFlight (a : Accumulator) (rest : ChunkStream)
    (result : Except BackendFault Chunk) :
    { t with stage := t.takeResult a rest result }.isInFlight = true := by
  cases result with
  | error fault => rfl
  | ok chunk => cases chunk <;> rfl

theorem takeArrival_isInFlight (a : Accumulator) (arrival : Arrival) :
    { t with stage := t.takeArrival a arrival }.isInFlight = true := by
  cases arrival with
  | answer outcome => cases outcome <;> rfl
  | opening outcome => cases outcome <;> rfl
  | result result rest => exact takeResult_isInFlight a rest result

theorem awaiting_isInFlight (clock : Duration) (a : Accumulator) (w : Wait Arrival) :
    { t with stage := .awaiting clock a w }.isInFlight = true := by
  cases w <;> rfl

/-- A turn that is finished by a move had settled before. -/
theorem Shift.isInFlight {stage after : Stage} {events : List Event}
    (h : Shift p t stage events after) {a : Accumulator} {actions : List Action}
    (works : stage = .working a actions) : { t with stage := after }.isInFlight = true := by
  cases h with
  | take time arrival a rest => exact takeArrival_isInFlight a arrival
  | ask | askStream | read => exact awaiting_isInFlight ..
  | finish | tell | lose => cases works
  | _ => rfl

end Turn

namespace Server

variable {s u next opened : Server} {t : Turn} {r : Response} {log log' stored : List Response}
  {id : String} {keeps : Bool}

/-- The response of a turn, once it is finished. -/
def answer? (s : Server) (id : String) : Option Response := (s.turn? id).bind Turn.response?

theorem finish_eq {a : Accumulator} {outcome : Outcome} (settling : t.stage = .settling a outcome) :
    s.finish t = (s.keep (a.finalize t.schema s.now outcome)).modifyTurn t.id fun _ =>
      t.finish s.now := by
  have finished : (t.finish s.now).response? = some (a.finalize t.schema s.now outcome) := by
    rw [Turn.finish, settling]
    rfl
  simp only [finish, finished]

/-- A turn is finished by a step of its own, once it has settled. -/
theorem Move.ends (ids : (s.turns.map Turn.id).Nodup) (m : Move s stored next)
    (found : s.turn? id = some t) (unfinished : t.response? = none)
    (ends : next.answer? id = some r) :
    ∃ a outcome, t.stage = .settling a outcome ∧ r = a.finalize t.schema s.now outcome ∧
      next = s.finish t ∧ stored = s.stored t := by
  obtain ⟨moved, rfl⟩ | rfl | ⟨u, there, stage, -⟩ := m.turn?_cases ids found
  · obtain rfl : t.id = id := id_of_turn? found
    cases stage : t.stage with
    | working a actions =>
      obtain ⟨u, p, events, there, shifted⟩ := (advances found moved).shifts
      have flies : u.isInFlight = true :=
        (Turn.isInFlight_of_stage rfl).trans (shifted.shift.isInFlight stage)
      rw [answer?, there, Option.bind_some, Turn.isInFlight_iff.1 flies] at ends
      cases ends
    | settling a outcome =>
      cases (advance_settling stage).symm.trans moved
      rw [answer?, turn?_finish found, Option.bind_some, Turn.finish, stage] at ends
      exact ⟨a, outcome, rfl, (Option.some.inj ends).symm, rfl, rfl⟩
    | closing r => simp only [Turn.response?, stage, reduceCtorEq] at unfinished
    | ended r => simp only [Turn.response?, stage, reduceCtorEq] at unfinished
  · by_cases waits : t.waits = true
    · rw [answer?, turn?_hear found waits, Option.bind_some,
        Turn.heard_response? _ unfinished] at ends
      cases ends
    · rw [hear_still waits, answer?, found, Option.bind_some, unfinished] at ends
      cases ends
  · rw [answer?, there, Option.bind_some, Turn.response?_of_stage stage, unfinished] at ends
    cases ends

/-- The move that finishes a turn stores its response, if it is to be stored and the store is
open. -/
structure Ends (s : Server) (stored : List Response) (next : Server) (id : String) (keeps : Bool)
    (r : Response) : Prop where
  named : r.id = id
  terminal : r.status.isTerminal = true
  kept : keeps = true → s.store.closed = false → stored = [r] ∧ s.store.put r = .ok next.store
  lost : keeps = false ∨ s.store.closed = true → stored = [] ∧ next.store = s.store

/-- What comes of a turn after its admission. -/
structure Course (opened : Server) (id : String) (keeps : Bool) : Prop where
  asks : ∀ {ids u}, Called opened ids u → ids.count id ≤ 1
  flies : ∀ {log u}, Run opened log u →
    (u.answer? id = none ↔ ∃ t, (u.turn? id).filter Turn.isInFlight = some t)
  ends : ∀ {log stored u next r}, Run opened log u → Move u stored next → u.answer? id = none →
    next.answer? id = some r → Ends u stored next id keeps r
  lasts : ∀ {log log' u next r}, Run opened log u → Run u log' next → u.answer? id = some r →
    next.answer? id = some r
  only : ∀ {log u}, Run opened log u → ∀ r ∈ log, r.id = id → u.answer? id = some r ∧ keeps = true
  finishes : ∀ {log w}, Run opened log (w 0) → Endless w → Fair w id →
    (∃ n r, (w n).answer? id = some r) ∨ Forsaken w id 0

theorem response_of_response? (finished : t.response? = some r) : t.stage.response = r := by
  obtain closing | ended := Turn.response?_cases finished
  · rw [closing]
    rfl
  · rw [ended]
    rfl

theorem store_of_stored (mem : r ∈ s.stored t) : r.store = true := by
  unfold Server.stored at mem
  split at mem
  · dsimp only at mem
    split at mem
    · next kept =>
      rw [List.mem_singleton.1 mem]
      exact kept.1
    · cases mem
  · cases mem

/-- Only what is to be stored is stored. -/
theorem Run.store_of_mem (run : Run s log u) : ∀ r ∈ log, r.store = true := by
  induction run with
  | start => exact fun _ mem => absurd mem List.not_mem_nil
  | move _ m ih =>
    intro r mem
    obtain old | new := List.mem_append.1 mem
    · exact ih r old
    · cases m with
      | advance _ moved => exact store_of_stored new
      | _ => cases new

/-- A finished response that is new is stored, unless it is not to be or the store is closed. -/
theorem keep_cases (s : Server) (terminal : r.status.isTerminal = true)
    (new : r.id ∉ s.store.entries.map Response.id) :
    (r.store = true ∧ s.store.closed = false ∧ s.store.put r = .ok (s.keep r).store) ∨
      ((r.store = false ∨ s.store.closed = true) ∧
        ¬ (r.store = true ∧ (s.store.put r).isOk = true) ∧ s.keep r = s) := by
  unfold keep
  cases kept : r.store with
  | false => exact .inr ⟨.inl rfl, fun h => absurd h.1 Bool.false_ne_true, rfl⟩
  | true =>
    rw [if_pos rfl]
    obtain ⟨pending, -⟩ | ⟨-, closed, put⟩ | ⟨-, -, there, -⟩ | ⟨-, opened, -, next, put, -⟩ :=
      s.store.put_cases r
    · cases terminal.symm.trans pending
    · rw [put]
      exact .inr ⟨.inr closed, fun h => absurd h.2 Bool.false_ne_true, rfl⟩
    · exact absurd there new
    · rw [put]
      exact .inl ⟨rfl, opened, rfl⟩

/-- What finishing does to the store, if nothing has the id of the turn there. -/
theorem finish_ends {a : Accumulator} {outcome : Outcome}
    (settling : t.stage = .settling a outcome) (named : a.response.id = t.id)
    (new : t.id ∉ s.store.entries.map Response.id) :
    Ends s (s.stored t) (s.finish t) t.id a.response.store
      (a.finalize t.schema s.now outcome) := by
  have asked := Accumulator.asked_finalize a t.schema s.now outcome
  have same : (a.finalize t.schema s.now outcome).id = t.id :=
    (congrArg Response.id asked).trans named
  have store : (a.finalize t.schema s.now outcome).store = a.response.store := by
    have kept := congrArg Response.store asked
    exact kept
  have terminal := a.finalize_isTerminal t.schema s.now outcome
  rw [finish_eq settling]
  simp only [stored, settling]
  generalize a.finalize t.schema s.now outcome = r at same store terminal ⊢
  obtain ⟨kept, opened, put⟩ | ⟨refused, lost, keep⟩ := s.keep_cases terminal (same ▸ new)
  · refine ⟨same, terminal, fun _ _ => ⟨if_pos ⟨kept, by rw [put]; rfl⟩, put⟩, ?_⟩
    rintro (unkept | closed)
    · cases (store.symm.trans kept).symm.trans unkept
    · cases opened.symm.trans closed
  · refine ⟨same, terminal, fun keeps opened => ?_, fun _ => ⟨if_neg lost, ?_⟩⟩
    · obtain unkept | closed := refused
      · cases (store.trans keeps).symm.trans unkept
      · cases opened.symm.trans closed
    · rw [keep]
      rfl

section
variable (reached : opened.Reached) (found : opened.turn? id = some t)
include reached

theorem Called.count_le {ids : List String} (called : Called opened ids u)
    (found : opened.turn? id = some t) : ids.count id ≤ 1 := by
  obtain ⟨log, run⟩ := called.run
  obtain ⟨v, there, -⟩ := run.turn? reached found
  have once := (called.counted reached).once v (mem_of_turn? there)
  rw [id_of_turn? there] at once
  omega

/-- What a server has stored, with all that was stored before. -/
theorem Run.sound_after (run : Run opened log u) : ∃ before, Sound u (before ++ log) := by
  obtain ⟨start, before, new, first⟩ := reached
  exact ⟨before, (first.trans run).sound new⟩

theorem Run.answer?_lasts (run : Run opened log u) (finished : opened.answer? id = some r) :
    u.answer? id = some r := by
  obtain ⟨t, found, finished⟩ := Option.bind_eq_some_iff.1 finished
  obtain ⟨x, there, leads⟩ := run.turn? reached found
  rw [answer?, there, Option.bind_some]
  exact leads.holds (fun step => step.response?) finished

include found

theorem Run.answer?_eq_none_iff (run : Run opened log u) :
    u.answer? id = none ↔ ∃ t, (u.turn? id).filter Turn.isInFlight = some t := by
  obtain ⟨v, there, -⟩ := run.turn? reached found
  rw [answer?, there, Option.bind_some, ← Turn.isInFlight_iff]
  simp [Option.filter]

theorem Run.ends (run : Run opened log u) (m : Move u stored next)
    (unfinished : u.answer? id = none) (ends : next.answer? id = some r) :
    Ends u stored next id t.stage.response.store r := by
  obtain ⟨v, there, leads⟩ := run.turn? reached found
  rw [answer?, there, Option.bind_some] at unfinished
  obtain ⟨a, outcome, settling, rfl, rfl, rfl⟩ :=
    m.ends (reached.run run).ids there unfinished ends
  obtain ⟨before, sound⟩ := run.sound_after reached
  have mem := mem_of_turn? there
  have flies := Turn.isInFlight_iff.2 unfinished
  have named := sound.named v mem
  have store := congrArg Response.store leads.continues.asked
  obtain rfl : v.id = id := id_of_turn? there
  rw [settling] at named store
  have new : v.id ∉ u.store.entries.map Response.id :=
    fun stored => sound.not_stored mem flies ((sound.recent.map _).subset stored)
  have ended := finish_ends settling named new
  have same : a.response.store = t.stage.response.store := store
  rw [same] at ended
  exact ended

/-- Nothing else is stored under the id of a turn than its response. -/
theorem Run.answer?_of_mem (run : Run opened log u) (mem : r ∈ log) (named : r.id = id) :
    u.answer? id = some r ∧ t.stage.response.store = true := by
  obtain ⟨before, sound⟩ := run.sound_after reached
  obtain ⟨v, there, leads⟩ := run.turn? reached found
  obtain ⟨start, first, new, reaches⟩ := reached
  obtain ⟨x, there', finished⟩ :=
    (reaches.trans run).turn_of_stored new r (List.mem_append_right _ mem)
  have own := (sound.named x there').symm.trans
    (congrArg Response.id (response_of_response? finished))
  have same : v = x :=
    sound.eq_of_id (mem_of_turn? there) there' ((id_of_turn? there).trans (own.trans named).symm)
  subst same
  have store := congrArg Response.store leads.continues.asked
  refine ⟨by rw [answer?, there]; exact finished, ?_⟩
  rw [response_of_response? finished] at store
  exact store.symm.trans (run.store_of_mem r mem)

theorem Run.finishes {all : List String} {w : Nat → Server} (attends : Attends opened all)
    (run : Run opened log (w 0)) (endless : Endless w) (fair : Fair w id) :
    (∃ n r, (w n).answer? id = some r) ∨ Forsaken w id 0 := by
  obtain ⟨v, there, -⟩ := run.turn? reached found
  obtain ⟨all, attends⟩ := run.attends reached attends
  refine (finishes_or_forsaken (reached.run run) endless fair there attends).imp_left ?_
  rintro ⟨n, u, r, there, finished⟩
  exact ⟨n, r, by rw [answer?, there]; exact finished⟩

theorem course {all : List String} (attends : Attends opened all) :
    Course opened id t.stage.response.store where
  asks called := called.count_le reached found
  flies run := run.answer?_eq_none_iff reached found
  ends run m unfinished ends := run.ends reached found m unfinished ends
  lasts run later finished := later.answer?_lasts (reached.run run) finished
  only run _ mem named := run.answer?_of_mem reached found mem named
  finishes run endless fair := run.finishes reached found attends endless fair

end

end Server

end Responder
