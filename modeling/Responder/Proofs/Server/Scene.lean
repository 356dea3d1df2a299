import Mathlib.Logic.Function.Basic
import Responder.Proofs.Server.Ending
import Responder.Proofs.Turn.LastEvent

/-!
# Finishing step by step

What a server does at once when a turn is finished is three steps, between which all else may
happen: the response is frozen, it is stored, and its turn is taken from those in flight. Main
statement: a run of a server is one in which nothing happens between them.
-/

namespace Responder

/-- A frozen response of a turn that is still in flight, and whether it was stored since. -/
structure Ending where
  response : Response
  kept : Bool

/-- A server, and how far the turns are finished that have settled. -/
structure Scene where
  server : Server
  ending : String → Option Ending := fun _ => none

namespace Server

variable {s next : Server} {t : Turn} {id : String}

theorem modifyTurn_congr {f g : Turn → Turn} (same : ∀ t ∈ s.turns, t.id = id → f t = g t) :
    s.modifyTurn id f = s.modifyTurn id g := by
  unfold modifyTurn
  congr 1
  refine List.map_congr_left fun t mem => ?_
  split
  · next here => exact same t mem here
  · rfl

/-- Before its admission a turn has no response. -/
theorem Proceeds.unanswered (h : Proceeds s next) (absent : s.turn? id = none) :
    next.answer? id = none := by
  unfold answer?
  cases found : next.turn? id with
  | none => rfl
  | some u => exact (h.admitted absent found).1

end Server

namespace Scene

variable {s u next : Scene} {t : Turn} {r : Response} {log log' stored : List Response}
  {id : String}

def freeze (s : Scene) (id : String) (r : Response) : Scene :=
  { s with ending := Function.update s.ending id (some ⟨r, false⟩) }

def persist (s : Scene) (id : String) (r : Response) : Scene :=
  { server := s.server.keep r, ending := Function.update s.ending id (some ⟨r, true⟩) }

/-- The turn is taken from those in flight, and who waits for its end is told. -/
def release (s : Scene) (id : String) (r : Response) : Scene where
  server := s.server.modifyTurn id fun t => { t with stage := .closing r }
  ending := Function.update s.ending id none

theorem ending_freeze (s : Scene) (id : String) (r : Response) :
    (s.freeze id r).ending id = some ⟨r, false⟩ :=
  Function.update_self ..

theorem ending_persist (s : Scene) (id : String) (r : Response) :
    (s.persist id r).ending id = some ⟨r, true⟩ :=
  Function.update_self ..

theorem ending_release (s : Scene) (id : String) (r : Response) :
    (s.release id r).ending id = none :=
  Function.update_self ..

def register (s : Scene) (t : Turn) : Scene :=
  { s with server := { s.server with turns := s.server.turns ++ [t] } }

/-- What enters the store when a response is offered to it. -/
def taken (s : Scene) (r : Response) : List Response :=
  if r.store ∧ (s.server.store.put r).isOk then [r] else []

/-- A step by which a turn is finished, and the responses that are stored by it. -/
inductive Finishes (s : Scene) (id : String) : List Response → Scene → Prop
  | freeze {t : Turn} {a : Accumulator} {outcome : Outcome} : s.server.turn? id = some t →
      t.stage = .settling a outcome → s.ending id = none →
      Finishes s id [] (s.freeze id (a.finalize t.schema s.server.now outcome))
  | persist {r : Response} : s.ending id = some ⟨r, false⟩ →
      Finishes s id (s.taken r) (s.persist id r)
  | release {r : Response} : s.ending id = some ⟨r, true⟩ → Finishes s id [] (s.release id r)

/-- A step: a move of the server that finishes no turn, or a step by which one is finished. An
admission may have been decided before, when the server was another; the turn listens from then on
at the latest. -/
inductive Step (s : Scene) : List Response → Scene → Prop
  | move {stored : List Response} {next : Server} : s.server.Move stored next →
      (∀ id, s.server.answer? id = none → next.answer? id = none) →
      Step s stored { s with server := next }
  | register {setting : Admission.Setting} {r : Request} {admitted : Admission.Admitted}
      {seen : Nat} {streamed : Bool} : Admission.accept setting r = .ok admitted →
      (∀ t ∈ s.server.turns, t.id ≠ admitted.response.id) → seen ≤ s.server.signals.count →
      Step s [] (s.register (admitted.turn setting seen streamed))
  | finish {stored : List Response} {next : Scene} {id : String} :
      Finishes s id stored next → Step s stored next

/-- A run, with all responses that were stored on the way, the oldest first. -/
inductive Run (start : Scene) : List Response → Scene → Prop
  | start : Run start [] start
  | step {log stored : List Response} {s next : Scene} :
      Run start log s → Step s stored next → Run start (log ++ stored) next

theorem Run.trans (h : Run s log u) (k : Run u log' next) : Run s (log ++ log') next := by
  induction k with
  | start =>
    rw [List.append_nil]
    exact h
  | step _ step ih =>
    rw [← List.append_assoc]
    exact ih.step step

/-- A turn that has settled can be frozen, then stored, then released. -/
theorem finishes_in_turn {a : Accumulator} {outcome : Outcome}
    (found : s.server.turn? id = some t) (settling : t.stage = .settling a outcome)
    (pending : s.ending id = none) (frozen : a.finalize t.schema s.server.now outcome = r) :
    Finishes s id [] (s.freeze id r) ∧
      Finishes (s.freeze id r) id ((s.freeze id r).taken r) ((s.freeze id r).persist id r) ∧
      Finishes ((s.freeze id r).persist id r) id []
        (((s.freeze id r).persist id r).release id r) := by
  subst frozen
  exact ⟨.freeze found settling pending, .persist (ending_freeze ..), .release (ending_persist ..)⟩

/-- To finish a turn at once is to finish it step by step. -/
theorem finish_run {a : Accumulator} {outcome : Outcome}
    (ids : (s.server.turns.map Turn.id).Nodup) (found : s.server.turn? t.id = some t)
    (settling : t.stage = .settling a outcome) (pending : s.ending t.id = none) :
    Run s (s.server.stored t) { s with server := s.server.finish t } := by
  generalize frozen : a.finalize t.schema s.server.now outcome = r
  obtain ⟨first, second, third⟩ := finishes_in_turn found settling pending frozen
  have run : Run s _ _ :=
    ((Run.start.step (.finish first)).step (.finish second)).step (.finish third)
  have finish : t.finish s.server.now = { t with stage := .closing r } := by
    simp only [Turn.finish, settling, frozen]
  have whole : ((s.freeze t.id r).persist t.id r).release t.id r =
      { s with server := s.server.finish t } := by
    have server : (s.server.keep r).modifyTurn t.id (fun u => { u with stage := .closing r }) =
        s.server.finish t := by
      rw [Server.finish_eq settling, finish, frozen]
      refine Server.modifyTurn_congr fun u mem same => ?_
      rw [Server.turns_keep] at mem
      rw [List.inj_on_of_nodup_map ids mem (Server.mem_of_turn? found) same]
    have ending : Function.update (Function.update (Function.update s.ending t.id
        (some ⟨r, false⟩)) t.id (some ⟨r, true⟩)) t.id none = s.ending := by
      rw [Function.update_idem, Function.update_idem, ← pending, Function.update_eq_self]
    rw [release, persist, freeze]
    simp only [server, ending]
  have stored : [] ++ [] ++ (s.freeze t.id r).taken r ++ [] = s.server.stored t := by
    simp only [List.nil_append, List.append_nil, Server.stored, settling, frozen]
    rfl
  rw [whole, stored] at run
  exact run

/-- A run of a server is one of its scenes. -/
theorem run_of_run {start next : Server} (ids : (start.turns.map Turn.id).Nodup)
    (run : Server.Run start log next) :
    Run ⟨start, fun _ => none⟩ log ⟨next, fun _ => none⟩ := by
  induction run with
  | start => exact .start
  | @move log stored u next run m ih =>
    have ids := run.ids ids
    by_cases silent : ∀ id, u.answer? id = none → next.answer? id = none
    · exact ih.step (.move (s := ⟨u, fun _ => none⟩) m silent)
    · obtain ⟨id, answered⟩ := not_forall.1 silent
      obtain ⟨unanswered, answers⟩ := Classical.not_imp.1 answered
      obtain ⟨r, answers⟩ := Option.ne_none_iff_exists'.1 answers
      cases found : u.turn? id with
      | none => cases answers.symm.trans ((m.turns ids).unanswered found)
      | some t =>
        rw [Server.answer?, found, Option.bind_some] at unanswered
        obtain ⟨a, outcome, settling, -, rfl, rfl⟩ := m.ends ids found unanswered answers
        obtain rfl : t.id = id := Server.id_of_turn? found
        exact ih.trans (finish_run (s := ⟨u, fun _ => none⟩) ids found settling rfl)

end Scene

end Responder
