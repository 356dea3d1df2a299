import Responder.Http.Exchange
import Responder.Proofs.Server.Admission
import Responder.Proofs.Turn.Origin

/-!
# Runs of a server

A server moves in small steps, in any order: a request is admitted or refused, a turn does one
step, hears the signals, or loses its client, an event is read, time passes. All that a server
does with the requests that reach it is made of these moves. A run keeps a log of the responses
that were stored.
-/

namespace Responder.Server

variable {s u next : Server} {t : Turn} {log log' : List Response}

/-- What the next step of a turn adds to the store. -/
def stored (s : Server) (t : Turn) : List Response :=
  match t.stage with
  | .settling a outcome =>
    let response := a.finalize t.schema s.now outcome
    if response.store ∧ (s.store.put response).isOk then [response] else []
  | _ => []

/-- The id of the next response was not generated before. -/
def FreshId (s : Server) : Prop := ∀ t ∈ s.turns, t.id ≠ s.lane.id .response .response

/-- A move of a server, and the responses that are stored by it. -/
inductive Move : Server → List Response → Server → Prop
  | accept {s next : Server} {r : Request} {streamed : Bool} {id : String} : s.FreshId →
      s.start r streamed = .ok (next, id) → Move s [] next
  | refuse {s : Server} {r : Request} {streamed : Bool} {failure : Failure} :
      s.start r streamed = .error failure → Move s [] { s with lane := s.lane.next }
  | advance {s next : Server} {t : Turn} : t ∈ s.turns → s.advance t = some next →
      Move s (s.stored t) next
  | hear {s : Server} {t : Turn} : t ∈ s.turns → Move s [] (s.hear t)
  | signal {s : Server} (id : String) : Move s [] (s.signal id)
  | leave {s : Server} (id : String) :
      Move s [] (s.modifyTurn id fun t => { t with clientGone := true })
  | receive {s : Server} {t next : Turn} {id : String} {event : Sequenced} :
      s.turn? id = some t → t.receive? = some (event, next) →
      Move s [] (s.modifyTurn id fun _ => next)
  | pass {s : Server} (clock : Duration) : Move s [] { s with clock }
  | date {s : Server} (now : Int) : Move s [] { s with now }
  /-- The backend is asked for its models. -/
  | consult {s : Server} : Move s [] { s with backend := s.backend.models.1 }
  | close {s : Server} : Move s [] { s with store := s.store.close }

/-- A run, with all responses that were stored on the way, the oldest first. -/
inductive Run (start : Server) : List Response → Server → Prop
  | start : Run start [] start
  | move {log stored : List Response} {s next : Server} :
      Run start log s → Move s stored next → Run start (log ++ stored) next

theorem Run.trans (h : Run s log u) (k : Run u log' next) : Run s (log ++ log') next := by
  induction k with
  | start =>
    rw [List.append_nil]
    exact h
  | move _ m ih =>
    rw [← List.append_assoc]
    exact ih.move m

/-- One server is reached from another by moves. -/
def Goes (s next : Server) : Prop := ∃ log, Run s log next

theorem Goes.refl (s : Server) : Goes s s := ⟨[], .start⟩

theorem Goes.trans (h : Goes s u) (k : Goes u next) : Goes s next := by
  obtain ⟨log, run⟩ := h
  obtain ⟨log', run'⟩ := k
  exact ⟨log ++ log', run.trans run'⟩

theorem Move.goes {stored : List Response} (m : Move s stored next) : Goes s next :=
  ⟨[] ++ stored, .move .start m⟩

theorem mem_of_turn? {id : String} (h : s.turn? id = some t) : t ∈ s.turns :=
  List.mem_of_find?_eq_some h

theorem id_of_turn? {id : String} (h : s.turn? id = some t) : t.id = id := by
  have found := List.find?_some h
  exact of_decide_eq_true found

theorem runFor_goes (s : Server) (id : String) (steps : Nat) : Goes s (s.runFor id steps) := by
  induction steps generalizing s with
  | zero => exact .refl s
  | succ steps ih =>
    unfold runFor
    split
    · next next stepped =>
      obtain ⟨t, found, advanced⟩ := Option.bind_eq_some_iff.1 stepped
      have moved : Move s (s.stored t) next := .advance (mem_of_turn? found) advanced
      exact moved.goes.trans (ih next)
    · exact .refl s

theorem run_goes (s : Server) (id : String) : Goes s (s.run id) := by
  have steps (u : Server) : Goes u ((u.runFor id (u.budgetOf id)).runFor id
      ((u.runFor id (u.budgetOf id)).budgetOf id)) :=
    (runFor_goes ..).trans (runFor_goes ..)
  unfold run
  cases found : s.turn? id with
  | none => exact steps s
  | some t => exact (Move.hear (mem_of_turn? found)).goes.trans (steps _)

theorem foldl_run_goes (s : Server) (ids : List String) : Goes s (ids.foldl run s) := by
  induction ids generalizing s with
  | nil => exact .refl s
  | cons id rest ih => exact (run_goes s id).trans (ih _)

theorem runAll_goes (s : Server) : Goes s s.runAll := foldl_run_goes s _

theorem create_goes (fresh : s.FreshId) (r : Request) (streamed : Bool) :
    Goes s (s.create r streamed).1 := by
  unfold create
  split
  · next started => exact (Move.accept fresh started).goes.trans (runAll_goes _)
  · next refused => exact (Move.refuse refused).goes

theorem cancel_goes (s : Server) (id : String) : Goes s (s.cancel id).1 := by
  have signalled : Goes s (s.signal id).runAll := (Move.signal id).goes.trans (runAll_goes _)
  unfold cancel
  split
  · exact .refl s
  · dsimp only
    split
    · exact signalled
    · exact signalled

theorem abandon_goes (s : Server) (id : String) : Goes s (s.abandon id) :=
  (Move.leave id).goes.trans (runAll_goes _)

theorem receive_goes {id : String} {event : Sequenced} (h : s.receive id = some (event, next)) :
    Goes s next := by
  unfold receive at h
  obtain ⟨t, found, h⟩ := Option.bind_eq_some_iff.1 h
  obtain ⟨⟨event, after⟩, taken, h⟩ := Option.bind_eq_some_iff.1 h
  cases h
  exact (Move.receive found taken).goes.trans (runAll_goes _)

theorem receiveUpTo_goes (s : Server) (id : String) (count : Nat) :
    Goes s (s.receiveUpTo id count).2 := by
  induction count generalizing s with
  | zero => exact .refl s
  | succ count ih =>
    unfold receiveUpTo
    split
    · exact .refl s
    · next received => exact (receive_goes received).trans (ih _)

theorem receiveAll_goes (s : Server) (id : String) : Goes s (s.receiveAll id).2 :=
  (receiveUpTo_goes ..).trans (receiveUpTo_goes ..)

theorem passTo_goes (s : Server) (time : Duration) : Goes s (s.passTo time) :=
  (Move.pass time).goes.trans (runAll_goes _)

theorem passWithin_goes (s : Server) (time : Duration) (times : Nat) :
    Goes s (s.passWithin time times) := by
  induction times generalizing s with
  | zero => exact passTo_goes s time
  | succ times ih =>
    unfold passWithin
    split
    · exact (passTo_goes ..).trans (ih _)
    · exact passTo_goes s time

theorem awaitFor_goes (s : Server) (id : String) (times : Nat) :
    Goes s (s.awaitFor id times).2 := by
  induction times generalizing s with
  | zero => exact .refl s
  | succ times ih =>
    unfold awaitFor
    split
    · exact .refl s
    · split
      · exact .refl s
      · exact (passTo_goes ..).trans ((receiveAll_goes ..).trans (ih _))

theorem await_goes (s : Server) (id : String) : Goes s (s.await id).2 :=
  (receiveAll_goes ..).trans (awaitFor_goes ..)

theorem listModels_goes (s : Server) : Goes s (Http.listModels s).1 := by
  have asked : Goes s { s with backend := s.backend.models.1 } := Move.consult.goes
  unfold Http.listModels
  dsimp only
  split
  · exact asked
  · exact asked.trans (passWithin_goes ..)

/-- All that a server does with a request that reaches it is made of moves. -/
theorem exchange_goes (fresh : s.FreshId) (d : Http.Demand) : Goes s (Http.exchange s d).1 := by
  have follow (query : List Char) (route : Http.Route) :
      Goes s (Http.follow s d query route).1 := by
    cases route with
    | models => exact listModels_goes s
    | responses =>
      simp only [Http.follow, Http.createResponse]
      split
      · split
        · exact .refl s
        · split
          · exact .refl s
          · next request _ =>
            have created := create_goes fresh request request.stream
            split <;> next made => rwa [made] at created
      · exact .refl s
    | cancel part =>
      simp only [Http.follow, Http.cancelResponse]
      split
      · exact .refl s
      · exact cancel_goes s _
    | health | response | inputItems => exact .refl s
  unfold Http.exchange
  split
  · exact .refl s
  · split
    · exact .refl s
    · split
      · exact .refl s
      · split
        · exact .refl s
        · exact follow ..

end Responder.Server
