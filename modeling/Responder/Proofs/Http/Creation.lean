import Mathlib.Logic.Basic
import Responder.Main
import Responder.Proofs.Server.Ending

/-!
# Creation of responses

A request to create a response is refused or admitted as a whole. Main statement: one that is
refused leaves no trace, and one that is admitted starts a turn, which comes to an end unless it
is forsaken.
-/

namespace Responder

theorem Failure.Blames.status {name : String} {f : Failure} (h : f.Blames name) :
    (Http.Refusal.ofFailure f).status = 400 := by
  obtain ⟨rest, message, rfl⟩ := h
  rfl

namespace Admission

variable {s : Setting} {r : Request} {admitted : Admitted} {f : Failure}

/-- A request is never refused for a fault of the server. -/
theorem status_of_accept_error (h : accept s r = .error f) :
    (Http.Refusal.ofFailure f).status = 400 ∨ (Http.Refusal.ofFailure f).status = 404 := by
  obtain ⟨name, -, blames⟩ | discontinued := accept_error h
  · exact .inl blames.status
  · cases discontinued with
    | unstored => exact .inl rfl
    | misnamed id => exact .inl rfl
    | @unresolved id f _ resolved =>
      obtain ⟨-, failed⟩ | ⟨_, -, ⟨_, walked, -⟩ | ⟨_, back, walked, -⟩⟩ :=
        Ancestry.resolve_cases s.store id
      · cases failed.symm.trans resolved
        exact .inr rfl
      · cases walked.symm.trans resolved
      · cases walked.symm.trans resolved
        exact .inl rfl

theorem store_of_accept (h : accept s r = .ok admitted) :
    admitted.response.store = r.store.getD true :=
  (accept_cases h).2.1

end Admission

namespace Server

variable {s opened : Server} {r : Request} {streamed : Bool} {id : String} {all : List String}

/-- An admitted request adds a turn to a server, and does nothing else there. -/
theorem start_spec (fresh : s.FreshId) (started : s.start r streamed = .ok (opened, id)) :
    ∃ t, t.id = id ∧ opened = { s with turns := s.turns ++ [t], lane := s.lane.next } ∧
      s.turn? id = none ∧ opened.turn? id = some t ∧ t.isInFlight = true ∧
      t.stage.response.store = r.store.getD true := by
  obtain ⟨admitted, accepted, started⟩ := bind_eq_ok.1 started
  cases started
  have named : (admitted.turn ⟨s.limits, s.store, s.count, s.lane, s.now⟩ s.signals.count
      streamed).id = s.lane.id .response .response :=
    (Admission.accept_spec accepted).id
  have new : s.turn? (admitted.turn ⟨s.limits, s.store, s.count, s.lane, s.now⟩ s.signals.count
      streamed).id = none := by
    rw [named]
    refine List.find?_eq_none.2 fun t mem same => ?_
    exact fresh t mem (of_decide_eq_true same)
  refine ⟨_, rfl, rfl, new, ?_, rfl, Admission.store_of_accept accepted⟩
  unfold Server.turn? at new ⊢
  rw [List.find?_append, new, Option.none_or]
  exact List.find?_cons_of_pos (by simp)

theorem course_of_start (reached : s.Reached) (attends : s.Attends all) (fresh : s.FreshId)
    (started : s.start r streamed = .ok (opened, id)) :
    Course opened id (r.store.getD true) := by
  have move : Move s [] opened := .accept fresh started
  obtain ⟨t, -, -, -, found, -, store⟩ := start_spec fresh started
  obtain ⟨all, attends⟩ := (move.passage reached.ids).attends reached.ids attends
  exact store ▸ course (reached.move move) found attends

end Server

namespace Http

open Server (Run Course Goes)

variable {s next : Server} {d : Demand} {reply : Reply} {request : Request} {log : List Response}

/-- Whether a request is one to create a response. -/
def Demand.Creates (d : Demand) : Prop :=
  d.method = .post ∧ ∃ target, Url.ofText .unicode d.target = .ok target ∧
    Route.ofPath? target.path = some .responses

theorem exchange_creates (creates : d.Creates) (s : Server) :
    exchange s d = createResponse s d.body := by
  obtain ⟨post, target, read, route⟩ := creates
  have allowed : Route.responses.allows .post = true := rfl
  simp only [exchange, read, post, route, allowed, Bool.not_true, Bool.false_eq_true, if_false,
    follow, if_true, reduceCtorEq]

/-- A request was refused, and nothing has come of it. -/
structure Rejected (s next : Server) (reply : Reply) : Prop where
  refused : ∃ r, reply = .refused r ∧ (r.status = 400 ∨ r.status = 404)
  store : next.store = s.store
  turns : next.turns = s.turns
  backend : next.backend = s.backend
  asked : next.asked = s.asked

/-- A request was admitted: a turn was added to the server, and run as far as it goes. -/
structure Admitted (s next : Server) (reply : Reply) (request : Request) (t : Turn) : Prop where
  new : s.turn? t.id = none
  flies : t.isInFlight = true
  runs : Goes { s with turns := s.turns ++ [t], lane := s.lane.next } next
  course : Course { s with turns := s.turns ++ [t], lane := s.lane.next } t.id
    (request.store.getD true)
  /-- The events follow at once. -/
  streams : request.stream = true →
    reply = .events t.id ∧ (reply.lines next).1.head? = some "200"
  /-- The finished response follows, once there is one. -/
  waits : request.stream = false → reply = .finished t.id ∧ ∃ u, Goes next u ∧
    (reply.lines next).1 = (u.answer? t.id).elim [] fun r => ["200", r.toJson.text]

theorem rejected_of_error {f : Failure} {streamed : Bool}
    (failed : s.start request streamed = .error f) :
    Rejected s { s with lane := s.lane.next } (.ofFailure f) := by
  obtain refused | ⟨_, -, started⟩ := bind_eq_error.1 failed
  · exact ⟨⟨_, rfl, Admission.status_of_accept_error refused⟩, rfl, rfl, rfl, rfl⟩
  · cases started

theorem Admitted.not_rejected {t : Turn} (h : Admitted s next reply request t) :
    ¬ Rejected s next reply := by
  rintro ⟨⟨r, refused, -⟩, -⟩
  cases stream : request.stream with
  | true => cases (h.streams stream).1.symm.trans refused
  | false => cases (h.waits stream).1.symm.trans refused

theorem admitted_of_start {opened : Server} {id : String} {all : List String} (reached : s.Reached)
    (attends : s.Attends all) (fresh : s.FreshId)
    (started : s.start request request.stream = .ok (opened, id)) :
    ∃ t, Admitted s opened.runAll
      (if request.stream then .events id else .finished id) request t := by
  have course := Server.course_of_start reached attends fresh started
  obtain ⟨t, rfl, rfl, new, -, flies, -⟩ := Server.start_spec fresh started
  refine ⟨t, new, flies, Server.runAll_goes _, course, fun stream => ?_, fun stream => ?_⟩
  · rw [stream]
    exact ⟨rfl, rfl⟩
  · rw [stream]
    exact ⟨rfl, _, Server.await_goes _ t.id, rfl⟩

/-- A request to create a response is refused and leaves no trace, or it is admitted. -/
theorem creates_all_or_nothing {start : Server} (new : start.New) (silent : start.signals = {})
    (run : Run start log s) (fresh : s.FreshId) (creates : d.Creates)
    (within : d.body.utf8ByteSize ≤ maxBodySize) :
    Xor (Rejected s (exchange s d).1 (exchange s d).2)
      (∃ request t, Request.ofText d.body = .ok request ∧
        Admitted s (exchange s d).1 (exchange s d).2 request t) := by
  have reached := run.reached new
  obtain ⟨all, attends⟩ := run.attends (Run.start.reached new) (new.attends silent)
  rw [exchange_creates creates]
  unfold createResponse
  rw [if_neg (Nat.not_lt.2 within)]
  cases read : Request.ofText d.body with
  | error message =>
    refine .inl ⟨⟨⟨_, rfl, .inl rfl⟩, rfl, rfl, rfl, rfl⟩, ?_⟩
    rintro ⟨request, t, other, -⟩
    cases other
  | ok request =>
    cases started : s.start request request.stream with
    | error f =>
      have rejected := rejected_of_error started
      simp only [Server.create, started]
      exact .inl ⟨rejected, fun ⟨_, _, _, admitted⟩ => admitted.not_rejected rejected⟩
    | ok result =>
      obtain ⟨opened, id⟩ := result
      obtain ⟨t, admitted⟩ := admitted_of_start reached attends fresh started
      simp only [Server.create, started]
      exact .inr ⟨⟨request, t, rfl, admitted⟩, admitted.not_rejected⟩

section
open Server (Endless Fair Stays)

/-- A server that keeps two events ready for a reader, with a backend that says hello. -/
def crowded : Server where
  limits := { eventBuffer := 2 }
  count := Context.estimate
  backend := .script { answers := [⟨.forever, .now (.ok
    ⟨[.now (.ok (.text "hello")), .now (.ok (.finished .stop))]⟩)⟩] }

/-- Asks for the events of an answer. -/
def greets : Demand where
  method := .post
  target := "/v1/responses"
  body := "\x7b\"model\":\"small\",\"stream\":true,\"input\":[\x7b\"type\":\"message\"," ++
    "\"role\":\"user\",\"content\":\"hello\"\x7d]\x7d"

theorem greets_admitted : crowded.New ∧ Xor
    (Rejected crowded (exchange crowded greets).1 (exchange crowded greets).2)
    (∃ request t, Request.ofText greets.body = .ok request ∧
      Admitted crowded (exchange crowded greets).1 (exchange crowded greets).2 request t) ∧
    (exchange crowded greets).2 = .events (crowded.lane.id .response .response) := by
  have new : crowded.New := ⟨rfl, rfl⟩
  have fresh : crowded.FreshId := fun t mem => absurd mem List.not_mem_nil
  have creates : greets.Creates := ⟨rfl, _, rfl, by decide +kernel⟩
  exact ⟨new, creates_all_or_nothing new rfl .start fresh creates (by decide +kernel),
    by decide +kernel⟩

/-- A client that stays and does not read keeps its turn from coming to an end. -/
theorem crowded_stalls : ¬ ∀ w : Nat → Server, w 0 = (exchange crowded greets).1 → Endless w →
    Fair w (crowded.lane.id .response .response) →
    (∃ n r, (w n).answer? (crowded.lane.id .response .response) = some r) ∨
      ((∃ n, Stays w (crowded.lane.id .response .response) n Turn.Idle) ∧
        ∀ n, w (n + 1) ≠ (w n).signal (crowded.lane.id .response .response)) := by
  have whole : ((exchange crowded greets).1.turns.map fun t =>
      (t.id, t.clientGone, decide t.Stalled)) =
        [(crowded.lane.id .response .response, false, true)] := by
    decide +kernel
  have silent : (exchange crowded greets).1.signals = {} := by decide +kernel
  generalize crowded.lane.id .response .response = id at whole ⊢
  generalize (exchange crowded greets).1 = s at whole silent ⊢
  obtain ⟨t, only, same⟩ := List.map_eq_singleton_iff.1 whole
  simp only [Prod.mk.injEq, decide_eq_true_eq] at same
  obtain ⟨rfl, present, stalled⟩ := same
  obtain ⟨w, first, endless, fair, still⟩ := Server.exists_stalled only stalled present silent
  intro promised
  obtain ⟨⟨a, event, rest, stage⟩, -⟩ := stalled
  obtain ⟨n, r, finished⟩ | ⟨⟨n, idle⟩, -⟩ := promised w first endless fair
  · rw [Server.answer?, (still n).1, Option.bind_some, Turn.response?, stage] at finished
    cases finished
  · obtain ⟨u, there, -, b, others, waits⟩ := idle n (Nat.le_refl n)
    cases (still n).1.symm.trans there
    cases stage.symm.trans waits

end

end Http

end Responder
