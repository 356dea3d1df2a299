import Responder.Proofs.Server.Delivery
import Responder.Proofs.Store.Log

/-!
# Observers of a turn

What comes of a turn is seen by its client, by who looks into the store or reads a page of it, and
by who cancels the turn. Main statement: all of them see the same response, whatever happens in
between, and a turn that is to be stored is in flight or stored as long as nothing drops it.
-/

namespace Responder

/-- What is on a page was in the list. -/
theorem PageRequest.page_subset {α : Type} {request : PageRequest} {id : α → String}
    {entries : List α} {page : Page α} (made : request.page id entries = .ok page) :
    page.entries ⊆ entries := by
  obtain ⟨rest, cut, made⟩ := bind_eq_ok.1 made
  cases made
  intro entry mem
  have left : entry ∈ rest := List.mem_of_mem_take mem
  have there : entry ∈ request.order.arrange entries := by
    unfold Page.after at cut
    split at cut
    · cases cut
      exact left
    · split at cut
      · cases cut
        exact List.mem_of_mem_drop left
      · cases cut
  cases order : request.order with
  | ascending =>
    rw [order] at there
    exact there
  | descending =>
    rw [order] at there
    exact List.mem_reverse.1 there

namespace Server

variable {s : Server} {id : String} {r : Response}

theorem get_eq_lost : s.get id = .error (.notFound id) ↔ id ∉ s.store.entries.map Response.id := by
  rw [← Store.get_eq_lost]
  unfold Server.get Store.get
  cases s.store.find? id <;> simp

end Server

namespace Scene

variable {s next : Scene} {w : Nat → Scene} {t : Turn} {log log' : List Response} {id : String}
  {r r' : Response} {outcome : Except Failure Response} {n m : Nat}

/-- A call to cancel a turn, while other things happen: it looks whether the turn is in flight,
sends the signal then, and waits for the response, or until it has waited for too long. It comes
with all responses that are stored up to its answer. -/
inductive Cancels (s : Scene) (id : String) :
    List Response → Except Failure Response → Scene → Prop
  | misses {log : List Response} {next : Scene} :
      (s.server.turn? id).filter Turn.isInFlight = none → Run s log next →
      Cancels s id log (.error (next.server.cancelRefusal id)) next
  | finds {t : Turn} {log log' : List Response} {u next : Scene} {r : Response} :
      (s.server.turn? id).filter Turn.isInFlight = some t → Run s log u →
      Run (u.signal id) log' next → next.server.answer? id = some r →
      Cancels s id (log ++ log') (.ok r) next
  | tires {t : Turn} {log log' : List Response} {u next : Scene} :
      (s.server.turn? id).filter Turn.isInFlight = some t → Run s log u →
      Run (u.signal id) log' next → next.server.answer? id = none →
      Cancels s id (log ++ log')
        (.error (.store ("timed out waiting for response '" ++ id ++ "' to cancel"))) next

/-- The call that a server does at once is one of these. -/
theorem cancels_of_cancel {server : Server} (ids : (server.turns.map Turn.id).Nodup)
    (id : String) : ∃ log, Cancels ⟨server, fun _ => none⟩ id log (server.cancel id).2
      ⟨(server.cancel id).1, fun _ => none⟩ := by
  unfold Server.cancel
  split
  · next absent => exact ⟨[], .misses absent .start⟩
  · next t found =>
    obtain ⟨log, goes⟩ := Server.runAll_goes (server.signal id)
    have signalled := Server.Run.ids ids (.move .start (.signal id))
    have run := run_of_run signalled goes
    dsimp only
    split
    · next r answered => exact ⟨_, .finds found .start run answered⟩
    · next unanswered => exact ⟨_, .tires found .start run unanswered⟩

/-- Somebody is shown a response as that of a turn. -/
inductive Shows (s : Scene) (id : String) (r : Response) : Prop
  | answered : s.server.answer? id = some r → Shows s id r
  /-- The last event of a stream is read. -/
  | told {t after : Turn} {event : Sequenced} : s.server.turn? id = some t →
      t.receive? = some (event, after) → event.event.isTerminal = true →
      event.event.response? = some r → Shows s id r
  | got : s.server.get id = .ok r → Shows s id r
  | listed {request : PageRequest} {entries : List Response} {page : Page Response} :
      s.server.store.list = .ok entries → request.page Response.id entries = .ok page →
      r ∈ page.entries → r.id = id → Shows s id r
  | cancelled {before : Scene} {log : List Response} :
      Cancels before id log (.ok r) s → Shows s id r

/-- So many responses were stored after one that there is no room for it. -/
def Evicted (s : Scene) (log : List Response) (r : Response) : Prop :=
  ∃ older newer most, log = older ++ r :: newer ∧ s.server.store.capacity = some most ∧
    most ≤ newer.length

theorem Sound.decides_of_mem (h : Sound s log) (mem : r ∈ s.server.store.entries)
    (named : r.id = id) : s.Decides id r :=
  named ▸ h.decided r (h.mem_log mem)

/-- Nothing is shown that is not decided. -/
theorem Sound.decides_of_shows (h : Sound s log) (shows' : s.Shows id r) : s.Decides id r := by
  cases shows' with
  | answered answered => exact .inl answered
  | told found taken last same =>
    obtain ⟨r', finished, ends⟩ :=
      (h.proper _ (Server.mem_of_turn? found)).announces.receive taken last
    rw [ends, Event.response?_terminal] at same
    cases same
    left
    rw [Server.answer?, found]
    exact finished
  | got got =>
    obtain ⟨mem, named⟩ := Server.get_eq_ok.1 got
    exact h.decides_of_mem mem named
  | listed list made mem named =>
    unfold Store.list at list
    split at list
    · cases list
    · cases list
      exact h.decides_of_mem (PageRequest.page_subset made mem) named
  | cancelled cancels =>
    cases cancels with
    | finds _ _ _ answered => exact .inl answered

/-- What was stored is found, unless the store was closed or it was evicted. -/
theorem Sound.stored_or_lost (h : Sound s log) (mem : r ∈ log) :
    s.server.get r.id = .ok r ∨ (s.server.get r.id = .error (.notFound r.id) ∧
      (s.server.store.closed = true ∨ s.Evicted log r)) := by
  by_cases there : r ∈ s.server.store.entries
  · exact .inl (Server.get_eq_ok.2 ⟨there, rfl⟩)
  right
  constructor
  · refine Server.get_eq_lost.2 fun found => ?_
    obtain ⟨other, mem', same⟩ := List.mem_map.1 found
    have decided := h.decides_of_mem mem' same
    rw [h.unique decided (h.decided r mem)] at mem'
    exact there mem'
  · cases closed : s.server.store.closed with
    | true => exact .inl rfl
    | false =>
      right
      obtain ⟨older, newer, rfl⟩ := List.append_of_mem mem
      rw [h.recent, closed, if_neg Bool.false_ne_true] at there
      unfold Store.latest at there
      cases capacity : s.server.store.capacity with
      | none =>
        rw [capacity] at there
        exact absurd mem there
      | some most =>
        refine ⟨older, newer, most, rfl, capacity, ?_⟩
        by_contra near
        rw [capacity] at there
        have early : (older ++ r :: newer).length - most ≤ older.length := by
          rw [List.length_append, List.length_cons]
          omega
        refine there ?_
        dsimp only
        rw [List.drop_append_of_le_length early]
        exact List.mem_append_right _ List.mem_cons_self

theorem Sound.store_of_decides (h : Sound s log) (found : s.server.turn? id = some t)
    (d : s.Decides id r) : r.store = t.stage.response.store := by
  obtain ⟨u, there, asked, -⟩ := h.decides_spec d
  cases found.symm.trans there
  have same := congrArg Response.store asked
  exact same

/-- All that is shown of a turn is the same, and is its finished response. -/
theorem Sound.shows_once (h : Sound s log) (run : Run s log' next) (before : s.Shows id r)
    (after : next.Shows id r') : r' = r ∧ r.id = id ∧ r.status.isTerminal = true := by
  have decided := h.decides_of_shows before
  obtain ⟨t, found, asked, terminal⟩ := h.decides_spec decided
  have same := (h.run run).unique ((h.run run).decides_of_shows after) (h.decides_run run decided)
  exact ⟨same, h.id_of_asked found asked, terminal⟩

/-- A response that is to be stored is there from its turn's end on. -/
theorem Sound.got_or_evicted (h : Sound s log) (found : s.server.turn? id = some t)
    (keeps : t.stage.response.store = true) (opened : s.server.store.closed = false)
    (d : s.Decides id r) : s.server.get id = .ok r ∨
      (s.server.get id = .error (.notFound id) ∧ s.Evicted log r) := by
  have stores : r.store = true := (h.store_of_decides found d).trans keeps
  obtain ⟨u, there, asked, -⟩ := h.decides_spec d
  obtain rfl : r.id = id := h.id_of_asked there asked
  refine (h.stored_or_lost (h.kept r.id r d stores opened)).imp_right fun ⟨lost, why⟩ => ⟨lost, ?_⟩
  obtain closed | evicted := why
  · cases opened.symm.trans closed
  · exact evicted

theorem answer?_of_finished (found : s.server.turn? id = some t) (ended : t.isInFlight = false) :
    ∃ r, s.server.answer? id = some r := by
  cases finished : t.response? with
  | none => cases ended.symm.trans (Turn.isInFlight_iff.2 finished)
  | some r => exact ⟨r, by rw [Server.answer?, found]; exact finished⟩

theorem flying_of_turn? (found : s.server.turn? id = some t) (flies : t.isInFlight = true) :
    (s.server.turn? id).filter Turn.isInFlight = some t := by
  rw [found]
  exact Option.filter_some_pos flies

theorem Cancels.of_flying (cancels : Cancels s id log' outcome next)
    (found : s.server.turn? id = some t) (flies : t.isInFlight = true) :
    (∃ r, outcome = .ok r ∧ next.server.answer? id = some r) ∨
      (outcome = .error (.store ("timed out waiting for response '" ++ id ++ "' to cancel")) ∧
        next.server.answer? id = none) := by
  cases cancels with
  | misses absent => cases (flying_of_turn? found flies).symm.trans absent
  | finds _ _ _ answered => exact .inl ⟨_, rfl, answered⟩
  | tires _ _ _ unanswered => exact .inr ⟨rfl, unanswered⟩

/-- A call that comes too late is told what the turn has come to. -/
theorem Sound.refuses (h : Sound s log) (cancels : Cancels s id log' outcome next)
    (found : s.server.turn? id = some t) (ended : t.isInFlight = false)
    (keeps : t.stage.response.store = true) (opened : next.server.store.closed = false) :
    ∃ r, s.server.answer? id = some r ∧
      (outcome = .error (.validation none ("response '" ++ id ++ "' is already " ++
          r.status.text ++ " and cannot be cancelled")) ∨
        (outcome = .error (.notFound id) ∧ next.Evicted (log ++ log') r)) := by
  have missed : (s.server.turn? id).filter Turn.isInFlight = none := by
    rw [found]
    exact Option.filter_some_neg ended
  cases cancels with
  | finds there => cases missed.symm.trans there
  | tires there => cases missed.symm.trans there
  | misses _ run =>
    obtain ⟨r, answered⟩ := answer?_of_finished found ended
    obtain ⟨u, there, leads⟩ := h.turn?_run run found
    have asked := congrArg Response.store leads.continues.asked
    have keeps' : u.stage.response.store = true := Eq.trans asked keeps
    refine ⟨r, answered, ?_⟩
    unfold Server.cancelRefusal
    obtain got | ⟨lost, evicted⟩ := (h.run run).got_or_evicted there keeps' opened
      (.inl (h.answer?_run run answered))
    · rw [got]
      exact .inl rfl
    · rw [lost]
      exact .inr ⟨rfl, evicted⟩

section
variable (h : Sound s log) (run : Run s log' (w 0)) (endless : Endless w)
include h run endless

theorem Endless.lasts (answered : (w n).server.answer? id = some r) (later : n ≤ m) :
    (w m).server.answer? id = some r := by
  obtain ⟨_, before⟩ := endless.run (Nat.zero_le n)
  obtain ⟨_, after⟩ := endless.run later
  exact ((h.run run).run before).answer?_run after answered

theorem Endless.comes (fair : Fair w id) (found : s.server.turn? id = some t) :
    (∃ n r, ∀ m, n ≤ m → (w m).server.answer? id = some r) ∨
      Server.Forsaken (fun n => (w n).server) id 0 := by
  obtain ⟨u, there, -⟩ := h.turn?_run run found
  refine (answers_or_forsaken (h.run run) endless fair there).imp_left ?_
  rintro ⟨n, r, answered⟩
  exact ⟨n, r, fun m later => endless.lasts h run answered later⟩

/-- A call that finds the turn in flight is answered, if its signal is delivered. -/
theorem Endless.delivers (found : s.server.turn? id = some t) (flies : t.isInFlight = true)
    (signalled : w 1 = (w 0).signal id) (hears : Server.Hears (fun n => (w n).server) id)
    (settles : Settles w id) : ∃ n r, ∀ m, n ≤ m → ∃ log, Cancels s id log (.ok r) (w m) := by
  obtain ⟨u, there, -⟩ := h.turn?_run run found
  have first := h.run run
  obtain ⟨all, attends⟩ := first.attends
  have sent : (w 1).server = (w 0).server.signal id := by rw [signalled, server_signal]
  obtain ⟨k, v, -, there', stopped⟩ := Server.stops_of_signal (endless.flow first) hears there
    attends (Nat.le_refl 0) sent
  obtain ⟨n, r, answered⟩ := endless.answers first settles there' stopped
  refine ⟨n + 1, r, fun m later => ?_⟩
  obtain ⟨log'', after⟩ := endless.run (show 1 ≤ m by omega)
  rw [signalled] at after
  have answered' := endless.lasts h run answered (show n ≤ m by omega)
  exact ⟨_, .finds (flying_of_turn? found flies) run after answered'⟩

end

/-- All who observe a turn see the same of it. -/
structure Agreed (s : Scene) (log : List Response) : Prop where
  /-- What is shown of a turn now and later is one finished response. -/
  one : ∀ {log' next id r r'}, Run s log' next → s.Shows id r → next.Shows id r' →
    r' = r ∧ r.id = id ∧ r.status.isTerminal = true
  /-- There comes one, unless the turn waits for ever and nobody cancels it. -/
  comes : ∀ {log' w id t}, s.server.turn? id = some t → Run s log' (w 0) → Endless w →
    Fair w id → (∃ n r, ∀ m, n ≤ m → (w m).server.answer? id = some r) ∨
      Server.Forsaken (fun n => (w n).server) id 0
  unchanged : ∀ {log' next id r}, Run s log' next → s.server.get id = .ok r →
    next.server.get id = .ok r ∨ (next.server.get id = .error (.notFound id) ∧
      (next.server.store.closed = true ∨ next.Evicted (log ++ log') r))
  /-- A turn that is to be stored is in flight or stored. -/
  present : ∀ {id t}, s.server.turn? id = some t → t.stage.response.store = true →
    s.server.store.closed = false → t.isInFlight = true ∨
      ∃ r, s.server.answer? id = some r ∧ (s.server.get id = .ok r ∨ s.Evicted log r)
  /-- A call that finds the turn in flight learns of its response, or has waited for too long. -/
  cancels : ∀ {log' outcome next id t}, s.server.turn? id = some t → t.isInFlight = true →
    Cancels s id log' outcome next →
      (∃ r, outcome = .ok r ∧ next.server.answer? id = some r) ∨
      (outcome = .error (.store ("timed out waiting for response '" ++ id ++ "' to cancel")) ∧
        next.server.answer? id = none)
  /-- What the server does at once with a call is one of all the ways in which it can go. -/
  called : (∀ own, s.ending own = none) → ∀ id, ∃ log,
    Cancels s id log (s.server.cancel id).2 { s with server := (s.server.cancel id).1 }
  /-- It is answered with the response, if its signal is delivered. -/
  delivers : ∀ {log' w id t}, s.server.turn? id = some t → t.isInFlight = true →
    Run s log' (w 0) → w 1 = (w 0).signal id → Endless w →
    Server.Hears (fun n => (w n).server) id → Settles w id →
    ∃ n r, ∀ m, n ≤ m → ∃ log, Cancels s id log (.ok r) (w m)
  /-- Later calls are told what the turn has come to. -/
  refuses : ∀ {log' outcome next id t}, s.server.turn? id = some t → t.isInFlight = false →
    t.stage.response.store = true → Cancels s id log' outcome next →
    next.server.store.closed = false → ∃ r, s.server.answer? id = some r ∧
      (outcome = .error (.validation none ("response '" ++ id ++ "' is already " ++
          r.status.text ++ " and cannot be cancelled")) ∨
        (outcome = .error (.notFound id) ∧ next.Evicted (log ++ log') r))

theorem Sound.agreed (h : Sound s log) : Agreed s log where
  one run before after := h.shows_once run before after
  comes found run endless fair := endless.comes h run fair found
  unchanged run got := by
    obtain ⟨mem, rfl⟩ := Server.get_eq_ok.1 got
    exact (h.run run).stored_or_lost (List.mem_append_left _ (h.mem_log mem))
  present {id t} found keeps opened := by
    cases flies : t.isInFlight with
    | true => exact .inl rfl
    | false =>
      obtain ⟨r, answered⟩ := answer?_of_finished found flies
      have got := h.got_or_evicted found keeps opened (.inl answered)
      exact .inr ⟨r, answered, got.imp_right And.right⟩
  cancels found flies cancels := cancels.of_flying found flies
  called idle id := by
    obtain ⟨server, ending⟩ := s
    obtain rfl : ending = fun _ => none := funext idle
    exact cancels_of_cancel h.ids id
  delivers found flies run signalled endless hears settles :=
    endless.delivers h run found flies signalled hears settles
  refuses found ended keeps cancels opened := h.refuses cancels found ended keeps opened

/-- All who observe a turn agree, whatever happens between the steps by which it is finished. -/
theorem observers_agree {start : Server} (new : start.New) (silent : start.signals = {})
    (run : Run ⟨start, fun _ => none⟩ log s) : Agreed s log :=
  (run.sound new silent).agreed

section
open Server (forgetful)
open Admission (greeting)

/-- A server that was asked for the events of an answer that never comes. -/
def asked : Server := (forgetful.create greeting true).1

/-- The answer is cancelled: there is a run in which the call is told of a response. -/
theorem asked_observed : forgetful.New ∧ forgetful.signals = {} ∧ ∃ log,
    Run ⟨forgetful, fun _ => none⟩ log ⟨asked, fun _ => none⟩ ∧
    Agreed ⟨asked, fun _ => none⟩ log ∧ ∃ w n r, Endless w ∧ ∀ m, n ≤ m → ∃ log,
      Cancels ⟨asked, fun _ => none⟩ (forgetful.lane.id .response .response) log (.ok r) (w m) := by
  have new : forgetful.New := ⟨rfl, rfl⟩
  have fresh : forgetful.FreshId := fun t mem => absurd mem List.not_mem_nil
  obtain ⟨log, run⟩ := Server.create_goes fresh greeting true
  have steps := run_of_run new.sound.ids run
  have agreed := observers_agree new rfl steps
  have waits :
      (asked.turn? (forgetful.lane.id .response .response)).map Turn.waits = some true := by
    decide
  obtain ⟨t, found, waits⟩ := Option.map_eq_some_iff.1 waits
  obtain ⟨a, actions, stage⟩ := Turn.works_of_waits waits
  have flies : t.isInFlight = true := by rw [Turn.isInFlight, stage]
  obtain ⟨w, first, signalled, endless, hears, settles⟩ :=
    (steps.sound new rfl).exists_delivery found waits
  have begins : Run ⟨asked, fun _ => none⟩ [] (w 0) := first ▸ .start
  obtain ⟨n, r, answered⟩ :=
    agreed.delivers found flies begins (signalled.trans (first ▸ rfl)) endless hears settles
  exact ⟨new, rfl, log, steps, agreed, w, n, r, endless, answered⟩

end

end Scene

end Responder
