import Responder.Proofs.Store.Entries

/-!
# A store is the end of a log

A log remembers every response that was accepted, and only its end counts. Main statement:
whatever a new store is asked, it answers as a log does that is asked the same, although the
store has only a queue of ids and a map.
-/

namespace Responder.Store

/-- What a store can be asked. -/
inductive Call where
  | put (r : Response)
  | get (id : String)
  | list
  | size
  | close

inductive Reply where
  | done
  | found (r : Response)
  | listed (responses : List Response)
  | counted (n : Nat)
  | refused (fault : StoreFault)

/-- The reply to a call, and the store that answers the next one. -/
def answer (s : Store) : Call → Reply × Store
  | .put r =>
    match s.put r with
    | .ok next => (.done, next)
    | .error fault => (.refused fault, s)
  | .get id =>
    match s.get id with
    | .ok r => (.found r, s)
    | .error fault => (.refused fault, s)
  | .list =>
    match s.list with
    | .ok responses => (.listed responses, s)
    | .error fault => (.refused fault, s)
  | .size => (.counted s.size, s)
  | .close => (.done, s.close)

/-- The responses that were accepted, the oldest first. -/
structure Log where
  accepted : List Response := []
  closed : Bool := false

namespace Log

/-- The end of a log, as much as there is room for. -/
def kept (capacity : Option Nat) (log : Log) : List Response :=
  if log.closed then [] else latest capacity log.accepted

def put (capacity : Option Nat) (log : Log) (r : Response) : Except StoreFault Log :=
  if !r.status.isTerminal then .error (.notTerminal r.id)
  else if log.closed then .error .closed
  else if r.id ∈ (log.kept capacity).map Response.id then .error (.conflict r.id)
  else .ok { log with accepted := log.accepted ++ [r] }

def answer (capacity : Option Nat) (log : Log) : Call → Reply × Log
  | .put r =>
    match log.put capacity r with
    | .ok next => (.done, next)
    | .error fault => (.refused fault, log)
  | .get id =>
    match (log.kept capacity).find? (·.id = id) with
    | some r => (.found r, log)
    | none => (.refused (.notFound id), log)
  | .list => (if log.closed then .refused .closed else .listed (log.kept capacity), log)
  | .size => (.counted (log.kept capacity).length, log)
  | .close => (.done, { log with closed := true })

theorem closed_answer (capacity : Option Nat) (log : Log) (call : Call) :
    (log.answer capacity call).2.closed = true ↔ log.closed = true ∨ call = .close := by
  cases call with
  | put r =>
    simp only [answer, put]
    split
    · next accepted =>
      split at accepted
      · cases accepted
      split at accepted
      · cases accepted
      split at accepted
      · cases accepted
      · cases accepted
        simp
    · simp
  | get id =>
    simp only [answer]
    split <;> simp
  | list => simp [answer]
  | size => simp [answer]
  | close => simp [answer]

end Log

section converse

variable {σ τ : Type}

/-- The replies to one call after the other, and what answers the next one. -/
def converse (answer : σ → Call → Reply × σ) (s : σ) : List Call → List Reply × σ
  | [] => ([], s)
  | call :: later =>
    let first := answer s call
    let rest := converse answer first.2 later
    (first.1 :: rest.1, rest.2)

/-- What two answer alike at every call they answer alike in every conversation. -/
theorem converse_alike {f : σ → Call → Reply × σ} {g : τ → Call → Reply × τ} {alike : σ → τ → Prop}
    (step : ∀ s t, alike s t → ∀ call,
      (f s call).1 = (g t call).1 ∧ alike (f s call).2 (g t call).2)
    {s : σ} {t : τ} (start : alike s t) (calls : List Call) :
    (converse f s calls).1 = (converse g t calls).1 ∧
      alike (converse f s calls).2 (converse g t calls).2 := by
  induction calls generalizing s t with
  | nil => exact ⟨rfl, start⟩
  | cons call later ih =>
    obtain ⟨same, next⟩ := step s t start call
    obtain ⟨replies, last⟩ := ih next
    constructor
    · change (f s call).1 :: _ = (g t call).1 :: _
      rw [same, replies]
    · exact last

theorem closed_converse (capacity : Option Nat) (log : Log) (calls : List Call) :
    (converse (Log.answer capacity) log calls).2.closed = true ↔
      log.closed = true ∨ .close ∈ calls := by
  induction calls generalizing log with
  | nil => simp [converse]
  | cons call later ih =>
    have last : (converse (Log.answer capacity) log (call :: later)).2 =
        (converse (Log.answer capacity) (log.answer capacity call).2 later).2 := rfl
    rw [last, ih, Log.closed_answer, List.mem_cons, or_assoc, @eq_comm _ Call.close]

end converse

/-- A store holds the end of a log. -/
structure Mirrors (capacity : Option Nat) (s : Store) (log : Log) : Prop where
  bound : s.capacity = capacity
  closed : s.closed = log.closed
  entries : s.entries = log.kept capacity

variable {capacity : Option Nat} {s next : Store} {log : Log} {r : Response}

/-- Both refuse a response for the same fault, or both accept it. -/
theorem Mirrors.put (h : Mirrors capacity s log) (r : Response) :
    (∃ fault, s.put r = .error fault ∧ log.put capacity r = .error fault) ∨
    ∃ next log', s.put r = .ok next ∧ log.put capacity r = .ok log' ∧
      Mirrors capacity next log' := by
  unfold Log.put
  rw [← h.closed, ← h.entries]
  obtain ⟨pending, put⟩ | ⟨terminal, closed, put⟩ | ⟨terminal, opened, stored, put⟩ |
    ⟨terminal, opened, new, next, put, same, closed, entries⟩ := s.put_cases r
  · rw [pending]
    exact .inl ⟨_, put, rfl⟩
  · rw [terminal, closed]
    exact .inl ⟨_, put, rfl⟩
  · rw [terminal, opened, if_neg (by decide), if_neg (by decide), if_pos stored]
    exact .inl ⟨_, put, rfl⟩
  · rw [terminal, opened, if_neg (by decide), if_neg (by decide), if_neg new]
    have logged : log.closed = false := h.closed.symm.trans opened
    have older : s.entries = latest capacity log.accepted := by
      rw [h.entries, Log.kept, logged]
      rfl
    refine .inr ⟨next, _, put, rfl, same.trans h.bound, closed, ?_⟩
    rw [entries, older, h.bound, latest_append]
    rfl

/-- A store that holds the end of a log answers each call as the log does. -/
theorem Mirrors.answer (h : Mirrors capacity s log) (call : Call) :
    (s.answer call).1 = (log.answer capacity call).1 ∧
      Mirrors capacity (s.answer call).2 (log.answer capacity call).2 := by
  cases call with
  | put r =>
    obtain ⟨fault, put, logged⟩ | ⟨next, log', put, logged, mirrors⟩ := h.put r
    · simp only [Store.answer, Log.answer, put, logged, true_and]
      exact h
    · simp only [Store.answer, Log.answer, put, logged, true_and]
      exact mirrors
  | get id =>
    simp only [Store.answer, Log.answer, get, find?_eq_find?_entries, h.entries]
    cases (log.kept capacity).find? (·.id = id) with
    | none => exact ⟨rfl, h⟩
    | some r => exact ⟨rfl, h⟩
  | list =>
    simp only [Store.answer, Log.answer, list, h.closed, h.entries]
    cases log.closed with
    | true => exact ⟨rfl, h⟩
    | false => exact ⟨rfl, h⟩
  | size =>
    have length : s.size = (log.kept capacity).length := by rw [size_eq, h.entries]
    exact ⟨congrArg Reply.counted length, h⟩
  | close => exact ⟨rfl, h.bound, rfl, s.entries_close⟩

/-- What a store keeps, and what becomes of it when a response is put. -/
structure Keeps (capacity : Option Nat) (s : Store) (kept : List Response) : Prop where
  once : (kept.map Response.id).Nodup
  size : s.size = kept.length
  bounded : ∀ most ∈ capacity, s.size ≤ most
  list : s.list = if s.closed then .error .closed else .ok kept
  found : ∀ id r, s.get id = .ok r ↔ r ∈ kept ∧ r.id = id
  lost : ∀ id, s.get id = .error (.notFound id) ↔ id ∉ kept.map Response.id
  /-- A response that is accepted comes last, and no more than the first one goes. -/
  accepts : ∀ r next, s.put r = .ok next →
    ∃ gone, gone.length ≤ 1 ∧ kept ++ [r] = gone ++ next.entries
  /-- A response that is refused leaves all later replies as they are. -/
  refuses : ∀ r fault, s.put r = .error fault → ∀ later,
    converse answer s (.put r :: later) =
      (.refused fault :: (converse answer s later).1, (converse answer s later).2)
  closed : s.closed = true → kept = []

theorem get_eq_ok (s : Store) (id : String) (r : Response) :
    s.get id = .ok r ↔ r ∈ s.entries ∧ r.id = id := by
  unfold get
  constructor
  · intro got
    split at got
    · next found =>
      cases got
      exact ⟨mem_of_find? found, id_of_find? found⟩
    · cases got
  · rintro ⟨mem, rfl⟩
    rw [mem_entries.1 mem]

theorem get_eq_lost (s : Store) (id : String) :
    s.get id = .error (.notFound id) ↔ id ∉ s.entries.map Response.id := by
  rw [← find?_eq_none]
  unfold get
  cases s.find? id with
  | none => simp
  | some r => simp

theorem Mirrors.keeps (h : Mirrors capacity s log) : Keeps capacity s (log.kept capacity) := by
  have bounded : ∀ most ∈ capacity, s.size ≤ most := by
    intro most bound
    rw [size_eq, h.entries, Log.kept]
    split
    · exact Nat.zero_le most
    · exact length_latest_le bound log.accepted
  rw [← h.entries]
  refine ⟨s.nodup_entries, s.size_eq, bounded, rfl, s.get_eq_ok, s.get_eq_lost, ?_, ?_, ?_⟩
  · intro r next put
    rw [entries_put put, h.bound]
    cases bound : capacity with
    | none => exact ⟨[], Nat.zero_le 1, rfl⟩
    | some most =>
      have room : s.entries.length ≤ most := s.size_eq ▸ bounded most bound
      refine ⟨(s.entries ++ [r]).take ((s.entries ++ [r]).length - most), ?_, ?_⟩
      · rw [List.length_take, List.length_append, List.length_singleton]
        omega
      · exact (List.take_append_drop ..).symm
  · intro r fault put later
    simp only [converse, Store.answer, put]
  · intro closed
    rw [h.entries, Log.kept, ← h.closed, if_pos closed]

/-- Whatever a new store is asked, it replies as a log does that is asked the same, and keeps
the end of that log. -/
theorem answers_as_log (capacity : Option Nat) (calls : List Call) :
    let s := converse answer { capacity } calls
    let log := converse (Log.answer capacity) {} calls
    s.1 = log.1 ∧ Keeps capacity s.2 (log.2.kept capacity) ∧
      (s.2.closed = true ↔ .close ∈ calls) := by
  have start : Mirrors capacity { capacity } {} := by
    refine ⟨rfl, rfl, ?_⟩
    cases capacity with
    | none => rfl
    | some most => exact List.drop_nil.symm
  obtain ⟨replies, mirrors⟩ := converse_alike (fun _ _ => Mirrors.answer) start calls
  refine ⟨replies, mirrors.keeps, ?_⟩
  rw [mirrors.closed, closed_converse]
  simp

end Responder.Store
