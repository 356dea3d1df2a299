import Responder.Response

/-!
# The store

The store keeps finished responses, each id once. It holds them by their ids, and beside
them a queue of these ids in the order in which they came; a bounded store drops the oldest
to make room. Nothing in it is ever changed.
-/

namespace Responder

inductive StoreFault where
  | notFound (id : String)
  | conflict (id : String)
  | notTerminal (id : String)
  | closed
  deriving DecidableEq, Repr

namespace StoreFault

def message : StoreFault → String
  | notFound id => "response '" ++ id ++ "' not found"
  | conflict id => "response '" ++ id ++ "' is already stored"
  | notTerminal id => "response '" ++ id ++ "' is still in progress and cannot be stored"
  | closed => "conversation store is closed"

end StoreFault

/-- A queue has the ids of all responses that are held, each once, and nothing else. -/
structure Indexed (queue : List String) (held : List (String × Response)) : Prop where
  once : queue.Nodup
  keys : (held.map (·.1)).Perm queue
  named : ∀ entry ∈ held, entry.2.id = entry.1

namespace Indexed

variable {queue : List String} {held : List (String × Response)}

theorem nil : Indexed [] [] :=
  ⟨List.nodup_nil, .nil, fun _ mem => absurd mem List.not_mem_nil⟩

/-- An id that is new is put at the end of the queue. -/
theorem push {r : Response} (h : Indexed queue held) (new : held.lookup r.id = none) :
    Indexed (queue ++ [r.id]) ((r.id, r) :: held) := by
  have absent : r.id ∉ queue := by
    intro mem
    obtain ⟨entry, there, same⟩ := List.mem_map.1 (h.keys.mem_iff.2 mem)
    have differs := List.lookup_eq_none_iff.1 new entry there
    simp [same] at differs
  refine ⟨?_, ?_, ?_⟩
  · rw [List.nodup_append]
    refine ⟨h.once, by simp, ?_⟩
    rintro id mem other last rfl
    exact absent (List.mem_singleton.1 last ▸ mem)
  · exact (h.keys.cons r.id).trans (List.perm_append_singleton r.id queue).symm
  · exact List.forall_mem_cons.2 ⟨rfl, h.named⟩

/-- The id at the head of the queue is dropped. -/
theorem pop {oldest : String} (h : Indexed (oldest :: queue) held) :
    Indexed queue (held.filter (·.1 ≠ oldest)) := by
  obtain ⟨absent, once⟩ := List.nodup_cons.1 h.once
  refine ⟨once, ?_, fun entry mem => h.named entry (List.mem_filter.1 mem).1⟩
  have left := h.keys.filter (fun id => decide (id ≠ oldest))
  have others : queue.filter (fun id => decide (id ≠ oldest)) = queue := by
    rw [List.filter_eq_self]
    intro id mem
    exact decide_eq_true fun same => absent (same ▸ mem)
  rw [List.filter_map, List.filter_cons_of_neg (by simp), others] at left
  exact left

end Indexed

/-- Finished responses by their ids, and the ids with the oldest first. -/
structure Store where
  /-- How many responses are kept, all if there is no bound. -/
  capacity : Option Nat := none
  queue : List String := []
  held : List (String × Response) := []
  closed : Bool := false
  indexed : Indexed queue held := by exact .nil
  deriving DecidableEq, Repr

namespace Store

/-- A bound of zero stands for no bound. -/
def ofMaxEntries (maxEntries : Nat) : Store :=
  { capacity := if maxEntries = 0 then none else some maxEntries }

def size (s : Store) : Nat := s.held.length

def find? (s : Store) (id : String) : Option Response := s.held.lookup id

def get (s : Store) (id : String) : Except StoreFault Response :=
  match s.find? id with
  | some response => .ok response
  | none => .error (.notFound id)

/-- The responses that are held, the oldest first. -/
def entries (s : Store) : List Response := s.queue.filterMap s.find?

def list (s : Store) : Except StoreFault (List Response) :=
  if s.closed then .error .closed else .ok s.entries

/-- Drops what is at the head of a queue until no more than so many responses are held. -/
def shed (most : Nat) :
    List String → List (String × Response) → List String × List (String × Response)
  | [], held => ([], held)
  | oldest :: queue, held =>
    if most < held.length then shed most queue (held.filter (·.1 ≠ oldest))
    else (oldest :: queue, held)

theorem indexed_shed {most : Nat} {queue : List String} {held : List (String × Response)}
    (h : Indexed queue held) :
    Indexed (shed most queue held).1 (shed most queue held).2 := by
  induction queue generalizing held with
  | nil => exact h
  | cons oldest queue ih =>
    unfold shed
    split
    · exact ih h.pop
    · exact h

/-- Drops the oldest responses until the rest is within the bound. -/
def evict (s : Store) : Store :=
  match s.capacity with
  | none => s
  | some most =>
    let left := shed most s.queue s.held
    { s with queue := left.1, held := left.2, indexed := indexed_shed s.indexed }

/-- Adds a response whose id is new. -/
def add (s : Store) (response : Response) (new : s.find? response.id = none) : Store :=
  { s with
    queue := s.queue ++ [response.id], held := (response.id, response) :: s.held
    indexed := s.indexed.push new }

/-- Adds a finished response that is not stored yet. -/
def put (s : Store) (response : Response) : Except StoreFault Store :=
  if !response.status.isTerminal then .error (.notTerminal response.id)
  else if s.closed then .error .closed
  else match h : s.find? response.id with
    | some _ => .error (.conflict response.id)
    | none => .ok (s.add response h).evict

/-- Drops all responses; from now on nothing is accepted. -/
def close (s : Store) : Store := { s with queue := [], held := [], closed := true, indexed := .nil }

end Store

end Responder
