import Responder.Turn.Event

/-!
# Channels and signals

The events of a turn wait in a channel until the client reads them. A channel has room
for a bounded number of events; events are numbered as they enter it.

A signal is the id of the turn that is to stop. All turns listen to all signals; each
knows how many it has seen. Only the latest signals are kept, and a listener that has
fallen further behind misses those that are gone.
-/

namespace Responder

/-- Events on their way to a client, the oldest first. -/
structure Channel where
  capacity : Nat
  queue : List Sequenced := []
  next : Nat := 0
  deriving DecidableEq, Repr

namespace Channel

def hasRoom (c : Channel) : Bool := c.queue.length < c.capacity

def push (c : Channel) (event : Event) : Channel :=
  { c with queue := c.queue ++ [⟨event, c.next⟩], next := c.next + 1 }

/-- The oldest event, and the channel without it. -/
def take? (c : Channel) : Option (Sequenced × Channel) :=
  match c.queue with
  | [] => none
  | first :: rest => some (first, { c with queue := rest })

end Channel

/-- The latest signals, the oldest first, and how many there have been. -/
structure Signals where
  recent : List String := []
  count : Nat := 0
  deriving DecidableEq, Repr

namespace Signals

def capacity : Nat := 256

def send (s : Signals) (id : String) : Signals :=
  let all := s.recent ++ [id]
  ⟨all.drop (all.length - capacity), s.count + 1⟩

/-- The signals that a listener can still see. -/
def unseen (s : Signals) (seen : Nat) : List String :=
  s.recent.drop (seen - (s.count - s.recent.length))

/-- Listens for an id: whether it was signalled, and what has been seen then. -/
def listen (s : Signals) (seen : Nat) (id : String) : Bool × Nat :=
  let unseen := s.unseen seen
  match unseen.findIdx? (· = id) with
  | some index => (true, s.count - unseen.length + index + 1)
  | none => (false, s.count)

end Signals

end Responder
