import Responder.Backend.Any
import Responder.Page
import Responder.Server.Admission
import Responder.Turn.Basic

/-!
# The server

A server keeps finished responses in its store and runs turns. Each turn is moved on its
own: `advance` does one step of one turn, `hear` lets it see the signals. What a turn
needs from outside is done here: its backend is asked, and a finished response is stored
before the turn is taken from those in flight. A turn that has begun is never dropped before
its end: that the work on it breaks off, and its client is told so, is left out.
-/

namespace Responder

/-- The turn that an admitted request starts; it has seen so many signals. -/
def Admission.Admitted.turn (admitted : Admission.Admitted) (s : Admission.Setting) (seen : Nat)
    (streamed : Bool) : Turn :=
  let response := admitted.response
  { id := response.id, lane := s.lane, request := admitted.request
    registry := admitted.registry, seen
    client := if streamed then .reading { capacity := max 1 s.limits.eventBuffer } else .waiting
    stage := .working { response } (if streamed then Turn.opening response else [.ask]) }

/-- A server and all that happens in it. -/
structure Server where
  limits : Limits
  count : Context.Counter
  backend : Backend
  store : Store := {}
  turns : List Turn := []
  signals : Signals := {}
  /-- The lane of the next admission. -/
  lane : Lane := {}
  now : Int := 0
  /-- How long the server has been running. -/
  clock : Duration := .zero
  /-- All requests that reached the backend. -/
  asked : List ChatRequest := []

namespace Server

def turn? (s : Server) (id : String) : Option Turn := s.turns.find? (·.id = id)

def modifyTurn (s : Server) (id : String) (change : Turn → Turn) : Server :=
  { s with turns := s.turns.map fun t => if t.id = id then change t else t }

/-- Stores a finished response, unless it is not to be stored or the store refuses. -/
def keep (s : Server) (response : Response) : Server :=
  if response.store then
    match s.store.put response with
    | .ok store => { s with store }
    | .error _ => s
  else s

def askFor (s : Server) (t : Turn) (a : Accumulator) : Server :=
  let (backend, answer) := s.backend.complete t.lane t.request
  { s with backend, asked := s.asked ++ [t.request] }.modifyTurn t.id
    (·.await s.clock a (answer.map .answer))

def askForStream (s : Server) (t : Turn) (a : Accumulator) : Server :=
  let (backend, opening) := s.backend.stream t.lane t.request
  { s with backend, asked := s.asked ++ [t.request] }.modifyTurn t.id
    (·.await s.clock a (opening.map .opening))

def finish (s : Server) (t : Turn) : Server :=
  let finished := t.finish s.now
  let s := match finished.response? with
    | some response => s.keep response
    | none => s
  s.modifyTurn t.id fun _ => finished

/-- One step of a turn, if it need not wait. -/
def advance (s : Server) (t : Turn) : Option Server :=
  match t.step s.clock with
  | some next => some (s.modifyTurn t.id fun _ => next)
  | none =>
    match t.stage with
    | .working a (.ask :: _) => some (s.askFor t a)
    | .working a (.askStream :: _) => some (s.askForStream t a)
    | .settling .. => some (s.finish t)
    | _ => none

/-- Lets a turn that can be interrupted see the signals; its own interrupts it. -/
def hear (s : Server) (t : Turn) : Server :=
  if t.waits then
    let (signalled, seen) := s.signals.listen t.seen t.id
    let heard := { t with seen }
    s.modifyTurn t.id fun _ => if signalled then heard.interrupt else heard
  else s

/-- Up to so many steps of a turn. -/
def runFor (s : Server) (id : String) : Nat → Server
  | 0 => s
  | steps + 1 =>
    match (s.turn? id).bind s.advance with
    | some next => next.runFor id steps
    | none => s

def budgetOf (s : Server) (id : String) : Nat := ((s.turn? id).map Turn.budget).getD 0

/-- Runs a turn until it waits or has ended. How much there is to do is known once the
backend was asked, hence twice. -/
def run (s : Server) (id : String) : Server :=
  let s := match s.turn? id with
    | some t => s.hear t
    | none => s
  let s := s.runFor id (s.budgetOf id)
  s.runFor id (s.budgetOf id)

def runAll (s : Server) : Server := (s.turns.map (·.id)).foldl run s

def start (s : Server) (r : Request) (streamed : Bool) : Except Failure (Server × String) := do
  let setting := ⟨s.limits, s.store, s.count, s.lane, s.now⟩
  let admitted ← Admission.accept setting r
  let turn := admitted.turn setting s.signals.count streamed
  return ({ s with turns := s.turns ++ [turn], lane := s.lane.next }, turn.id)

/-- Starts a turn and runs it as far as it goes: its id, or why it was not admitted. -/
def create (s : Server) (r : Request) (streamed : Bool) : Server × Except Failure String :=
  match s.start r streamed with
  | .ok (s, id) => (s.runAll, .ok id)
  | .error failure => ({ s with lane := s.lane.next }, .error failure)

def get (s : Server) (id : String) : Except Failure Response :=
  match s.store.find? id with
  | some response => .ok response
  | none => .error (.notFound id)

/-- Why a turn that is not in flight cannot be cancelled. -/
def cancelRefusal (s : Server) (id : String) : Failure :=
  match s.get id with
  | .ok response => .validation none ("response '" ++ id ++ "' is already " ++
      response.status.text ++ " and cannot be cancelled")
  | .error failure => failure

def signal (s : Server) (id : String) : Server := { s with signals := s.signals.send id }

/-- Signals a turn in flight to stop, and waits for its finished response. -/
def cancel (s : Server) (id : String) : Server × Except Failure Response :=
  match (s.turn? id).filter Turn.isInFlight with
  | none => (s, .error (s.cancelRefusal id))
  | some _ =>
    let s := (s.signal id).runAll
    match (s.turn? id).bind Turn.response? with
    | some response => (s, .ok response)
    | none =>
      (s, .error (.store ("timed out waiting for response '" ++ id ++ "' to cancel")))

/-- The client of a turn goes away. -/
def abandon (s : Server) (id : String) : Server :=
  (s.modifyTurn id fun t => { t with clientGone := true }).runAll

/-- Reads the next event of a turn and lets the turn run on. -/
def receive (s : Server) (id : String) : Option (Sequenced × Server) := do
  let t ← s.turn? id
  let (event, t) ← t.receive?
  return (event, (s.modifyTurn id fun _ => t).runAll)

/-- Reads up to so many events of a turn. -/
def receiveUpTo (s : Server) (id : String) : Nat → List Sequenced × Server
  | 0 => ([], s)
  | count + 1 =>
    match s.receive id with
    | none => ([], s)
    | some (event, s) =>
      let (events, s) := s.receiveUpTo id count
      (event :: events, s)

/-- A bound on the events of a turn that were not read. -/
def unreadBound (s : Server) (id : String) : Nat :=
  ((s.turn? id).map fun t =>
    t.budget + ((t.channel?.map (·.queue.length)).getD 0)).getD 0

/-- Reads all events of a turn that come without waiting; the bound is taken twice, as
in `run`. -/
def receiveAll (s : Server) (id : String) : List Sequenced × Server :=
  let (first, s) := s.receiveUpTo id (s.unreadBound id)
  let (rest, s) := s.receiveUpTo id (s.unreadBound id)
  (first ++ rest, s)

/-- Whether all events of a turn were read and no more will come. -/
def isOver (s : Server) (id : String) : Bool := ((s.turn? id).map Turn.isOver).getD false

end Server

end Responder
