import Responder.Server.Basic

/-!
# The clock of a server

Time passes only while a client waits for an answer, and only when no turn can go on
without it. Then it passes up to the next time at which some turn goes on, and all turns
run on from there.
-/

namespace Responder.Server

/-- The next time at which a turn goes on. -/
def nextTime? (s : Server) : Option Duration := (s.turns.filterMap Turn.resumes?).min?

def passTo (s : Server) (time : Duration) : Server := { s with clock := time }.runAll

/-- A bound on how often turns can still go on as time passes. -/
def budget (s : Server) : Nat := s.turns.foldr (fun t n => t.budget + n) 0

/-- Lets time pass up to a time; turns go on up to so many times before it. -/
def passWithin (s : Server) (time : Duration) : Nat → Server
  | 0 => s.passTo time
  | times + 1 =>
    match s.nextTime?.filter (· ≤ time) with
    | some next => (s.passTo next).passWithin time times
    | none => s.passTo time

def pass (s : Server) (span : Duration) : Server := s.passWithin (s.clock + span) s.budget

/-- Reads the events of a turn while time passes up to so many times. -/
def awaitFor (s : Server) (id : String) : Nat → List Sequenced × Server
  | 0 => ([], s)
  | times + 1 =>
    if s.isOver id then ([], s)
    else match s.nextTime? with
      | none => ([], s)
      | some next =>
        let (first, s) := (s.passTo next).receiveAll id
        let (rest, s) := s.awaitFor id times
        (first ++ rest, s)

/-- Waits for the end of a turn: all its events that were not read. -/
def await (s : Server) (id : String) : List Sequenced × Server :=
  let (first, s) := s.receiveAll id
  let (rest, s) := s.awaitFor id s.budget
  (first ++ rest, s)

end Responder.Server
