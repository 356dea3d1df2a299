/-!
# Status of a response

A response starts in progress and moves once, to one of three terminal statuses.
-/

namespace Responder

inductive Status where
  | inProgress | completed | failed | incomplete
  deriving DecidableEq, Repr

namespace Status

def text : Status → String
  | inProgress => "in_progress"
  | completed => "completed"
  | failed => "failed"
  | incomplete => "incomplete"

def all : List Status := [inProgress, completed, failed, incomplete]

def ofText? (text : String) : Option Status := all.find? (·.text = text)

def isTerminal (s : Status) : Bool := s != inProgress

/-- Only what is in progress may move, and only to a terminal status. -/
def allows (s next : Status) : Bool := !s.isTerminal && next.isTerminal

end Status

inductive ItemStatus where
  | inProgress | completed | incomplete
  deriving DecidableEq, Repr

namespace ItemStatus

def text : ItemStatus → String
  | inProgress => "in_progress"
  | completed => "completed"
  | incomplete => "incomplete"

end ItemStatus

end Responder
