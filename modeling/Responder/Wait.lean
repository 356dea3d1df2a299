/-!
# Waiting

Something that is waited for arrives after some time, or never does. A wait with a time
limit always comes to an end.
-/

namespace Responder

structure Duration where
  millis : Nat
  deriving DecidableEq, Repr

namespace Duration

def zero : Duration := ⟨0⟩

instance : Add Duration := ⟨fun a b => ⟨a.millis + b.millis⟩⟩

instance : LE Duration := ⟨fun a b => a.millis ≤ b.millis⟩

instance (a b : Duration) : Decidable (a ≤ b) :=
  inferInstanceAs (Decidable (a.millis ≤ b.millis))

instance : Min Duration := ⟨fun a b => if a ≤ b then a else b⟩

def ofSeconds (n : Nat) : Duration := ⟨n * 1000⟩

/-- A fraction of a second in three digits, without zeros at its end. -/
def fractionText (millis : Nat) : String :=
  let digits := [millis / 100, millis / 10 % 10, millis % 10]
  let kept := (digits.reverse.dropWhile (· == 0)).reverse
  if kept = [] then "" else "." ++ String.join (kept.map Nat.repr)

def text (d : Duration) : String :=
  if d.millis = 0 then "0ns"
  else if d.millis < 1000 then d.millis.repr ++ "ms"
  else (d.millis / 1000).repr ++ fractionText (d.millis % 1000) ++ "s"

end Duration

/-- The end of a wait, if it has one. -/
inductive Wait (α : Type) where
  /-- It ends with a value after so long. -/
  | done (after : Duration) (value : α)
  | forever
  deriving DecidableEq, Repr

namespace Wait

/-- A value that need not be waited for. -/
def now {α : Type} (value : α) : Wait α := done .zero value

/-- A wait that begins so much later. -/
def delayed {α : Type} (lag : Duration) : Wait α → Wait α
  | done after value => done (lag + after) value
  | forever => forever

def bind {α β : Type} (w : Wait α) (next : α → Wait β) : Wait β :=
  match w with
  | done after value => (next value).delayed after
  | forever => forever

def map {α β : Type} (f : α → β) : Wait α → Wait β
  | done after value => done after (f value)
  | forever => forever

/-- Waits up to a time limit, and then takes something else. -/
def within {α : Type} (limit : Duration) (otherwise : α) : Wait α → Wait α
  | done after value => if after ≤ limit then done after value else done limit otherwise
  | forever => done limit otherwise

/-- What arrives in the end. -/
def value? {α : Type} : Wait α → Option α
  | done _ value => some value
  | forever => none

end Wait

end Responder
