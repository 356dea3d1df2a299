/-!
# Identifiers

An identifier is a prefix that tells what it names and 24 letters or digits. The ids of
one turn come from its `Lane`: each place that may need an id has a slot of its own, so
an id depends on the place only and not on which other ids were needed. Lane and slot
make one number; an affine map modulo the number of codes spreads the numbers, so that
neighbours have no common start.
-/

namespace Responder

/-- What an id names. -/
inductive IdKind where
  | response | message | functionCall | call
  deriving DecidableEq, Repr

namespace IdKind

def text : IdKind → String
  | response => "resp_"
  | message => "msg_"
  | functionCall => "fc_"
  | call => "call_"

end IdKind

namespace Id

/-- The length of a code, the part of an id after its prefix. -/
def codeLength : Nat := 24

def letters : List Char :=
  "abcdefghijklmnopqrstuvwxyzABCDEFGHIJKLMNOPQRSTUVWXYZ0123456789".toList

def base : Nat := 62

def letter (digit : Nat) : Char := letters.getD digit 'a'

/-- The `length` lowest digits of a number, the lowest first. -/
def code : Nat → Nat → List Char
  | 0, _ => []
  | length + 1, n => letter (n % base) :: code length (n / base)

/-- Coprime to `base`, so that multiplication permutes the codes. -/
def multiplier : Nat := 2718281828459045235360287471352662497757247

def isAlphanumeric (c : Char) : Bool :=
  ('a' ≤ c && c ≤ 'z') || ('A' ≤ c && c ≤ 'Z') || ('0' ≤ c && c ≤ '9')

def isResponseId (text : String) : Bool :=
  let start := IdKind.response.text.toList
  let chars := text.toList
  chars.take start.length == start && (chars.drop start.length).length == codeLength &&
    (chars.drop start.length).all isAlphanumeric

end Id

/-- A place in a turn that may need an id. -/
inductive Slot where
  | response
  | input (index : Nat)
  | output (index : Nat)
  | call (index : Nat)
  deriving DecidableEq, Repr

namespace Slot

def number : Slot → Nat
  | response => 0
  | input index => 3 * index + 1
  | output index => 3 * index + 2
  | call index => 3 * index + 3

theorem number_injective {a b : Slot} (h : a.number = b.number) : a = b := by
  cases a <;> cases b <;> simp only [number] at h <;> grind

end Slot

/-- The ids of one turn. -/
structure Lane where
  seed : Nat := 0
  number : Nat := 0
  deriving DecidableEq, Repr

namespace Lane

/-- Slots of one lane are below this. -/
def width : Nat := Nat.pow Id.base 12

def id (lane : Lane) (kind : IdKind) (slot : Slot) : String :=
  let n := lane.number * width + slot.number
  kind.text ++ String.ofList (Id.code Id.codeLength
    ((n * Id.multiplier + lane.seed) % Nat.pow Id.base Id.codeLength))

def next (lane : Lane) : Lane := { lane with number := lane.number + 1 }

end Lane

end Responder
