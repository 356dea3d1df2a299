import Responder.Decimal.Shortest

/-!
# JSON numbers

A number is an integer of at most 64 bits, signed or unsigned, or a double. A literal
without fraction and exponent is an integer when it fits and is not `-0`; any other is
a double, read in two roundings: the leading digits that fit 64 bits as one natural,
then one multiplication or division by a power of ten.
-/

namespace Responder.Json

open Decimal

inductive Number where
  | int (value : Int)
  | float (value : Binary)
  deriving DecidableEq, Repr

/-- A number as it is written; a fraction has at least one digit if there is a point. -/
structure Literal where
  negative : Bool := false
  whole : List Nat := []
  fraction : List Nat := []
  /-- Whether the exponent is negative, and its digits. -/
  exponent : Option (Bool × List Nat) := none
  deriving DecidableEq, Repr

/-- Naturals of 64 bits are below this. -/
def wordLimit : Nat := Nat.pow 2 64

/-- Signed integers of 64 bits lie from minus this to below it. -/
def signLimit : Nat := Nat.pow 2 63

/-- Reads on from `start` while the value fits 64 bits: the value, and how many
digits were left. -/
def absorb (start : Nat) : List Nat → Nat × Nat
  | [] => (start, 0)
  | digit :: rest =>
    if start * 10 + digit < wordLimit then absorb (start * 10 + digit) rest
    else (start, rest.length + 1)

def natOfDigits (digits : List Nat) : Nat := digits.foldl (fun n d => n * 10 + d) 0

/-- The largest power of ten below the range of doubles. -/
def maxPowerOfTen : Nat := 308

def powerOfTen (k : Nat) : Option Binary := Format.double.round false (Nat.pow 10 k) 1

/-- Multiplies by a power of ten, in steps if the power is out of range. -/
def timesPowerOfTen (b : Binary) (power : Int) : Option Binary :=
  if power.natAbs ≤ maxPowerOfTen then do
    let scale ← powerOfTen power.natAbs
    if 0 ≤ power then Format.double.scaleUp b scale else Format.double.scaleDown b scale
  else if b.isZero then some b
  else if 0 < power then none
  else do
    let scale ← powerOfTen maxPowerOfTen
    let scaled ← Format.double.scaleDown b scale
    timesPowerOfTen scaled (power + maxPowerOfTen)
termination_by (-power).toNat
decreasing_by simp only [maxPowerOfTen] at *; omega

/-- Exponents are counted up to this. -/
def maxExponent : Nat := Nat.pow 2 31 - 1

namespace Literal

/-- The value of a literal, or none when it is out of the range of doubles. -/
def number? (l : Literal) : Option Number :=
  let (leading, unread) := absorb 0 l.whole
  if l.fraction = [] ∧ l.exponent = none ∧ unread = 0 then
    if l.negative ∧ (leading = 0 ∨ signLimit < leading) then
      (Format.double.round true leading 1).map .float
    else some (.int (if l.negative then -leading else leading))
  else
    let (significand, dropped) := absorb leading l.fraction
    let power : Int := (unread : Int) - (l.fraction.length - dropped : Nat)
    let (down, shift) := match l.exponent with
      | none => (false, 0)
      | some (down, digits) => (down, natOfDigits digits)
    if maxExponent < shift then
      if significand = 0 ∨ down then some (.float (.zero l.negative)) else none
    else do
      let b ← Format.double.round l.negative significand 1
      let scaled ← timesPowerOfTen b (if down then power - shift else power + shift)
      return .float scaled

end Literal

/-- The decimal digits of a natural, the most significant first. -/
def digitsOfNat (n : Nat) : List Nat :=
  if n < 10 then [n] else digitsOfNat (n / 10) ++ [n % 10]

def digitChar (digit : Nat) : Char := Char.ofNat ('0'.toNat + digit)

def natText (n : Nat) : List Char := (digitsOfNat n).map digitChar

def intText (n : Int) : List Char :=
  if n < 0 then '-' :: natText n.natAbs else natText n.natAbs

/-- Where positional notation of a number begins and ends, as powers of ten. -/
structure Layout where
  firstPower : Int
  endPower : Int

/-- Doubles from `1e-5` to below `1e16` are written positionally. -/
def Layout.double : Layout := ⟨-5, 16⟩

/-- A decimal in positional or exponent notation; there is a point or an exponent. -/
def scaledText (form : Layout) (d : Scaled) : List Char :=
  let digits := natText d.digits
  let point : Int := digits.length + d.power
  if form.firstPower < point ∧ point ≤ form.endPower then
    if 0 ≤ d.power then digits ++ List.replicate d.power.toNat '0' ++ ['.', '0']
    else if 0 < point then digits.take point.toNat ++ '.' :: digits.drop point.toNat
    else '0' :: '.' :: List.replicate (-point).toNat '0' ++ digits
  else
    let power := point - 1
    let sign := if power < 0 then '-' else '+'
    let mantissa := match digits with
      | first :: second :: rest => first :: '.' :: second :: rest
      | short => short
    mantissa ++ 'e' :: sign :: natText power.natAbs

def binaryText (form : Layout) (f : Format) (b : Binary) : List Char :=
  let magnitude :=
    if b.isZero then ['0', '.', '0'] else scaledText form (shortest f b)
  if b.negative then '-' :: magnitude else magnitude

namespace Number

def text : Number → List Char
  | .int n => intText n
  | .float b => binaryText .double .double b

/-- Equality of values: an integer differs from every double, and the two zeros of
the doubles are equal. -/
def same : Number → Number → Bool
  | .int a, .int b => a == b
  | .float a, .float b => a.same b
  | _, _ => false

end Number

end Responder.Json
