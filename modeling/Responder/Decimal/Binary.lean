/-!
# Binary floating point numbers

A finite binary number is a sign, a significand and a power of two. `Format.round`
takes a quotient of naturals to the nearest number of a format, a tie going to the
even significand; every operation rounds its exact result once.
-/

namespace Responder.Decimal

/-- The nearest natural to `num / den`; a tie goes to the even one. -/
def roundQuotient (num den : Nat) : Nat :=
  let quotient := num / den
  let rest := num % den
  if 2 * rest < den then quotient
  else if 2 * rest = den then quotient + quotient % 2
  else quotient + 1

/-- The largest `e` with `2 ^ e ≤ num / den`, for positive arguments. -/
def leadingExponent (num den : Nat) : Int :=
  let guess : Int := (num.log2 : Int) - den.log2
  if den * Nat.pow 2 guess.toNat ≤ num * Nat.pow 2 (-guess).toNat then guess else guess - 1

/-- A finite binary number: `significand * 2 ^ exponent`, negated if `negative`. -/
structure Binary where
  negative : Bool
  significand : Nat
  exponent : Int
  deriving DecidableEq, Repr

namespace Binary

def zero (negative : Bool) : Binary := ⟨negative, 0, 0⟩

def isZero (b : Binary) : Bool := b.significand == 0

/-- Numeric equality: the two zeros are equal. -/
def same (a b : Binary) : Bool := (a.isZero && b.isZero) || a == b

/-- The magnitude is `numerator / denominator`. -/
def numerator (b : Binary) : Nat := b.significand * Nat.pow 2 b.exponent.toNat

def denominator (b : Binary) : Nat := Nat.pow 2 (-b.exponent).toNat

end Binary

structure Format where
  precision : Nat
  minExponent : Int
  maxExponent : Int
  deriving DecidableEq, Repr

namespace Format

def double : Format := ⟨53, -1074, 971⟩

def single : Format := ⟨24, -149, 104⟩

/-- The number of the format nearest to `num / den`, or none above its range. -/
def round (f : Format) (negative : Bool) (num den : Nat) : Option Binary :=
  if num = 0 then some (.zero negative)
  else
    let exponent := max f.minExponent (leadingExponent num den - (f.precision - 1))
    let rounded :=
      roundQuotient (num * Nat.pow 2 (-exponent).toNat) (den * Nat.pow 2 exponent.toNat)
    let carried := rounded = Nat.pow 2 f.precision
    let significand := if carried then rounded / 2 else rounded
    let exponent := if carried then exponent + 1 else exponent
    if f.maxExponent < exponent then none
    else if significand = 0 then some (.zero negative)
    else some ⟨negative, significand, exponent⟩

def ofInt (f : Format) (n : Int) : Option Binary :=
  f.round (n < 0) n.natAbs 1

def ofBinary (f : Format) (b : Binary) : Option Binary :=
  f.round b.negative b.numerator b.denominator

/-- The product of two magnitudes, with the sign of the first. -/
def scaleUp (f : Format) (a b : Binary) : Option Binary :=
  f.round a.negative (a.numerator * b.numerator) (a.denominator * b.denominator)

/-- The quotient of two magnitudes, with the sign of the first. -/
def scaleDown (f : Format) (a b : Binary) : Option Binary :=
  f.round a.negative (a.numerator * b.denominator) (a.denominator * b.numerator)

end Format

end Responder.Decimal
