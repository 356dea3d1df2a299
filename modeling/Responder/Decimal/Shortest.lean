import Responder.Decimal.Binary

/-!
# Shortest decimals

The decimal with the fewest digits among those that read back as a given binary
number, and among these the nearest. The reals that round to `m * 2 ^ e` form an
interval, closed exactly when `m` is even. If a point of a decimal grid lies in it,
so does one of the two grid points next to the number itself, so only these two are
tried, on grids of one, two, three, … digits.
-/

namespace Responder.Decimal

/-- How many decimal digits a natural has; zero has none. -/
def digitCount (n : Nat) : Nat :=
  if n = 0 then 0 else digitCount (n / 10) + 1

/-- The largest `k` with `10 ^ k ≤ num / den`, for positive arguments. -/
def leadingPower (num den : Nat) : Int :=
  if den ≤ num then (digitCount (num / den) : Int) - 1
  else -(digitCount ((den + num - 1) / num - 1) : Int)

/-- A decimal `digits * 10 ^ power`. -/
structure Scaled where
  digits : Nat
  power : Int
  deriving DecidableEq, Repr

namespace Scaled

/-- The same decimal without trailing zeros, given more steps than it has digits. -/
def trim : Nat → Scaled → Scaled
  | 0, d => d
  | steps + 1, d =>
    if d.digits ≠ 0 ∧ d.digits % 10 = 0 then trim steps ⟨d.digits / 10, d.power + 1⟩
    else d

/-- Compares `digits * 10 ^ power` with `num / den`. -/
def compareWith (d : Scaled) (num den : Nat) : Ordering :=
  compare (d.digits * Nat.pow 10 d.power.toNat * den) (num * Nat.pow 10 (-d.power).toNat)

end Scaled

/-- The reals that round to one binary number: all between two quotients over one
denominator, and the two ends too if `closed`. -/
structure RoundingInterval where
  low : Nat
  value : Nat
  high : Nat
  denominator : Nat
  closed : Bool

namespace RoundingInterval

/-- The lower gap is half as wide below a power of two, except at the bottom. -/
def of (f : Format) (b : Binary) : RoundingInterval :=
  let scale := Nat.pow 2 b.exponent.toNat
  let below :=
    if b.significand = Nat.pow 2 (f.precision - 1) ∧ f.minExponent < b.exponent then 1 else 2
  { low := (4 * b.significand - below) * scale
    value := 4 * b.significand * scale
    high := (4 * b.significand + 2) * scale
    denominator := 4 * Nat.pow 2 (-b.exponent).toNat
    closed := b.significand % 2 = 0 }

def contains (i : RoundingInterval) (d : Scaled) : Bool :=
  match d.compareWith i.low i.denominator, d.compareWith i.high i.denominator with
  | .gt, .lt => true
  | .eq, _ => i.closed
  | _, .eq => i.closed
  | _, _ => false

/-- The point of the grid `10 ^ power` nearest to the number among those in the
interval; of two equally near ones the even one. -/
def nearestOn (i : RoundingInterval) (power : Int) : Option Scaled :=
  let num := i.value * Nat.pow 10 (-power).toNat
  let den := i.denominator * Nat.pow 10 power.toNat
  let floor : Scaled := ⟨num / den, power⟩
  let ceiling : Scaled := ⟨num / den + 1, power⟩
  let nearest : Scaled := ⟨roundQuotient num den, power⟩
  match i.contains floor, i.contains ceiling with
  | true, true => some nearest
  | true, false => some floor
  | false, true => some ceiling
  | false, false => none

end RoundingInterval

/-- Seventeen digits tell any two doubles apart, nine any two singles. -/
def maxDigits : Nat := 17

/-- The shortest decimal for the magnitude of a number of the format. -/
def shortest (f : Format) (b : Binary) : Scaled :=
  if b.isZero then ⟨0, 0⟩
  else
    let interval := RoundingInterval.of f b
    let top := leadingPower interval.value interval.denominator
    let found := (List.range maxDigits).findSome? fun (extra : Nat) =>
      interval.nearestOn (top - extra)
    (found.getD ⟨interval.value / interval.denominator, 0⟩).trim (maxDigits + 1)

end Responder.Decimal
