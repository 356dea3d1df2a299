import Responder.Json.Token

/-!
# Socket addresses

An address and a service: `192.0.2.1:80`, or `[2001:db8::1]:80` with brackets around the
longer addresses, which may carry the number of a scope. The text of a longer address
has `::` for its longest run of zero groups, and the last two groups of a mapped short
address in dots.
-/

namespace Responder

inductive SocketAddress where
  | v4 (octets : List Nat) (service : Nat)
  | v6 (groups : List Nat) (scope : Nat) (service : Nat)
  deriving DecidableEq, Repr

namespace SocketAddress

/-- A reader takes the start of a text and gives what follows. -/
abbrev Reader (α : Type) := List Char → Option (α × List Char)

def digitOf (radix : Nat) (c : Char) : Option Nat := (Json.hexDigit? c).filter (· < radix)

/-- A number below a limit. Leading zeros may be refused. -/
def number (radix limit : Nat) (maxDigits : Option Nat) (leadingZeros : Bool) : Reader Nat :=
  fun text =>
    let run := text.takeWhile fun c => (digitOf radix c).isSome
    let digits := run.filterMap (digitOf radix)
    let value := digits.foldl (fun n d => n * radix + d) 0
    if digits = [] ∨ limit ≤ value ∨ maxDigits.any (· < digits.length) ∨
        (!leadingZeros ∧ digits.head? = some 0 ∧ 1 < digits.length) then none
    else some (value, text.drop run.length)

def char (c : Char) : Reader Unit
  | first :: rest => if first = c then some ((), rest) else none
  | [] => none

def octet : Reader Nat := number 10 256 (some 3) false

def short : Reader (List Nat) := fun text => do
  let (a, text) ← octet text
  let (_, text) ← char '.' text
  let (b, text) ← octet text
  let (_, text) ← char '.' text
  let (c, text) ← octet text
  let (_, text) ← char '.' text
  let (d, text) ← octet text
  return ([a, b, c, d], text)

def service : Reader Nat := fun text => do
  let (_, text) ← char ':' text
  number 10 (Nat.pow 2 16) none true text

/-- Reads after a colon, except at the start. -/
def separated {α : Type} (atStart : Bool) (reader : Reader α) : Reader α := fun text =>
  if atStart then reader text else (char ':' text).bind fun (_, rest) => reader rest

/-- Up to `limit` groups, and whether they end in a short address. -/
def groups (atStart : Bool) : Nat → List Char → List Nat × Bool × List Char
  | 0, text => ([], false, text)
  | limit + 1, text =>
    let embedded := if limit = 0 then none else separated atStart short text
    match embedded with
    | some ([a, b, c, d], rest) => ([a * 256 + b, c * 256 + d], true, rest)
    | _ =>
      match separated atStart (number 16 (Nat.pow 2 16) (some 4) true) text with
      | some (group, rest) =>
        let (more, short, rest) := groups false limit rest
        (group :: more, short, rest)
      | none => ([], false, text)

def groupCount : Nat := 8

/-- The groups of a longer address; `::` stands for at least one group of zero. -/
def long : Reader (List Nat) := fun text => do
  let (head, short, text) := groups true groupCount text
  if head.length = groupCount then return (head, text)
  else if short then none
  else
    let (_, text) ← char ':' text
    let (_, text) ← char ':' text
    let (tail, _, text) := groups true (groupCount - (head.length + 1)) text
    return (head ++ List.replicate (groupCount - head.length - tail.length) 0 ++ tail, text)

def scope : Reader Nat := fun text =>
  let read := (char '%' text).bind fun (_, rest) => number 10 (Nat.pow 2 32) none true rest
  some (read.getD (0, text))

def readShort : Reader SocketAddress := fun text => do
  let (octets, text) ← short text
  let (service, text) ← service text
  return (.v4 octets service, text)

def readLong : Reader SocketAddress := fun text => do
  let (_, text) ← char '[' text
  let (groups, text) ← long text
  let (scope, text) ← scope text
  let (_, text) ← char ']' text
  let (service, text) ← service text
  return (.v6 groups scope service, text)

def ofText? (text : List Char) : Option SocketAddress :=
  match readShort text <|> readLong text with
  | some (address, []) => some address
  | _ => none

/-- The start and the length of the first longest run of zeros. -/
def longestZeros (groups : List Nat) : Nat × Nat :=
  let runFrom (i : Nat) := ((groups.drop i).takeWhile (· == 0)).length
  (List.range groups.length).foldl
    (fun best i => if best.2 < runFrom i then (i, runFrom i) else best) (0, 0)

def hexText (n : Nat) : String := String.ofList (Nat.toDigits 16 n)

def dotted (octets : List Nat) : String := ".".intercalate (octets.map Nat.repr)

def colons (groups : List Nat) : String := ":".intercalate (groups.map hexText)

def groupsText (groups : List Nat) : String :=
  match groups with
  | [0, 0, 0, 0, 0, 0xffff, high, low] =>
    "::ffff:" ++ dotted [high / 256, high % 256, low / 256, low % 256]
  | _ =>
    let (start, length) := longestZeros groups
    if 1 < length then
      colons (groups.take start) ++ "::" ++ colons (groups.drop (start + length))
    else colons groups

def text : SocketAddress → String
  | v4 octets service => dotted octets ++ ":" ++ service.repr
  | v6 groups scope service =>
    let scopeText := if scope = 0 then "" else "%" ++ scope.repr
    "[" ++ groupsText groups ++ scopeText ++ "]:" ++ service.repr

end SocketAddress

end Responder
