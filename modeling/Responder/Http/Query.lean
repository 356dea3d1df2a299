import Responder.Json.Token
import Responder.Text

/-!
# Queries

A query is a sequence of parameters, each a name and a value. The listings know three
parameters, which may come once each; any other is passed over.

In a path and in a query, a percent sign and two hexadecimal digits stand for a byte. A percent
sign before anything else stands for itself.
-/

namespace Responder.Text

def hexByte? (high low : Char) : Option UInt8 := do
  let h ← Json.hexDigit? high
  let l ← Json.hexDigit? low
  return (h * 16 + l).toUInt8

def percentDecode : List Char → List UInt8
  | '%' :: high :: low :: rest =>
    match hexByte? high low with
    | some byte => byte :: percentDecode rest
    | none => encodeUtf8 "%" ++ percentDecode (high :: low :: rest)
  | c :: rest => encodeUtf8 c.toString ++ percentDecode rest
  | [] => []

/-- A part of a path, if it stands for text. -/
def ofPathPart? (part : String) : Option String := decodeUtf8? (percentDecode part.toList)

/-- A name or a value of a form: a plus sign stands for a blank. -/
def ofFormPart (part : List Char) : String :=
  decodeLossy (percentDecode (part.map fun c => if c = '+' then ' ' else c))

end Responder.Text

namespace Responder.Http

namespace Query

/-- The parameters of a query; empty pieces are none. -/
def parameters (query : List Char) : List (String × String) :=
  ((Text.pieces '&' query).filter (· ≠ [])).map fun piece =>
    let (name, value) := Text.cut '=' piece
    (Text.ofFormPart name, Text.ofFormPart value)

/-- The value of a parameter that may come once. -/
def single? (name : String) (parameters : List (String × String)) : Option (Option String) :=
  match parameters.filter (·.1 = name) with
  | [] => some none
  | [(_, value)] => some (some value)
  | _ => none

def natural? (digits : List Char) : Option Nat :=
  if digits = [] then none else (digits.mapM Json.digit?).map Json.natOfDigits

/-- An integer of 64 bits; a sign may stand before it. -/
def integer? (text : List Char) : Option Int := do
  let value ← match text with
    | '-' :: digits => (natural? digits).map fun n => -(n : Int)
    | '+' :: digits => (natural? digits).map Int.ofNat
    | digits => (natural? digits).map Int.ofNat
  if -(Json.signLimit : Int) ≤ value ∧ value < Json.signLimit then some value else none

end Query

structure ListQuery where
  limit : Option Int := none
  order : Option String := none
  after : Option String := none
  deriving DecidableEq, Repr

/-- Reads a query. There is none if a known parameter is repeated or the limit is no
integer. -/
def ListQuery.ofQuery? (query : List Char) : Option ListQuery := do
  let parameters := Query.parameters query
  let limit ← match ← Query.single? "limit" parameters with
    | none => some none
    | some text => (Query.integer? text.toList).map some
  return {
    limit, order := ← Query.single? "order" parameters
    after := ← Query.single? "after" parameters }

end Responder.Http
