import Responder.Json.Fault
import Responder.Json.Number

/-!
# JSON tokens

A text is cut into tokens by a machine that reads one character at a time. What the
machine is inside of is a `Pending`; a number ends at the first character that cannot
continue it, and that character is then read as the start of what follows.
-/

namespace Responder.Json

/-- A piece of a JSON text. The text of a string is missing if it has a lone surrogate. -/
inductive Token where
  | openArray | closeArray | openObject | closeObject | comma | colon
  | null
  | bool (value : Bool)
  | number (literal : Literal)
  | string (text : Option String)
  deriving DecidableEq, Repr

/-- A character of a string, or one half of a pair of escapes. -/
inductive TextUnit where
  | scalar (c : Char)
  | half (value : Nat)
  deriving DecidableEq, Repr

namespace TextUnit

def isHigh (value : Nat) : Bool := 0xD800 ≤ value && value < 0xDC00

def isLow (value : Nat) : Bool := 0xDC00 ≤ value && value < 0xE000

def ofEscape (value : Nat) : TextUnit :=
  if isHigh value || isLow value then .half value else .scalar (Char.ofNat value)

def join (high low : Nat) : Char :=
  Char.ofNat (0x10000 + (high - 0xD800) * 0x400 + (low - 0xDC00))

/-- The characters of the units, or none if a half stands alone. -/
def chars? : List TextUnit → Option (List Char)
  | [] => some []
  | .scalar c :: rest => (chars? rest).map (c :: ·)
  | .half high :: .half low :: rest =>
    if isHigh high && isLow low then (chars? rest).map (join high low :: ·) else none
  | .half _ :: _ => none

end TextUnit

inductive NumberPart where
  | sign | zero | whole | point | fraction | mark | markSign | exponent
  deriving DecidableEq, Repr

/-- Where in an escape a string is. -/
inductive Escape where
  | none
  | backslash
  | unicode (digits : Nat) (value : Nat)
  deriving DecidableEq, Repr

/-- What the scanner is inside of. -/
inductive Pending where
  | blank
  | word (left : List Char) (token : Token)
  | number (part : NumberPart) (literal : Literal)
  /-- Inside a string, with the units so far, the newest first. -/
  | string (units : List TextUnit) (escape : Escape)
  deriving DecidableEq, Repr

def isBlank (c : Char) : Bool := c == ' ' || c == '\t' || c == '\n' || c == '\r'

def digit? (c : Char) : Option Nat :=
  if '0' ≤ c ∧ c ≤ '9' then some (c.toNat - '0'.toNat) else none

def hexDigit? (c : Char) : Option Nat :=
  if '0' ≤ c ∧ c ≤ '9' then some (c.toNat - '0'.toNat)
  else if 'a' ≤ c ∧ c ≤ 'f' then some (c.toNat - 'a'.toNat + 10)
  else if 'A' ≤ c ∧ c ≤ 'F' then some (c.toNat - 'A'.toNat + 10)
  else none

def shortEscape? : Char → Option Char
  | '"' => some '"'
  | '\\' => some '\\'
  | '/' => some '/'
  | 'b' => some '\x08'
  | 'f' => some '\x0c'
  | 'n' => some '\n'
  | 'r' => some '\r'
  | 't' => some '\t'
  | _ => none

namespace NumberPart

def isComplete : NumberPart → Bool
  | zero | whole | fraction | exponent => true
  | sign | point | mark | markSign => false

def addExponentDigit (l : Literal) (digit : Nat) : Literal :=
  match l.exponent with
  | some (down, digits) => { l with exponent := some (down, digits ++ [digit]) }
  | none => l

/-- Reads a digit: the next part and the longer literal. -/
def takeDigit (l : Literal) (digit : Nat) : NumberPart → Option (NumberPart × Literal)
  | sign => some (if digit = 0 then zero else whole, { l with whole := [digit] })
  | zero => none
  | whole => some (whole, { l with whole := l.whole ++ [digit] })
  | point | fraction => some (fraction, { l with fraction := l.fraction ++ [digit] })
  | mark | markSign | exponent => some (exponent, addExponentDigit l digit)

/-- Reads another character that continues the literal. -/
def takeMark (l : Literal) (c : Char) : NumberPart → Option (NumberPart × Literal)
  | zero | whole =>
    if c = '.' then some (point, l)
    else if c = 'e' ∨ c = 'E' then some (mark, { l with exponent := some (false, []) })
    else none
  | fraction =>
    if c = 'e' ∨ c = 'E' then some (mark, { l with exponent := some (false, []) })
    else none
  | mark =>
    if c = '+' then some (markSign, l)
    else if c = '-' then some (markSign, { l with exponent := some (true, []) })
    else none
  | sign | point | markSign | exponent => none

/-- Reads a character that continues the literal, if it can. -/
def take (part : NumberPart) (l : Literal) (c : Char) : Option (NumberPart × Literal) :=
  match digit? c with
  | some digit => takeDigit l digit part
  | none => takeMark l c part

end NumberPart

namespace Pending

def start (c : Char) : Except Fault (List Token × Pending) :=
  if isBlank c then .ok ([], blank)
  else match c with
    | '[' => .ok ([.openArray], blank)
    | ']' => .ok ([.closeArray], blank)
    | '{' => .ok ([.openObject], blank)
    | '}' => .ok ([.closeObject], blank)
    | ',' => .ok ([.comma], blank)
    | ':' => .ok ([.colon], blank)
    | '"' => .ok ([], .string [] .none)
    | 'n' => .ok ([], .word ['u', 'l', 'l'] .null)
    | 't' => .ok ([], .word ['r', 'u', 'e'] (.bool true))
    | 'f' => .ok ([], .word ['a', 'l', 's', 'e'] (.bool false))
    | '-' => .ok ([], .number .sign { negative := true })
    | _ =>
      match NumberPart.sign.take {} c with
      | some (part, literal) => .ok ([], .number part literal)
      | none => .error .unexpectedCharacter

def inString (units : List TextUnit) (c : Char) : Escape → Except Fault (List Token × Pending)
  | .none =>
    if c = '"' then .ok ([.string ((TextUnit.chars? units.reverse).map String.ofList)], blank)
    else if c = '\\' then .ok ([], .string units .backslash)
    else if c.toNat < 0x20 then .error .controlCharacter
    else .ok ([], .string (.scalar c :: units) .none)
  | .backslash =>
    if c = 'u' then .ok ([], .string units (.unicode 0 0))
    else match shortEscape? c with
      | some plain => .ok ([], .string (.scalar plain :: units) .none)
      | none => .error .badEscape
  | .unicode digits value =>
    match hexDigit? c with
    | some digit =>
      let value := value * 16 + digit
      if digits = 3 then .ok ([], .string (.ofEscape value :: units) .none)
      else .ok ([], .string units (.unicode (digits + 1) value))
    | none => .error .badEscape

/-- Reads a character: the tokens it completes, and what comes next. -/
def step (c : Char) : Pending → Except Fault (List Token × Pending)
  | blank => start c
  | word [] _ => .error .unexpectedCharacter
  | word (expected :: left) token =>
    if c = expected then
      if left = [] then .ok ([token], blank) else .ok ([], word left token)
    else .error .unexpectedCharacter
  | number part literal =>
    match part.take literal c with
    | some (part, literal) => .ok ([], number part literal)
    | none =>
      if part.isComplete && (digit? c).isNone then do
        let (tokens, next) ← start c
        return (.number literal :: tokens, next)
      else .error .badNumber
  | string units escape => inString units c escape

/-- The tokens that the end of the text completes. -/
def finish : Pending → Except Fault (List Token)
  | blank => .ok []
  | number part literal =>
    if part.isComplete then .ok [.number literal] else .error .unexpectedEnd
  | word .. | string .. => .error .unexpectedEnd

end Pending

/-- A token and how many characters were read when it was complete. -/
structure Placed where
  token : Token
  offset : Nat
  deriving DecidableEq, Repr

structure Scanner where
  pending : Pending := .blank
  tokens : List Placed := []
  offset : Nat := 0

namespace Scanner

def emit (s : Scanner) (tokens : List Token) : List Placed :=
  tokens.foldl (fun placed token => ⟨token, s.offset + 1⟩ :: placed) s.tokens

def step (s : Scanner) (c : Char) : Except TextFault Scanner :=
  match s.pending.step c with
  | .ok (tokens, next) => .ok ⟨next, s.emit tokens, s.offset + 1⟩
  | .error fault => .error ⟨fault, s.offset + 1⟩

def finish (s : Scanner) : Except TextFault (List Placed) :=
  match s.pending.finish with
  | .ok tokens => .ok (s.emit tokens).reverse
  | .error fault => .error ⟨fault, s.offset⟩

end Scanner

def tokens (text : List Char) : Except TextFault (List Placed) := do
  (← text.foldlM Scanner.step {}).finish

end Responder.Json
