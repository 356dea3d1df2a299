/-!
# Texts

White space and what stands between it, texts cut at a separator, and bytes as text.
-/

namespace Responder.Text

/-! ## White space -/

/-- The property `White_Space`. -/
def isWhite (c : Char) : Bool :=
  let n := c.toNat
  (0x09 ≤ n && n ≤ 0x0d) || n == 0x20 || n == 0x85 || n == 0xa0 || n == 0x1680 ||
    (0x2000 ≤ n && n ≤ 0x200a) || n == 0x2028 || n == 0x2029 || n == 0x202f ||
    n == 0x205f || n == 0x3000

def trim (text : List Char) : List Char :=
  ((text.dropWhile isWhite).reverse.dropWhile isWhite).reverse

def isBlankText (text : List Char) : Bool := text.all isWhite

/-- How many maximal runs without white space there are; `inside` tells whether the
character before belongs to one. -/
def countWordsFrom (inside : Bool) : List Char → Nat
  | [] => 0
  | c :: rest =>
    if isWhite c then countWordsFrom false rest
    else (if inside then 0 else 1) + countWordsFrom true rest

def countWords (text : List Char) : Nat := countWordsFrom false text

/-! ## Separators -/

/-- The pieces of a text between separators. -/
def pieces (separator : Char) : List Char → List (List Char)
  | [] => [[]]
  | c :: rest =>
    if c = separator then [] :: pieces separator rest
    else match pieces separator rest with
      | first :: more => (c :: first) :: more
      | [] => [[c]]

/-- What stands before the first separator, and what stands after it. -/
def cut (separator : Char) (text : List Char) : List Char × List Char :=
  (text.takeWhile (· ≠ separator), (text.dropWhile (· ≠ separator)).drop 1)

/-! ## UTF-8

A text that has to be valid is decoded as a whole; `decodeLossy` puts a replacement character
for each longest start of a character that is broken off, and for each byte that starts none.
-/

def encodeUtf8 (text : String) : List UInt8 := text.toUTF8.toList

def decodeUtf8? (bytes : List UInt8) : Option String := String.fromUTF8? ⟨bytes.toArray⟩

/-- The character in place of bytes that make none. -/
def replacement : Char := '\uFFFD'

def isContinuation (b : UInt8) : Bool := 0x80 ≤ b && b < 0xC0

/-- The second bytes that may follow a first one, and how many bytes follow in all. -/
def following (first : UInt8) : Option ((UInt8 → Bool) × Nat) :=
  if 0xC2 ≤ first && first ≤ 0xDF then some (isContinuation, 1)
  else if first == 0xE0 then some ((fun b => 0xA0 ≤ b && b < 0xC0), 2)
  else if first == 0xED then some ((fun b => 0x80 ≤ b && b < 0xA0), 2)
  else if 0xE1 ≤ first && first ≤ 0xEF then some (isContinuation, 2)
  else if first == 0xF0 then some ((fun b => 0x90 ≤ b && b < 0xC0), 3)
  else if 0xF1 ≤ first && first ≤ 0xF3 then some (isContinuation, 3)
  else if first == 0xF4 then some ((fun b => 0x80 ≤ b && b < 0x90), 3)
  else none

/-- The bits of a first byte that belong to the character. -/
def leadBits (first : UInt8) (more : Nat) : Nat := first.toNat % Nat.pow 2 (6 - more)

/-- What a decoder is inside of: how many bytes are missing, which may come next, and
the bits so far. -/
structure Partial where
  missing : Nat
  admits : UInt8 → Bool
  bits : Nat

/-- Reads a byte outside all characters. -/
def beginChar (b : UInt8) : List Char × Option Partial :=
  if b < 0x80 then ([Char.ofNat b.toNat], none)
  else match following b with
    | some (admits, more) => ([], some ⟨more, admits, leadBits b more⟩)
    | none => ([replacement], none)

def decodeFrom (state : Option Partial) : List UInt8 → List Char
  | [] => if state.isSome then [replacement] else []
  | b :: rest =>
    match state with
    | none =>
      let (chars, state) := beginChar b
      chars ++ decodeFrom state rest
    | some p =>
      if p.admits b then
        let bits := p.bits * 64 + b.toNat % 64
        if p.missing = 1 then Char.ofNat bits :: decodeFrom none rest
        else decodeFrom (some ⟨p.missing - 1, isContinuation, bits⟩) rest
      else
        let (chars, state) := beginChar b
        replacement :: (chars ++ decodeFrom state rest)

/-- The text of bytes that need not be valid. -/
def decodeLossy (bytes : List UInt8) : String := String.ofList (decodeFrom none bytes)

end Responder.Text
