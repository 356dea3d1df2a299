import Responder.Text

/-!
# Addresses

An address names a resource by a path and a query. A scheme and an authority may stand
before them; an authority may also stand alone. What comes after a `#` is no part of an
address.
-/

namespace Responder

structure Url where
  scheme : Option (List Char) := none
  authority : List Char := []
  path : List Char := []
  query : List Char := []
  deriving DecidableEq, Repr

namespace Url

inductive Fault where
  | empty
  | tooLong
  | character
  | format
  | authority
  | schemeTooLong
  deriving DecidableEq, Repr

def Fault.message : Fault → String
  | empty => "empty string"
  | tooLong => "uri too long"
  | character => "invalid uri character"
  | format => "invalid format"
  | authority => "invalid authority"
  | schemeTooLong => "scheme too long"

def maxSize : Nat := 65534

def maxSchemeLength : Nat := 64

/-! ## The scheme -/

def isSchemeChar (c : Char) : Bool := c.isAlphanum || "+-.~".toList.contains c

/-- The scheme that a text begins with, and the text after the mark behind it. -/
def splitScheme (text : List Char) : Except Fault (Option (List Char) × List Char) :=
  let mark := "://".toList
  let name := text.takeWhile isSchemeChar
  let rest := text.dropWhile isSchemeChar
  if !mark.isPrefixOf rest then .ok (none, text)
  else if maxSchemeLength < name.length then .error .schemeTooLong
  else .ok (some name, rest.drop mark.length)

/-! ## The authority -/

/-- What an authority is made of, its separators aside. -/
def isAuthorityChar (c : Char) : Bool := c.isAlphanum || "!$&'()*+,-.;=_~".toList.contains c

/-- The most colons between the separators of an authority: as many as in the longest host
with a number after it. -/
def maxColons : Nat := 8

/-- What the characters of an authority say so far. Colons and percent signs are allowed
before an `@` and in brackets, so both are forgotten after these. -/
structure Authority where
  colons : Nat := 0
  percent : Bool := false
  opened : Bool := false
  closed : Bool := false
  endsInAt : Bool := false
  deriving DecidableEq, Repr

namespace Authority

/-- Takes the next character. Brackets out of order and too many colons are faults where
they stand, so they come before any fault behind them. -/
def next (a : Authority) (c : Char) : Except Fault Authority :=
  let a := { a with endsInAt := c = '@' }
  if c = ':' then
    if maxColons ≤ a.colons then .error .authority else .ok { a with colons := a.colons + 1 }
  else if c = '%' then .ok { a with percent := true }
  else if c = '@' then .ok { a with colons := 0, percent := false }
  else if c = '[' then
    if a.percent || a.opened then .error .authority else .ok { a with opened := true }
  else if c = ']' then
    if !a.opened || a.closed then .error .authority
    else .ok { a with closed := true, colons := 0, percent := false }
  else if isAuthorityChar c then .ok a
  else .error .character

/-- Whether an authority may end here. One colon may be left: it parts a host and a number. -/
def isWhole (a : Authority) : Bool :=
  a.opened == a.closed && a.colons ≤ 1 && !a.percent && !a.endsInAt

end Authority

/-- Whether a character stands in an authority and not behind it. -/
def inAuthority (c : Char) : Bool := c ≠ '/' && c ≠ '?' && c ≠ '#'

/-- The authority that a text begins with, and the text after it. -/
def splitAuthority (text : List Char) : Except Fault (List Char × List Char) := do
  let authority := text.takeWhile inAuthority
  let read ← authority.foldlM Authority.next {}
  if read.isWhole then return (authority, text.dropWhile inAuthority) else .error .authority

/-! ## Path and query -/

/-- Which characters a path and a query may have beyond the visible ones of ASCII: none,
or all that come after these. -/
inductive Charset where
  | ascii
  | unicode
  deriving DecidableEq, Repr

/-- The characters of a set, blanks and controls of ASCII left out. -/
def Charset.contains (set : Charset) (c : Char) : Bool :=
  '!' ≤ c && (c ≤ '~' || set = .unicode)

def isPathChar (set : Charset) (c : Char) : Bool :=
  set.contains c && !"<>\x60".toList.contains c

def isQueryChar (set : Charset) (c : Char) : Bool :=
  set.contains c && !"<>\"".toList.contains c

/-- The path and the query of a text. -/
def splitQuery (set : Charset) (text : List Char) : Except Fault (List Char × List Char) :=
  let (path, query) := Text.cut '?' (Text.cut '#' text).1
  if path.all (isPathChar set) && query.all (isQueryChar set) then .ok (path, query)
  else .error .character

/-- Reads an address. After a scheme there is an authority, and no path is the path `/`. -/
def ofText (set : Charset) (text : String) : Except Fault Url := do
  if maxSize < text.utf8ByteSize then .error .tooLong
  match text.toList with
  | [] => .error .empty
  | ['*'] => return { path := ['*'] }
  | '/' :: rest =>
    let (path, query) ← splitQuery set ('/' :: rest)
    return { path, query }
  | chars =>
    let (scheme, rest) ← splitScheme chars
    let (authority, rest) ← splitAuthority rest
    if scheme.isNone then
      if rest = [] then return { authority } else .error .format
    else if authority = [] then .error .format
    else
      let (path, query) ← splitQuery set rest
      return { scheme, authority, path := if path = [] then ['/'] else path, query }

end Url

end Responder
