/-!
# Faults in JSON texts

What can be wrong with a text that should be JSON, or with a value that should have a
given shape.
-/

namespace Responder.Json

inductive Fault where
  | unexpectedEnd
  | unexpectedCharacter
  | controlCharacter
  | badEscape
  | badNumber
  | numberTooLarge
  | loneSurrogate
  | tooDeep
  | wrongType (expected : String)
  | wrongLength (expected : String)
  | missingField (name : String)
  | repeatedField (name : String)
  | unknownVariant (name : String)
  | noVariant (expected : String)
  deriving DecidableEq, Repr

namespace Fault

def message : Fault → String
  | unexpectedEnd => "unexpected end of text"
  | unexpectedCharacter => "unexpected character"
  | controlCharacter => "control character in a string"
  | badEscape => "invalid escape"
  | badNumber => "invalid number"
  | numberTooLarge => "number out of range"
  | loneSurrogate => "lone surrogate in a string"
  | tooDeep => "recursion limit exceeded"
  | wrongType expected => "invalid type: expected " ++ expected
  | wrongLength expected => "invalid length of an array, expected " ++ expected
  | missingField name => "missing field " ++ name
  | repeatedField name => "duplicate field " ++ name
  | unknownVariant name => "unknown variant " ++ name
  | noVariant expected => "data did not match any variant of " ++ expected

end Fault

/-- A fault and how many characters of the text were read when it was found. -/
structure TextFault where
  fault : Fault
  offset : Nat
  deriving DecidableEq, Repr

namespace TextFault

/-- The line and the column of an offset, both from one; a column counts from the last
line feed. -/
def position (text : List Char) (offset : Nat) : Nat × Nat :=
  (text.take offset).foldl
    (fun (line, column) c => if c = '\n' then (line + 1, 0) else (line, column + 1)) (1, 0)

def message (text : List Char) (f : TextFault) : String :=
  let (line, column) := position text f.offset
  f.fault.message ++ " at line " ++ line.repr ++ " column " ++ column.repr

end TextFault

end Responder.Json
