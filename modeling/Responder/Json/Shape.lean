import Responder.Json.Raw

/-!
# Shapes of JSON values

A record is read from an object, by the names of its fields, or from an array, by
their order. Members that are not fields are passed over. In a text a field may not be
repeated, and a name must be readable; what is passed over need not be.
-/

namespace Responder.Json

namespace Shape

def string : Json → Except Fault String
  | .string text => .ok text
  | _ => .error (.wrongType "a string")

def optional {α : Type} (shape : Json → Except Fault α) : Option Json → Except Fault (Option α)
  | none | some .null => .ok none
  | some value => return some (← shape value)

def required {α : Type} (name : String) (shape : Json → Except Fault α) :
    Option Json → Except Fault α
  | none => .error (.missingField name)
  | some value => shape value

def fields (names : List String) : Json → Except Fault (String → Option Json)
  | .object members => .ok (lookup · members)
  | .array items =>
    if items.length ≤ names.length then .ok (lookup · (names.zip items))
    else .error (.wrongLength "no more items than fields")
  | _ => .error (.wrongType "an object")

end Shape

namespace Raw

def lookup (name : String) (members : List (String × Raw)) : Option Raw :=
  (members.find? (·.1 = name)).map (·.2)

/-- The members that are fields, each at most once. -/
def collect (names : List String) :
    List (Option String × Raw) → Except Fault (List (String × Raw))
  | [] => .ok []
  | (name, value) :: rest => do
    let name ← text? name
    let others ← collect names rest
    if names.contains name then
      if (others.find? (·.1 = name)).isSome then .error (.repeatedField name)
      else return (name, value) :: others
    else return others

/-- The fields of a record, given their names in order, and the room inside it. -/
def fields (names : List String) (room : Nat) :
    Raw → Except Fault ((String → Option Raw) × Nat)
  | .object members => do
    let room ← enter room
    let found ← collect names members
    return ((lookup · found), room)
  | .array items => do
    let room ← enter room
    if items.length ≤ names.length then return ((lookup · (names.zip items)), room)
    else .error (.wrongLength "no more items than fields")
  | _ => .error (.wrongType "an object")

/-- Null stands for a field that is not there. -/
def optional {α : Type} (shape : Raw → Except Fault α) : Option Raw → Except Fault (Option α)
  | none | some .null => .ok none
  | some value => return some (← shape value)

/-- A field that may be left out, but not be null. -/
def defaulted {α : Type} (default : α) (shape : Raw → Except Fault α) :
    Option Raw → Except Fault α
  | none => .ok default
  | some value => shape value

/-- A field that has to be there. -/
def required {α : Type} (name : String) (shape : Raw → Except Fault α) :
    Option Raw → Except Fault α
  | none => .error (.missingField name)
  | some value => shape value

def asString : Raw → Except Fault String
  | .string text => text? text
  | _ => .error (.wrongType "a string")

def asBool : Raw → Except Fault Bool
  | .bool b => .ok b
  | _ => .error (.wrongType "a boolean")

def asNumber : Raw → Except Fault Number
  | .number literal =>
    match literal.number? with
    | some n => .ok n
    | none => .error .numberTooLarge
  | _ => .error (.wrongType "a number")

/-- An integer of 64 bits with sign. -/
def asInt64 (raw : Raw) : Except Fault Int := do
  match ← asNumber raw with
  | .int n =>
    if -(signLimit : Int) ≤ n ∧ n < signLimit then .ok n else .error (.wrongType "a 64-bit integer")
  | .float _ => .error (.wrongType "an integer")

def asList {α : Type} (shape : Nat → Raw → Except Fault α) (room : Nat) :
    Raw → Except Fault (List α)
  | .array items => do
    let room ← enter room
    items.mapM (shape room)
  | _ => .error (.wrongType "an array")

/-- The members of an object, the last of each name. -/
def asObject (room : Nat) (raw : Raw) : Except Fault (List (String × Json)) := do
  match ← raw.toJson room with
  | .object members => .ok members
  | _ => .error (.wrongType "an object")

end Raw

end Responder.Json
