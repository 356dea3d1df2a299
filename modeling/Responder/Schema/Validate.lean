import Responder.Schema.Basic
import Responder.Json.Raw
import Responder.Text

/-!
# Validation of values

`validate` follows a value and a schema together and stops at the first pair that does
not fit. The recursion is on the schema: each step goes to a branch, a property or the
item schema.
-/

namespace Responder.Schema

inductive Mismatch where
  | notAnOption
  | noBranch
  | wrongType (expected : String) (actual : TypeName)
  | wrongTypes (expected : List Json) (actual : TypeName)
  | missing (name : String)
  | unexpected (name : String)
  deriving DecidableEq, Repr

namespace Mismatch

def message : Mismatch → String
  | notAnOption => "value is not one of the allowed enum values"
  | noBranch => "value matches none of the anyOf schemas"
  | wrongType expected actual => "expected " ++ expected ++ ", got " ++ actual.name
  | wrongTypes expected actual =>
    "expected one of " ++ (Json.array expected).text ++ ", got " ++ actual.name
  | missing name => "missing required property '" ++ name ++ "'"
  | unexpected name => "unexpected property '" ++ name ++ "'"

end Mismatch

/-- Membership in `enum`. -/
def checkOptions (schema value : Json) : Option Mismatch :=
  match options? schema with
  | some options => if options.any value.same then none else some .notAnOption
  | none => none

def checkType (schema value : Json) : Option Mismatch :=
  match schema.field? "type" with
  | some (.string name) =>
    if matchesName value name then none else some (.wrongType name (kind value))
  | some (.array names) =>
    if (names.filterMap Json.string?).any (matchesName value) then none
    else some (.wrongTypes names (kind value))
  | _ => none

/-- The first required name that is missing. -/
def checkRequired (schema : Json) (members : List (String × Json)) : Option Mismatch :=
  ((required schema).find? fun name => (Json.lookup name members).isNone).map .missing

def refuse : Option Mismatch → Except (At Mismatch) Unit
  | some cause => fail cause
  | none => .ok ()

def validate (schema value : Json) : Except (At Mismatch) Unit := do
  refuse (checkOptions schema value)
  (match h : branches? schema with
    | some branches =>
      refuse (if branches.attach.any fun ⟨branch, member⟩ =>
          have := sizeOf_branch_lt h member
          (validate branch value).isOk
        then none else some .noBranch)
    | none => .ok ())
  refuse (checkType schema value)
  match value with
  | .object members =>
    refuse (checkRequired schema members)
    members.forM fun (name, field) =>
      match h : property? schema name with
      | some property =>
        have := sizeOf_property?_lt h
        within (.property name) (validate property field)
      | none => refuse (if isClosed schema then some (.unexpected name) else none)
  | .array items =>
    match h : items? schema with
    | some itemSchema =>
      have := sizeOf_items?_lt h
      items.zipIdx.forM fun (item, index) => within (.item index) (validate itemSchema item)
    | none => .ok ()
  | _ => .ok ()
termination_by sizeOf schema

inductive TextMismatch where
  | notJson (message : String)
  | mismatch (place : At Mismatch)
  deriving DecidableEq, Repr

/-- Reads a text as JSON, blanks at its ends aside, and checks the value. -/
def validateText (schema : Json) (text : String) : Except TextMismatch Json := do
  let value ← (Json.parse (String.ofList (Text.trim text.toList))).mapError .notJson
  (validate schema value).mapError .mismatch
  return value

end Responder.Schema
