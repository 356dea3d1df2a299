import Responder.Schema.Basic

/-!
# Checking of schemas

A schema is checked before it is used: the members that validation reads have to be of
a known shape, in it and in all schemas inside it. Strings are picked from a list of
types, and what is in `enum` is not looked at.
-/

namespace Responder.Schema

inductive Malformed where
  | notObject
  | parametersNotObject
  | rootNotObject
  | branches
  | typeShape
  | typeEmpty
  | typeUnknown (name : String)
  | properties
  | untyped
  | required
  | requiredEntries
  deriving DecidableEq, Repr

namespace Malformed

def message : Malformed → String
  | notObject => "schema must be a JSON object"
  | parametersNotObject => "parameters must be a JSON object"
  | rootNotObject => "root schema must have type \"object\""
  | branches => "anyOf must be a non-empty array"
  | typeShape => "type must be a string or array of strings"
  | typeEmpty => "type must not be empty"
  | typeUnknown name => "unknown type '" ++ name ++ "'"
  | properties => "properties must be an object"
  | untyped => "property must declare a type"
  | required => "required must be an array"
  | requiredEntries => "required entries must be strings"

end Malformed

def typeNames : Json → Except Malformed (List String)
  | .string name => .ok [name]
  | .array names => .ok (names.filterMap Json.string?)
  | _ => .error .typeShape

def typeFault (declared : Json) : Option Malformed :=
  match typeNames declared with
  | .error fault => some fault
  | .ok [] => some .typeEmpty
  | .ok names =>
    (names.find? fun name => (TypeName.ofName? name).isNone).map .typeUnknown

def requiredFault : Json → Option Malformed
  | .array names => if names.all (·.string?.isSome) then none else some .requiredEntries
  | _ => some .required

/-- Whether a property says anything about its value. -/
def isTyped (property : Json) : Bool :=
  ["type", "enum", "anyOf"].any fun name => (property.field? name).isSome

def refuseMalformed : Option Malformed → Except (At Malformed) Unit
  | some cause => fail cause
  | none => .ok ()

def branchesFault : Json → Option Malformed
  | .array (_ :: _) => none
  | _ => some .branches

def propertiesFault : Json → Option Malformed
  | .object _ => none
  | _ => some .properties

def checkNode (schema : Json) : Except (At Malformed) Unit := do
  refuseMalformed (if schema.object?.isSome then none else some .notObject)
  refuseMalformed ((schema.field? "anyOf").bind branchesFault)
  (match h : branches? schema with
    | some branches =>
      branches.attach.zipIdx.forM fun (⟨branch, member⟩, index) =>
        have := sizeOf_branch_lt h member
        within (.branch index) (checkNode branch)
    | none => .ok ())
  refuseMalformed ((schema.field? "type").bind typeFault)
  refuseMalformed ((schema.field? "properties").bind propertiesFault)
  (match h : properties? schema with
    | some members =>
      members.attach.forM fun ⟨(name, property), member⟩ =>
        have := sizeOf_member_lt h member
        within (.property name) do
          refuseMalformed (if isTyped property then none else some .untyped)
          checkNode property
    | none => .ok ())
  refuseMalformed ((schema.field? "required").bind requiredFault)
  match h : items? schema with
  | some items =>
    have := sizeOf_items?_lt h
    within .items (checkNode items)
  | none => .ok ()
termination_by sizeOf schema

/-- A schema of structured output: the root is of type object. -/
def checkOutput (schema : Json) : Except (At Malformed) Unit := do
  refuseMalformed (if schema.object?.isSome then none else some .notObject)
  refuseMalformed
    (if schema.field? "type" = some (.string "object") then none else some .rootNotObject)
  checkNode schema

/-- A schema of the parameters of a tool. -/
def checkParameters (schema : Json) : Except (At Malformed) Unit := do
  refuseMalformed (if schema.object?.isSome then none else some .parametersNotObject)
  checkNode schema

end Responder.Schema
