import Responder.Json.Basic
import Responder.Json.Writer

/-!
# Schemas

A schema is a JSON value of which some members are read: `type`, `properties`,
`required`, `additionalProperties`, `items`, `enum` and `anyOf`. A member of another
shape than the one read here imposes nothing. A place in a value or in a schema is the
list of steps that lead to it.
-/

namespace Responder.Schema

inductive TypeName where
  | object | array | string | number | integer | boolean | null
  deriving DecidableEq, Repr

namespace TypeName

def name : TypeName → String
  | object => "object"
  | array => "array"
  | string => "string"
  | number => "number"
  | integer => "integer"
  | boolean => "boolean"
  | null => "null"

def all : List TypeName := [object, array, string, number, integer, boolean, null]

def ofName? (text : String) : Option TypeName := all.find? (·.name = text)

end TypeName

/-- The type of a value, in which integers are not told from other numbers. -/
def kind : Json → TypeName
  | .null => .null
  | .bool _ => .boolean
  | .number _ => .number
  | .string _ => .string
  | .array _ => .array
  | .object _ => .object

/-- Integers, and doubles without a fraction. -/
def isInteger : Json.Number → Bool
  | .int _ => true
  | .float b => b.numerator % b.denominator == 0

def hasType (value : Json) : TypeName → Bool
  | .integer => match value with
    | .number n => isInteger n
    | _ => false
  | type => kind value == type

/-- Whether a value has the type of this name; an unknown name admits all values. -/
def matchesName (value : Json) (name : String) : Bool :=
  (TypeName.ofName? name).all (hasType value)

/-- One step into a value, or into a branch of a schema. -/
inductive Step where
  | property (name : String)
  | item (index : Nat)
  | items
  | branch (index : Nat)
  deriving DecidableEq, Repr

namespace Step

def text : Step → String
  | property name => "." ++ name
  | item index => "[" ++ index.repr ++ "]"
  | items => "[]"
  | branch index => ".anyOf[" ++ index.repr ++ "]"

end Step

/-- The path of the place that the steps lead to from a start. -/
def pathText (start : String) (steps : List Step) : String :=
  steps.foldl (fun path step => path ++ step.text) start

/-- A cause, at the place that the steps lead to. -/
structure At (α : Type) where
  steps : List Step
  cause : α
  deriving DecidableEq, Repr

/-- The same outcome, seen from one step further out. -/
def within {α β : Type} (step : Step) : Except (At α) β → Except (At α) β
  | .ok b => .ok b
  | .error e => .error { e with steps := step :: e.steps }

def fail {α β : Type} (cause : α) : Except (At α) β := .error ⟨[], cause⟩

def root : String := "$"

def options? (schema : Json) : Option (List Json) := (schema.field? "enum").bind Json.array?

def branches? (schema : Json) : Option (List Json) := (schema.field? "anyOf").bind Json.array?

def properties? (schema : Json) : Option (List (String × Json)) :=
  (schema.field? "properties").bind Json.object?

def property? (schema : Json) (name : String) : Option Json :=
  (properties? schema).bind (Json.lookup name)

def required (schema : Json) : List String :=
  (((schema.field? "required").bind Json.array?).getD []).filterMap Json.string?

def items? (schema : Json) : Option Json := schema.field? "items"

/-- Whether members that are not among the properties are refused. -/
def isClosed (schema : Json) : Bool := schema.field? "additionalProperties" = some (.bool false)

theorem sizeOf_lookup_lt {name : String} {members : List (String × Json)} {value : Json}
    (h : Json.lookup name members = some value) : sizeOf value < sizeOf members := by
  simp only [Json.lookup, Option.map_eq_some_iff] at h
  obtain ⟨⟨k, v⟩, hfind, rfl⟩ := h
  have := List.sizeOf_lt_of_mem (List.mem_of_find?_eq_some hfind)
  simp only [Prod.mk.sizeOf_spec] at this
  simp only
  omega

theorem sizeOf_field?_lt {value member : Json} {name : String}
    (h : value.field? name = some member) : sizeOf member < sizeOf value := by
  cases value with
  | object members =>
    have := sizeOf_lookup_lt h
    simp only [Json.object.sizeOf_spec]
    omega
  | null | bool | number | string | array => simp [Json.field?] at h

theorem sizeOf_branches?_lt {schema : Json} {branches : List Json}
    (h : branches? schema = some branches) : sizeOf branches < sizeOf schema := by
  obtain ⟨member, hm, hb⟩ := Option.bind_eq_some_iff.1 h
  have := sizeOf_field?_lt hm
  cases member <;> simp_all [Json.array?]
  omega

theorem sizeOf_branch_lt {schema branch : Json} {branches : List Json}
    (h : branches? schema = some branches) (member : branch ∈ branches) :
    sizeOf branch < sizeOf schema := by
  have := List.sizeOf_lt_of_mem member
  have := sizeOf_branches?_lt h
  omega

theorem sizeOf_properties?_lt {schema : Json} {members : List (String × Json)}
    (h : properties? schema = some members) : sizeOf members < sizeOf schema := by
  obtain ⟨member, hm, hb⟩ := Option.bind_eq_some_iff.1 h
  have := sizeOf_field?_lt hm
  cases member <;> simp_all [Json.object?]
  omega

theorem sizeOf_member_lt {schema property : Json} {name : String}
    {members : List (String × Json)} (h : properties? schema = some members)
    (member : (name, property) ∈ members) : sizeOf property < sizeOf schema := by
  have := List.sizeOf_lt_of_mem member
  have := sizeOf_properties?_lt h
  simp only [Prod.mk.sizeOf_spec] at *
  omega

theorem sizeOf_property?_lt {schema property : Json} {name : String}
    (h : property? schema name = some property) : sizeOf property < sizeOf schema := by
  obtain ⟨members, hm, hl⟩ := Option.bind_eq_some_iff.1 h
  have := sizeOf_properties?_lt hm
  have := sizeOf_lookup_lt hl
  omega

theorem sizeOf_items?_lt {schema items : Json} (h : items? schema = some items) :
    sizeOf items < sizeOf schema := sizeOf_field?_lt h

end Responder.Schema
