import Responder.Schema.Basic

/-!
# Samples

A value made up for a schema: the first option, or a fixed value of the named type.
-/

namespace Responder.Schema

def sampleColors : List Json := ["red", "green", "blue"].map .string

/-- The number `1.5`, exactly. -/
def sampleNumber : Json := .number (.float ⟨false, 3 * Nat.pow 2 51, -52⟩)

/-- A value for a schema. -/
def sample (schema : Json) : Json :=
  match (options? schema).bind List.head? with
  | some first => first
  | none =>
    match (schema.field? "type").bind Json.string? with
    | some "object" =>
      match h : properties? schema with
      | some members =>
        .object (members.attach.map fun ⟨(name, property), member⟩ =>
          have := sizeOf_member_lt h member
          (name, sample property))
      | none => .object []
    | some "array" =>
      match h : items? schema with
      | some items =>
        if (items.field? "type").bind Json.string? = some "string" ∧ items.field? "enum" = none
        then .array sampleColors
        else
          have := sizeOf_items?_lt h
          .array [sample items]
      | none => .array [.object []]
    | some "string" => .string "sample"
    | some "integer" => .ofNat 1
    | some "number" => sampleNumber
    | some "boolean" => .bool true
    | some "null" => .null
    | _ => .object []
termination_by sizeOf schema

end Responder.Schema
