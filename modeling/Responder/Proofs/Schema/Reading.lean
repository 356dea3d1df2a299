import Responder.Proofs.Json.Depth
import Responder.Proofs.Turn.Verdict

/-!
# Schemas that requests ask for

Main statement: a schema that was read with its request has its members in order, and is nested
less deeply than a text may be.
-/

namespace Responder

open Json (Raw)

variable {α : Type} {room : Nat} {raw : Raw}

namespace Json.Raw

theorem required_eq_ok {name : String} {shape : Raw → Except Fault α} {field : Option Raw} {a : α}
    (h : required name shape field = .ok a) : ∃ raw, shape raw = .ok a := by
  cases field with
  | none => cases h
  | some raw => exact ⟨raw, h⟩

theorem optional_eq_some {shape : Raw → Except Fault α} {field : Option Raw} {a : α}
    (h : optional shape field = .ok (some a)) : ∃ raw, shape raw = .ok a := by
  unfold optional at h
  split at h
  · cases h
  · cases h
  · obtain ⟨_, read, made⟩ := bind_eq_ok.1 h
    cases made
    exact ⟨_, read⟩

/-- The fields of a record are read with less room than the record. -/
theorem fields_room {names : List String} {get : String → Option Raw} {inner : Nat}
    (h : raw.fields names room = .ok (get, inner)) : 0 < inner ∧ inner < room := by
  have entered {left : Nat} (h : enter room = .ok left) : 0 < left ∧ left < room := by
    obtain ⟨_, rfl, rfl⟩ := enter_eq_ok h
    omega
  cases raw with
  | object members =>
    obtain ⟨left, opened, h⟩ := bind_eq_ok.1 h
    obtain ⟨found, -, h⟩ := bind_eq_ok.1 h
    cases h
    exact entered opened
  | array items =>
    obtain ⟨left, opened, h⟩ := bind_eq_ok.1 h
    split at h
    · cases h
      exact entered opened
    · cases h
  | null | bool | number | string => cases h

end Json.Raw

namespace TextFormat

variable {name : String} {schema : Json} {description : Option String} {strict : Option Bool}

theorem ofFields_schema {get : String → Option Raw}
    (h : ofFields get room = .ok (.jsonSchema name schema description strict)) :
    ∃ raw : Raw, raw.toJson room = .ok schema := by
  obtain ⟨name, -, h⟩ := bind_eq_ok.1 h
  obtain ⟨schema, read, h⟩ := bind_eq_ok.1 h
  obtain ⟨description, -, h⟩ := bind_eq_ok.1 h
  obtain ⟨strict, -, h⟩ := bind_eq_ok.1 h
  cases h
  exact Raw.required_eq_ok read

theorem ofRaw_schema (h : ofRaw room raw = .ok (.jsonSchema name schema description strict)) :
    ∃ raw : Raw, raw.toJson room = .ok schema := by
  obtain ⟨_, -, h⟩ := bind_eq_ok.1 h
  split at h
  · obtain ⟨found, -, h⟩ := bind_eq_ok.1 h
    split at h
    · cases h
    · obtain ⟨tagged, -, h⟩ := bind_eq_ok.1 h
      split at h
      · obtain ⟨fields, -, h⟩ := bind_eq_ok.1 h
        exact ofFields_schema h
      · cases h
  · cases h
  · obtain ⟨tagged, -, h⟩ := bind_eq_ok.1 h
    split at h
    · split at h
      · exact ofFields_schema h
      · cases h
    · split at h <;> cases h
  · cases h

end TextFormat

namespace Request

theorem ofRaw_format {r : Request} (h : ofRaw room raw = .ok r) : ∃ get inner,
    raw.fields fieldNames room = .ok (get, inner) ∧
      Raw.optional (TextFormat.ofConfig inner) (get "text") = .ok r.format := by
  obtain ⟨⟨get, inner⟩, fields, h⟩ := bind_eq_ok.1 h
  obtain ⟨model, -, h⟩ := bind_eq_ok.1 h
  obtain ⟨input, -, h⟩ := bind_eq_ok.1 h
  obtain ⟨instructions, -, h⟩ := bind_eq_ok.1 h
  obtain ⟨previous, -, h⟩ := bind_eq_ok.1 h
  obtain ⟨stream, -, h⟩ := bind_eq_ok.1 h
  obtain ⟨store, -, h⟩ := bind_eq_ok.1 h
  obtain ⟨tools, -, h⟩ := bind_eq_ok.1 h
  obtain ⟨toolChoice, -, h⟩ := bind_eq_ok.1 h
  obtain ⟨format, given, h⟩ := bind_eq_ok.1 h
  obtain ⟨temperature, -, h⟩ := bind_eq_ok.1 h
  obtain ⟨topP, -, h⟩ := bind_eq_ok.1 h
  obtain ⟨maxOutputTokens, -, h⟩ := bind_eq_ok.1 h
  obtain ⟨parallelToolCalls, -, h⟩ := bind_eq_ok.1 h
  obtain ⟨metadata, -, h⟩ := bind_eq_ok.1 h
  obtain ⟨truncation, -, h⟩ := bind_eq_ok.1 h
  cases h
  exact ⟨get, inner, fields, given⟩

/-- A schema that a request asks for is in order, and nested less deeply than a text may be. -/
theorem schema_read {text : String} {r : Request} {schema : Json} (read : ofText text = .ok r)
    (asked : r.outputSchema = some schema) :
    schema.InOrder ∧ schema.depth < Raw.maxRoom := by
  obtain ⟨raw, -, h⟩ := bind_eq_ok.1 (mapError_eq_ok.1 read)
  obtain ⟨get, inner, fields, format⟩ := ofRaw_format (mapError_eq_ok.1 h)
  unfold outputSchema at asked
  split at asked
  · next name _ _ _ given =>
    cases asked
    rw [given] at format
    obtain ⟨config, read⟩ := Raw.optional_eq_some format
    obtain ⟨⟨get, innermost⟩, inside, read⟩ := bind_eq_ok.1 read
    obtain ⟨_, read⟩ := Raw.required_eq_ok read
    obtain ⟨raw, read⟩ := TextFormat.ofRaw_schema read
    have outer := Raw.fields_room fields
    have room := Raw.fields_room inside
    obtain ⟨ordered, shallow⟩ := raw.toJson_spec room.1 read
    exact ⟨ordered, by omega⟩
  · cases asked
  · cases asked

end Request

end Responder
