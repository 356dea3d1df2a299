import Responder.Proofs.Json.Depth
import Responder.Proofs.Json.Spelling
import Responder.Proofs.Schema.Validity
import Responder.Schema.Sample

/-!
# Samples conform to their schemas

A sample is made up from a schema alone, by a recursion of its own. Main statements: if each
schema on the way names one type and nothing else narrows it, then the sample is accepted, and
its text is read back as the sample.
-/

namespace Responder.Schema

/-- The schema of a property, or that of items. -/
inductive Child (schema : Json) : Json → Prop
  | property {members : List (String × Json)} {name : String} {property : Json} :
      properties? schema = some members → (name, property) ∈ members → Child schema property
  | items {items : Json} : items? schema = some items → Child schema items

/-- A schema, or one that is reached from it through properties and items. -/
def Reached : Json → Json → Prop := Relation.ReflTransGen Child

/-- A schema that names one type, has neither options nor branches, and needs no other members
than its own properties. -/
structure Simple (node : Json) : Prop where
  type : ∃ name, node.field? "type" = some (.string name)
  options : node.field? "enum" = none
  branches : node.field? "anyOf" = none
  required : ∀ names, node.field? "required" = some (.array names) →
    ∀ name, .string name ∈ names → ∃ properties,
      node.field? "properties" = some (.object properties) ∧ name ∈ properties.map Prod.fst

/-- All that a sample relies on, here and in the schemas that stand inside. -/
structure Sampled (schema : Json) : Prop where
  simple : ∀ node, Inside schema node → Simple node
  shaped : ∀ node, Inside schema node → Shaped node
  ordered : schema.InOrder

/-- The items of a sample: three colors where any text will do, else the sample of an item. -/
def sampleItems (schema : Json) : List Json :=
  match items? schema with
  | some items =>
    if (items.field? "type").bind Json.string? = some "string" ∧ items.field? "enum" = none
    then sampleColors else [sample items]
  | none => [.object []]

/-- The sample of a schema of this type that has no options. -/
def sampleOf (schema : Json) : TypeName → Json
  | .object => .object (((properties? schema).getD []).map fun member =>
      (member.1, sample member.2))
  | .array => .array (sampleItems schema)
  | .string => .string "sample"
  | .integer => .ofNat 1
  | .number => sampleNumber
  | .boolean => .bool true
  | .null => .null

variable {schema node : Json} {type : TypeName}

theorem forall_reached {holds : Json → Prop} (own : holds schema)
    (children : ∀ part, Child schema part → ∀ node, Reached part node → holds node) :
    ∀ node, Reached schema node → holds node := by
  intro node reached
  obtain rfl | ⟨part, child, reached⟩ := Relation.ReflTransGen.cases_head reached
  · exact own
  · exact children part child node reached

/-- Without branches, whatever stands inside is reached through properties and items. -/
theorem reached_of_inside (simple : ∀ node, Reached schema node → Simple node)
    (inside : Inside schema node) : Reached schema node := by
  induction inside with
  | refl => exact .refl
  | tail _ stands ih =>
    cases stands with
    | branch given _ =>
      have none := (simple _ ih).branches
      cases none.symm.trans (field?_array?_iff.1 given)
    | property given mem => exact .tail ih (.property given mem)
    | items given => exact .tail ih (.items given)

theorem sample_eq (typed : schema.field? "type" = some (.string type.name))
    (unlisted : schema.field? "enum" = none) : sample schema = sampleOf schema type := by
  have options : (options? schema).bind List.head? = none := by
    rw [options?, unlisted]
    rfl
  have named : (schema.field? "type").bind Json.string? = some type.name := by
    rw [typed]
    rfl
  unfold sample
  rw [options, named]
  cases type with
  | object =>
    simp only [TypeName.name, sampleOf]
    split
    · next members given => simp [given, List.map_attach_eq_pmap]
    · next absent => simp [absent]
  | array =>
    simp only [TypeName.name, sampleOf, sampleItems]
    split
    · next items given =>
      rw [given]
      dsimp only
      split <;> rfl
    · next absent => rw [absent]
  | string | number | integer | boolean | null => rfl

theorem Part.inOrder (ordered : schema.InOrder) (stands : Part schema part) : part.InOrder := by
  cases stands with
  | branch given mem =>
    exact Json.inOrder_array_iff.1 (ordered.field? (field?_array?_iff.1 given)) _ mem
  | property given mem =>
    exact (Json.inOrder_object_iff.1 (ordered.field? (field?_object?_iff.1 given))).2 _ mem
  | items given => exact ordered.field? given

namespace Sampled

theorem part (h : Sampled schema) (stands : Part schema node) : Sampled node where
  simple _ inside := h.simple _ (.head stands inside)
  shaped _ inside := h.shaped _ (.head stands inside)
  ordered := stands.inOrder h.ordered

theorem own (h : Sampled schema) : Simple schema := h.simple schema .refl

theorem typed (h : Sampled schema) :
    ∃ type : TypeName, schema.field? "type" = some (.string type.name) := by
  obtain ⟨name, given⟩ := h.own.type
  cases (h.shaped schema .refl).types _ given with
  | one type => exact ⟨type, given⟩

theorem sample_eq (h : Sampled schema) (typed : schema.field? "type" = some (.string type.name)) :
    sample schema = sampleOf schema type :=
  Schema.sample_eq typed h.own.options

end Sampled

section accepted

theorem sampleOf_holds (schema : Json) (type : TypeName) : type.Holds (sampleOf schema type) := by
  cases type <;> constructor

/-- A simple schema looks at the type of a value and at the names of its members. -/
theorem Simple.fits {value : Json} (simple : Simple node)
    (typed : node.field? "type" = some (.string type.name)) (holds : type.Holds value)
    (furnished : Furnished node value) : Fits node value where
  toFurnished := furnished
  option _ given := nomatch simple.options.symm.trans given
  branch _ given := nomatch simple.branches.symm.trans given
  type name given other named := by
    cases typed.symm.trans given
    have same := ofName?_name other
    rw [named, ofName?_name] at same
    exact Option.some.inj same ▸ holds
  types _ given := nomatch typed.symm.trans given

theorem Simple.accepts_text (simple : Simple node)
    (free : node.field? "type" = some (.string "string")) (text : String) :
    validate node (.string text) = .ok () := by
  have typed : node.field? "type" = some (.string TypeName.string.name) := free
  have furnished : Furnished node (.string text) := furnished_of_no_object (by simp)
  refine validate_eq_ok_iff.2 ⟨simple.fits typed (.string text) furnished, ?_⟩
  rintro step node part ⟨⟩

/-- A sample has the members that are properties, and no others. -/
theorem Simple.furnished (simple : Simple node) (type : TypeName) :
    Furnished node (sampleOf node type) := by
  cases type with
  | object =>
    have names : ∀ members, sampleOf node .object = .object members →
        members.map Prod.fst = ((properties? node).getD []).map Prod.fst := by
      rintro members ⟨⟩
      rw [List.map_map]
      rfl
    refine ⟨fun members told listed given name mem => ?_, fun members told _ name mem => ?_⟩
    · obtain ⟨properties, asked, declared⟩ := simple.required listed given name mem
      rw [names members told, properties?, asked]
      exact declared
    · rw [names members told] at mem
      cases asked : properties? node with
      | none =>
        rw [asked] at mem
        cases mem
      | some properties =>
        rw [asked] at mem
        exact ⟨properties, field?_object?_iff.1 asked, mem⟩
  | array | string | number | integer | boolean | null =>
    exact furnished_of_no_object (by simp [sampleOf, Json.ofNat, sampleNumber])

/-- What stands in a sample is a sample itself, or a text where any text will do. -/
theorem Sampled.leads {step : Step} {value part : Json} (h : Sampled schema)
    (told : sampleOf schema type = value) (leads : Leads schema value step node part) :
    Part schema node ∧ (part = sample node ∨
      ∃ text, part = .string text ∧ node.field? "type" = some (.string "string")) := by
  cases leads with
  | @property members properties name _ _ mem given found =>
    cases type with
    | object =>
      have read : properties? schema = some properties := field?_object?_iff.2 given
      cases told
      rw [read] at mem
      obtain ⟨⟨name, property⟩, there, same⟩ := List.mem_map.1 mem
      cases same
      obtain ⟨ordered, -⟩ := Json.inOrder_object_iff.1 (h.ordered.field? given)
      cases (ordered.lookup there).symm.trans found
      exact ⟨.property read there, .inl rfl⟩
    | array | string | number | integer | boolean | null => cases told
  | item there given =>
    cases type with
    | array =>
      have read : items? schema = some node := given
      cases told
      have mem : part ∈ sampleItems schema := List.mem_of_getElem? there
      refine ⟨.items given, ?_⟩
      unfold sampleItems at mem
      rw [read] at mem
      dsimp only at mem
      split at mem
      · next free =>
        obtain ⟨text, -, rfl⟩ := List.mem_map.1 mem
        refine .inr ⟨text, rfl, ?_⟩
        obtain ⟨declared, typed, named⟩ := Option.bind_eq_some_iff.1 free.1
        cases declared <;> cases named
        exact typed
      · exact .inl (List.mem_singleton.1 mem)
    | object | string | number | integer | boolean | null => cases told

/-- The sample of a schema is accepted. -/
theorem Sampled.accepted (h : Sampled schema) : validate schema (sample schema) = .ok () := by
  induction size : sizeOf schema using Nat.strongRecOn generalizing schema with
  | ind most ih =>
    obtain ⟨type, typed⟩ := h.typed
    rw [h.sample_eq typed]
    refine validate_eq_ok_iff.2
      ⟨h.own.fits typed (sampleOf_holds schema type) (h.own.furnished type), ?_⟩
    intro step node part leads
    obtain ⟨stands, rfl | ⟨text, rfl, free⟩⟩ := h.leads rfl leads
    · exact ih _ (size ▸ stands.sizeOf_lt) (h.part stands) rfl
    · exact (h.part stands).own.accepts_text free text

end accepted

section legible

open Json (Legible Ordered depth_lt_of_field? depth_lt_object)

/-- The sample of an object is no deeper than its schema, if no sample of a property is deeper than
its own by more than one. -/
theorem Sampled.legible_object (h : Sampled schema)
    (each : ∀ part, Part schema part → Legible (part.depth + 1) (sample part)) :
    Legible schema.depth (sampleOf schema .object) := by
  obtain ⟨name, typed⟩ := h.own.type
  have deep : 0 < schema.depth := Nat.zero_lt_of_lt (depth_lt_of_field? typed)
  rw [sampleOf]
  cases asked : properties? schema with
  | none =>
    have bare : Legible 1 (.object []) := Json.legible_object .nil (List.forall_mem_nil _)
    exact bare.mono deep
  | some properties =>
    have given := field?_object?_iff.1 asked
    have outer : (Json.object properties).depth < schema.depth := depth_lt_of_field? given
    obtain ⟨ordered, -⟩ := Json.inOrder_object_iff.1 (h.ordered.field? given)
    have names : Ordered (properties.map fun member => (member.1, sample member.2)) :=
      List.pairwise_map.2 ordered
    have whole := Json.legible_object names (List.forall_mem_map.2 fun member mem =>
      (each member.2 (.property asked mem)).mono (depth_lt_object mem))
    exact whole.mono outer

theorem legible_one : Legible 0 (.ofNat 1) := by
  have text : (Json.Number.int (1 : Nat)).text = ['1'] := by decide +kernel
  refine Json.legible_number { whole := [1] } rfl fun rest ends => ?_
  rw [text]
  exact (Json.Pending.readOut_silent _ rest rfl).trans (Json.Pending.readOut_number rfl ends)

theorem legible_sampleNumber : Legible 0 sampleNumber := by
  have text : (Json.Number.float ⟨false, 3 * Nat.pow 2 51, -52⟩).text = ['1', '.', '5'] := by
    decide +kernel
  refine Json.legible_number { whole := [1], fraction := [5] } (by decide +kernel)
    fun rest ends => ?_
  rw [text]
  refine (Json.Pending.readOut_silent _ _ rfl).trans ?_
  refine (Json.Pending.readOut_silent _ _ rfl).trans ?_
  exact (Json.Pending.readOut_silent _ rest rfl).trans (Json.Pending.readOut_number rfl ends)

/-- A sample is read back from its text. Where the schema of items is left out, it is deeper than
its schema by one. -/
theorem Sampled.legible (h : Sampled schema) : Legible (schema.depth + 1) (sample schema) := by
  induction size : sizeOf schema using Nat.strongRecOn generalizing schema with
  | ind most ih =>
    have each (part : Json) (stands : Part schema part) : Legible (part.depth + 1) (sample part) :=
      ih _ (size ▸ stands.sizeOf_lt) (h.part stands) rfl
    obtain ⟨type, typed⟩ := h.typed
    have deep : 0 < schema.depth := Nat.zero_lt_of_lt (depth_lt_of_field? typed)
    have low {value : Json} (plain : Legible 0 value) : Legible (schema.depth + 1) value :=
      plain.mono (Nat.zero_le _)
    rw [h.sample_eq typed]
    cases type with
    | object => exact (h.legible_object each).mono (Nat.le_succ _)
    | array =>
      refine Json.legible_array fun item mem => ?_
      unfold sampleItems at mem
      split at mem
      · next items given =>
        have outer : items.depth < schema.depth := depth_lt_of_field? given
        split at mem
        · obtain ⟨text, -, rfl⟩ := List.mem_map.1 mem
          exact (Json.legible_string text).mono (Nat.zero_le _)
        · cases List.mem_singleton.1 mem
          exact (each items (.items given)).mono outer
      · cases List.mem_singleton.1 mem
        have bare : Legible 1 (.object []) := Json.legible_object .nil (List.forall_mem_nil _)
        exact bare.mono deep
    | string => exact low (Json.legible_string _)
    | integer => exact low legible_one
    | number => exact low legible_sampleNumber
    | boolean => exact low (Json.legible_bool true)
    | null => exact low Json.legible_null

end legible

end Responder.Schema
