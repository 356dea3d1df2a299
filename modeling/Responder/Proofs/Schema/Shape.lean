import Mathlib.Logic.Relation
import Responder.Proofs.Server.Admission
import Responder.Schema.Check
import Responder.Schema.Validate

/-!
# Shapes of checked schemas

A schema is checked with all schemas inside it, and what validation reads of each has to be of a
shape that it can read. Main statement: in a schema that passed the check every constraint is
enforced, but for options that are no list and for what is no name in a list of types.
-/

namespace Responder.Schema

/-- A schema that stands directly in another one. -/
inductive Part (schema : Json) : Json → Prop
  | branch {branches : List Json} {branch : Json} : branches? schema = some branches →
      branch ∈ branches → Part schema branch
  | property {members : List (String × Json)} {name : String} {property : Json} :
      properties? schema = some members → (name, property) ∈ members → Part schema property
  | items {items : Json} : items? schema = some items → Part schema items

/-- A schema, or one that stands in it at any depth. -/
def Inside : Json → Json → Prop := Relation.ReflTransGen Part

def IsObject (value : Json) : Prop := ∃ members, value = .object members

/-- A known type, or a list with some known types and no unknown one. What else is in the list
is passed over. -/
inductive NamesTypes : Json → Prop
  | one (type : TypeName) : NamesTypes (.string type.name)
  | list {entries : List Json} {types : List TypeName} : types ≠ [] →
      entries.filterMap Json.string? = types.map TypeName.name → NamesTypes (.array entries)

/-- A known type, or a list of known types and nothing else. -/
inductive KnownTypes : Json → Prop
  | one (type : TypeName) : KnownTypes (.string type.name)
  | list {types : List TypeName} : types ≠ [] →
      KnownTypes (.array (types.map fun type => .string type.name))

/-- The shape of a schema that passes the check, what stands in it aside. -/
structure Shaped (node : Json) : Prop where
  object : IsObject node
  branches : ∀ value ∈ node.field? "anyOf", ∃ branches, value = .array branches ∧ branches ≠ []
  types : ∀ value ∈ node.field? "type", NamesTypes value
  properties : ∀ value ∈ node.field? "properties", IsObject value
  typed : ∀ members ∈ properties? node, ∀ entry ∈ members, isTyped entry.2 = true
  required : ∀ value ∈ node.field? "required", ∃ names : List String,
    value = .array (names.map .string)

/-- All constraints of a schema have a shape in which they are enforced. -/
structure Enforced (node : Json) : Prop where
  types : ∀ value ∈ node.field? "type", KnownTypes value
  options : ∀ value ∈ node.field? "enum", ∃ options, value = .array options
  branches : ∀ value ∈ node.field? "anyOf", ∃ branches, value = .array branches ∧
    branches ≠ [] ∧ ∀ branch ∈ branches, IsObject branch
  required : ∀ value ∈ node.field? "required", ∃ names : List String,
    value = .array (names.map .string)
  properties : ∀ value ∈ node.field? "properties", ∃ members, value = .object members ∧
    ∀ entry ∈ members, IsObject entry.2 ∧ isTyped entry.2 = true
  items : ∀ value ∈ node.field? "items", IsObject value

section checks

theorem refuseMalformed_eq_ok_iff {fault : Option Malformed} :
    refuseMalformed fault = .ok () ↔ fault = none := by
  cases fault <;> simp [refuseMalformed, fail]

theorem unless_eq_none_iff {α : Type} {fits : Prop} [Decidable fits] {fault : α} :
    (if fits then none else some fault) = none ↔ fits := by
  by_cases h : fits <;> simp [h]

theorem within_eq_ok_iff {α β : Type} {step : Step} {result : Except (At α) β} {b : β} :
    within step result = .ok b ↔ result = .ok b := by
  cases result <;> simp [within]

theorem then_eq_ok_iff {ε β : Type} {check : Except ε Unit} {next : Unit → Except ε β} {b : β} :
    (check >>= next) = .ok b ↔ check = .ok () ∧ next () = .ok b :=
  bind_eq_ok.trans ⟨fun ⟨_, both⟩ => both, fun both => ⟨(), both⟩⟩

theorem eq_ok_of_isOk {ε : Type} {check : Except ε Unit} (h : check.isOk = true) :
    check = .ok () :=
  (exists_ok h).elim fun _ accepted => accepted

theorem forM_eq_ok_iff {ε α : Type} {check : α → Except ε Unit} {entries : List α} :
    entries.forM check = .ok () ↔ ∀ entry ∈ entries, check entry = .ok () := by
  induction entries with
  | nil => exact iff_of_true rfl nofun
  | cons first rest ih =>
    rw [List.forall_mem_cons, ← ih]
    exact then_eq_ok_iff

theorem mem_of_mem_zipIdx {α : Type} {entries : List α} {entry : α} (mem : entry ∈ entries) :
    ∃ index, (entry, index) ∈ entries.zipIdx := by
  rw [← List.zipIdx_map_fst 0 entries] at mem
  obtain ⟨⟨_, index⟩, there, rfl⟩ := List.mem_map.1 mem
  exact ⟨index, there⟩

end checks

theorem isSome_ofName?_iff {text : String} :
    (TypeName.ofName? text).isSome = true ↔ ∃ type : TypeName, type.name = text := by
  unfold TypeName.ofName?
  rw [List.find?_isSome]
  constructor
  · rintro ⟨type, -, named⟩
    exact ⟨type, of_decide_eq_true named⟩
  · rintro ⟨type, named⟩
    exact ⟨type, by cases type <;> decide, decide_eq_true named⟩

/-- Names are all known if they are those of some types. -/
theorem find?_unknown_eq_none_iff {names : List String} :
    names.find? (fun name => (TypeName.ofName? name).isNone) = none ↔
      ∃ types : List TypeName, names = types.map TypeName.name := by
  induction names with
  | nil => exact iff_of_true rfl ⟨[], rfl⟩
  | cons name rest ih =>
    rw [List.find?_cons]
    cases known : TypeName.ofName? name with
    | none =>
      refine iff_of_false nofun ?_
      rintro ⟨_ | ⟨type, types⟩, named⟩
      · cases named
      · have some := isSome_ofName?_iff.2 ⟨type, (List.cons.inj named).1.symm⟩
        rw [known] at some
        cases some
    | some type =>
      obtain ⟨type, rfl⟩ := isSome_ofName?_iff.1 (Option.isSome_of_eq_some known)
      rw [Option.isNone_some, ih]
      constructor
      · rintro ⟨types, rfl⟩
        exact ⟨type :: types, rfl⟩
      · rintro ⟨_ | ⟨first, types⟩, named⟩
        · cases named
        · exact ⟨types, (List.cons.inj named).2⟩

/-- Entries of a list are strings if the list is one of strings. -/
theorem forall_strings_iff {entries : List Json} :
    (∃ names : List String, entries = names.map .string) ↔
      ∀ entry ∈ entries, entry.string?.isSome = true := by
  constructor
  · rintro ⟨names, rfl⟩
    exact List.forall_mem_map.2 fun _ _ => rfl
  · intro all
    induction entries with
    | nil => exact ⟨[], rfl⟩
    | cons entry rest ih =>
      obtain ⟨first, others⟩ := List.forall_mem_cons.1 all
      obtain ⟨names, rfl⟩ := ih others
      cases entry with
      | string name => exact ⟨name :: names, rfl⟩
      | null | bool | number | array | object => cases first

theorem typeFault_eq_none_iff {declared : Json} :
    typeFault declared = none ↔ NamesTypes declared := by
  cases declared with
  | string name =>
    have known : typeFault (.string name) = none ↔ ∃ types : List TypeName,
        [name] = types.map TypeName.name := by
      rw [← find?_unknown_eq_none_iff]
      exact Option.map_eq_none_iff
    rw [known]
    constructor
    · rintro ⟨types, named⟩
      obtain ⟨type, -, rfl⟩ := List.mem_map.1 (named ▸ List.mem_singleton_self name)
      exact .one type
    · rintro ⟨type⟩
      exact ⟨[type], rfl⟩
  | array entries =>
    cases read : entries.filterMap Json.string? with
    | nil =>
      have empty : typeFault (.array entries) = some .typeEmpty := by
        simp only [typeFault, typeNames, read]
      rw [empty]
      refine iff_of_false nofun ?_
      rintro (_ | ⟨some, named⟩)
      exact some (List.map_eq_nil_iff.1 (named.symm.trans read))
    | cons name rest =>
      have known : typeFault (.array entries) = none ↔ ∃ types : List TypeName,
          name :: rest = types.map TypeName.name := by
        rw [← find?_unknown_eq_none_iff]
        simp only [typeFault, typeNames, read]
        exact Option.map_eq_none_iff
      rw [known]
      constructor
      · rintro ⟨types, named⟩
        refine .list ?_ (read.trans named)
        rintro rfl
        cases named
      · rintro (_ | ⟨_, named⟩)
        exact ⟨_, read.symm.trans named⟩
  | null | bool | number | object => exact iff_of_false nofun nofun

theorem requiredFault_eq_none_iff {value : Json} :
    requiredFault value = none ↔ ∃ names : List String, value = .array (names.map .string) := by
  cases value with
  | array entries =>
    have checked : requiredFault (.array entries) = none ↔
        ∀ entry ∈ entries, entry.string?.isSome = true := by
      rw [← List.all_eq_true]
      cases h : entries.all (·.string?.isSome) <;> simp [requiredFault, h]
    rw [checked, ← forall_strings_iff]
    constructor
    · rintro ⟨names, rfl⟩
      exact ⟨names, rfl⟩
    · rintro ⟨names, same⟩
      exact ⟨names, Json.array.inj same⟩
  | null | bool | number | string | object => exact iff_of_false nofun nofun

theorem branchesFault_eq_none_iff {value : Json} :
    branchesFault value = none ↔ ∃ branches, value = .array branches ∧ branches ≠ [] := by
  cases value with
  | array branches => cases branches <;> simp [branchesFault]
  | null | bool | number | string | object => exact iff_of_false nofun nofun

theorem propertiesFault_eq_none_iff {value : Json} :
    propertiesFault value = none ↔ IsObject value := by
  cases value with
  | object members => exact iff_of_true rfl ⟨members, rfl⟩
  | null | bool | number | string | array => exact iff_of_false nofun nofun

theorem isObject_iff {value : Json} : IsObject value ↔ value.object?.isSome = true := by
  cases value with
  | object members => exact iff_of_true ⟨members, rfl⟩ rfl
  | null | bool | number | string | array => exact iff_of_false nofun nofun

/-- The check of a schema looks at its own shape, and checks what stands in it. -/
theorem checkNode_step (schema : Json) :
    checkNode schema = .ok () ↔
      Shaped schema ∧ ∀ part, Part schema part → checkNode part = .ok () := by
  rw [checkNode]
  simp only [then_eq_ok_iff, refuseMalformed_eq_ok_iff, unless_eq_none_iff,
    Option.bind_eq_none_iff]
  constructor
  · rintro ⟨object, anyOf, branches, type, properties, members, required, items⟩
    -- A property is looked at twice: that it says something, and on its own.
    have property {entries : List (String × Json)} (given : properties? schema = some entries)
        (entry : String × Json) (mem : entry ∈ entries) :
        isTyped entry.2 = true ∧ checkNode entry.2 = .ok () := by
      split at members
      · next others same =>
        cases given.symm.trans same
        have both := forM_eq_ok_iff.1 members _ (List.mem_attach _ ⟨entry, mem⟩)
        obtain ⟨typed, checked⟩ := then_eq_ok_iff.1 (within_eq_ok_iff.1 both)
        exact ⟨unless_eq_none_iff.1 (refuseMalformed_eq_ok_iff.1 typed), checked⟩
      · next absent => cases given.symm.trans absent
    refine ⟨⟨isObject_iff.2 object, ?_, ?_, ?_, ?_, ?_⟩, ?_⟩
    · exact fun value given => branchesFault_eq_none_iff.1 (anyOf value given)
    · exact fun value given => typeFault_eq_none_iff.1 (type value given)
    · exact fun value given => propertiesFault_eq_none_iff.1 (properties value given)
    · exact fun entries given entry mem => (property given entry mem).1
    · exact fun value given => requiredFault_eq_none_iff.1 (required value given)
    · rintro part (⟨given, mem⟩ | ⟨given, mem⟩ | given)
      · split at branches
        · next others same =>
          cases given.symm.trans same
          obtain ⟨index, there⟩ := mem_of_mem_zipIdx (List.mem_attach _ ⟨part, mem⟩)
          exact within_eq_ok_iff.1 (forM_eq_ok_iff.1 branches _ there)
        · next absent => cases given.symm.trans absent
      · exact (property given _ mem).2
      · split at items
        · next other same =>
          cases given.symm.trans same
          exact within_eq_ok_iff.1 items
        · next absent => cases given.symm.trans absent
  · rintro ⟨⟨object, branches, types, properties, typed, required⟩, parts⟩
    refine ⟨isObject_iff.1 object, ?_, ?_, ?_, ?_, ?_, ?_, ?_⟩
    · exact fun value given => branchesFault_eq_none_iff.2 (branches value given)
    · split
      · next given =>
        refine forM_eq_ok_iff.2 ?_
        rintro ⟨⟨branch, mem⟩, index⟩ -
        exact within_eq_ok_iff.2 (parts branch (.branch given mem))
      · rfl
    · exact fun value given => typeFault_eq_none_iff.2 (types value given)
    · exact fun value given => propertiesFault_eq_none_iff.2 (properties value given)
    · split
      · next given =>
        refine forM_eq_ok_iff.2 ?_
        rintro ⟨⟨name, property⟩, mem⟩ -
        refine within_eq_ok_iff.2 (then_eq_ok_iff.2 ⟨?_, parts property (.property given mem)⟩)
        exact refuseMalformed_eq_ok_iff.2 (unless_eq_none_iff.2 (typed _ given _ mem))
      · rfl
    · exact fun value given => requiredFault_eq_none_iff.2 (required value given)
    · split
      · next given => exact within_eq_ok_iff.2 (parts _ (.items given))
      · rfl

theorem Part.sizeOf_lt {schema part : Json} (h : Part schema part) :
    sizeOf part < sizeOf schema := by
  cases h with
  | branch given mem => exact sizeOf_branch_lt given mem
  | property given mem => exact sizeOf_member_lt given mem
  | items given => exact sizeOf_items?_lt given

/-- A schema passes the check exactly if it and all that stands in it have the right shape. -/
theorem checkNode_eq_ok_iff (schema : Json) :
    checkNode schema = .ok () ↔ ∀ node, Inside schema node → Shaped node := by
  constructor
  · intro checked node inside
    induction inside using Relation.ReflTransGen.head_induction_on with
    | refl => exact ((checkNode_step _).1 checked).1
    | head part _ ih => exact ih (((checkNode_step _).1 checked).2 _ part)
  · intro shaped
    induction size : sizeOf schema using Nat.strongRecOn generalizing schema with
    | ind most ih =>
      refine (checkNode_step schema).2 ⟨shaped schema .refl, fun part stands => ?_⟩
      have smaller : sizeOf part < most := size ▸ stands.sizeOf_lt
      exact ih _ smaller part (fun node inside => shaped node (.head stands inside)) rfl

theorem checkParameters_eq_ok_iff (schema : Json) :
    checkParameters schema = .ok () ↔ ∀ node, Inside schema node → Shaped node := by
  rw [← checkNode_eq_ok_iff, checkParameters]
  simp only [then_eq_ok_iff, refuseMalformed_eq_ok_iff, unless_eq_none_iff]
  refine and_iff_right_of_imp fun checked => ?_
  exact isObject_iff.1 ((checkNode_step schema).1 checked).1.object

theorem checkOutput_eq_ok_iff (schema : Json) :
    checkOutput schema = .ok () ↔ schema.field? "type" = some (.string "object") ∧
      ∀ node, Inside schema node → Shaped node := by
  rw [← checkNode_eq_ok_iff, checkOutput]
  simp only [then_eq_ok_iff, refuseMalformed_eq_ok_iff, unless_eq_none_iff]
  refine and_iff_right_of_imp fun both => ?_
  exact isObject_iff.1 ((checkNode_step schema).1 both.2).1.object

/-- What the check does not look at: options are a list, and so are types, of strings only. -/
structure Plain (node : Json) : Prop where
  options : ∀ value ∈ node.field? "enum", ∃ options, value = .array options
  names : ∀ entries, node.field? "type" = some (.array entries) →
    ∃ names : List String, entries = names.map .string

theorem knownTypes_iff {value : Json} : KnownTypes value ↔ NamesTypes value ∧
    ∀ entries, value = .array entries → ∃ names : List String, entries = names.map .string := by
  have read (names : List String) : (names.map Json.string).filterMap Json.string? = names := by
    rw [List.filterMap_map]
    exact List.filterMap_some
  constructor
  · rintro (type | some)
    · exact ⟨.one type, nofun⟩
    · next types =>
      have named : (types.map fun type => Json.string type.name) =
          (types.map TypeName.name).map .string := by
        rw [List.map_map]
        rfl
      rw [named]
      exact ⟨.list some (read _), fun entries same => ⟨_, (Json.array.inj same).symm⟩⟩
  · rintro ⟨type | ⟨some, named⟩, plain⟩
    · exact .one type
    · obtain ⟨names, rfl⟩ := plain _ rfl
      rw [read] at named
      rw [named, List.map_map]
      exact .list some

/-- In a schema that passed its check all that validation reads has a shape in which it is
enforced, as long as options are a list and lists of types hold strings only; the check looks at
neither of the two. -/
theorem accepted_enforced {schema node : Json}
    (accepted : checkOutput schema = .ok () ∨ checkParameters schema = .ok ())
    (inside : Inside schema node) : Shaped node ∧ (Enforced node ↔ Plain node) := by
  have shaped : ∀ node, Inside schema node → Shaped node := by
    obtain output | parameters := accepted
    · exact ((checkOutput_eq_ok_iff schema).1 output).2
    · exact (checkParameters_eq_ok_iff schema).1 parameters
  have own := shaped node inside
  have object {part : Json} (stands : Part node part) : IsObject part :=
    (shaped part (.tail inside stands)).object
  refine ⟨own, ?_, ?_⟩
  · intro enforced
    exact ⟨enforced.options, fun entries given =>
      (knownTypes_iff.1 (enforced.types _ given)).2 entries rfl⟩
  · intro plain
    refine ⟨?_, plain.options, ?_, own.required, ?_, ?_⟩
    · intro value given
      refine knownTypes_iff.2 ⟨own.types value given, ?_⟩
      rintro entries rfl
      exact plain.names entries given
    · intro value given
      obtain ⟨branches, rfl, some⟩ := own.branches value given
      have read : branches? node = Option.some branches := by
        rw [branches?, given]
        rfl
      exact ⟨branches, rfl, some, fun branch mem => object (.branch read mem)⟩
    · intro value given
      obtain ⟨members, rfl⟩ := own.properties value given
      have read : properties? node = Option.some members := by
        rw [properties?, given]
        rfl
      exact ⟨members, rfl, fun entry mem =>
        ⟨object (.property read mem), own.typed members read entry mem⟩⟩
    · exact fun value given => object (.items given)

/-- A schema for an object with a list of colors. -/
def palette : Json := .ofMembers
  [("type", .string "object"), ("required", .array [.string "colors"]),
    ("properties", .ofMembers [("colors", .ofMembers
      [("type", .string "array"), ("items", .ofMembers [("type", .string "string")])])])]

theorem palette_enforced : checkOutput palette = .ok () ∧ ∃ color, Inside palette color ∧
    color.field? "type" = some (.string "string") ∧ Enforced color := by
  have accepted : checkOutput palette = .ok () := eq_ok_of_isOk (by decide +kernel)
  let color : Json := .ofMembers [("type", .string "string")]
  let colors : Json := .ofMembers [("type", .string "array"), ("items", color)]
  have list : Part palette colors := .property rfl (List.mem_singleton_self ("colors", colors))
  have entry : Part colors color := .items rfl
  have inside : Inside palette color := .tail (.single list) entry
  have plain : Plain color := ⟨nofun, nofun⟩
  exact ⟨accepted, color, inside, rfl, (accepted_enforced (.inl accepted) inside).2.2 plain⟩

/-- A schema with an option that is no list, and with a number in a list of types. -/
def loose : Json := .ofMembers
  [("type", .string "object"),
    ("properties", .ofMembers
      [("color", .ofMembers [("enum", .string "red")]),
        ("size", .ofMembers [("type", .array [.string "integer", .ofNat 5])])])]

/-- It passes the check, but its option says nothing: a number is a color. -/
theorem loose_accepted : checkOutput loose = .ok () ∧ checkParameters loose = .ok () ∧
    (∃ color, Inside loose color ∧ ¬ Enforced color) ∧
    (∃ size, Inside loose size ∧ ¬ Enforced size) ∧
    validate loose (.object [("color", .ofNat 7)]) = .ok () := by
  have first : Part loose (.ofMembers [("enum", .string "red")]) :=
    .property rfl List.mem_cons_self
  have second : Part loose (.ofMembers [("type", .array [.string "integer", .ofNat 5])]) :=
    .property rfl (List.mem_cons_of_mem _ List.mem_cons_self)
  refine ⟨eq_ok_of_isOk (by decide +kernel), eq_ok_of_isOk (by decide +kernel),
    ⟨_, .single first, fun enforced => ?_⟩, ⟨_, .single second, fun enforced => ?_⟩,
    eq_ok_of_isOk (by decide +kernel)⟩
  · obtain ⟨options, same⟩ := enforced.options _ rfl
    cases same
  · have strings := forall_strings_iff.1 ((knownTypes_iff.1 (enforced.types _ rfl)).2 _ rfl)
    cases strings (.ofNat 5) (List.mem_cons_of_mem _ List.mem_cons_self)

end Responder.Schema
