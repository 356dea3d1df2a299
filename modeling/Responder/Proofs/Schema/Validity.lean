import Responder.Failure
import Responder.Proofs.Schema.Shape

/-!
# What validation accepts

Validation follows a value and a schema together, from a pair to the pairs that stand in it. Main
statement: a value is accepted exactly if it fits the schema at every place that is reached so; of
a value that is refused the report names such a place that does not fit.
-/

namespace Responder.Schema

/-- The values of a type; a double without a fraction is an integer as well. -/
inductive TypeName.Holds : TypeName → Json → Prop
  | null : Holds .null .null
  | boolean (value : Bool) : Holds .boolean (.bool value)
  | string (text : String) : Holds .string (.string text)
  | number (n : Json.Number) : Holds .number (.number n)
  | integer (n : Int) : Holds .integer (.number (.int n))
  | whole {b : Decimal.Binary} : b.denominator ∣ b.numerator →
      Holds .integer (.number (.float b))
  | array (items : List Json) : Holds .array (.array items)
  | object (members : List (String × Json)) : Holds .object (.object members)

/-- The name of a type stands for its values, any other name for all. -/
def Typed (name : String) (value : Json) : Prop :=
  ∀ type : TypeName, type.name = name → type.Holds value

/-- An object has the members that it needs, and none that it may not have. -/
structure Furnished (schema value : Json) : Prop where
  required : ∀ members, value = .object members → ∀ names,
    schema.field? "required" = some (.array names) →
      ∀ name, .string name ∈ names → name ∈ members.map Prod.fst
  declared : ∀ members, value = .object members →
    schema.field? "additionalProperties" = some (.bool false) →
      ∀ name ∈ members.map Prod.fst, ∃ properties,
        schema.field? "properties" = some (.object properties) ∧ name ∈ properties.map Prod.fst

/-- A value fits a schema as far as the value itself goes; what stands in it is looked at
elsewhere. A keyword of another shape asks for nothing. -/
structure Fits (schema value : Json) : Prop extends Furnished schema value where
  option : ∀ options, schema.field? "enum" = some (.array options) →
    ∃ option ∈ options, value.same option = true
  branch : ∀ branches, schema.field? "anyOf" = some (.array branches) →
    ∃ branch ∈ branches, validate branch value = .ok ()
  type : ∀ name, schema.field? "type" = some (.string name) → Typed name value
  types : ∀ names, schema.field? "type" = some (.array names) →
    ∃ name, .string name ∈ names ∧ Typed name value

/-- A step from a schema and a value to what stands in them: from a member of an object to its
property, or from an item of a list to the schema of items. -/
inductive Leads (schema : Json) : Json → Step → Json → Json → Prop
  | property {members properties : List (String × Json)} {name : String} {field property : Json} :
      (name, field) ∈ members → schema.field? "properties" = some (.object properties) →
      Json.lookup name properties = some property →
      Leads schema (.object members) (.property name) property field
  | item {items : List Json} {index : Nat} {item itemSchema : Json} : items[index]? = some item →
      schema.field? "items" = some itemSchema →
      Leads schema (.array items) (.item index) itemSchema item

/-- Steps from a schema and a value to a pair that stands in them at any depth. -/
inductive Reaches : Json → Json → List Step → Json → Json → Prop
  | here (schema value : Json) : Reaches schema value [] schema value
  | step {schema value node part last leaf : Json} {step : Step} {steps : List Step} :
      Leads schema value step node part → Reaches node part steps last leaf →
      Reaches schema value (step :: steps) last leaf

variable {schema value : Json} {place : At Mismatch}

section checks

theorem refuse_eq_ok_iff {fault : Option Mismatch} : refuse fault = .ok () ↔ fault = none := by
  cases fault <;> simp [refuse, fail]

/-- A fault that there would not be is told here. -/
theorem refuse_eq_error {fault : Option Mismatch} {fine : Prop} (without : fine → fault = none)
    (h : refuse fault = .error place) : place.steps = [] ∧ ¬ fine := by
  cases fault with
  | none => cases h
  | some cause =>
    cases h
    exact ⟨rfl, fun holds => nomatch without holds⟩

theorem then_eq_error_iff {ε : Type} {check : Except ε Unit} {next : Unit → Except ε Unit}
    {e : ε} : (check >>= next) = .error e ↔
      check = .error e ∨ check = .ok () ∧ next () = .error e := by
  cases check with
  | error other => exact ⟨.inl, fun h => h.elim id fun both => nomatch both.1⟩
  | ok done =>
    refine ⟨fun h => .inr ⟨rfl, h⟩, fun h => ?_⟩
    rcases h with failed | ⟨-, later⟩
    · cases failed
    · exact later

theorem within_eq_error {step : Step} {result : Except (At Mismatch) Unit}
    (h : within step result = .error place) :
    ∃ rest, place.steps = step :: rest ∧ result = .error ⟨rest, place.cause⟩ := by
  cases result with
  | ok done => cases h
  | error inner =>
    cases h
    exact ⟨inner.steps, rfl, rfl⟩

theorem forM_eq_error {ε α : Type} {check : α → Except ε Unit} {entries : List α} {e : ε}
    (h : entries.forM check = .error e) : ∃ entry ∈ entries, check entry = .error e := by
  induction entries with
  | nil => cases h
  | cons first rest ih =>
    rcases then_eq_error_iff.1 h with failed | ⟨-, later⟩
    · exact ⟨first, List.mem_cons_self, failed⟩
    · obtain ⟨entry, mem, failed⟩ := ih later
      exact ⟨entry, List.mem_cons_of_mem _ mem, failed⟩

end checks

section types

theorem ofName?_name (type : TypeName) : TypeName.ofName? type.name = some type := by
  cases type <;> decide

theorem isInteger_iff {n : Json.Number} :
    isInteger n = true ↔ TypeName.integer.Holds (.number n) := by
  cases n with
  | int n => exact iff_of_true rfl (.integer n)
  | float b =>
    have whole : isInteger (.float b) = true ↔ b.denominator ∣ b.numerator := by
      simp [isInteger, Nat.dvd_iff_mod_eq_zero]
    rw [whole]
    constructor
    · exact .whole
    · rintro ⟨⟩
      assumption

theorem hasType_iff {type : TypeName} : hasType value type = true ↔ type.Holds value := by
  cases type with
  | integer =>
    cases value with
    | number n => exact isInteger_iff
    | null | bool | string | array | object => exact iff_of_false nofun nofun
  | object | array | string | number | boolean | null =>
    cases value <;> first
      | exact iff_of_true rfl (by constructor)
      | exact iff_of_false nofun nofun

theorem matchesName_iff {name : String} : matchesName value name = true ↔ Typed name value := by
  unfold matchesName Typed
  cases known : TypeName.ofName? name with
  | none =>
    refine iff_of_true rfl ?_
    rintro type rfl
    rw [ofName?_name] at known
    cases known
  | some type =>
    rw [Option.all_some, hasType_iff]
    obtain ⟨found, -⟩ := List.find?_eq_some_iff_append.1 known
    have named : type.name = name := of_decide_eq_true found
    constructor
    · rintro holds other rfl
      rw [ofName?_name] at known
      cases known
      exact holds
    · exact fun all => all type named

end types

section constraints

variable {members : List (String × Json)}

theorem lookup_isSome_iff {name : String} :
    (Json.lookup name members).isSome = true ↔ name ∈ members.map Prod.fst := by
  simp [Json.lookup, Option.isSome_map, List.find?_isSome]

theorem mem_strings_iff {entries : List Json} {name : String} :
    name ∈ entries.filterMap Json.string? ↔ .string name ∈ entries := by
  rw [List.mem_filterMap]
  constructor
  · rintro ⟨entry, mem, read⟩
    cases entry with
    | string text =>
      cases read
      exact mem
    | null | bool | number | array | object => cases read
  · exact fun mem => ⟨_, mem, rfl⟩

/-- A keyword is read as a list if it is one. -/
theorem field?_array?_iff {keyword : String} {items : List Json} :
    (schema.field? keyword).bind Json.array? = some items ↔
      schema.field? keyword = some (.array items) := by
  have read (value : Json) : value.array? = some items ↔ value = .array items := by
    cases value <;> simp [Json.array?]
  simp [Option.bind_eq_some_iff, read]

/-- A keyword is read as an object if it is one. -/
theorem field?_object?_iff {keyword : String} :
    (schema.field? keyword).bind Json.object? = some members ↔
      schema.field? keyword = some (.object members) := by
  have read (value : Json) : value.object? = some members ↔ value = .object members := by
    cases value <;> simp [Json.object?]
  simp [Option.bind_eq_some_iff, read]

theorem property?_eq_some_iff {name : String} {property : Json} :
    property? schema name = some property ↔
      ∃ properties, schema.field? "properties" = some (.object properties) ∧
        Json.lookup name properties = some property := by
  unfold property? properties?
  rw [Option.bind_eq_some_iff]
  simp only [field?_object?_iff]

theorem checkOptions_eq_none_iff : checkOptions schema value = none ↔
    ∀ options, schema.field? "enum" = some (.array options) →
      ∃ option ∈ options, value.same option = true := by
  simp only [← field?_array?_iff]
  unfold checkOptions options?
  cases (schema.field? "enum").bind Json.array? <;> simp

theorem checkType_eq_none_iff : checkType schema value = none ↔
    (∀ name, schema.field? "type" = some (.string name) → Typed name value) ∧
      ∀ names, schema.field? "type" = some (.array names) →
        ∃ name, .string name ∈ names ∧ Typed name value := by
  have some_matches (names : List Json) :
      (names.filterMap Json.string?).any (matchesName value) = true ↔
        ∃ name, .string name ∈ names ∧ Typed name value := by
    simp only [List.any_eq_true, mem_strings_iff, matchesName_iff]
  unfold checkType
  split
  · next name given =>
    rw [unless_eq_none_iff, matchesName_iff, given]
    simp
  · next names given =>
    rw [unless_eq_none_iff, some_matches, given]
    simp
  · next noName noList =>
    exact iff_of_true rfl ⟨fun name given => (noName name given).elim,
      fun names given => (noList names given).elim⟩

/-- Whether a branch of a schema accepts a value, if there are branches. -/
def checkBranches (schema value : Json) : Option Mismatch :=
  match branches? schema with
  | some branches =>
    if branches.any fun branch => (validate branch value).isOk then none else some .noBranch
  | none => none

theorem checkBranches_eq_none_iff : checkBranches schema value = none ↔
    ∀ branches, schema.field? "anyOf" = some (.array branches) →
      ∃ branch ∈ branches, validate branch value = .ok () := by
  have accepts (branch : Json) :
      (validate branch value).isOk = true ↔ validate branch value = .ok () :=
    ⟨eq_ok_of_isOk, fun h => h ▸ rfl⟩
  simp only [← field?_array?_iff]
  unfold checkBranches branches?
  cases (schema.field? "anyOf").bind Json.array? <;> simp [accepts]

theorem checkRequired_eq_none_iff : checkRequired schema members = none ↔
    ∀ names, schema.field? "required" = some (.array names) →
      ∀ name, .string name ∈ names → name ∈ members.map Prod.fst := by
  have present : checkRequired schema members = none ↔
      ∀ name ∈ required schema, name ∈ members.map Prod.fst := by
    simp only [checkRequired, Option.map_eq_none_iff, List.find?_eq_none, ← lookup_isSome_iff,
      Bool.not_eq_true, Option.isNone_eq_false_iff]
  rw [present]
  simp only [← field?_array?_iff, ← mem_strings_iff]
  unfold required
  cases (schema.field? "required").bind Json.array? <;> simp

end constraints

/-- A member of a value fits its property, or there need not be one. -/
def validateMember (schema : Json) (member : String × Json) : Except (At Mismatch) Unit :=
  match property? schema member.1 with
  | some property => within (.property member.1) (validate property member.2)
  | none => refuse (if isClosed schema then some (.unexpected member.1) else none)

/-- What stands in a value is checked member by member, or item by item. -/
def validateParts (schema : Json) : Json → Except (At Mismatch) Unit
  | .object members => do
    refuse (checkRequired schema members)
    members.forM (validateMember schema)
  | .array items =>
    match items? schema with
    | some itemSchema =>
      items.zipIdx.forM fun (item, index) => within (.item index) (validate itemSchema item)
    | none => .ok ()
  | _ => .ok ()

/-- A value is checked first itself, then in its parts. -/
theorem validate_eq (schema value : Json) : validate schema value = (do
    refuse (checkOptions schema value)
    refuse (checkBranches schema value)
    refuse (checkType schema value)
    validateParts schema value) := by
  unfold validate
  refine bind_congr fun _ => ?_
  congr 1
  · unfold checkBranches
    split
    · next given => simp [given]
    · next given => simp [given]; rfl
  · refine funext fun _ => bind_congr fun _ => ?_
    cases value with
    | object members =>
      refine bind_congr fun _ => congrArg members.forM (funext ?_)
      rintro ⟨name, field⟩
      simp only [validateMember]
      split
      · next given => rw [given]
      · next given => rw [given]
    | array items =>
      simp only [validateParts]
      split
      · next given => rw [given]
      · next given => rw [given]
    | null | bool | number | string => rfl

theorem isClosed_iff :
    isClosed schema = true ↔ schema.field? "additionalProperties" = some (.bool false) :=
  decide_eq_true_iff

theorem property?_isSome_iff {name : String} : (property? schema name).isSome = true ↔
    ∃ properties, schema.field? "properties" = some (.object properties) ∧
      name ∈ properties.map Prod.fst := by
  rw [Option.isSome_iff_exists]
  simp only [property?_eq_some_iff, ← lookup_isSome_iff, Option.isSome_iff_exists]
  exact ⟨fun ⟨property, properties, both⟩ => ⟨properties, both.1, property, both.2⟩,
    fun ⟨properties, given, property, found⟩ => ⟨property, properties, given, found⟩⟩

theorem validateMember_eq_ok_iff {member : String × Json} :
    validateMember schema member = .ok () ↔
      (∀ property, property? schema member.1 = some property →
        validate property member.2 = .ok ()) ∧
      (isClosed schema = true → (property? schema member.1).isSome = true) := by
  unfold validateMember
  cases property? schema member.1 with
  | some property => simp [within_eq_ok_iff]
  | none => simp [refuse_eq_ok_iff]

/-- What is no object needs no members. -/
theorem furnished_of_no_object (other : ∀ members, value ≠ .object members) :
    Furnished schema value :=
  ⟨fun members object => absurd object (other members),
    fun members object => absurd object (other members)⟩

theorem validateParts_eq_ok_iff : validateParts schema value = .ok () ↔
    Furnished schema value ∧
      ∀ step node part, Leads schema value step node part → validate node part = .ok () := by
  cases value with
  | object members =>
    simp only [validateParts, then_eq_ok_iff, refuse_eq_ok_iff, forM_eq_ok_iff,
      checkRequired_eq_none_iff, validateMember_eq_ok_iff]
    constructor
    · rintro ⟨required, fields⟩
      refine ⟨⟨?_, ?_⟩, ?_⟩
      · rintro _ ⟨⟩
        exact required
      · rintro _ ⟨⟩ closed name mem
        obtain ⟨member, there, rfl⟩ := List.mem_map.1 mem
        exact property?_isSome_iff.1 ((fields member there).2 (isClosed_iff.2 closed))
      · rintro _ node part ⟨mem, given, found⟩
        exact (fields _ mem).1 node (property?_eq_some_iff.2 ⟨_, given, found⟩)
    · rintro ⟨furnished, parts⟩
      refine ⟨furnished.required members rfl, fun member mem => ?_⟩
      refine ⟨fun property found => ?_, ?_⟩
      · obtain ⟨properties, given, found⟩ := property?_eq_some_iff.1 found
        exact parts _ _ _ (.property mem given found)
      · intro closed
        exact property?_isSome_iff.2 (furnished.declared members rfl (isClosed_iff.1 closed) _
          (List.mem_map_of_mem mem))
  | array items =>
    have furnished : Furnished schema (.array items) := furnished_of_no_object (by simp)
    rw [and_iff_right furnished]
    simp only [validateParts]
    cases given : items? schema with
    | none =>
      refine iff_of_true rfl ?_
      rintro _ _ _ (_ | ⟨-, asked⟩)
      cases given.symm.trans asked
    | some itemSchema =>
      simp only [forM_eq_ok_iff, within_eq_ok_iff]
      constructor
      · rintro all _ _ _ (_ | ⟨there, asked⟩)
        cases given.symm.trans asked
        exact all _ (List.mk_mem_zipIdx_iff_getElem?.2 there)
      · rintro parts ⟨item, index⟩ mem
        exact parts _ _ _ (.item (List.mk_mem_zipIdx_iff_getElem?.1 mem) given)
  | null | bool | number | string =>
    refine iff_of_true rfl ⟨furnished_of_no_object (by simp), ?_⟩
    rintro step node part ⟨⟩

/-- A value is accepted if it fits itself, and all that stands in it is accepted. -/
theorem validate_eq_ok_iff : validate schema value = .ok () ↔ Fits schema value ∧
    ∀ step node part, Leads schema value step node part → validate node part = .ok () := by
  rw [validate_eq]
  simp only [then_eq_ok_iff, refuse_eq_ok_iff, checkOptions_eq_none_iff,
    checkBranches_eq_none_iff, checkType_eq_none_iff, validateParts_eq_ok_iff]
  constructor
  · rintro ⟨option, branch, ⟨type, types⟩, furnished, parts⟩
    exact ⟨⟨furnished, option, branch, type, types⟩, parts⟩
  · rintro ⟨fits, parts⟩
    exact ⟨fits.option, fits.branch, ⟨fits.type, fits.types⟩, fits.toFurnished, parts⟩

/-- A value is refused where it is misfit itself, or where something that stands in it is. -/
theorem validateParts_eq_error (h : validateParts schema value = .error place) :
    (place.steps = [] ∧ ¬ Furnished schema value) ∨
      ∃ step node part rest, Leads schema value step node part ∧ place.steps = step :: rest ∧
        validate node part = .error ⟨rest, place.cause⟩ := by
  cases value with
  | object members =>
    rcases then_eq_error_iff.1 h with missing | ⟨-, failed⟩
    · exact .inl (refuse_eq_error (fun furnished =>
        checkRequired_eq_none_iff.2 (furnished.required members rfl)) missing)
    · obtain ⟨⟨name, field⟩, mem, failed⟩ := forM_eq_error failed
      unfold validateMember at failed
      split at failed
      · next property found =>
        obtain ⟨rest, path, failed⟩ := within_eq_error failed
        obtain ⟨properties, given, found⟩ := property?_eq_some_iff.1 found
        exact .inr ⟨_, _, _, rest, .property mem given found, path, failed⟩
      · next absent =>
        refine .inl (refuse_eq_error (fun furnished => if_neg fun closed => ?_) failed)
        have declared := furnished.declared members rfl (isClosed_iff.1 closed) name
          (List.mem_map_of_mem mem)
        rw [← property?_isSome_iff, absent] at declared
        cases declared
  | array items =>
    simp only [validateParts] at h
    split at h
    · next itemSchema given =>
      obtain ⟨⟨item, index⟩, mem, failed⟩ := forM_eq_error h
      obtain ⟨rest, path, failed⟩ := within_eq_error failed
      exact .inr ⟨_, _, _, rest, .item (List.mk_mem_zipIdx_iff_getElem?.1 mem) given, path,
        failed⟩
    · cases h
  | null | bool | number | string => cases h

theorem validate_eq_error (h : validate schema value = .error place) :
    (place.steps = [] ∧ ¬ Fits schema value) ∨
      ∃ step node part rest, Leads schema value step node part ∧ place.steps = step :: rest ∧
        validate node part = .error ⟨rest, place.cause⟩ := by
  rw [validate_eq] at h
  rcases then_eq_error_iff.1 h with failed | ⟨-, h⟩
  · exact .inl (refuse_eq_error (fun fits => checkOptions_eq_none_iff.2 fits.option) failed)
  rcases then_eq_error_iff.1 h with failed | ⟨-, h⟩
  · exact .inl (refuse_eq_error (fun fits => checkBranches_eq_none_iff.2 fits.branch) failed)
  rcases then_eq_error_iff.1 h with failed | ⟨-, h⟩
  · exact .inl (refuse_eq_error (fun fits => checkType_eq_none_iff.2 ⟨fits.type, fits.types⟩)
      failed)
  · exact (validateParts_eq_error h).imp_left fun ⟨here, misfit⟩ =>
      ⟨here, fun fits => misfit fits.toFurnished⟩

theorem Leads.sizeOf_lt {step : Step} {node part : Json} (h : Leads schema value step node part) :
    sizeOf node < sizeOf schema := by
  cases h with
  | property _ given found =>
    exact sizeOf_property?_lt (property?_eq_some_iff.2 ⟨_, given, found⟩)
  | item _ given => exact sizeOf_items?_lt given

/-- A value is accepted exactly if it fits at every place. -/
theorem accepted_iff : validate schema value = .ok () ↔
    ∀ steps node part, Reaches schema value steps node part → Fits node part := by
  constructor
  · intro accepted steps node part reached
    induction reached with
    | here => exact (validate_eq_ok_iff.1 accepted).1
    | step leads _ ih => exact ih ((validate_eq_ok_iff.1 accepted).2 _ _ _ leads)
  · intro fits
    induction size : sizeOf schema using Nat.strongRecOn generalizing schema value with
    | ind most ih =>
      refine validate_eq_ok_iff.2 ⟨fits [] _ _ (.here ..), fun step node part leads => ?_⟩
      have smaller : sizeOf node < most := size ▸ leads.sizeOf_lt
      exact ih _ smaller (fun steps _ _ reached => fits (step :: steps) _ _ (.step leads reached))
        rfl

/-- A value that is refused does not fit at the place that is named. -/
theorem exists_misfit (refused : validate schema value = .error place) :
    ∃ node part, Reaches schema value place.steps node part ∧ ¬ Fits node part := by
  obtain ⟨steps, cause⟩ := place
  induction steps generalizing schema value with
  | nil =>
    rcases validate_eq_error refused with ⟨-, misfit⟩ | ⟨_, _, _, _, -, path, -⟩
    · exact ⟨schema, value, .here .., misfit⟩
    · cases path
  | cons step steps ih =>
    rcases validate_eq_error refused with ⟨here, -⟩ | ⟨_, _, _, _, leads, path, failed⟩
    · cases here
    · cases path
      obtain ⟨node, part, reached, misfit⟩ := ih failed
      exact ⟨node, part, .step leads reached, misfit⟩

end Responder.Schema
