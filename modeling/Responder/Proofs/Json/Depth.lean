import Responder.Json.Raw
import Responder.Proofs.Json.Members
import Responder.Proofs.Server.Admission

/-!
# Depth of values

Containers stand inside each other, and there is room for so many of them when a text is read.
Main statement: what is read from a text has its members in order everywhere, and is less deep
than there was room for.
-/

namespace Responder.Json

mutual

/-- How many containers stand inside each other. -/
def depth : Json → Nat
  | .null | .bool _ | .number _ | .string _ => 0
  | .array items => itemsDepth items + 1
  | .object members => membersDepth members + 1

def itemsDepth : List Json → Nat
  | [] => 0
  | item :: rest => max (depth item) (itemsDepth rest)

def membersDepth : List (String × Json) → Nat
  | [] => 0
  | (_, value) :: rest => max (depth value) (membersDepth rest)

end

/-- The members of each object in a value are in ascending order. -/
inductive InOrder : Json → Prop
  | null : InOrder .null
  | bool (value : Bool) : InOrder (.bool value)
  | number (value : Number) : InOrder (.number value)
  | string (text : String) : InOrder (.string text)
  | array {items : List Json} : (∀ item ∈ items, InOrder item) → InOrder (.array items)
  | object {members : List (String × Json)} : Ordered members →
      (∀ member ∈ members, InOrder member.2) → InOrder (.object members)

section
variable {items : List Json} {members : List (String × Json)} {value member : Json}
  {name : String} {bound : Nat}

theorem inOrder_array_iff : (Json.array items).InOrder ↔ ∀ item ∈ items, item.InOrder := by
  constructor
  · intro h
    cases h with
    | array each => exact each
  · exact .array

theorem inOrder_object_iff : (Json.object members).InOrder ↔
    Ordered members ∧ ∀ member ∈ members, member.2.InOrder := by
  constructor
  · intro h
    cases h with
    | object ordered each => exact ⟨ordered, each⟩
  · exact fun both => .object both.1 both.2

theorem itemsDepth_le_iff : itemsDepth items ≤ bound ↔ ∀ item ∈ items, item.depth ≤ bound := by
  induction items with
  | nil => simp [itemsDepth]
  | cons item rest ih => rw [itemsDepth, Nat.max_le, ih, List.forall_mem_cons]

theorem membersDepth_le_iff :
    membersDepth members ≤ bound ↔ ∀ member ∈ members, member.2.depth ≤ bound := by
  induction members with
  | nil => simp [membersDepth]
  | cons member rest ih => rw [membersDepth, Nat.max_le, ih, List.forall_mem_cons]

theorem depth_array_le (each : ∀ item ∈ items, item.depth ≤ bound) :
    (Json.array items).depth ≤ bound + 1 := by
  rw [depth]
  exact Nat.succ_le_succ (itemsDepth_le_iff.2 each)

theorem depth_object_le (each : ∀ member ∈ members, member.2.depth ≤ bound) :
    (Json.object members).depth ≤ bound + 1 := by
  rw [depth]
  exact Nat.succ_le_succ (membersDepth_le_iff.2 each)

theorem depth_lt_object {entry : String × Json} (mem : entry ∈ members) :
    entry.2.depth < (Json.object members).depth := by
  rw [depth]
  exact Nat.lt_succ_of_le (membersDepth_le_iff.1 (Nat.le_refl _) _ mem)

theorem mem_of_lookup (found : lookup name members = some value) : (name, value) ∈ members := by
  obtain ⟨⟨other, _⟩, first, rfl⟩ := Option.map_eq_some_iff.1 found
  obtain rfl : other = name := by simpa using List.find?_some first
  exact List.mem_of_find?_eq_some first

/-- A member in order is the one that is found by its name. -/
theorem Ordered.lookup (ordered : Ordered members) (mem : (name, value) ∈ members) :
    Json.lookup name members = some value := by
  induction members with
  | nil => cases mem
  | cons first rest ih =>
    obtain ⟨other, old⟩ := first
    rw [lookup_cons]
    obtain same | later := List.mem_cons.1 mem
    · cases same
      exact if_pos rfl
    · have before : other < name := List.rel_of_pairwise_cons ordered later
      rw [if_neg (String.ne_of_lt before)]
      exact ih ordered.of_cons later

theorem exists_members_of_field? (given : value.field? name = some member) :
    ∃ members, value = .object members ∧ (name, member) ∈ members := by
  cases value with
  | object members => exact ⟨members, rfl, mem_of_lookup given⟩
  | null | bool | number | string | array => cases given

theorem depth_lt_of_field? (given : value.field? name = some member) :
    member.depth < value.depth := by
  obtain ⟨members, rfl, mem⟩ := exists_members_of_field? given
  exact depth_lt_object mem

theorem InOrder.field? (h : value.InOrder) (given : value.field? name = some member) :
    member.InOrder := by
  obtain ⟨members, rfl, mem⟩ := exists_members_of_field? given
  exact (inOrder_object_iff.1 h).2 _ mem

end

namespace Raw

theorem enter_eq_ok {room inner : Nat} (h : enter room = .ok inner) :
    ∃ left, inner = left + 1 ∧ room = left + 2 := by
  unfold enter at h
  split at h
  · cases h
  · cases h
    exact ⟨room - 2, by omega, by omega⟩

mutual

/-- A value that is read has its members in order and is less deep than there was room for. -/
theorem toJson_spec : (raw : Raw) → ∀ {room : Nat} {value : Json}, 0 < room →
    raw.toJson room = .ok value → value.InOrder ∧ value.depth < room
  | .null, _, _, room, h => by
    cases h
    exact ⟨.null, room⟩
  | .bool b, _, _, room, h => by
    cases h
    exact ⟨.bool b, room⟩
  | .number literal, _, _, room, h => by
    rw [toJson] at h
    split at h
    · cases h
      exact ⟨.number _, room⟩
    · cases h
  | .string text, _, _, room, h => by
    rw [toJson] at h
    obtain ⟨text, -, made⟩ := bind_eq_ok.1 h
    cases made
    exact ⟨.string text, room⟩
  | .array items, _, _, _, h => by
    rw [toJson] at h
    obtain ⟨inner, entered, inside⟩ := bind_eq_ok.1 h
    obtain ⟨left, rfl, rfl⟩ := enter_eq_ok entered
    obtain ⟨values, read, made⟩ := bind_eq_ok.1 inside
    cases made
    have each := toJsonItems_spec items (Nat.succ_pos left) read
    exact ⟨.array fun item mem => (each item mem).1,
      Nat.lt_succ_of_le (depth_array_le fun item mem => Nat.le_of_lt_succ (each item mem).2)⟩
  | .object members, _, _, _, h => by
    rw [toJson] at h
    obtain ⟨inner, entered, inside⟩ := bind_eq_ok.1 h
    obtain ⟨left, rfl, rfl⟩ := enter_eq_ok entered
    obtain ⟨values, read, made⟩ := bind_eq_ok.1 inside
    cases made
    have each := toJsonMembers_spec members (Nat.succ_pos left) read
    obtain ⟨ordered, found⟩ := sorted_spec values
    exact ⟨.object ordered fun member mem => (each member (found member mem)).1,
      Nat.lt_succ_of_le (depth_object_le fun member mem =>
        Nat.le_of_lt_succ (each member (found member mem)).2)⟩

theorem toJsonItems_spec : (items : List Raw) → ∀ {room : Nat} {values : List Json}, 0 < room →
    toJsonItems room items = .ok values → ∀ value ∈ values, value.InOrder ∧ value.depth < room
  | [], _, _, _, h => by
    cases h
    exact List.forall_mem_nil _
  | item :: rest, _, _, room, h => by
    rw [toJsonItems] at h
    obtain ⟨value, first, later⟩ := bind_eq_ok.1 h
    obtain ⟨values, others, made⟩ := bind_eq_ok.1 later
    cases made
    exact List.forall_mem_cons.2 ⟨toJson_spec item room first, toJsonItems_spec rest room others⟩

theorem toJsonMembers_spec : (members : List (Option String × Raw)) →
    ∀ {room : Nat} {values : List (String × Json)}, 0 < room →
    toJsonMembers room members = .ok values →
    ∀ member ∈ values, member.2.InOrder ∧ member.2.depth < room
  | [], _, _, _, h => by
    cases h
    exact List.forall_mem_nil _
  | (name, item) :: rest, _, _, room, h => by
    rw [toJsonMembers] at h
    obtain ⟨name, -, named⟩ := bind_eq_ok.1 h
    obtain ⟨value, first, later⟩ := bind_eq_ok.1 named
    obtain ⟨values, others, made⟩ := bind_eq_ok.1 later
    cases made
    exact List.forall_mem_cons.2
      ⟨toJson_spec item room first, toJsonMembers_spec rest room others⟩

end

end Raw

end Responder.Json
