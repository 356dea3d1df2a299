import Mathlib.Data.Nat.ModEq
import Responder.Proofs.Item.Reading

/-!
# Ids of input items

An input item keeps the id that is written with it and gets one from the lane of its turn
otherwise. Main statement: the items of an input have different ids if the ids that are written
differ from each other and from those of the lane.
-/

namespace Responder

namespace Id

theorem letter_injective : ∀ a < base, ∀ b < base, letter a = letter b → a = b := by
  decide +kernel

theorem length_code (length n : Nat) : (code length n).length = length := by
  induction length generalizing n with
  | zero => rfl
  | succ length ih => rw [code, List.length_cons, ih]

/-- A code tells its number. -/
theorem code_injective {length a b : Nat} (ha : a < base ^ length) (hb : b < base ^ length)
    (h : code length a = code length b) : a = b := by
  induction length generalizing a b with
  | zero =>
    rw [Nat.pow_zero] at ha hb
    omega
  | succ length ih =>
    have pos : 0 < base := by decide
    obtain ⟨low, high⟩ := List.cons.inj h
    have low := letter_injective _ (Nat.mod_lt a pos) _ (Nat.mod_lt b pos) low
    have high := ih (Nat.div_lt_of_lt_mul (by rwa [Nat.pow_succ'] at ha))
      (Nat.div_lt_of_lt_mul (by rwa [Nat.pow_succ'] at hb)) high
    rw [← Nat.div_add_mod a base, ← Nat.div_add_mod b base, low, high]

end Id

/-- The slots of a lane have different ids, whatever they name. -/
theorem Lane.id_injective {lane : Lane} {kind kind' : IdKind} {a b : Slot}
    (ha : a.number < width) (hb : b.number < width) (h : lane.id kind a = lane.id kind' b) :
    a = b := by
  unfold Lane.id at h
  dsimp only at h
  have texts := congrArg String.toList h
  rw [String.toList_append, String.toList_append, String.toList_ofList, String.toList_ofList]
    at texts
  obtain ⟨-, codes⟩ := List.append_inj' texts (by rw [Id.length_code, Id.length_code])
  have pos : 0 < Nat.pow Id.base Id.codeLength := by decide
  have mixed : (lane.number * width + a.number) * Id.multiplier + lane.seed ≡
      (lane.number * width + b.number) * Id.multiplier + lane.seed
        [MOD Nat.pow Id.base Id.codeLength] :=
    Id.code_injective (Nat.mod_lt _ pos) (Nat.mod_lt _ pos) codes
  have coprime : Nat.gcd (Nat.pow Id.base Id.codeLength) Id.multiplier = 1 := by decide +kernel
  have numbers := ((mixed.add_right_cancel' _).cancel_right_of_coprime coprime).add_left_cancel' _
  have most : width < Nat.pow Id.base Id.codeLength := by decide +kernel
  exact Slot.number_injective
    (numbers.eq_of_lt_of_lt (ha.trans most) (hb.trans most))

namespace InputItem

variable {lane : Lane} {index : Nat} {values : List Json} {items : List InputItem}

/-- The id that is written with an item. -/
def written (value : Json) : Option String := (RawItem.ofJson value).toOption.bind (·.id)

theorem ofJson_id {value : Json} {item : InputItem} (h : ofJson lane index value = .ok item) :
    ∃ kind, item.id = (written value).getD (lane.id kind (.input index)) := by
  obtain ⟨raw, fields, h⟩ := ofJson_eq_ok.1 h
  rw [written, fields]
  cases normalize_kept h with
  | message => exact ⟨.message, rfl⟩
  | functionCall => exact ⟨.functionCall, rfl⟩
  | functionCallOutput => exact ⟨.message, rfl⟩

theorem length_listOfJson (h : listOfJson lane index values = .ok items) :
    items.length = values.length := by
  induction values generalizing index items with
  | nil =>
    cases h
    rfl
  | cons value rest ih =>
    obtain ⟨first, others, rfl, -, later⟩ := listOfJson_cons h
    rw [List.length_cons, List.length_cons, ih later]

/-- Where an id comes from. -/
theorem written_or_of_lane (h : listOfJson lane index values = .ok items) {item : InputItem}
    (mem : item ∈ items) : item.id ∈ values.filterMap written ∨
      ∃ kind place, index ≤ place ∧ place < index + values.length ∧
        item.id = lane.id kind (.input place) := by
  induction values generalizing index items with
  | nil =>
    cases h
    cases mem
  | cons value rest ih =>
    obtain ⟨first, others, rfl, read, later⟩ := listOfJson_cons h
    rw [List.length_cons]
    obtain rfl | mem := List.mem_cons.1 mem
    · obtain ⟨kind, id⟩ := ofJson_id read
      cases given : written value with
      | none =>
        rw [given] at id
        exact .inr ⟨kind, index, Nat.le_refl _, by omega, id⟩
      | some own =>
        rw [given] at id
        exact .inl (List.mem_filterMap.2 ⟨value, List.mem_cons_self, given.trans (id ▸ rfl)⟩)
    · obtain there | ⟨kind, place, low, high, id⟩ := ih later mem
      · obtain ⟨other, early, given⟩ := List.mem_filterMap.1 there
        exact .inl (List.mem_filterMap.2 ⟨other, List.mem_cons_of_mem _ early, given⟩)
      · exact .inr ⟨kind, place, by omega, by omega, id⟩

/-- The ids that are written differ from each other and from those that the lane has for the
places up to a bound. -/
structure Apart (lane : Lane) (bound : Nat) (values : List Json) : Prop where
  once : (values.filterMap written).Nodup
  foreign : ∀ id ∈ values.filterMap written, ∀ place < bound, ∀ kind,
    id ≠ lane.id kind (.input place)

/-- Items have different ids if those that are written are apart. -/
theorem nodup_ids {bound : Nat} (h : listOfJson lane index values = .ok items)
    (apart : Apart lane bound values) (within : index + values.length ≤ bound)
    (fits : 3 * bound ≤ Lane.width) : (items.map InputItem.id).Nodup := by
  induction values generalizing index items with
  | nil =>
    cases h
    exact List.nodup_nil
  | cons value rest ih =>
    obtain ⟨first, others, rfl, read, later⟩ := listOfJson_cons h
    obtain ⟨once, foreign⟩ := apart
    obtain ⟨kind, id⟩ := ofJson_id read
    rw [List.length_cons] at within
    rw [List.map_cons, List.nodup_cons]
    cases given : written value with
    | none =>
      rw [List.filterMap_cons_none given] at once foreign
      rw [given] at id
      refine ⟨fun mem => ?_, ih later ⟨once, foreign⟩ (by omega)⟩
      obtain ⟨other, there, same⟩ := List.mem_map.1 mem
      have same := same.trans id
      obtain own | ⟨kind', place, low, high, made⟩ := written_or_of_lane later there
      · exact foreign _ own index (by omega) kind same
      · have slots := Lane.id_injective (a := .input place) (b := .input index)
          (by rw [Slot.number]; omega) (by rw [Slot.number]; omega) (made.symm.trans same)
        cases slots
        omega
    | some own =>
      rw [List.filterMap_cons_some given] at once foreign
      obtain ⟨new, once⟩ := List.nodup_cons.1 once
      obtain ⟨apart, foreign⟩ := List.forall_mem_cons.1 foreign
      refine ⟨fun mem => ?_, ih later ⟨once, foreign⟩ (by omega)⟩
      obtain ⟨other, there, same⟩ := List.mem_map.1 mem
      have same : other.id = own := same.trans (id.trans (by rw [given, Option.getD_some]))
      obtain again | ⟨kind', place, -, high, made⟩ := written_or_of_lane later there
      · exact new (same ▸ again)
      · exact apart place (by omega) kind' (same.symm.trans made)

end InputItem

end Responder
