import Responder.Proofs.Item.Reading
import Responder.Proofs.Json.Spelling

/-!
# Items that are shown and sent again

The input of a response is shown as JSON text, and a client may send what it was shown. Main
statement: an item that was once read from a request is read from its own text as the same item,
id and all, at any place of any other request.
-/

namespace Responder

open Json (Legible)

theorem InputPart.legible_toJson (part : InputPart) : Legible 1 part.toJson := by
  cases part with
  | inputText text | outputText text =>
    apply Json.legible_ofMembers
    simp [Json.legible_string]
  | image url detail =>
    apply Json.legible_ofMembers
    cases detail <;> simp [Json.legible_string]

namespace InputItem

variable {lane : Lane} {index : Nat} {value : Json} {item : InputItem}

theorem legible_toJson (item : InputItem) : Legible 3 item.toJson := by
  have plain (text : String) : Legible 2 (.string text) :=
    (Json.legible_string text).mono (Nat.zero_le 2)
  cases item with
  | message id role content =>
    have parts : Legible 2 (.array (content.map InputPart.toJson)) := by
      refine Json.legible_array fun shown mem => ?_
      obtain ⟨part, -, rfl⟩ := List.mem_map.1 mem
      exact part.legible_toJson
    apply Json.legible_ofMembers
    simp [plain, parts]
  | functionCall | functionCallOutput =>
    apply Json.legible_ofMembers
    simp [plain]

/-- An item that is read from any value, at any place, can be read from the text in which it is
shown, and comes out the same wherever it is sent again. -/
theorem shown_again (read : ofJson lane index value = .ok item) :
    ∃ shown raw, Json.parse item.toJson.text = .ok shown ∧ RawItem.ofJson shown = .ok raw ∧
      ∀ lane' index', normalize lane' index' raw = .ok item := by
  obtain ⟨_, -, kept⟩ := ofJson_eq_ok.1 read
  have again : Reads item.toJson item := reads_toJson (normalize_normal kept)
  have parsed : Json.parse item.toJson.text = .ok item.toJson :=
    Json.parse_text item.legible_toJson (by decide)
  obtain ⟨raw, fields, -⟩ := ofJson_eq_ok.1 (again lane index)
  refine ⟨item.toJson, raw, parsed, fields, fun lane' index' => ?_⟩
  rw [← ofJson_eq fields]
  exact again lane' index'

/-- What an assistant said before: a refusal, and a picture. It has no id and no type. -/
def refused : Json := .ofMembers
  [("role", .string "assistant"), ("content", .array [
    .ofMembers [("type", .string "refusal"), ("refusal", .string "I \"can't\"\n")],
    .ofMembers [("type", .string "input_image"), ("image_url", .string "a.png"),
      ("detail", .null)]])]

/-- Its id is the one it got when it was first read, and its refusal stays a text. -/
theorem refused_again :
    let item := message (Lane.id {} .message (.input 2)) .assistant
      [.outputText "I \"can't\"\n", .image "a.png" none]
    ofJson {} 2 refused = .ok item ∧
      ∃ shown raw, Json.parse item.toJson.text = .ok shown ∧ RawItem.ofJson shown = .ok raw ∧
        normalize { number := 1 } 0 raw = .ok item := by
  intro item
  have read : ofJson {} 2 refused = .ok item := by rfl
  obtain ⟨shown, raw, parsed, fields, same⟩ := shown_again read
  exact ⟨read, shown, raw, parsed, fields, same _ _⟩

end InputItem

end Responder
