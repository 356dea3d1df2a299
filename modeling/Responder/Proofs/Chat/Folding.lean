import Mathlib.Data.List.Chain
import Responder.Proofs.Chat.Pairing

/-!
# Folded calls

While a chat is put together, calls that follow each other are folded into one message. Main
statement: if the messages of a chat that fits are taken apart again, they are those of all items
in their order; and no two neighbours are left that could have been folded.
-/

namespace Responder

/-- A message with calls as one message for each call. -/
def ChatMessage.unfolded (m : ChatMessage) : List ChatMessage :=
  if m.isCall then m.calls.map fun call => { m with calls := [call] } else [m]

/-- A message as it comes from an item: with no call, or with one and nothing else. -/
inductive ChatMessage.Single : ChatMessage → Prop
  | plain {m : ChatMessage} : m.calls = [] → Single m
  | call (call : ToolCall) : Single (.ofCall call)

namespace Context

/-- Calls say nothing else, and no two messages with calls are neighbours. -/
structure Folded (messages : List ChatMessage) : Prop where
  bare : ∀ m ∈ messages, m.isCall = true → m.content = [] ∧ m.callId = none
  sparse : messages.IsChain fun m next => ¬ (m.isCall = true ∧ next.isCall = true)

/-- The messages of all items, none of them folded. -/
def items (instructions : Option String) (ancestry : List Response) (input : List InputItem) :
    List ChatMessage :=
  ((instructions.filter (· ≠ "")).map (.ofText .system)).toList ++
    ancestry.flatMap (fun r => r.input.map .ofInputItem ++ r.output.map .ofOutputItem) ++
    input.map .ofInputItem

variable {messages more : List ChatMessage} {m last : ChatMessage}

theorem single_ofInputItem (item : InputItem) : (ChatMessage.ofInputItem item).Single := by
  cases item with
  | message id role content => exact .plain rfl
  | functionCall id callId name arguments => exact .call _
  | functionCallOutput id callId output => exact .plain rfl

theorem single_ofOutputItem (item : OutputItem) : (ChatMessage.ofOutputItem item).Single := by
  cases item with
  | message id status content => exact .plain rfl
  | functionCall id status callId name arguments => exact .call _

theorem isCall_of_no_calls (none : m.calls = []) : m.isCall = false := by
  simp [ChatMessage.isCall, none]

theorem unfolded_single (h : m.Single) : m.unfolded = [m] := by
  cases h with
  | plain none => simp [ChatMessage.unfolded, isCall_of_no_calls none]
  | call call => rfl

theorem bare_single (h : m.Single) (calls : m.isCall = true) :
    m.content = [] ∧ m.callId = none := by
  cases h with
  | plain none => cases calls.symm.trans (isCall_of_no_calls none)
  | call call => exact ⟨rfl, rfl⟩

/-- A call is folded into the message before it if that has calls. -/
theorem foldsInto_iff (h : m.Single) :
    foldsInto m last = true ↔ m.isCall = true ∧ last.isCall = true := by
  unfold foldsInto
  rw [Bool.and_eq_true, Bool.and_eq_true]
  refine and_iff_left_of_imp fun both => ?_
  rw [(bare_single h both.1).1]
  rfl

theorem append_concat (front : List ChatMessage) (last m : ChatMessage) :
    append (front ++ [last]) m =
      if foldsInto m last then front ++ [{ last with calls := last.calls ++ m.calls }]
      else front ++ [last] ++ [m] := by
  simp [append]

theorem isCall_extended (call : ToolCall) (calls : last.isCall = true) :
    ChatMessage.isCall { last with calls := last.calls ++ [call] } = true :=
  isCall_iff.2 ⟨(isCall_iff.1 calls).1, List.concat_ne_nil call last.calls⟩

/-- One more call in a message that has nothing but calls. -/
theorem unfolded_extended (call : ToolCall) (calls : last.isCall = true)
    (bare : last.content = [] ∧ last.callId = none) :
    ChatMessage.unfolded { last with calls := last.calls ++ [call] } =
      last.unfolded ++ [.ofCall call] := by
  have assistant : last.role = .assistant := (isCall_iff.1 calls).1
  have alone : ({ last with calls := [call] } : ChatMessage) = .ofCall call := by
    rw [ChatMessage.ofCall, assistant, bare.1, bare.2]
  unfold ChatMessage.unfolded
  rw [if_pos (isCall_extended call calls), if_pos calls, List.map_append, ← alone]
  rfl

/-- A call is folded into the last message. -/
theorem Folded.fold {front : List ChatMessage} (h : Folded (front ++ [last])) (call : ToolCall)
    (calls : last.isCall = true) :
    Folded (front ++ [{ last with calls := last.calls ++ [call] }]) := by
  have bare := h.bare last (by simp) calls
  obtain ⟨before, -, neighbours⟩ := List.isChain_append.1 h.sparse
  constructor
  · intro other mem other_calls
    rcases List.mem_append.1 mem with mem | mem
    · exact h.bare other (List.mem_append_left _ mem) other_calls
    · rw [List.mem_singleton.1 mem]
      exact bare
  · refine List.isChain_append.2 ⟨before, List.isChain_singleton _, ?_⟩
    rintro x ends _ ⟨⟩ ⟨both, -⟩
    exact neighbours x ends last rfl ⟨both, calls⟩

/-- A message that cannot be folded is put behind the others. -/
theorem Folded.push (h : Folded messages) (single : m.Single)
    (stays : ∀ last ∈ messages.getLast?, ¬ foldsInto m last = true) :
    Folded (messages ++ [m]) := by
  constructor
  · intro other mem calls
    rcases List.mem_append.1 mem with mem | mem
    · exact h.bare other mem calls
    · rw [List.mem_singleton.1 mem] at calls ⊢
      exact bare_single single calls
  · refine List.isChain_append.2 ⟨h.sparse, List.isChain_singleton _, ?_⟩
    rintro last ends _ ⟨⟩ ⟨calls, calls'⟩
    exact stays last ends ((foldsInto_iff single).2 ⟨calls', calls⟩)

/-- A message that is added stays what it is, folded or not. -/
theorem Folded.append (h : Folded messages) (single : m.Single) :
    Folded (append messages m) ∧
      (append messages m).flatMap ChatMessage.unfolded =
        messages.flatMap ChatMessage.unfolded ++ [m] := by
  have pushed : (messages ++ [m]).flatMap ChatMessage.unfolded =
      messages.flatMap ChatMessage.unfolded ++ [m] := by
    rw [List.flatMap_append, List.flatMap_singleton, unfolded_single single]
  rcases List.eq_nil_or_concat messages with rfl | ⟨front, last, rfl⟩
  · exact ⟨h.push single nofun, pushed⟩
  rw [List.concat_eq_append] at h pushed ⊢
  rw [append_concat]
  split
  · next folds =>
    obtain ⟨calls, called⟩ := (foldsInto_iff single).1 folds
    cases single with
    | plain none => cases calls.symm.trans (isCall_of_no_calls none)
    | call call =>
      refine ⟨h.fold call called, ?_⟩
      have bare := h.bare last (by simp) called
      have extended := unfolded_extended call called bare
      change (front ++ [{ last with calls := last.calls ++ [call] }]).flatMap _ = _
      rw [List.flatMap_append, List.flatMap_append, List.flatMap_singleton,
        List.flatMap_singleton, extended, List.append_assoc]
  · next stays =>
    refine ⟨h.push single ?_, pushed⟩
    intro other ends
    rw [List.getLast?_concat] at ends
    cases ends
    exact stays

theorem Folded.appendAll (h : Folded messages) (single : ∀ m ∈ more, m.Single) :
    Folded (appendAll messages more) ∧
      (appendAll messages more).flatMap ChatMessage.unfolded =
        messages.flatMap ChatMessage.unfolded ++ more := by
  induction more generalizing messages with
  | nil => exact ⟨h, (List.append_nil _).symm⟩
  | cons m rest ih =>
    obtain ⟨first, others⟩ := List.forall_mem_cons.1 single
    obtain ⟨folded, same⟩ := h.append first
    obtain ⟨all, told⟩ := ih folded others
    refine ⟨all, told.trans ?_⟩
    rw [same, List.append_assoc]
    rfl

theorem instructionMessages_eq (instructions : Option String) :
    instructionMessages instructions =
      ((instructions.filter (· ≠ "")).map (.ofText .system)).toList := by
  cases instructions with
  | none => rfl
  | some text => by_cases empty : text = "" <;> simp [instructionMessages, empty, Option.filter]

theorem single_of_item {instructions : Option String} {ancestry : List Response}
    {input : List InputItem} (mem : m ∈ items instructions ancestry input) : m.Single := by
  rcases List.mem_append.1 mem with earlier | new
  · rcases List.mem_append.1 earlier with instruction | ancestor
    · obtain ⟨text, -, rfl⟩ := Option.map_eq_some_iff.1 (Option.mem_toList.1 instruction)
      exact .plain rfl
    · obtain ⟨r, -, within⟩ := List.mem_flatMap.1 ancestor
      rcases List.mem_append.1 within with asked | answered
      · obtain ⟨item, -, rfl⟩ := List.mem_map.1 asked
        exact single_ofInputItem item
      · obtain ⟨item, -, rfl⟩ := List.mem_map.1 answered
        exact single_ofOutputItem item
  · obtain ⟨item, -, rfl⟩ := List.mem_map.1 new
    exact single_ofInputItem item

/-- The whole chat of a turn is put together item by item. -/
theorem untruncated_eq (instructions : Option String) (ancestry : List Response)
    (input : List InputItem) :
    untruncated instructions ancestry input =
      appendAll [] (items instructions ancestry input) := by
  have start : appendAll [] (instructionMessages instructions) =
      instructionMessages instructions := by
    rw [instructionMessages_eq]
    cases instructions.filter (· ≠ "") <;> rfl
  unfold untruncated history
  rw [← start, instructionMessages_eq]
  unfold appendAll items
  rw [List.foldl_append, List.foldl_append]
  rfl

variable {count : Counter} {window : Nat}

/-- A chat that fits has the messages of all items in their order: the calls that follow each
other are folded into one message, and no others are. -/
theorem build_unfolds {instructions : Option String} {ancestry : List Response}
    {input : List InputItem}
    (fits : totalTokens count (untruncated instructions ancestry input) ≤ window)
    (truncation : Truncation) :
    ∃ built, build count window truncation instructions ancestry input = .ok built ∧
      built.flatMap ChatMessage.unfolded = items instructions ancestry input ∧
      built.IsChain fun m next => ¬ (m.isCall = true ∧ next.isCall = true) := by
  have none : Folded [] := ⟨nofun, .nil⟩
  obtain ⟨folded, same⟩ := none.appendAll fun m (mem : m ∈ items instructions ancestry input) =>
    single_of_item mem
  rw [← untruncated_eq] at folded same
  exact ⟨untruncated instructions ancestry input, if_pos fits, same, folded.sparse⟩

/-- What the weather was asked and told, with all calls of the last turn and the new one in one
message. -/
def weatherTold : List ChatMessage :=
  [.ofText .system "be brief", .ofText .user "is it cold", .ofText .assistant "yes",
    .ofText .user "does it rain",
    { role := .assistant, calls := [⟨"call_1", "look", "out"⟩, ⟨"call_2", "look", "up"⟩] },
    { role := .tool, content := [.text "it does"], callId := some "call_1" }]

/-- The last call of the old turn and the first of the new one are told in one message. -/
theorem weather_unfolds :
    totalTokens (fun _ => 1) (untruncated (some "be brief") [weather] weatherInput) ≤ 100 ∧
      build (fun _ => 1) 100 .disabled (some "be brief") [weather] weatherInput =
        .ok weatherTold ∧
      weatherTold.flatMap ChatMessage.unfolded =
        items (some "be brief") [weather] weatherInput ∧
      weatherTold.IsChain fun m next => ¬ (m.isCall = true ∧ next.isCall = true) := by
  have fits : totalTokens (fun _ => 1)
      (untruncated (some "be brief") [weather] weatherInput) ≤ 100 := by decide
  obtain ⟨built, same, unfolds, sparse⟩ := build_unfolds fits .disabled
  have told : build (fun _ => 1) 100 .disabled (some "be brief") [weather] weatherInput =
      .ok weatherTold := rfl
  cases told.symm.trans same
  exact ⟨fits, told, unfolds, sparse⟩

end Context

end Responder
