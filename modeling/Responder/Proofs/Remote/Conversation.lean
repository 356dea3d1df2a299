import Mathlib.Data.List.Forall2
import Responder.Proofs.Chat.Folding
import Responder.Proofs.Json.Members
import Responder.Remote.Body

/-!
# What a chat server is told

The messages of a chat are written in one of four ways: with a list of parts if there is a picture,
without content if there are only calls, and with one text otherwise; the id of a call only where
its result is told. Main statement: of a chat that was built for a turn nothing is lost but how a
text without pictures is cut into parts.
-/

namespace Responder

namespace Context

/-- Only results of tools answer a call, and calls say nothing else. -/
structure Formed (m : ChatMessage) : Prop where
  result : m.callId.isSome = true ↔ m.role = .tool
  bare : m.calls ≠ [] → m.content = []

theorem formed_ofText {role : ChatRole} (text : String) (other : role ≠ .tool) :
    Formed (.ofText role text) :=
  ⟨iff_of_false nofun other, absurd rfl⟩

theorem formed_ofCall (call : ToolCall) : Formed (.ofCall call) :=
  ⟨iff_of_false nofun nofun, fun _ => rfl⟩

theorem formed_ofInputItem (item : InputItem) : Formed (.ofInputItem item) := by
  cases item with
  | message id role content => cases role <;> exact ⟨iff_of_false nofun nofun, absurd rfl⟩
  | functionCall id callId name arguments => exact formed_ofCall _
  | functionCallOutput id callId output => exact ⟨iff_of_true rfl rfl, absurd rfl⟩

theorem formed_ofOutputItem (item : OutputItem) : Formed (.ofOutputItem item) := by
  cases item with
  | message id status content => exact ⟨iff_of_false nofun nofun, absurd rfl⟩
  | functionCall id status callId name arguments => exact formed_ofCall _

variable {messages more : List ChatMessage}

/-- A call that is folded into a message leaves it proper. -/
theorem formed_append {m : ChatMessage} (all : ∀ m ∈ messages, Formed m) (new : Formed m) :
    ∀ other ∈ append messages m, Formed other := by
  rcases List.eq_nil_or_concat messages with rfl | ⟨front, last, rfl⟩
  · exact List.forall_mem_singleton.2 new
  rw [List.concat_eq_append] at all ⊢
  rw [append_concat]
  split
  · next folds =>
    obtain ⟨early, ends⟩ := List.forall_mem_append.1 all
    have last := ends last List.mem_cons_self
    refine List.forall_mem_append.2 ⟨early, List.forall_mem_singleton.2 ⟨last.result, fun _ => ?_⟩⟩
    simp only [foldsInto, Bool.and_eq_true] at folds
    exact last.bare (isCall_iff.1 folds.1.2).2
  · exact List.forall_mem_append.2 ⟨all, List.forall_mem_singleton.2 new⟩

theorem formed_appendAll (all : ∀ m ∈ messages, Formed m) (new : ∀ m ∈ more, Formed m) :
    ∀ m ∈ appendAll messages more, Formed m := by
  induction more generalizing messages with
  | nil => exact all
  | cons m rest ih =>
    obtain ⟨first, others⟩ := List.forall_mem_cons.1 new
    exact ih (formed_append all first) others

theorem formed_untruncated (instructions : Option String) (ancestry : List Response)
    (input : List InputItem) : ∀ m ∈ untruncated instructions ancestry input, Formed m := by
  refine formed_appendAll (formed_appendAll ?_ ?_) ?_
  · intro m mem
    rw [instructionMessages_eq] at mem
    obtain ⟨text, -, rfl⟩ := Option.map_eq_some_iff.1 (Option.mem_toList.1 mem)
    exact formed_ofText text (by decide)
  · intro m mem
    obtain ⟨r, -, within⟩ := List.mem_flatMap.1 mem
    rcases List.mem_append.1 within with asked | answered
    · obtain ⟨item, -, rfl⟩ := List.mem_map.1 asked
      exact formed_ofInputItem item
    · obtain ⟨item, -, rfl⟩ := List.mem_map.1 answered
      exact formed_ofOutputItem item
  · intro m mem
    obtain ⟨item, -, rfl⟩ := List.mem_map.1 mem
    exact formed_ofInputItem item

/-- A chat that is built for some turn. -/
def Built (messages : List ChatMessage) : Prop :=
  ∃ count window truncation instructions ancestry input,
    build count window truncation instructions ancestry input = .ok messages

/-- Truncation leaves messages out and adds the notice. -/
theorem Built.formed (built : Built messages) : ∀ m ∈ messages, Formed m := by
  obtain ⟨count, window, truncation, instructions, ancestry, input, built⟩ := built
  have whole := formed_untruncated instructions ancestry input
  unfold build at built
  dsimp only at built
  split at built
  · cases built
    exact whole
  · split at built
    · cases built
    · obtain ⟨parts, -⟩ := pin_spec (untruncated instructions ancestry input)
        (inputStart (history instructions ancestry) input)
      obtain ⟨head, tail, kept, rfl, -⟩ := truncate_spec built
      rw [← parts] at whole
      obtain ⟨earlier, pinned⟩ := List.forall_mem_append.1 whole
      obtain ⟨early, late⟩ := List.forall_mem_append.1 fun m mem => earlier m (kept.subset mem)
      refine List.forall_mem_append.2 ⟨List.forall_mem_append.2 ⟨List.forall_mem_append.2
        ⟨early, ?_⟩, late⟩, pinned⟩
      split
      · exact List.forall_mem_singleton.2 (formed_ofText notice (by decide))
      · exact nofun

end Context

namespace Remote

open Json (field?_ofMembers)

/-- Messages that say the same, however their texts are cut. -/
structure SameMessage (m m' : ChatMessage) : Prop where
  role : m.role = m'.role
  calls : m.calls = m'.calls
  callId : m.callId = m'.callId
  pictured : m.hasImage = m'.hasImage
  content : if m.hasImage then m.content = m'.content else m.text = m'.text

theorem partJson_injective : Function.Injective partJson := by
  intro p p' same
  have member (name : String) : (partJson p).field name = (partJson p').field name :=
    congrArg (Json.field · name) same
  cases p with
  | text words =>
    cases p' with
    | text words' => exact congrArg _ (Json.string.inj (member "text"))
    | image => exact absurd (Json.string.inj (member "type")) (by decide)
  | image url detail =>
    cases p' with
    | text => exact absurd (Json.string.inj (member "type")) (by decide)
    | image url' detail' =>
      have inside (name : String) := congrArg (Json.field · name) (member "image_url")
      cases detail with
      | none =>
        cases detail' with
        | none => exact congrArg (ChatPart.image · none) (Json.string.inj (inside "url"))
        | some => cases inside "detail"
      | some fine =>
        cases detail' with
        | none => cases inside "detail"
        | some fine' =>
          exact congrArg₂ (fun url detail => ChatPart.image url (some detail))
            (Json.string.inj (inside "url")) (Json.string.inj (inside "detail"))

theorem callJson_injective : Function.Injective callJson := by
  intro call call' same
  have member (name : String) : (callJson call).field name = (callJson call').field name :=
    congrArg (Json.field · name) same
  have inside (name : String) := congrArg (Json.field · name) (member "function")
  cases call
  cases call'
  cases Json.string.inj (member "id")
  cases Json.string.inj (inside "name")
  cases Json.string.inj (inside "arguments")
  rfl

variable {m m' : ChatMessage}

theorem role_of_text {role role' : ChatRole} (same : role.text = role'.text) : role = role' := by
  cases role <;> cases role' <;> first | rfl | exact absurd same (by decide)

/-- Without calls the content tells whether there is a picture; with calls there is none. -/
theorem contentJson_eq_iff (formed : m.calls ≠ [] → m.content = [])
    (formed' : m'.calls ≠ [] → m'.content = []) (calls : m.calls = m'.calls) :
    contentJson m = contentJson m' ↔ m.hasImage = m'.hasImage ∧
      if m.hasImage then m.content = m'.content else m.text = m'.text := by
  by_cases silent : m.calls = []
  · have plain (m : ChatMessage) (silent : m.calls = []) : contentJson m =
        if m.hasImage then .array (m.content.map partJson) else .string m.text := by
      simp [contentJson, silent]
    rw [plain m silent, plain m' (calls ▸ silent)]
    cases m.hasImage <;> cases m'.hasImage <;>
      simp [partJson_injective.list_map.eq_iff]
  · have bare := formed silent
    have bare' := formed' (calls ▸ silent)
    simp [contentJson, ChatMessage.hasImage, ChatMessage.text, bare, bare', silent, ← calls]

theorem field_role (m : ChatMessage) : (messageJson m).field "role" = .string m.role.text := by
  rw [messageJson, Json.field, field?_ofMembers]
  split <;> split <;> cases m.callId <;> rfl

theorem field_content (m : ChatMessage) :
    (messageJson m).field "content" = contentJson m := by
  rw [messageJson, Json.field, field?_ofMembers]
  split <;> split <;> cases m.callId <;> rfl

theorem field_toolCalls (m : ChatMessage) : (messageJson m).field "tool_calls" =
    if m.calls.isEmpty then .null else .array (m.calls.map callJson) := by
  rw [messageJson, Json.field, field?_ofMembers]
  split <;> split <;> cases m.callId <;> rfl

theorem field_toolCallId (m : ChatMessage) : (messageJson m).field "tool_call_id" =
    if m.role = .tool then Json.ofStringOption m.callId else .null := by
  rw [messageJson, Json.field, field?_ofMembers]
  split <;> split <;> cases m.callId <;> rfl

theorem ofStringOption_injective : Function.Injective Json.ofStringOption
  | none, none, _ => rfl
  | some _, some _, same => congrArg some (Json.string.inj same)

theorem messageJson_eq_iff (formed : Context.Formed m) (formed' : Context.Formed m') :
    messageJson m = messageJson m' ↔ SameMessage m m' := by
  constructor
  · intro same
    have member (name : String) : (messageJson m).field name = (messageJson m').field name :=
      congrArg (Json.field · name) same
    have role : m.role = m'.role := by
      have told := member "role"
      rw [field_role, field_role] at told
      exact role_of_text (Json.string.inj told)
    have calls : m.calls = m'.calls := by
      have told := member "tool_calls"
      rw [field_toolCalls, field_toolCalls] at told
      split at told <;> split at told
      · next empty empty' => rw [List.isEmpty_iff.1 empty, List.isEmpty_iff.1 empty']
      · cases told
      · cases told
      · exact callJson_injective.list_map (Json.array.inj told)
    have callId : m.callId = m'.callId := by
      have told := member "tool_call_id"
      rw [field_toolCallId, field_toolCallId, ← role] at told
      split at told
      · exact ofStringOption_injective told
      · next other =>
        -- The id is told of results only, and nothing else has one.
        rw [Option.not_isSome_iff_eq_none.1 (mt formed.result.1 other),
          Option.not_isSome_iff_eq_none.1 (mt formed'.result.1 (role ▸ other))]
    have content := member "content"
    rw [field_content, field_content] at content
    obtain ⟨pictured, content⟩ := (contentJson_eq_iff formed.bare formed'.bare calls).1 content
    exact ⟨role, calls, callId, pictured, content⟩
  · intro same
    have content := (contentJson_eq_iff formed.bare formed'.bare same.calls).2
      ⟨same.pictured, same.content⟩
    rw [messageJson, messageJson, content, same.role, same.calls, same.callId]

theorem map_messageJson_eq_iff {messages messages' : List ChatMessage}
    (formed : ∀ m ∈ messages, Context.Formed m) (formed' : ∀ m ∈ messages', Context.Formed m) :
    messages.map messageJson = messages'.map messageJson ↔
      List.Forall₂ SameMessage messages messages' := by
  induction messages generalizing messages' with
  | nil => rw [List.map_nil, eq_comm, List.map_eq_nil_iff, List.forall₂_nil_left_iff]
  | cons m rest ih =>
    obtain ⟨first, others⟩ := List.forall_mem_cons.1 formed
    cases messages' with
    | nil => exact iff_of_false nofun nofun
    | cons m' rest' =>
      obtain ⟨first', others'⟩ := List.forall_mem_cons.1 formed'
      rw [List.map_cons, List.map_cons, List.cons.injEq, List.forall₂_cons,
        messageJson_eq_iff first first', ih others others']

theorem field_messages (r : ChatRequest) (stream : Bool) :
    (bodyJson r stream).field "messages" = .array (r.messages.map messageJson) := by
  rw [bodyJson, Json.field, field?_ofMembers]
  cases r.maxOutputTokens <;> cases r.outputSchema <;> cases stream <;> split <;> rfl

/-- A question, a call that it leads to, and the result of the call. -/
def coldInput (question : List InputPart) : List InputItem :=
  [.message "1" .user question, .functionCall "2" "call_1" "look" "out",
    .functionCallOutput "3" "call_1" "it is"]

def coldRequest (question : List InputPart) : ChatRequest where
  model := "small"
  messages := Context.untruncated none [] (coldInput question)
  tools := []
  toolChoice := .mode "auto"
  outputSchema := none
  temperature := singleOne
  topP := singleOne
  maxOutputTokens := none
  parallelToolCalls := true

end Remote

end Responder
