import Mathlib.Data.List.Forall2
import Responder.Proofs.Server.Admission

/-!
# Items that are read back

An item is shown as JSON, and a client may send it again as input. Main statement: an input item
in the form in which items are kept is read back as itself, and an output item that is whole as
the input item that says the same.
-/

namespace Responder

section except

variable {ε α β : Type} {f : α → Except ε β} {items : List α} {done : List β}

theorem mapM_eq_ok {g : α → β} (h : ∀ item ∈ items, f item = .ok (g item)) :
    items.mapM f = .ok (items.map g) := by
  induction items with
  | nil => rfl
  | cons item rest ih =>
    rw [List.mapM_cons, h item List.mem_cons_self,
      ih fun other mem => h other (List.mem_cons_of_mem _ mem)]
    rfl

theorem mem_of_mapM_eq_ok (h : items.mapM f = .ok done) {b : β} (mem : b ∈ done) :
    ∃ item ∈ items, f item = .ok b := by
  induction items generalizing done with
  | nil =>
    cases h
    cases mem
  | cons item rest ih =>
    rw [List.mapM_cons] at h
    obtain ⟨first, made, h⟩ := bind_eq_ok.1 h
    obtain ⟨others, later, h⟩ := bind_eq_ok.1 h
    cases h
    obtain rfl | mem := List.mem_cons.1 mem
    · exact ⟨item, List.mem_cons_self, made⟩
    · obtain ⟨other, there, made⟩ := ih later mem
      exact ⟨other, List.mem_cons_of_mem _ there, made⟩

end except

theorem Role.ofText?_text (role : Role) : ofText? role.text = some role := by
  cases role <;> rfl

namespace InputPart

/-- A part in the form in which parts are kept. -/
def Normal (role : Role) : InputPart → Prop
  | inputText _ => role ≠ .assistant
  | outputText _ => True
  | image url _ => url ≠ ""

/-- A part as it is written when it is shown. -/
def raw : InputPart → RawPart
  | inputText text => .plain text
  | outputText text => .outputText text
  | image url detail => .image (some url) detail

theorem ofJson_toJson (part : InputPart) : RawPart.ofJson part.toJson = .ok part.raw := by
  cases part with
  | inputText text => rfl
  | outputText text => rfl
  | image url detail => cases detail <;> rfl

end InputPart

namespace OutputPart

def raw : OutputPart → RawPart
  | outputText text => .outputText text
  | refusal text => .refusal text

/-- The part of an input that says the same. -/
def asInput : OutputPart → InputPart
  | outputText text | refusal text => .outputText text

theorem ofJson_toJson (part : OutputPart) : RawPart.ofJson part.toJson = .ok part.raw := by
  cases part <;> rfl

end OutputPart

namespace InputItem

variable {lane : Lane} {index : Nat} {item : InputItem}

/-- An item in the form in which items are kept. -/
def Normal : InputItem → Prop
  | message _ role content => content ≠ [] ∧ ∀ part ∈ content, part.Normal role
  | functionCall _ callId name _ => callId ≠ "" ∧ name ≠ ""
  | functionCallOutput _ callId _ => callId ≠ ""

theorem textPart_normal (role : Role) (text : String) : (textPart role text).Normal role := by
  unfold textPart
  split
  · trivial
  · next other => exact other

theorem normalizePart_normal {role : Role} {raw : RawPart} {part : InputPart}
    (h : normalizePart role raw = .ok part) : part.Normal role := by
  unfold normalizePart at h
  split at h
  · cases h
    exact textPart_normal role _
  · cases h
    trivial
  · cases h
    trivial
  · split at h
    · cases h
    · next given =>
      cases h
      exact given
  · cases h
  · cases h

theorem normalizeContent_normal {role : Role} {raw : RawContent} {content : List InputPart}
    (h : normalizeContent role raw = .ok content) : ∀ part ∈ content, part.Normal role := by
  intro part mem
  cases raw with
  | plain text =>
    cases h
    rw [List.mem_singleton.1 mem]
    exact textPart_normal role text
  | parts parts =>
    obtain ⟨raw, -, made⟩ := mem_of_mapM_eq_ok h mem
    exact normalizePart_normal made

theorem nonEmpty_eq_ok {param field text : String} {value : Option String} :
    nonEmpty param field value = .ok text ↔ value = some text ∧ text ≠ "" := by
  unfold nonEmpty nonEmpty.missing
  cases value with
  | none => simp
  | some given =>
    by_cases empty : given = ""
    · simp only [empty, if_true, reduceCtorEq, Option.some.injEq, false_iff, not_and]
      exact fun same other => other same.symm
    · simp only [if_neg empty, Except.ok.injEq, Option.some.injEq]
      constructor
      · rintro rfl
        exact ⟨rfl, empty⟩
      · exact And.left

/-- What an item may be read as: its parts are normal, what has to be given is, and its id is the
one that is written or that of its place. -/
inductive Kept (lane : Lane) (index : Nat) (raw : RawItem) : InputItem → Prop
  | message {role : Role} {content : List InputPart} : content ≠ [] →
      (∀ part ∈ content, part.Normal role) →
      Kept lane index raw
        (.message (raw.id.getD (lane.id .message (.input index))) role content)
  | functionCall {callId name arguments : String} : callId ≠ "" → name ≠ "" →
      Kept lane index raw (.functionCall
        (raw.id.getD (lane.id .functionCall (.input index))) callId name arguments)
  | functionCallOutput {callId output : String} : callId ≠ "" →
      Kept lane index raw (.functionCallOutput
        (raw.id.getD (lane.id .message (.input index))) callId output)

theorem normalize_kept {raw : RawItem} (h : normalize lane index raw = .ok item) :
    Kept lane index raw item := by
  unfold normalize at h
  dsimp only at h
  split at h
  · split at h
    · obtain ⟨role, -, h⟩ := bind_eq_ok.1 h
      split at h
      · obtain ⟨content, made, h⟩ := bind_eq_ok.1 h
        split at h
        · cases h
        · next some =>
          cases h
          exact .message some (normalizeContent_normal made)
      · cases h
    · cases h
  · obtain ⟨callId, call, h⟩ := bind_eq_ok.1 h
    obtain ⟨name, named, h⟩ := bind_eq_ok.1 h
    cases h
    exact .functionCall (nonEmpty_eq_ok.1 call).2 (nonEmpty_eq_ok.1 named).2
  · obtain ⟨callId, call, h⟩ := bind_eq_ok.1 h
    split at h <;> cases h
    · exact .functionCallOutput (nonEmpty_eq_ok.1 call).2
    · exact .functionCallOutput (nonEmpty_eq_ok.1 call).2
  · cases h

/-- Whatever is read from a request has the form in which items are kept. -/
theorem normalize_normal {raw : RawItem} (h : normalize lane index raw = .ok item) :
    item.Normal := by
  cases normalize_kept h with
  | message some normal => exact ⟨some, normal⟩
  | functionCall call named => exact ⟨call, named⟩
  | functionCallOutput call => exact call

theorem ofJson_eq_ok {value : Json} : ofJson lane index value = .ok item ↔
    ∃ raw, RawItem.ofJson value = .ok raw ∧ normalize lane index raw = .ok item := by
  unfold ofJson
  cases RawItem.ofJson value with
  | error fault => exact iff_of_false nofun nofun
  | ok own => exact ⟨fun h => ⟨own, rfl, h⟩, fun ⟨_, same, h⟩ => Except.ok.inj same ▸ h⟩

theorem listOfJson_cons {value : Json} {rest : List Json} {items : List InputItem}
    (h : listOfJson lane index (value :: rest) = .ok items) :
    ∃ first others, items = first :: others ∧ ofJson lane index value = .ok first ∧
      listOfJson lane (index + 1) rest = .ok others := by
  obtain ⟨first, read, h⟩ := bind_eq_ok.1 h
  obtain ⟨others, later, h⟩ := bind_eq_ok.1 h
  cases h
  exact ⟨first, others, rfl, read, later⟩

theorem listOfJson_normal {values : List Json} {items : List InputItem}
    (h : listOfJson lane index values = .ok items) : ∀ item ∈ items, item.Normal := by
  induction values generalizing index items with
  | nil =>
    cases h
    exact nofun
  | cons value rest ih =>
    obtain ⟨first, others, rfl, read, later⟩ := listOfJson_cons h
    obtain ⟨raw, -, read⟩ := ofJson_eq_ok.1 read
    exact List.forall_mem_cons.2 ⟨normalize_normal read, ih later⟩

/-- A value that is read as an item, wherever it stands in an input. -/
def Reads (value : Json) (item : InputItem) : Prop :=
  ∀ lane index, ofJson lane index value = .ok item

theorem listOfJson_eq_ok {values : List Json} {items : List InputItem}
    (h : List.Forall₂ Reads values items) (lane : Lane) (index : Nat) :
    listOfJson lane index values = .ok items := by
  induction h generalizing index with
  | nil => rfl
  | cons read _ ih =>
    unfold listOfJson
    rw [read lane index, ih (index + 1)]
    rfl

theorem ofJson_eq {value : Json} {raw : RawItem} (fields : RawItem.ofJson value = .ok raw) :
    ofJson lane index value = normalize lane index raw := by
  unfold ofJson
  rw [fields]
  rfl

/-- A message is read with the parts that its content is read as. -/
theorem reads_message {value : Json} {id : String} {role : Role} {shown : List Json}
    {raws : List RawPart} {content : List InputPart}
    (fields : RawItem.ofJson value = do
      let content ← (RawContent.ofJson (.array shown)).map Option.some
      return { type := "message", id := id, role := role.text, content })
    (parts : shown.mapM RawPart.ofJson = .ok raws)
    (normal : raws.mapM (normalizePart role) = .ok content) (some : content ≠ []) :
    Reads value (.message id role content) := by
  intro lane index
  have raw : RawContent.ofJson (.array shown) = .ok (.parts raws) := by
    simp only [RawContent.ofJson, parts]
  have named : role? role.text = .ok role := by
    rw [role?, Role.ofText?_text]
  have kept : normalizeContent role (.parts raws) = .ok content := normal
  rw [raw] at fields
  rw [ofJson_eq fields]
  simp only [normalize, Option.getD_some, named, kept, bind, Except.bind, if_neg some]

theorem reads_functionCall {value : Json} {id callId name arguments : String}
    (fields : RawItem.ofJson value = .ok
      { type := "function_call", id := id, callId := callId, name := name, arguments := arguments })
    (call : callId ≠ "") (named : name ≠ "") :
    Reads value (.functionCall id callId name arguments) := by
  intro lane index
  rw [ofJson_eq fields]
  simp only [normalize, Option.getD_some, nonEmpty, if_neg call, if_neg named, bind, Except.bind]

theorem reads_toJson (h : item.Normal) : Reads item.toJson item := by
  cases item with
  | message id role content =>
    obtain ⟨some, normal⟩ := h
    have parts : (content.map InputPart.toJson).mapM RawPart.ofJson =
        .ok (content.map InputPart.raw) := by
      rw [List.mapM_map]
      exact mapM_eq_ok fun part _ => part.ofJson_toJson
    refine reads_message rfl parts ?_ some
    have read : ∀ part ∈ content, normalizePart role part.raw = .ok part := by
      intro part mem
      have own := normal part mem
      cases part with
      | inputText text => exact congrArg Except.ok (if_neg own)
      | outputText text => rfl
      | image url detail => exact if_neg own
    calc (content.map InputPart.raw).mapM (normalizePart role)
        = content.mapM fun part => normalizePart role part.raw := List.mapM_map
      _ = .ok (content.map fun part => part) := mapM_eq_ok read
      _ = .ok content := by rw [List.map_id']
  | functionCall id callId name arguments => exact reads_functionCall rfl h.1 h.2
  | functionCallOutput id callId output =>
    intro lane index
    have fields : RawItem.ofJson (functionCallOutput id callId output).toJson = .ok
        { type := "function_call_output", id := id, callId := callId
          output := some (.string output) } := rfl
    have given : callId ≠ "" := h
    rw [ofJson_eq fields]
    simp only [normalize, Option.getD_some, nonEmpty, if_neg given, bind, Except.bind]

end InputItem

namespace OutputItem

/-- An item with something in it. -/
def Whole : OutputItem → Prop
  | message _ _ content => content ≠ []
  | functionCall _ _ callId name _ => callId ≠ "" ∧ name ≠ ""

/-- The input item that says the same. -/
def asInput : OutputItem → InputItem
  | message id _ content => .message id .assistant (content.map OutputPart.asInput)
  | functionCall id _ callId name arguments => .functionCall id callId name arguments

theorem ofInputItem_asInput (item : OutputItem) :
    ChatMessage.ofInputItem item.asInput = ChatMessage.ofOutputItem item := by
  cases item with
  | message id status content =>
    have said : ChatMessage.partOfInput ∘ OutputPart.asInput = ChatMessage.partOfOutput := by
      funext part
      cases part <;> rfl
    simp only [asInput, ChatMessage.ofInputItem, ChatMessage.ofOutputItem, List.map_map, said]
    rfl
  | functionCall => rfl

theorem reads_toJson {item : OutputItem} (h : item.Whole) :
    InputItem.Reads item.toJson item.asInput := by
  cases item with
  | message id status content =>
    have parts : (content.map OutputPart.toJson).mapM RawPart.ofJson =
        .ok (content.map OutputPart.raw) := by
      rw [List.mapM_map]
      exact mapM_eq_ok fun part _ => part.ofJson_toJson
    have kept : (content.map OutputPart.raw).mapM (InputItem.normalizePart .assistant) =
        .ok (content.map OutputPart.asInput) := by
      rw [List.mapM_map]
      exact mapM_eq_ok fun part _ => by cases part <;> rfl
    exact InputItem.reads_message rfl parts kept (mt List.map_eq_nil_iff.1 h)
  | functionCall id status callId name arguments =>
    exact InputItem.reads_functionCall rfl h.1 h.2

end OutputItem

end Responder
