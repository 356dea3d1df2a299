import Responder.Proofs.Turn.Run

/-!
# What the events of a turn tell

The output of a turn is made of passages: messages, whose text comes in pieces, and calls.
An account is the list of passages that are complete, with the message that is still open.
It determines both the output and the events that tell of it; the accumulator of a turn
changes as its account does.
-/

namespace Responder

/-- A message, and the pieces in which its text came. -/
structure Speech where
  id : String
  deltas : List String

namespace Speech

def text (s : Speech) : String := String.join s.deltas

/-- The message while it takes text. -/
def openItem (s : Speech) : OutputItem :=
  .message s.id .inProgress (if s.deltas = [] then [] else [.outputText s.text])

def closedItem (s : Speech) : OutputItem := .message s.id .completed [.outputText s.text]

/-- The events that tell of the message while it is open. -/
def openEvents (index : Nat) (s : Speech) : List Event :=
  .itemAdded index (.message s.id .inProgress []) ::
    .partAdded s.id index (.outputText "") :: s.deltas.map (.textDelta s.id index)

/-- The events that tell of its end. -/
def closeEvents (index : Nat) (s : Speech) : List Event :=
  [.textDone s.id index s.text, .partDone s.id index (.outputText s.text),
    .itemDone index s.closedItem]

theorem extendText_openItem (s : Speech) (delta : String) :
    Accumulator.extendText delta s.openItem =
      (Speech.mk s.id (s.deltas ++ [delta])).openItem := by
  obtain ⟨id, deltas⟩ := s
  cases deltas with
  | nil => simp [openItem, Accumulator.extendText, text, String.join_cons]
  | cons first more =>
    simp [openItem, Accumulator.extendText, text, String.join_cons, String.append_assoc]

theorem closeMessage_openItem (s : Speech) :
    Accumulator.closeMessage s.openItem = s.closedItem := by
  obtain ⟨id, deltas⟩ := s
  cases deltas <;> rfl

end Speech

/-- A complete part of an output. No message is told of before it has text. -/
inductive Passage where
  | message (speech : Speech) (spoken : speech.deltas ≠ [])
  | call (id callId name arguments : String)

namespace Passage

def item : Passage → OutputItem
  | message speech _ => speech.closedItem
  | call id callId name arguments => .functionCall id .completed callId name arguments

def events (index : Nat) : Passage → List Event
  | message speech _ => speech.openEvents index ++ speech.closeEvents index
  | call id callId name arguments =>
    [.itemAdded index (.functionCall id .inProgress callId name ""),
      .argumentsDone id index arguments,
      .itemDone index (.functionCall id .completed callId name arguments)]

end Passage

/-- The complete passages of an output, and the message that is open. -/
structure Account where
  passages : List Passage
  current : Option Speech

namespace Account

/-- The index of the next passage. -/
def index (k : Account) : Nat := k.passages.length

def output (k : Account) : List OutputItem :=
  k.passages.map Passage.item ++ k.current.toList.map Speech.openItem

/-- The events of each complete passage. -/
def blocks (k : Account) : List (List Event) :=
  k.passages.mapIdx fun index passage => passage.events index

/-- The events that tell of the open message. -/
def currentEvents (k : Account) : List Event :=
  (k.current.map (Speech.openEvents k.index)).getD []

/-- All events of a turn, from its beginning on. -/
def events (k : Account) (first : Response) : List Event :=
  .created first :: .inProgress first :: (k.blocks.flatten ++ k.currentEvents)

/-- An accumulator that started from `first` holds what an account tells. -/
structure Tells (first : Response) (k : Account) (a : Accumulator) : Prop where
  response : a.response = { first with output := k.output }
  openText : a.openText = k.current.map fun _ => k.index

variable {first : Response} {a : Accumulator} {passages : List Passage} {s : Speech}

theorem events_extend (delta : String) :
    events ⟨passages, some s⟩ first ++ [.textDelta s.id passages.length delta] =
      events ⟨passages, some ⟨s.id, s.deltas ++ [delta]⟩⟩ first := by
  simp [events, blocks, currentEvents, Speech.openEvents, index]

theorem events_close (spoken : s.deltas ≠ []) :
    events ⟨passages, some s⟩ first ++ s.closeEvents passages.length =
      events ⟨passages ++ [.message s spoken], none⟩ first := by
  simp [events, blocks, currentEvents, Passage.events, index]

theorem events_open (id : String) :
    events ⟨passages, none⟩ first ++ [.itemAdded passages.length (.message id .inProgress []),
        .partAdded id passages.length (.outputText "")] =
      events ⟨passages, some ⟨id, []⟩⟩ first := by
  simp [events, blocks, currentEvents, Speech.openEvents, index]

theorem events_add (passage : Passage) :
    events ⟨passages, none⟩ first ++ passage.events passages.length =
      events ⟨passages ++ [passage], none⟩ first := by
  simp [events, blocks, currentEvents]

theorem Tells.nextIndex (h : Tells first ⟨passages, none⟩ a) : a.nextIndex = passages.length := by
  simp [Accumulator.nextIndex, h.response, output]

theorem modify_last (change : OutputItem → OutputItem) :
    (output ⟨passages, some s⟩).modify passages.length change =
      passages.map Passage.item ++ [change s.openItem] := by
  have last (items : List OutputItem) (item : OutputItem) :
      (items ++ [item]).modify items.length change = items ++ [change item] := by
    induction items with
    | nil => rfl
    | cons head rest ih => simpa using ih
  simpa [output] using last (passages.map Passage.item) s.openItem

theorem Tells.openItem? (h : Tells first ⟨passages, some s⟩ a) :
    a.openItem? = some (passages.length, s.openItem) := by
  simp [Accumulator.openItem?, h.openText, h.response, output, index]

theorem Tells.openMessage (h : Tells first ⟨passages, none⟩ a) (id : String) :
    Tells first ⟨passages, some ⟨id, []⟩⟩ (a.openMessage id) := by
  constructor
  · simp [Accumulator.openMessage, Accumulator.pushItem, h.response, output, Speech.openItem]
  · simp [Accumulator.openMessage, h.nextIndex, index]

theorem Tells.pushText (h : Tells first ⟨passages, some s⟩ a) (delta : String) :
    Tells first ⟨passages, some ⟨s.id, s.deltas ++ [delta]⟩⟩ (a.pushText delta) := by
  have opened : a.openText = some passages.length := h.openText
  constructor
  · simp only [Accumulator.pushText, opened, Accumulator.modifyItem, h.response, modify_last,
      Speech.extendText_openItem]
    simp [output]
  · simp only [Accumulator.pushText, opened, Accumulator.modifyItem]
    rfl

theorem Tells.closeText (h : Tells first ⟨passages, some s⟩ a) (spoken : s.deltas ≠ []) :
    Tells first ⟨passages ++ [.message s spoken], none⟩ a.closeText := by
  have opened : a.openText = some passages.length := h.openText
  constructor
  · simp only [Accumulator.closeText, opened, Accumulator.modifyItem, h.response, modify_last,
      Speech.closeMessage_openItem]
    simp [output, Passage.item]
  · simp [Accumulator.closeText, opened]

theorem Tells.closeText_eq (h : Tells first ⟨passages, none⟩ a) : a.closeText = a := by
  simp [Accumulator.closeText, h.openText]

theorem Tells.pushItem (h : Tells first ⟨passages, none⟩ a) (passage : Passage) :
    Tells first ⟨passages ++ [passage], none⟩ (a.pushItem passage.item) := by
  constructor
  · simp [Accumulator.pushItem, h.response, output]
  · simp [Accumulator.pushItem, h.openText]

theorem Tells.recordUsage {k : Account} (h : Tells first k a) (usage : TokenUsage) :
    Tells first k (a.recordUsage usage) := ⟨h.response, h.openText⟩

theorem Tells.recordFinish {k : Account} (h : Tells first k a) (reason : FinishReason) :
    Tells first k (a.recordFinish reason) := ⟨h.response, h.openText⟩

end Account

end Responder
