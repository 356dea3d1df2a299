import Mathlib.Data.List.Induction
import Responder.Proofs.Turn.Finalize
import Responder.Proofs.Turn.Grammar

/-!
# What the events tell of the finished response

The events of a turn are cut from an accumulator that changes afterwards. Main statement:
what they say is what the finished response says. The pieces of text make up the texts of
its messages, and what an event says at the end of an item is that item of the response.
-/

namespace Responder

namespace Event

/-- The piece of text that an event brings, and the index of its message. -/
def delta? : Event → Option (Nat × String)
  | textDelta _ index delta => some (index, delta)
  | _ => none

def pieces (events : List Event) : List (Nat × String) := events.filterMap delta?

/-- The pieces of text at an index, put together. -/
def deltasAt (index : Nat) (events : List Event) : String :=
  String.join (((pieces events).filter (·.1 = index)).map (·.2))

/-- All pieces of text, put together. -/
def deltas (events : List Event) : String := String.join ((pieces events).map (·.2))

theorem deltasAt_append (index : Nat) (events more : List Event) :
    deltasAt index (events ++ more) = deltasAt index events ++ deltasAt index more := by
  simp [deltasAt, pieces, String.join_append]

theorem deltas_append (events more : List Event) :
    deltas (events ++ more) = deltas events ++ deltas more := by
  simp [deltas, pieces, String.join_append]

variable {events : List Event} {place : Nat} {texts : List String}

theorem deltasAt_of_pieces (h : pieces events = texts.map (place, ·)) (index : Nat) :
    deltasAt index events = if place = index then String.join texts else "" := by
  rw [deltasAt, h]
  by_cases here : place = index
  · rw [if_pos here, List.filter_eq_self.2 (by simp [here])]
    simp [Function.comp_def]
  · rw [if_neg here, List.filter_eq_nil_iff.2 (by simp [here])]
    rfl

theorem deltas_of_pieces (h : pieces events = texts.map (place, ·)) :
    deltas events = String.join texts := by
  rw [deltas, h]
  simp [Function.comp_def]

end Event

/-- The text of the item at an index of an output, empty if there is none. -/
def Response.textAt (output : List OutputItem) (index : Nat) : String :=
  (output[index]?.map OutputItem.text).getD ""

namespace Response

theorem textAt_snoc (output : List OutputItem) (item : OutputItem) (index : Nat) :
    textAt (output ++ [item]) index =
      textAt output index ++ if output.length = index then item.text else "" := by
  unfold textAt
  rcases Nat.lt_trichotomy index output.length with less | same | more
  · rw [List.getElem?_append_left less, if_neg (Nat.ne_of_gt less), String.append_empty]
  · simp [same]
  · rw [List.getElem?_eq_none (by simp; omega), List.getElem?_eq_none (by omega),
      if_neg (by omega)]
    rfl

theorem textOf_snoc (output : List OutputItem) (item : OutputItem) :
    textOf (output ++ [item]) = textOf output ++ item.text := by
  simp [textOf, String.join_append, String.join_cons]

end Response

open Event (pieces deltasAt deltas deltasAt_append deltas_append deltasAt_of_pieces
  deltas_of_pieces)
open Response (textAt textOf textAt_snoc textOf_snoc)

theorem Speech.openItem_text (s : Speech) : s.openItem.text = s.text := by
  obtain ⟨id, deltas⟩ := s
  cases deltas <;> simp [openItem, OutputItem.text, OutputPart.text?, text, String.join_cons]

theorem Speech.pieces_openEvents (s : Speech) (place : Nat) :
    pieces (s.openEvents place) = s.deltas.map (place, ·) := by
  obtain ⟨id, deltas⟩ := s
  simp only [openEvents, pieces, Event.delta?, List.filterMap_cons]
  induction deltas with
  | nil => rfl
  | cons delta more ih => simpa [Event.delta?] using ih

namespace Passage

/-- The pieces in which the text of a passage came. -/
def deltas : Passage → List String
  | message speech _ => speech.deltas
  | call .. => []

theorem item_text (passage : Passage) : passage.item.text = String.join passage.deltas := by
  cases passage with
  | message speech spoken =>
    simp [item, Speech.closedItem, OutputItem.text, OutputPart.text?, deltas, Speech.text,
      String.join_cons]
  | call id callId name arguments => rfl

theorem pieces_events (passage : Passage) (place : Nat) :
    pieces (passage.events place) = passage.deltas.map (place, ·) := by
  cases passage with
  | message speech spoken =>
    have none : pieces (speech.closeEvents place) = [] := rfl
    have told := speech.pieces_openEvents place
    rw [pieces] at none told ⊢
    rw [events, List.filterMap_append, told, none, List.append_nil]
    rfl
  | call id callId name arguments => rfl

end Passage

namespace Account

variable {first : Response}

/-- The pieces of text that are told of make up the texts of the output. -/
theorem deltas_events (k : Account) (index : Nat) :
    deltasAt index (k.events first) = textAt k.output index ∧
      deltas (k.events first) = textOf k.output := by
  have closed (passages : List Passage) :
      deltasAt index (events ⟨passages, none⟩ first) =
          textAt (passages.map Passage.item) index ∧
        deltas (events ⟨passages, none⟩ first) = textOf (passages.map Passage.item) := by
    -- From the right, since a passage is told of after all those before it.
    induction passages using List.reverseRecOn with
    | nil => exact ⟨rfl, rfl⟩
    | append_singleton passages passage ih =>
      have told := passage.pieces_events passages.length
      rw [← events_add, deltasAt_append, deltas_append, ih.1, ih.2, deltasAt_of_pieces told,
        deltas_of_pieces told, List.map_append, List.map_singleton, textAt_snoc, textOf_snoc,
        List.length_map, Passage.item_text]
      exact ⟨rfl, rfl⟩
  obtain ⟨passages, _ | s⟩ := k
  · simpa [output] using closed passages
  · have split : events ⟨passages, some s⟩ first =
        events ⟨passages, none⟩ first ++ s.openEvents passages.length := by
      simp [events, blocks, currentEvents, Account.index]
    have told := s.pieces_openEvents passages.length
    rw [split, deltasAt_append, deltas_append, (closed passages).1, (closed passages).2,
      deltasAt_of_pieces told, deltas_of_pieces told]
    simp [output, textAt_snoc, textOf_snoc, Speech.openItem_text, Speech.text]

theorem mem_blocks {k : Account} {event : Event} :
    event ∈ k.blocks.flatten ↔
      ∃ (place : Nat) (passage : Passage), k.passages[place]? = some passage ∧
        event ∈ passage.events place := by
  simp only [blocks, List.mem_flatten, List.mem_mapIdx, List.getElem?_eq_some_iff]
  constructor
  · rintro ⟨_, ⟨place, h, rfl⟩, mem⟩
    exact ⟨place, _, ⟨h, rfl⟩, mem⟩
  · rintro ⟨place, _, ⟨h, rfl⟩, mem⟩
    exact ⟨_, ⟨place, h, rfl⟩, mem⟩

theorem mem_events {k : Account} {event : Event} :
    event ∈ k.events first ↔ event = .created first ∨ event = .inProgress first ∨
      (∃ (place : Nat) (passage : Passage), k.passages[place]? = some passage ∧
        event ∈ passage.events place) ∨
      ∃ s, k.current = some s ∧ event ∈ s.openEvents k.index := by
  simp only [events, List.mem_cons, List.mem_append, mem_blocks, currentEvents]
  cases k.current <;> simp

theorem getElem?_finished (k : Account) (status : Status) :
    (∀ (place : Nat) passage, k.passages[place]? = some passage →
      (k.output.map (Accumulator.closeItem status))[place]? = some passage.item) ∧
    (∀ s, k.current = some s → (k.output.map (Accumulator.closeItem status))[k.index]? =
      some (Accumulator.closeItem status s.openItem)) := by
  constructor
  · intro place passage h
    have complete : passage.item.status ≠ .inProgress := by
      cases passage <;> nofun
    have inside : place < (k.passages.map Passage.item).length := by
      rw [List.length_map]
      exact (List.getElem?_eq_some_iff.1 h).1
    rw [List.getElem?_map, output, List.getElem?_append_left inside, List.getElem?_map, h]
    exact congrArg some (Accumulator.closeItem_eq status complete)
  · intro s h
    simp [output, h, index]

end Account

/-- What an event says of an item is what the output holds: an event at the end of an item
or of its content says all of it, one before that at least its id. -/
def Event.Agrees (output : List OutputItem) : Event → Prop
  | itemAdded index added => ∃ item, output[index]? = some item ∧ item.id = added.id ∧
      item.isMessage = added.isMessage
  | partAdded id index _ | textDelta id index _ => ∃ item, output[index]? = some item ∧
      item.id = id ∧ item.isMessage = true
  | textDone id index text => ∃ item, output[index]? = some item ∧ item.id = id ∧
      item.isMessage = true ∧ item.text = text
  | partDone id index part => ∃ item, output[index]? = some item ∧ item.id = id ∧
      item.isMessage = true ∧ part = .outputText item.text
  | argumentsDone id index arguments => ∃ status callId name,
      output[index]? = some (.functionCall id status callId name arguments)
  | itemDone index item => output[index]? = some item
  | created _ | inProgress _ | completed _ | failed _ | incomplete _ => True

theorem Speech.openEvents_agree {s : Speech} {output : List OutputItem} {place : Nat}
    {item : OutputItem} (held : output[place]? = some item) (id : item.id = s.id)
    (isMessage : item.isMessage = true) : ∀ event ∈ s.openEvents place, event.Agrees output := by
  intro event mem
  simp only [openEvents, List.mem_cons, List.mem_map] at mem
  obtain rfl | rfl | ⟨delta, -, rfl⟩ := mem
  · exact ⟨item, held, id, isMessage⟩
  · exact ⟨item, held, id, isMessage⟩
  · exact ⟨item, held, id, isMessage⟩

theorem Passage.events_agree {passage : Passage} {output : List OutputItem} {place : Nat}
    (held : output[place]? = some passage.item) :
    ∀ event ∈ passage.events place, event.Agrees output := by
  intro event mem
  cases passage with
  | message speech spoken =>
    rcases List.mem_append.1 mem with mem | mem
    · exact Speech.openEvents_agree held rfl rfl event mem
    · have text : speech.closedItem.text = speech.text := item_text (.message speech spoken)
      simp only [Speech.closeEvents, List.mem_cons, List.not_mem_nil, or_false] at mem
      obtain rfl | rfl | rfl := mem
      · exact ⟨_, held, rfl, rfl, text⟩
      · exact ⟨_, held, rfl, rfl, congrArg _ text.symm⟩
      · exact held
  | call id callId name arguments =>
    simp only [events, List.mem_cons, List.not_mem_nil, or_false] at mem
    obtain rfl | rfl | rfl := mem
    · exact ⟨_, held, rfl, rfl⟩
    · exact ⟨_, _, _, held⟩
    · exact held

theorem Account.events_agree (k : Account) (first : Response) (status : Status) :
    ∀ event ∈ k.events first,
      event.Agrees (k.output.map (Accumulator.closeItem status)) := by
  intro event mem
  obtain ⟨complete, opened⟩ := k.getElem?_finished status
  obtain rfl | rfl | ⟨place, passage, h, mem⟩ | ⟨s, h, mem⟩ := mem_events.1 mem
  · trivial
  · trivial
  · exact Passage.events_agree (complete place passage h) event mem
  · refine Speech.openEvents_agree (opened s h) ?_ ?_ event mem
    · rw [Accumulator.closeItem_id]
      rfl
    · rw [Accumulator.closeItem_isMessage]
      rfl

theorem Account.announced (k : Account) (first : Response) {index : Nat}
    (h : index < k.output.length) : ∃ added, .itemAdded index added ∈ k.events first := by
  obtain ⟨passages, current⟩ := k
  by_cases inside : index < passages.length
  · have told : ∃ added, .itemAdded index added ∈ passages[index].events index := by
      cases passages[index] with
      | message speech spoken => exact ⟨_, List.mem_cons_self ..⟩
      | call => exact ⟨_, List.mem_cons_self ..⟩
    obtain ⟨added, mem⟩ := told
    exact ⟨added, mem_events.2 (.inr (.inr (.inl
      ⟨index, _, List.getElem?_eq_getElem inside, mem⟩)))⟩
  · cases current with
    | none => simp [output, inside] at h
    | some s =>
      obtain rfl : index = passages.length := by
        simp [output] at h
        omega
      exact ⟨_, mem_events.2 (.inr (.inr (.inr ⟨s, rfl, List.mem_cons_self ..⟩)))⟩

/-- The events that were sent tell of the finished response. Only an interruption leaves
something untold. -/
structure Rebuilds (events : List Event) (ending : Option Outcome) (r : Response) : Prop where
  agrees : ∀ event ∈ events, event.Agrees r.output
  texts : ∀ index, ∃ rest, textAt r.output index = deltasAt index events ++ rest ∧
    (ending ≠ some .cancelled → rest = "")
  announced : ending ≠ some .cancelled → ∀ index item, r.output[index]? = some item →
    ∃ added, .itemAdded index added ∈ events
  outputText : ending ≠ some .cancelled → deltas events = r.outputText

theorem textAt_closeItem (status : Status) (output : List OutputItem) (index : Nat) :
    textAt (output.map (Accumulator.closeItem status)) index = textAt output index := by
  simp only [textAt, List.getElem?_map, Option.map_map, Function.comp_def,
    Accumulator.closeItem_text]

/-- The last event says nothing of a single item. -/
theorem Rebuilds.terminal {body : List Event} {ending : Option Outcome} {r : Response}
    (h : Rebuilds body ending r) :
    Rebuilds (body ++ [.terminal r]) ending r := by
  have quiet : pieces [.terminal r] = [] := by
    unfold Event.terminal
    cases r.status <;> rfl
  refine ⟨?_, ?_, ?_, ?_⟩
  · intro event mem
    rcases List.mem_append.1 mem with mem | mem
    · exact h.agrees event mem
    · obtain rfl := List.mem_singleton.1 mem
      unfold Event.terminal
      cases r.status <;> trivial
  · intro index
    have none : deltasAt index [.terminal r] = "" := by rw [deltasAt, quiet]; rfl
    rw [deltasAt_append, none, String.append_empty]
    exact h.texts index
  · intro calm index item held
    obtain ⟨added, mem⟩ := h.announced calm index item held
    exact ⟨added, List.mem_append_left _ mem⟩
  · intro calm
    have none : deltas [.terminal r] = "" := by rw [deltas, quiet]; rfl
    rw [deltas_append, none, String.append_empty]
    exact h.outputText calm

namespace Turn

open Admission (Setting Admitted accept accept_spec)

variable {p : Prepared} {t : Turn} {read : List Sequenced} {ending : Option Outcome}
  {first : Response} {schema : Option Json} {body : List Event} {r : Response}

theorem Concluded.rebuilds (fresh : first.status = .inProgress)
    (h : Concluded first schema body ending r) : Rebuilds body ending r := by
  obtain ⟨a, outcome, now, rfl, rfl, k, pending, tells, told, all, -⟩ := h
  have inProgress : a.response.status = .inProgress := by
    rw [tells.response]
    exact fresh
  have held : a.response.output = k.output := by rw [tells.response]
  have whole (calm : some outcome ≠ some .cancelled) : body = k.events first := by
    rw [← told, all (fun h => calm (congrArg some h)), List.append_nil]
  rw [Accumulator.finalize_eq inProgress]
  -- Only the events that were pending at an interruption are missing from `body`.
  refine ⟨?_, ?_, ?_, ?_⟩
  · intro event mem
    rw [held]
    refine k.events_agree first _ event ?_
    rw [← told]
    exact List.mem_append_left _ mem
  · intro index
    refine ⟨deltasAt index pending, ?_, fun calm => ?_⟩
    · rw [textAt_closeItem, held, ← (k.deltas_events index).1, ← told, deltasAt_append]
    · rw [all (fun h => calm (congrArg some h))]
      rfl
  · intro calm index item h
    rw [whole calm]
    refine k.announced first ?_
    have inside := (List.getElem?_eq_some_iff.1 h).1
    rw [List.length_map, held] at inside
    exact inside
  · intro calm
    rw [whole calm, (k.deltas_events 0).2, held]

section
variable {s : Setting} {r : Request} {admitted : Admitted} {seen : Nat} {final : Response}

/-- The events of a streamed turn rebuild its finished response, all of it unless the turn
is cancelled or its client leaves. -/
theorem streamed_turn_rebuilds (accepted : accept s r = .ok admitted)
    (run : Run p (admitted.turn s seen true) read ending t)
    (finished : t.response? = some final) :
    Rebuilds ((sent read t).map (·.event)) ending final ∧
      (Calm p (admitted.turn s seen true) read ending t → ending ≠ some .cancelled) := by
  refine ⟨?_, fun calm => calm.uncut (turn_quiet _ _ _ _)⟩
  have fresh := (accept_spec accepted).status
  have holds := (streams_telling accepted run).holds
  obtain hs | hs := response?_cases finished
  · rw [hs] at holds
    exact Concluded.rebuilds fresh holds
  · rw [hs] at holds
    obtain ⟨body, concluded, whole | ⟨cut, -⟩⟩ := holds
    · rw [whole]
      exact (Concluded.rebuilds fresh concluded).terminal
    · rw [cut]
      exact Concluded.rebuilds fresh concluded

/-- A greeting that is greeted back in a calm run is told of as a whole. -/
theorem greeting_rebuilt :
    ∃ admitted read ending t final, accept Admission.startup Admission.greeting = .ok admitted ∧
      Calm .hello (admitted.turn Admission.startup 0 true) read ending t ∧
      t.response? = some final ∧ ending ≠ some .cancelled ∧
      Rebuilds ((sent read t).map (·.event)) ending final := by
  obtain ⟨admitted, accepted⟩ := Admission.accept_greeting
  have lively : (admitted.turn Admission.startup 0 true).stage.Lively .hello :=
    turn_lively Prepared.hello_arrives
  obtain ⟨more, ending, last, final, calm, ended, -⟩ :=
    Calm.goes.completes (.start rfl) lively turn_roomy rfl
  have finished : last.response? = some final := by simp only [response?, ended]
  obtain ⟨rebuilds, uncut⟩ := streamed_turn_rebuilds accepted calm.run finished
  exact ⟨admitted, _, ending, last, final, accepted, calm, finished, uncut calm, rebuilds⟩

end

end Turn

end Responder
