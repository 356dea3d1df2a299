import Mathlib.Data.List.Forall2
import Responder.Proofs.Server.Admission
import Responder.Proofs.Turn.Foretelling
import Responder.Proofs.Turn.Grammar
import Responder.Proofs.Turn.Finalize

/-!
# Whole and streamed answers agree

A completion is added at once, or comes as a stream: its text in pieces, then its calls,
its usage and its end. Main statement: both ways lead to the same finished response, but
for the ids that are generated, and for the usage if a call is refused before it arrives.
-/

namespace Responder

/-- The stream of a completion whose text comes in pieces. -/
def Completion.chunks (c : Completion) (pieces : List String) : List Chunk :=
  pieces.map .text ++ c.calls.map .call ++ c.usage.toList.map .usage ++ [.finished c.finish]

/-- An id that is the same in two lanes, or is generated at one place of both. -/
inductive SameId (lane lane' : Lane) : String → String → Prop
  | given (id : String) : SameId lane lane' id id
  | generated (kind : IdKind) (slot : Slot) :
      SameId lane lane' (lane.id kind slot) (lane'.id kind slot)

/-- Items that differ in generated ids only. -/
inductive SameItem (lane lane' : Lane) : OutputItem → OutputItem → Prop
  | message {id id' : String} (status : ItemStatus) (content : List OutputPart) :
      SameId lane lane' id id' →
      SameItem lane lane' (.message id status content) (.message id' status content)
  | functionCall {id id' callId callId' : String} (status : ItemStatus)
      (name arguments : String) : SameId lane lane' id id' → SameId lane lane' callId callId' →
      SameItem lane lane' (.functionCall id status callId name arguments)
        (.functionCall id' status callId' name arguments)

/-- Finished responses that agree but for generated ids. -/
structure Agree (lane lane' : Lane) (x y : Response) : Prop where
  status : x.status = y.status
  error : x.error = y.error
  incomplete : x.incomplete = y.incomplete
  output : List.Forall₂ (SameItem lane lane') x.output y.output
  outputText : x.outputText = y.outputText
  outputParsed : x.outputParsed = y.outputParsed

section
variable {lane lane' : Lane} {item item' : OutputItem} {output output' : List OutputItem}

theorem SameItem.text (h : SameItem lane lane' item item') : item.text = item'.text := by
  cases h <;> rfl

theorem SameItem.isMessage (h : SameItem lane lane' item item') :
    item.isMessage = item'.isMessage := by
  cases h <;> rfl

theorem SameItem.status (h : SameItem lane lane' item item') : item.status = item'.status := by
  cases h <;> rfl

theorem SameItem.withStatus (h : SameItem lane lane' item item') (status : ItemStatus) :
    SameItem lane lane' (item.withStatus status) (item'.withStatus status) := by
  cases h with
  | message _ content id => exact .message status content id
  | functionCall _ name arguments id callId =>
    exact .functionCall status name arguments id callId

theorem SameItem.closeItem (h : SameItem lane lane' item item') (status : Status) :
    SameItem lane lane' (Accumulator.closeItem status item)
      (Accumulator.closeItem status item') := by
  unfold Accumulator.closeItem
  rw [h.status]
  by_cases opened : item'.status = .inProgress
  · rw [if_pos opened, if_pos opened]
    exact h.withStatus _
  · rw [if_neg opened, if_neg opened]
    exact h

theorem SameItem.textOf (h : List.Forall₂ (SameItem lane lane') output output') :
    Response.textOf output = Response.textOf output' := by
  induction h with
  | nil => rfl
  | cons item _ ih =>
    simp only [Response.textOf, List.map_cons, String.join_cons] at ih ⊢
    rw [item.text, ih]

theorem SameItem.any_isMessage (h : List.Forall₂ (SameItem lane lane') output output') :
    output.any OutputItem.isMessage = output'.any OutputItem.isMessage := by
  induction h with
  | nil => rfl
  | cons item _ ih => rw [List.any_cons, List.any_cons, item.isMessage, ih]

theorem SameItem.snoc (h : List.Forall₂ (SameItem lane lane') output output')
    (last : SameItem lane lane' item item') :
    List.Forall₂ (SameItem lane lane') (output ++ [item]) (output' ++ [item']) :=
  List.rel_append h (.cons last .nil)

end

namespace Accumulator

variable {registry : Registry} {lane lane' : Lane} {a b : Accumulator}

/-- What two ways of answering have come to, when they agree. -/
structure Alike (lane lane' : Lane) (x y : Accumulator × Outcome) : Prop where
  outcome : x.2 = y.2
  output : List.Forall₂ (SameItem lane lane') x.1.response.output y.1.response.output
  finish : x.2 = .finished → x.1.finish = y.1.finish
  usage : x.2 = .finished → x.1.usage = y.1.usage

theorem settleFinished_congr {schema : Option Json}
    (output : List.Forall₂ (SameItem lane lane') a.response.output b.response.output)
    (finish : a.finish = b.finish) : a.settleFinished schema = b.settleFinished schema := by
  have empty : (a.response.output = []) = (b.response.output = []) := by
    have same := output.length_eq
    rw [← List.length_eq_zero_iff, ← List.length_eq_zero_iff, same]
  simp only [settleFinished, empty, finish, SameItem.any_isMessage output,
    SameItem.textOf output]

theorem Alike.finalize {x y : Accumulator × Outcome} (h : Alike lane lane' x y)
    (fresh : x.1.response.status = .inProgress) (fresh' : y.1.response.status = .inProgress)
    (schema : Option Json) (now now' : Int) :
    Agree lane lane' (x.1.finalize schema now x.2) (y.1.finalize schema now' y.2) := by
  have verdict : x.1.settle schema x.2 = y.1.settle schema y.2 := by
    rw [← h.outcome]
    cases hx : x.2 with
    | finished => exact settleFinished_congr h.output (h.finish hx)
    | failed failure => rfl
    | cancelled => rfl
  rw [finalize_eq fresh, finalize_eq fresh']
  dsimp only
  rw [verdict]
  refine ⟨rfl, rfl, rfl, ?_, SameItem.textOf h.output, rfl⟩
  rw [List.forall₂_map_left_iff, List.forall₂_map_right_iff]
  exact h.output.imp fun _ _ same => same.closeItem _

theorem Alike.finalize_usage {x y : Accumulator × Outcome} (h : Alike lane lane' x y)
    (fresh : x.1.response.status = .inProgress) (fresh' : y.1.response.status = .inProgress)
    (schema : Option Json) (now now' : Int) (ended : x.2 = .finished) :
    (x.1.finalize schema now x.2).usage = (y.1.finalize schema now' y.2).usage := by
  rw [finalize_eq fresh, finalize_eq fresh']
  exact h.usage ended

theorem shape_same (call : ToolCall) (index : Nat) :
    (∃ item item', registry.shape lane index call = .ok item ∧
      registry.shape lane' index call = .ok item' ∧ SameItem lane lane' item item') ∨
    ∃ failure, registry.shape lane index call = .error failure ∧
      registry.shape lane' index call = .error failure := by
  simp only [Registry.shape]
  cases registry.callFault call with
  | some message => exact .inr ⟨_, rfl, rfl⟩
  | none =>
    refine .inl ⟨_, _, rfl, rfl, ?_⟩
    refine .functionCall _ _ _ (.generated ..) ?_
    split
    · exact .generated ..
    · exact .given _

theorem pushCalls_same (registry : Registry) (calls : List ToolCall)
    (h : List.Forall₂ (SameItem lane lane') a.response.output b.response.output) :
    (pushCalls registry lane a calls).2 = (pushCalls registry lane' b calls).2 ∧
      List.Forall₂ (SameItem lane lane') (pushCalls registry lane a calls).1.response.output
        (pushCalls registry lane' b calls).1.response.output := by
  induction calls generalizing a b with
  | nil => exact ⟨rfl, h⟩
  | cons call rest ih =>
    have place : b.nextIndex = a.nextIndex := h.length_eq.symm
    simp only [pushCalls, place]
    obtain ⟨item, item', shaped, shaped', same⟩ | ⟨failure, refused, refused'⟩ :=
      shape_same call a.nextIndex
    · rw [shaped, shaped']
      exact ih (SameItem.snoc h same)
    · rw [refused, refused']
      exact ⟨rfl, h⟩

/-- Adding calls changes the output only. -/
theorem pushCalls_frame (registry : Registry) (lane : Lane) (a : Accumulator)
    (calls : List ToolCall) :
    ∃ output, (pushCalls registry lane a calls).1 =
      { a with response := { a.response with output } } := by
  induction calls generalizing a with
  | nil => exact ⟨_, rfl⟩
  | cons call rest ih =>
    simp only [pushCalls]
    split
    · next item shaped =>
      obtain ⟨output, h⟩ := ih (a.pushItem item)
      exact ⟨output, h⟩
    · exact ⟨_, rfl⟩

/-- Records what is told besides the items. -/
def tally (usage : Option TokenUsage) (finish : FinishReason) (a : Accumulator) : Accumulator :=
  (match usage with
    | some usage => a.recordUsage usage
    | none => a).recordFinish finish

theorem closeText_closed (a : Accumulator) : a.closeText.openText = none := by
  unfold closeText
  split
  · rfl
  · assumption

theorem closeText_tally (a : Accumulator) (usage : Option TokenUsage) (finish : FinishReason) :
    (a.tally usage finish).closeText = a.closeText.tally usage finish := by
  cases usage <;> cases h : a.openText <;>
    simp [tally, closeText, recordUsage, recordFinish, modifyItem, h]

theorem closeText_eq (closed : a.openText = none) : a.closeText = a := by
  simp only [closeText, closed]

/-- The results that arrive decide, not when they do. -/
theorem consume_values {results : List (Wait (Except BackendFault Chunk))} {chunks : List Chunk}
    (h : results.map Wait.value? = chunks.map fun chunk => some (.ok chunk)) :
    a.consume registry lane results =
      a.consume registry lane (chunks.map fun chunk => .now (.ok chunk)) := by
  induction chunks generalizing a results with
  | nil =>
    obtain rfl := List.map_eq_nil_iff.1 h
    rfl
  | cons chunk more ih =>
    cases results with
    | nil => cases h
    | cons w rest =>
      simp only [List.map_cons, List.cons.injEq] at h
      obtain ⟨now, later⟩ := h
      cases w with
      | forever => cases now
      | done after result =>
        obtain rfl := Option.some.inj now
        rw [consume_after, List.map_cons]
        cases chunk with
        | text delta => exact ih later
        | call call =>
          simp only [Wait.now, consume]
          split
          · exact ih later
          · rfl
        | usage usage => exact ih later
        | finished reason => rfl

theorem consume_texts (pieces : List String) (rest : List (Wait (Except BackendFault Chunk))) :
    a.consume registry lane (pieces.map (fun piece => .now (.ok (.text piece))) ++ rest) =
      (pieces.foldl (addText lane) a).consume registry lane rest := by
  induction pieces generalizing a with
  | nil => rfl
  | cons piece more ih => exact ih

/-- The calls of a stream are added like those of a whole answer, once the message before
them is closed. -/
theorem consume_calls (calls : List ToolCall) (usage : Option TokenUsage)
    (finish : FinishReason) :
    a.consume registry lane ((calls.map Chunk.call ++ usage.toList.map Chunk.usage ++
        [Chunk.finished finish]).map fun chunk => .now (.ok chunk)) =
      some (match pushCalls registry lane a.closeText calls with
        | (b, some failure) => (b, .failed failure)
        | (b, none) => (b.tally usage finish, .finished)) := by
  induction calls generalizing a with
  | nil =>
    simp only [pushCalls, ← closeText_tally]
    cases usage <;> rfl
  | cons call rest ih =>
    simp only [List.map_cons, List.cons_append, Wait.now, consume, pushCalls] at ih ⊢
    cases registry.shape lane a.closeText.nextIndex call with
    | ok item =>
      have closed : (a.closeText.pushItem item).openText = none := closeText_closed a
      dsimp only
      rw [ih, closeText_eq closed]
    | error failure => rfl

theorem consume_chunks (registry : Registry) (lane : Lane) (a : Accumulator) (c : Completion)
    (pieces : List String) :
    a.consume registry lane ((c.chunks pieces).map fun chunk => .now (.ok chunk)) =
      some (match pushCalls registry lane (pieces.foldl (addText lane) a).closeText c.calls with
        | (b, some failure) => (b, .failed failure)
        | (b, none) => (b.tally c.usage c.finish, .finished)) := by
  rw [← consume_calls, ← consume_texts, Completion.chunks]
  simp only [List.append_assoc, List.map_append, List.map_map, Function.comp_def]

/-- Adds all of an answer but its calls. -/
def say (lane : Lane) (a : Accumulator) (c : Completion) : Accumulator :=
  match c.text with
  | some text => (a.tally c.usage c.finish).pushItem
      (.message (lane.id .message (.output a.nextIndex)) .completed [.outputText text])
  | none => a.tally c.usage c.finish

theorem install_eq (a : Accumulator) (c : Completion) :
    a.install registry lane c =
      match pushCalls registry lane (a.say lane c) c.calls with
      | (b, some failure) => (b, .failed failure)
      | (b, none) => (b, .finished) := by
  obtain ⟨text, calls, finish, usage⟩ := c
  cases usage <;> rfl

end Accumulator

namespace Account

variable {first : Response} {a : Accumulator} {passages : List Passage} {s : Speech}
  {lane : Lane}

theorem Tells.addText (h : Tells first ⟨passages, some s⟩ a) {piece : String}
    (full : piece ≠ "") :
    Tells first ⟨passages, some ⟨s.id, s.deltas ++ [piece]⟩⟩ (a.addText lane piece) := by
  rw [Accumulator.addText, if_neg full, if_pos (by simp [h.openText])]
  exact h.pushText piece

theorem Tells.addFirst (h : Tells first ⟨passages, none⟩ a) {piece : String}
    (full : piece ≠ "") :
    Tells first ⟨passages, some ⟨lane.id .message (.output passages.length), [piece]⟩⟩
      (a.addText lane piece) := by
  rw [Accumulator.addText, if_neg full, if_neg (by simp [h.openText]), h.nextIndex]
  exact (h.openMessage _).pushText piece

theorem Tells.addTexts (h : Tells first ⟨passages, some s⟩ a) (lane : Lane)
    {pieces : List String} (full : ∀ piece ∈ pieces, piece ≠ "") :
    Tells first ⟨passages, some ⟨s.id, s.deltas ++ pieces⟩⟩
      (pieces.foldl (Accumulator.addText lane) a) := by
  induction pieces generalizing a s with
  | nil => simpa using h
  | cons piece more ih =>
    have next : Tells first ⟨passages, some ⟨s.id, s.deltas ++ [piece]⟩⟩ (a.addText lane piece) :=
      h.addText (full piece (List.mem_cons_self ..))
    simpa using ih next fun other mem => full other (List.mem_cons_of_mem _ mem)

/-- Text in pieces, once it is closed, is one message. -/
theorem Tells.addAll (h : Tells first ⟨passages, none⟩ a) {piece : String} {more : List String}
    (full : ∀ text ∈ piece :: more, text ≠ "") :
    ((piece :: more).foldl (Accumulator.addText lane) a).closeText.response =
      { first with
        output := passages.map Passage.item ++
          [.message (lane.id .message (.output passages.length)) .completed
            [.outputText (String.join (piece :: more))]] } := by
  have opened : Tells first ⟨passages, some ⟨lane.id .message (.output passages.length), [piece]⟩⟩
      (a.addText lane piece) := h.addFirst (full piece (List.mem_cons_self ..))
  have all := opened.addTexts lane fun text mem => full text (List.mem_cons_of_mem _ mem)
  have closed := all.closeText (by simp)
  rw [List.foldl_cons, closed.response]
  simp [output, Passage.item, Speech.closedItem, Speech.text]

end Account

namespace Accumulator

variable {registry : Registry} {lane lane' : Lane} {x y : Response} {c : Completion}
  {pieces : List String}

theorem closeText_usage (a : Accumulator) : a.closeText.usage = a.usage := by
  unfold closeText
  split <;> rfl

theorem pushText_usage (a : Accumulator) (delta : String) : (a.pushText delta).usage = a.usage := by
  unfold pushText
  split <;> rfl

theorem closeText_status (a : Accumulator) :
    a.closeText.response.status = a.response.status := by
  unfold closeText
  split <;> rfl

theorem pushText_status (a : Accumulator) (delta : String) :
    (a.pushText delta).response.status = a.response.status := by
  unfold pushText
  split <;> rfl

theorem addTexts_usage (lane : Lane) (a : Accumulator) (pieces : List String) :
    (pieces.foldl (addText lane) a).usage = a.usage := by
  induction pieces generalizing a with
  | nil => rfl
  | cons piece more ih =>
    rw [List.foldl_cons, ih, addText]
    split
    · rfl
    · split
      · exact pushText_usage a piece
      · exact pushText_usage (a.openMessage _) piece

/-- The text of an answer, whole and in pieces. -/
theorem say_same (lane lane' : Lane) (empty : x.output = []) (empty' : y.output = [])
    (said : c.text ≠ some "") (full : ∀ piece ∈ pieces, piece ≠ "")
    (whole : String.join pieces = c.text.getD "") :
    let b := (pieces.foldl (addText lane') { response := y }).closeText
    List.Forall₂ (SameItem lane lane') (say lane { response := x } c).response.output
        b.response.output ∧ b.response.status = y.status := by
  intro b
  have same : Account.Tells y ⟨[], none⟩ { response := y } := by
    refine ⟨?_, rfl⟩
    exact congrArg (fun output => { y with output }) empty'
  cases pieces with
  | nil =>
    have silent : c.text = none := by
      cases h : c.text with
      | none => rfl
      | some text =>
        rw [h] at whole said
        exact absurd (congrArg some whole.symm) said
    have output : (say lane { response := x } c).response.output = x.output := by
      simp only [say, silent]
      cases c.usage <;> rfl
    rw [output, empty]
    refine ⟨?_, rfl⟩
    have none : b.response.output = [] := empty'
    rw [none]
    exact .nil
  | cons piece more =>
    have spoken : c.text = some (String.join (piece :: more)) := by
      cases h : c.text with
      | none =>
        rw [h, String.join_cons] at whole
        simp at whole
        exact absurd whole.1 (full piece (List.mem_cons_self ..))
      | some text =>
        rw [h] at whole
        exact congrArg some whole.symm
    have response : b.response = _ := same.addAll full
    have output : (say lane { response := x } c).response.output =
        [.message (lane.id .message (.output 0)) .completed
          [.outputText (String.join (piece :: more))]] := by
      simp only [say, spoken, pushItem, nextIndex, empty]
      cases c.usage <;> simp [tally, recordUsage, recordFinish, empty]
    rw [output, response]
    exact ⟨.cons (.message _ _ (.generated ..)) .nil, rfl⟩

theorem tally_usage (a : Accumulator) (usage : Option TokenUsage) (finish : FinishReason) :
    (a.tally usage finish).usage = (usage <|> a.usage) := by
  cases usage <;> rfl

theorem say_frame (lane : Lane) (a : Accumulator) (c : Completion) :
    (a.say lane c).usage = (c.usage <|> a.usage) ∧ (a.say lane c).finish = some c.finish ∧
      (a.say lane c).response.status = a.response.status := by
  unfold say tally
  cases c.text <;> cases c.usage <;> exact ⟨rfl, rfl, rfl⟩

/-- A whole answer comes to what its stream comes to. -/
theorem install_alike (registry : Registry) (lane lane' : Lane) (empty : x.output = [])
    (empty' : y.output = []) (said : c.text ≠ some "") (full : ∀ piece ∈ pieces, piece ≠ "")
    (whole : String.join pieces = c.text.getD "") :
    ∃ goal, consume registry lane' { response := y }
        ((c.chunks pieces).map fun chunk => .now (.ok chunk)) = some goal ∧
      Alike lane lane' (install registry lane { response := x } c) goal ∧
      (install registry lane { response := x } c).1.response.status = x.status ∧
      goal.1.response.status = y.status := by
  obtain ⟨output, status'⟩ := say_same lane lane' empty empty' said full whole
  obtain ⟨usage, finish, status⟩ := say_frame lane { response := x } c
  have silent := (closeText_usage _).trans (addTexts_usage lane' { response := y } pieces)
  have streamed := consume_chunks registry lane' { response := y } c pieces
  rw [install_eq]
  -- All but the calls is done on both sides, and both add the calls one by one.
  generalize (pieces.foldl (addText lane') { response := y }).closeText = b at *
  generalize say lane { response := x } c = a at *
  obtain ⟨failure, same⟩ := pushCalls_same registry c.calls output
  obtain ⟨items, left⟩ := pushCalls_frame registry lane a c.calls
  obtain ⟨items', right⟩ := pushCalls_frame registry lane' b c.calls
  cases hx : pushCalls registry lane a c.calls with
  | mk a' refused =>
    cases hy : pushCalls registry lane' b c.calls with
    | mk b' refused' =>
      rw [hx, hy] at same failure
      rw [hx] at left
      rw [hy] at right streamed
      subst failure left right
      cases refused with
      | some failure => exact ⟨_, streamed, ⟨rfl, same, nofun, nofun⟩, status, status'⟩
      | none =>
        refine ⟨_, streamed, ⟨rfl, ?_, fun _ => ?_, fun _ => ?_⟩, status, ?_⟩
        · cases c.usage <;> exact same
        · rw [finish]
          rfl
        · rw [tally_usage, usage, silent]
        · cases c.usage <;> exact status'

theorem pushCalls_unrefused (a : Accumulator) {calls : List ToolCall}
    (fits : ∀ call ∈ calls, registry.callFault call = none) :
    (pushCalls registry lane a calls).2 = none := by
  induction calls generalizing a with
  | nil => rfl
  | cons call rest ih =>
    simp only [pushCalls, Registry.shape, fits call (List.mem_cons_self ..)]
    exact ih _ fun other mem => fits other (List.mem_cons_of_mem _ mem)

/-- A whole answer whose calls are without fault finishes with all of them added. -/
theorem install_unrefused (a : Accumulator)
    (fits : ∀ call ∈ c.calls, registry.callFault call = none) :
    a.install registry lane c =
      ((pushCalls registry lane (a.say lane c) c.calls).1, .finished) := by
  have unrefused : (pushCalls registry lane (a.say lane c) c.calls).2 = none :=
    pushCalls_unrefused _ fits
  rw [install_eq]
  generalize pushCalls registry lane (a.say lane c) c.calls = outcome at unrefused ⊢
  obtain ⟨b, failure⟩ := outcome
  cases unrefused
  rfl

theorem install_finished {a : Accumulator}
    (fits : ∀ call ∈ c.calls, registry.callFault call = none) :
    (install registry lane a c).2 = .finished :=
  congrArg Prod.snd (install_unrefused a fits)

end Accumulator

namespace Turn

open Admission (Setting Admitted accept accept_spec)

section
variable {s s' : Setting} {r : Request} {admitted admitted' : Admitted} {c : Completion}
  {pieces : List String} {p p' : Prepared} {after after' : Duration} {source : ChunkStream}

theorem ask_lively (answer : p.answer = .done after (.ok c)) (seen : Nat) :
    (admitted.turn s seen false).stage.Lively p :=
  lively_single (by simp [Action.Ends, answer])

theorem waiting_roomy (seen : Nat) : (admitted.turn s seen false).Roomy := nofun

/-- A turn that is answered whole can finish. -/
theorem exists_finishes_of_answer (answer : p.answer = .done after (.ok c)) (seen : Nat) :
    ∃ final, Finishes p (admitted.turn s seen false) final :=
  exists_finishes (ask_lively answer seen) (turn_quiet _ _ _ _) (waiting_roomy seen) rfl

theorem streamArrives_of_values {chunks : List Chunk}
    (opens : p.opening = .done after (.ok source))
    (told : source.results.map Wait.value? = chunks.map fun chunk => some (.ok chunk)) :
    p.StreamArrives := by
  refine ⟨after, .ok source, opens, fun w mem never => ?_⟩
  have value : w.value? ∈ source.results.map Wait.value? := List.mem_map_of_mem mem
  rw [told, never] at value
  obtain ⟨chunk, -, same⟩ := List.mem_map.1 value
  cases same

/-- Whether an answer comes whole or as a stream, an uninterrupted turn finishes with the
same response, but for generated ids and for the usage beside a refused call. -/
theorem whole_and_streamed_agree (accepted : accept s r = .ok admitted)
    (accepted' : accept s' r = .ok admitted') (said : c.text ≠ some "")
    (full : ∀ piece ∈ pieces, piece ≠ "") (whole : String.join pieces = c.text.getD "")
    (answer : p.answer = .done after (.ok c)) (opens : p'.opening = .done after' (.ok source))
    (told : source.results.map Wait.value? =
      (c.chunks pieces).map fun chunk => some (.ok chunk)) (seen seen' : Nat) :
    (∃ x, Finishes p (admitted.turn s seen false) x) ∧
      (∃ y, Finishes p' (admitted'.turn s' seen' true) y) ∧
      ∀ x y, Finishes p (admitted.turn s seen false) x →
        Finishes p' (admitted'.turn s' seen' true) y →
        Agree s.lane s'.lane x y ∧
          ((∀ call ∈ c.calls, admitted.registry.callFault call = none) → x.usage = y.usage) := by
  have fresh := accept_spec accepted
  have fresh' := accept_spec accepted'
  have registry : admitted'.registry = admitted.registry :=
    fresh'.registry.trans fresh.registry.symm
  have schema : admitted'.request.outputSchema = admitted.request.outputSchema :=
    Except.ok.inj (fresh'.schema.symm.trans fresh.schema)
  have arrives := streamArrives_of_values opens told
  refine ⟨exists_finishes (ask_lively answer seen) (turn_quiet _ _ _ _) (waiting_roomy seen) rfl,
    exists_finishes (turn_lively arrives) (turn_quiet _ _ _ _) turn_roomy rfl, ?_⟩
  intro x y finishes finishes'
  obtain ⟨goal, streamed, alike, status, status'⟩ :=
    Accumulator.install_alike admitted.registry s.lane s'.lane fresh.output fresh'.output said
      full whole
  rw [← registry, ← Accumulator.consume_values told] at streamed
  have foretold := Accumulator.foretell_opening admitted'.registry s'.lane opens
    { response := admitted'.response } admitted'.response
  obtain ⟨now, rfl⟩ := finishes.comes_to rfl (Accumulator.foretell_ask answer _)
  obtain ⟨now', rfl⟩ := finishes'.comes_to rfl (foretold.trans streamed)
  have schemas : (admitted'.turn s' seen' true).schema = (admitted.turn s seen false).schema :=
    congrArg (Option.map OutputSchema.schema) schema
  rw [schemas]
  have fresh := status.trans fresh.status
  have fresh' := status'.trans fresh'.status
  refine ⟨alike.finalize fresh fresh' _ now now', fun fits => ?_⟩
  exact alike.finalize_usage fresh fresh' _ now now' (Accumulator.install_finished fits)

/-- A greeting is greeted back alike, whether the word comes whole or in two pieces. -/
theorem hello_agrees :
    ∃ admitted x y, accept Admission.startup Admission.greeting = .ok admitted ∧
      Finishes .hello (admitted.turn Admission.startup 0 false) x ∧
      Finishes .hello (admitted.turn Admission.startup 0 true) y ∧
      Agree Admission.startup.lane Admission.startup.lane x y ∧ x.usage = y.usage := by
  obtain ⟨admitted, accepted⟩ := Admission.accept_greeting
  have full : ∀ piece ∈ ["hel", "lo"], piece ≠ "" := by decide
  have answer : Prepared.hello.answer = .done .zero (.ok _) := rfl
  have opens : Prepared.hello.opening = .done .zero (.ok _) := rfl
  obtain ⟨⟨x, blocking⟩, ⟨y, streaming⟩, agree⟩ :=
    whole_and_streamed_agree accepted accepted (by decide) full (by decide) answer opens rfl 0 0
  obtain ⟨same, usage⟩ := agree x y blocking streaming
  exact ⟨admitted, x, y, accepted, blocking, streaming, same, usage (by simp)⟩

end

end Turn

end Responder
