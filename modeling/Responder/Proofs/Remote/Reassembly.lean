import Responder.Proofs.Remote.Buffers
import Responder.Proofs.Remote.EventStream

/-!
# Streamed and whole answers

An answer comes as a whole body, or in deltas: its content is cut at will, and so are the name
and the arguments of each of its calls, the fragments of which may be mixed with others and
with content. Main statement: what the chunks of the stream make together is the completion
that the whole body makes.
-/

namespace Responder

/-- What the chunks of a stream make together. -/
def Completion.ofChunks (chunks : List Chunk) : Completion where
  text := (some (String.join (chunks.filterMap Chunk.text?))).filter (· ≠ "")
  calls := chunks.filterMap Chunk.call?
  finish := (chunks.filterMap Chunk.reason?).head?.getD .stop
  usage := (chunks.filterMap Chunk.usage?).getLast?

namespace Remote

/-- The object of the usage, if there is one. -/
def usageObject? (answer : Json) : Option (List (String × Json)) :=
  (answer.field? "usage").bind Json.object?

/-- The tokens that an object of usage counts. -/
def tokensOf (usage : List (String × Json)) : TokenUsage where
  prompt := tokenCount (.object usage) "prompt_tokens"
  completion := tokenCount (.object usage) "completion_tokens"

theorem usage?_eq (answer : Json) : usage? answer = (usageObject? answer).map tokensOf := by
  unfold usage? usageObject?
  cases answer.field? "usage" with
  | none => rfl
  | some value => cases value <;> rfl

/-- A chat completion as an upstream gives it. -/
structure ChatAnswer where
  content : Option String
  calls : List ToolCall
  reason : String
  usage : Option (List (String × Json))

/-- A value that holds a call, whatever else it holds. -/
structure CallShownBy (call : ToolCall) (value : Json) : Prop where
  id : (value.field "id").string? = some call.id
  name : ((value.field "function").field "name").string? = some call.name
  arguments : ((value.field "function").field "arguments").string? = some call.arguments

/-- A body that holds a whole answer, whatever else it holds. -/
def ChatAnswer.ShownBy (answer : ChatAnswer) (body : Json) : Prop :=
  ∃ choice, choice? body = some choice ∧
    ((choice.field "message").field "content").string? = answer.content ∧
    List.Forall₂ CallShownBy answer.calls
      (((choice.field "message").field "tool_calls").array?.getD []) ∧
    (choice.field "finish_reason").string? = some answer.reason ∧
    usageObject? body = answer.usage

/-- What one object of a stream holds. -/
structure Delta where
  content : Option String := none
  fragments : List Fragment := []
  finish : Option String := none
  usage : Option (List (String × Json)) := none

/-- An object that holds a delta, whatever else it holds. -/
structure Delta.ShownBy (d : Delta) (answer : Json) : Prop where
  content : ((deltaOf answer).field "content").string? = d.content
  fragments : List.Forall₂ Fragment.ShownBy d.fragments (fragmentsOf answer)
  finish : finishReason? answer = d.finish
  usage : usageObject? answer = d.usage

/-- The fragments of one index make a call: the id comes whole with the first, the name and
the arguments are cut at will. Without fragments there is none. -/
inductive Fragment.Make : List Fragment → Option ToolCall → Prop
  | nothing : Make [] none
  | call {first : Fragment} {rest : List Fragment} {call : ToolCall} :
      first.id = some call.id → (∀ f ∈ rest, f.id = none) →
      String.join ((first :: rest).map (·.name.getD "")) = call.name →
      String.join ((first :: rest).map (·.arguments.getD "")) = call.arguments →
      Make (first :: rest) (some call)

/-- Deltas make an answer: its last delta, and no other, gives the reason; the usage comes once
with any of them. -/
structure Delta.Make (deltas : List Delta) (answer : ChatAnswer) : Prop where
  content : String.join (deltas.map (·.content.getD "")) = answer.content.getD ""
  calls : ∀ index, Fragment.Make ((deltas.flatMap (·.fragments)).filter (·.index = index))
    answer.calls[index]?
  usage : deltas.filterMap (·.usage) = answer.usage.toList
  finish : ∃ early last, deltas = early ++ [last] ∧ (∀ d ∈ early, d.finish = none) ∧
    last.finish = some answer.reason

section
variable {deltas : List Delta} {objects : List Json} {answer : ChatAnswer}

theorem fragments_shown (shown : List.Forall₂ Delta.ShownBy deltas objects) :
    List.Forall₂ Fragment.ShownBy (deltas.flatMap (·.fragments)) (objects.flatMap fragmentsOf) := by
  induction shown with
  | nil => exact .nil
  | cons first _ ih => exact List.rel_append first.fragments ih

theorem texts_shown (shown : List.Forall₂ Delta.ShownBy deltas objects) :
    String.join ((objects.flatMap said).filterMap Chunk.text?) =
      String.join (deltas.map (·.content.getD "")) := by
  induction shown with
  | nil => rfl
  | cons first _ ih =>
    rw [List.flatMap_cons, List.filterMap_append, List.map_cons, String.join_append,
      String.join_cons, text_said, first.content, ih]

theorem usages_shown (shown : List.Forall₂ Delta.ShownBy deltas objects) :
    objects.filterMap usage? = (deltas.filterMap (·.usage)).map tokensOf := by
  induction shown with
  | nil => rfl
  | @cons d object _ _ first _ ih =>
    rw [List.filterMap_cons, usage?_eq, first.usage, ih]
    cases usage : d.usage <;> simp [usage]

theorem foldl_some (b : CallBuffer) (fragments : List Fragment) :
    fragments.foldl (fun b f => some ((b.getD {}).grow f)) (some b) =
      some (fragments.foldl CallBuffer.grow b) := by
  induction fragments generalizing b with
  | nil => rfl
  | cons f rest ih => exact ih (b.grow f)

/-- Fragments that make calls fill the buffers of these calls. -/
theorem gather_made {fragments : List Fragment} {calls : List ToolCall}
    (make : ∀ index, Fragment.Make (fragments.filter (·.index = index)) calls[index]?) :
    gather [] fragments =
      calls.mapIdx fun index call => (index, ⟨call.id, call.name, call.arguments⟩) := by
  have none : Ascending [] := List.Pairwise.nil
  refine (none.gather fragments).ext (ascending_mapIdx _ _) fun index => ?_
  have empty : bufferAt [] index = Option.none := rfl
  rw [bufferAt_gather none, bufferAt_mapIdx, empty]
  have own := make index
  generalize fragments.filter (·.index = index) = own, calls[index]? = place at own
  cases own with
  | nothing => rfl
  | @call first rest call id nameless name arguments =>
    have start : (CallBuffer.grow {} first).id = call.id := by rw [CallBuffer.grow, id]; rfl
    rw [List.foldl_cons, foldl_some, CallBuffer.foldl_grow _ nameless, Option.map_some, ← name,
      ← arguments, ← start]
    simp [CallBuffer.grow]

theorem callOf_shown {call : ToolCall} {value : Json} (shown : CallShownBy call value)
    (named : call.id ≠ "") (fresh : String) : callOf fresh value = call := by
  unfold callOf
  dsimp only
  rw [shown.id, shown.name, shown.arguments]
  split
  · next same => exact absurd (Option.some.inj same) named
  · next none => cases none
  · next id _ same =>
    cases same
    rfl

theorem callsOf_shown {calls : List ToolCall} {values : List Json}
    (shown : List.Forall₂ CallShownBy calls values) (named : ∀ call ∈ calls, call.id ≠ "")
    (fresh : Nat → String) :
    values.mapIdx (fun index value => callOf (fresh index) value) = calls := by
  induction shown generalizing fresh with
  | nil => rfl
  | cons first _ ih =>
    rw [List.mapIdx_cons, callOf_shown first (named _ List.mem_cons_self),
      ih (fun call mem => named call (List.mem_cons_of_mem _ mem)) fun index => fresh (index + 1)]

/-- The completion of a whole body. -/
theorem completionOf_shown {body : Json} (shown : answer.ShownBy body)
    (named : ∀ call ∈ answer.calls, call.id ≠ "") (fresh : Nat → String) :
    completionOf fresh body = .ok
      { text := answer.content.filter (· ≠ "")
        calls := answer.calls
        finish := .ofText answer.reason
        usage := answer.usage.map tokensOf } := by
  obtain ⟨choice, chosen, content, calls, reason, usage⟩ := shown
  unfold completionOf
  rw [chosen]
  simp only [content, reason, usage?_eq, usage, callsOf_shown calls named, Option.map_some,
    Option.getD_some]

/-- The calls of the buffers are those that filled them. -/
theorem callsOf_mapIdx {calls : List ToolCall}
    (full : ∀ call ∈ calls, call.id ≠ "" ∧ call.arguments ≠ "") (fresh : Nat → String) :
    callsOf fresh (calls.mapIdx fun index call => (index, ⟨call.id, call.name, call.arguments⟩)) =
      calls.map Chunk.call := by
  apply List.ext_getElem
  · rw [callsOf, List.length_map, List.length_mapIdx, List.length_map]
  · intro index inside inside'
    have there : index < calls.length := by rwa [List.length_map] at inside'
    obtain ⟨named, filled⟩ := full calls[index] (List.getElem_mem there)
    simp only [callsOf, List.getElem_map, List.getElem_mapIdx, CallBuffer.call, if_neg named,
      if_neg filled]

/-- What chunks make, with the calls and the reason at their end. -/
theorem ofChunks_append {chunks : List Chunk}
    (plain : ∀ chunk ∈ chunks, chunk.call? = none ∧ chunk.reason? = none)
    (calls : List ToolCall) (reason : FinishReason) :
    Completion.ofChunks (chunks ++ (calls.map .call ++ [.finished reason])) =
      { text := (some (String.join (chunks.filterMap Chunk.text?))).filter (· ≠ "")
        calls, finish := reason
        usage := (chunks.filterMap Chunk.usage?).getLast? } := by
  have made : (calls.map Chunk.call).filterMap Chunk.call? = calls := by
    simp [List.filterMap_map, Function.comp_def, Chunk.call?]
  have silent {α : Type} (view : Chunk → Option α) (call : ∀ c, view (.call c) = none) :
      (calls.map Chunk.call).filterMap view = [] := by
    simp [List.filterMap_map, call]
  have calls' : chunks.filterMap Chunk.call? = [] :=
    List.filterMap_eq_nil_iff.2 fun chunk mem => (plain chunk mem).1
  have reasons : chunks.filterMap Chunk.reason? = [] :=
    List.filterMap_eq_nil_iff.2 fun chunk mem => (plain chunk mem).2
  have last : [Chunk.finished reason].filterMap Chunk.text? = [] ∧
      [Chunk.finished reason].filterMap Chunk.call? = [] ∧
      [Chunk.finished reason].filterMap Chunk.reason? = [reason] ∧
      [Chunk.finished reason].filterMap Chunk.usage? = [] := ⟨rfl, rfl, rfl, rfl⟩
  unfold Completion.ofChunks
  simp only [List.filterMap_append, silent Chunk.text? fun _ => rfl,
    silent Chunk.reason? fun _ => rfl, silent Chunk.usage? fun _ => rfl, made, calls', reasons,
    last, List.nil_append, List.append_nil, List.head?_cons, Option.getD_some]

theorem unfinished_shown (shown : List.Forall₂ Delta.ShownBy deltas objects)
    (unfinished : ∀ d ∈ deltas, d.finish = none) :
    ∀ object ∈ objects, finishReason? object = none := by
  induction shown with
  | nil => exact nofun
  | cons first _ ih =>
    intro object mem
    obtain rfl | mem := List.mem_cons.1 mem
    · exact first.finish.trans (unfinished _ List.mem_cons_self)
    · exact ih (fun d mem => unfinished d (List.mem_cons_of_mem _ mem)) object mem

/-- The last of the deltas is shown by the last of the objects. -/
theorem last_shown {early : List Delta} {last : Delta}
    (shown : List.Forall₂ Delta.ShownBy (early ++ [last]) objects) :
    ∃ firsts object, objects = firsts ++ [object] ∧ List.Forall₂ Delta.ShownBy early firsts ∧
      last.ShownBy object := by
  induction early generalizing objects with
  | nil =>
    cases shown with
    | cons shown none =>
      cases none
      exact ⟨[], _, rfl, .nil, shown⟩
  | cons d early ih =>
    cases shown with
    | cons first rest =>
      obtain ⟨firsts, object, rfl, before, after⟩ := ih rest
      exact ⟨_ :: firsts, object, rfl, .cons first before, after⟩

/-- After all else the calls of an answer are told, and then its reason. -/
theorem told_shown (full : ∀ call ∈ answer.calls, call.id ≠ "" ∧ call.arguments ≠ "")
    (make : Delta.Make deltas answer) (shown : List.Forall₂ Delta.ShownBy deltas objects)
    (fresh : Nat → String) :
    Assembly.told fresh {} objects = objects.flatMap said ++
      (answer.calls.map .call ++ [.finished (.ofText answer.reason)]) := by
  have gathered := gather_made make.calls
  rw [← addCalls_shown (fragments_shown shown)] at gathered
  obtain ⟨early, last, rfl, unfinished, reason⟩ := make.finish
  obtain ⟨firsts, object, rfl, before, after⟩ := last_shown shown
  have finish := after.finish.trans reason
  rw [Assembly.told_last rfl (unfinished_shown before unfinished) finish, gathered,
    callsOf_mapIdx full]
  rfl

/-- Whatever way an answer is cut into deltas and its stream into pieces, the chunks of the
stream make the completion that its whole body makes. -/
theorem reassembled (full : ∀ call ∈ answer.calls, call.id ≠ "" ∧ call.arguments ≠ "")
    {body : Json} (whole : answer.ShownBy body) (make : Delta.Make deltas answer)
    (shown : List.Forall₂ Delta.ShownBy deltas objects) {ended : Bool}
    {pieces : List (List UInt8)} (stream : EventStream objects ended pieces.flatten)
    (fresh fresh' : Nat → String) :
    ∃ chunks, Decoder.readAll fresh {} pieces = .ok (chunks, ended) ∧
      completionOf fresh' body = .ok (.ofChunks chunks) := by
  refine ⟨_, Decoder.readAll_stream stream, ?_⟩
  rw [told_shown full make shown, ofChunks_append fun _ => plain_of_said, texts_shown shown,
    make.content, usages_said, usages_shown shown, make.usage,
    completionOf_shown whole fun call mem => (full call mem).1]
  obtain ⟨content, calls, reason, usage⟩ := answer
  cases usage with
  | none => cases content <;> rfl
  | some usage => cases content <;> rfl

end

/-! Each answer has a body, and each delta an object. -/

theorem string?_ofStringOption (text : Option String) :
    (Json.ofStringOption text).string? = text := by
  cases text <;> rfl

def Fragment.json (f : Fragment) : Json :=
  .ofMembers
    [("index", .ofNat f.index), ("id", .ofStringOption f.id),
      ("function", .ofMembers
        [("name", .ofStringOption f.name), ("arguments", .ofStringOption f.arguments)])]

theorem Fragment.shown (f : Fragment) : f.ShownBy f.json :=
  ⟨rfl, string?_ofStringOption _, string?_ofStringOption _, string?_ofStringOption _⟩

def Delta.json (d : Delta) : Json :=
  .ofMembers
    [("choices", .array [.ofMembers
      [("delta", .ofMembers
        [("content", .ofStringOption d.content),
          ("tool_calls", .array (d.fragments.map (·.json)))]),
        ("finish_reason", .ofStringOption d.finish)]]),
      ("usage", d.usage.elim .null .object)]

theorem Delta.shown (d : Delta) : d.ShownBy d.json := by
  have fragments : List.Forall₂ Fragment.ShownBy d.fragments (d.fragments.map (·.json)) := by
    rw [List.forall₂_map_right_iff, List.forall₂_same]
    exact fun f _ => f.shown
  refine ⟨string?_ofStringOption _, fragments, string?_ofStringOption _, ?_⟩
  have usage : usageObject? d.json = (d.usage.elim .null .object : Json).object? := rfl
  rw [usage]
  cases d.usage <;> rfl

def ChatAnswer.json (answer : ChatAnswer) : Json :=
  .ofMembers
    [("choices", .array [.ofMembers
      [("message", .ofMembers
        [("content", .ofStringOption answer.content),
          ("tool_calls", .array (answer.calls.map callJson))]),
        ("finish_reason", .string answer.reason)]]),
      ("usage", answer.usage.elim .null .object)]

theorem ChatAnswer.shown (answer : ChatAnswer) : answer.ShownBy answer.json := by
  have calls : List.Forall₂ CallShownBy answer.calls (answer.calls.map callJson) := by
    rw [List.forall₂_map_right_iff, List.forall₂_same]
    exact fun call _ => ⟨rfl, rfl, rfl⟩
  refine ⟨_, rfl, string?_ofStringOption _, calls, rfl, ?_⟩
  have usage : usageObject? answer.json = (answer.usage.elim .null .object : Json).object? := rfl
  rw [usage]
  cases answer.usage <;> rfl

/-- Two calls with usage. -/
def outlook : ChatAnswer where
  content := some "Hi"
  calls := [⟨"a", "sun", "\x7b\x7d"⟩, ⟨"b", "rain", "[]"⟩]
  reason := "tool_calls"
  usage := some [("completion_tokens", .ofNat 2), ("prompt_tokens", .ofNat 1)]

/-- The second call begins first, and the calls end in the reverse order. -/
def outlookDeltas : List Delta :=
  [{ content := some "H", fragments := [⟨1, some "b", some "ra", none⟩] },
    { content := some "i"
      fragments := [⟨0, some "a", some "sun", some "\x7b"⟩, ⟨1, none, some "in", some "[]"⟩]
      usage := outlook.usage },
    { fragments := [⟨0, none, none, some "\x7d"⟩], finish := some "tool_calls" }]

/-- The objects of deltas in frames, with a comment before them. -/
def outlookBytes : List UInt8 :=
  frameBytes [": hello"] true ++ streamBytes (outlookDeltas.map (·.json))

theorem outlook_make : Delta.Make outlookDeltas outlook := by
  refine ⟨rfl, ?_, rfl, ?_⟩
  · rintro (_ | _ | index)
    · exact .call rfl (by decide) (by decide) (by decide)
    · exact .call rfl (by decide) (by decide) (by decide)
    · exact .nothing
  · exact ⟨outlookDeltas.take 2, _, rfl, by decide, rfl⟩

theorem outlook_reassembled :
    ∃ chunks, Decoder.readAll (fun _ => "x") {} [outlookBytes.take 30, outlookBytes.drop 30] =
        .ok (chunks, true) ∧
      completionOf (fun _ => "y") outlook.json = .ok (.ofChunks chunks) := by
  have stream : EventStream (outlookDeltas.map (·.json)) true
      [outlookBytes.take 30, outlookBytes.drop 30].flatten := by
    rw [List.flatten_cons, List.flatten_cons, List.flatten_nil, List.append_nil,
      List.take_append_drop]
    have side : SideLine ": hello" := ⟨⟨by decide, by decide⟩, by decide⟩
    refine .comment (.comment true (List.forall_mem_singleton.2 side)) (.of_objects ?_ ?_)
    · decide +kernel
    · decide +kernel
  have shown : List.Forall₂ Delta.ShownBy outlookDeltas (outlookDeltas.map (·.json)) := by
    rw [List.forall₂_map_right_iff, List.forall₂_same]
    exact fun d _ => d.shown
  exact reassembled (by decide) outlook.shown outlook_make shown stream _ _

end Remote

end Responder
