import Responder.Proofs.Remote.Cutting
import Responder.Proofs.Text.Utf8

/-!
# Event streams

A stream as a server writes it: one frame after the other, each of lines of which at most one
holds data, and the mark of the end unless the body just ends. A decoder gets the objects out of
it, however the bytes arrive.
-/

namespace Responder

namespace Chunk

def text? : Chunk → Option String
  | text delta => some delta
  | call _ | usage _ | finished _ => none

def call? : Chunk → Option ToolCall
  | call made => some made
  | text _ | usage _ | finished _ => none

def usage? : Chunk → Option TokenUsage
  | usage counted => some counted
  | text _ | call _ | finished _ => none

def reason? : Chunk → Option FinishReason
  | finished reason => some reason
  | text _ | call _ | usage _ => none

end Chunk

namespace Remote

/-- The empty line that ends a frame. -/
def emptyLine (crlf : Bool) : List UInt8 := if crlf then [13, 10, 13, 10] else [10, 10]

/-- Lines as one text. -/
def frameText : List String → String
  | [] => ""
  | [line] => line
  | line :: next :: rest => line ++ "\n" ++ frameText (next :: rest)

def frameBytes (lines : List String) (crlf : Bool) : List UInt8 :=
  Text.encodeUtf8 (frameText lines) ++ emptyLine crlf

/-- A line that does not end a frame. -/
structure FullLine (line : String) : Prop where
  single : '\n' ∉ line.toList
  full : line ≠ "" ∧ line ≠ "\r"

/-- A line beside the data: a comment, or another field. -/
structure SideLine (line : String) : Prop extends FullLine line where
  silent : dataMark.isPrefixOf line.toList = false

/-- The bytes of a frame, with the text of its data line if it has one. -/
inductive Frame : Option String → List UInt8 → Prop
  | comment {lines : List String} (crlf : Bool) : (∀ line ∈ lines, SideLine line) →
      Frame none (frameBytes lines crlf)
  | data {text : String} (before after : List String) (crlf : Bool) :
      (∀ line ∈ before, SideLine line) → '\n' ∉ text.toList → (∀ line ∈ after, SideLine line) →
      Frame (some text) (frameBytes (before ++ ("data:" ++ text) :: after) crlf)

/-- The bytes of a stream of objects, with comments between them. Nothing matters after the
mark of the end. -/
inductive EventStream : List Json → Bool → List UInt8 → Prop
  | eof : EventStream [] false []
  | done {text : String} {frame : List UInt8} (rest : List UInt8) : Frame (some text) frame →
      Text.trim text.toList = endMark → EventStream [] true (frame ++ rest)
  | comment {answers : List Json} {ended : Bool} {frame bytes : List UInt8} : Frame none frame →
      EventStream answers ended bytes → EventStream answers ended (frame ++ bytes)
  | object {answers : List Json} {ended : Bool} {frame bytes : List UInt8} {answer : Json}
      {text : String} : Frame (some text) frame →
      Json.parse (String.ofList (Text.trim text.toList)) = .ok answer →
      EventStream answers ended bytes → EventStream (answer :: answers) ended (frame ++ bytes)

/-- A frame of one line. -/
theorem Frame.single {text : String} (crlf : Bool) (single : '\n' ∉ text.toList) :
    Frame (some text) (frameBytes ["data:" ++ text] crlf) :=
  .data [] [] crlf nofun single nofun

/-- The bytes of objects in their compact texts, each in a frame of its own, and the mark of
the end. -/
def streamBytes (objects : List Json) : List UInt8 :=
  objects.foldr (fun object bytes => frameBytes ["data:" ++ object.text] false ++ bytes)
    (frameBytes ["data:[DONE]"] false)

/-- Objects that are read from their texts are a stream. -/
theorem EventStream.of_objects {objects : List Json}
    (single : ∀ object ∈ objects, '\n' ∉ object.compact)
    (read : ∀ object ∈ objects,
      (Json.read (Text.trim object.compact)).toOption = some object) :
    EventStream objects true (streamBytes objects) := by
  induction objects with
  | nil =>
    have mark : Frame (some "[DONE]") (frameBytes ["data:" ++ "[DONE]"] false) :=
      .single false (by decide)
    have last := EventStream.done [] mark (by decide)
    rwa [List.append_nil] at last
  | cons object rest ih =>
    have first : Json.read (Text.trim object.compact) = .ok object := by
      have first := read object List.mem_cons_self
      cases found : Json.read (Text.trim object.compact) with
      | error fault =>
        rw [found] at first
        cases first
      | ok other =>
        rw [found] at first
        cases first
        rfl
    refine .object (.single false ?_) ?_ (ih ?_ ?_)
    · rw [Json.text, String.toList_ofList]
      exact single object List.mem_cons_self
    · rw [Json.parse, String.toList_ofList, Json.text, String.toList_ofList, first]
      rfl
    · exact fun other mem => single other (List.mem_cons_of_mem _ mem)
    · exact fun other mem => read other (List.mem_cons_of_mem _ mem)

section split
variable {line more : List UInt8}

/-- The last line of a frame. -/
theorem splitFrames_last (single : 10 ∉ line) (crlf : Bool) (rest : List UInt8) :
    splitFrames (line ++ (emptyLine crlf ++ rest)) =
      (line :: (splitFrames rest).1, (splitFrames rest).2) := by
  induction line with
  | nil => cases crlf <;> rfl
  | cons b line ih =>
    obtain ⟨other, single⟩ := not_or.1 (mt List.mem_cons.2 single)
    have plain : startsBlank (b :: (line ++ (emptyLine crlf ++ rest))) = false := by
      cases line with
      | nil => cases crlf <;> simp [startsBlank, emptyLine, List.isPrefixOf, other]
      | cons c line =>
        have next : (10 : UInt8) ≠ c := fun same => single (same ▸ List.mem_cons_self)
        simp [startsBlank, List.isPrefixOf, other, next]
    rw [List.cons_append, splitFrames_cons plain, ih single]

/-- A line that goes on with a line that is not empty. -/
theorem splitFrames_more {frame : List UInt8} {frames : List (List UInt8)} {tail : List UInt8}
    (single : 10 ∉ line) (full : ¬ [10] <+: more ∧ ¬ [13, 10] <+: more)
    (split : splitFrames more = (frame :: frames, tail)) :
    splitFrames (line ++ 10 :: more) = ((line ++ 10 :: frame) :: frames, tail) := by
  induction line with
  | nil =>
    have plain : startsBlank (10 :: more) = false := by
      simpa [startsBlank, List.isPrefixOf, ← List.isPrefixOf_iff_prefix] using full.1
    rw [List.nil_append, splitFrames_cons plain, split]
    rfl
  | cons b line ih =>
    obtain ⟨other, single⟩ := not_or.1 (mt List.mem_cons.2 single)
    have plain : startsBlank (b :: (line ++ 10 :: more)) = false := by
      cases line with
      | nil =>
        have after : [13, 10].isPrefixOf more = false := by
          rw [Bool.eq_false_iff, ne_eq, List.isPrefixOf_iff_prefix]
          exact full.2
        simp [startsBlank, List.isPrefixOf_cons_cons, other, after]
      | cons c line =>
        have next : (10 : UInt8) ≠ c := fun same => single (same ▸ List.mem_cons_self)
        simp [startsBlank, List.isPrefixOf, other, next]
    rw [List.cons_append, splitFrames_cons plain, ih single]
    rfl

end split

/-- Where a line begins that does not end a frame, no empty line does. -/
theorem FullLine.full_append {line : String} (h : FullLine line) (bytes : List UInt8) :
    ¬ [10] <+: Text.encodeUtf8 line ++ bytes ∧ ¬ [13, 10] <+: Text.encodeUtf8 line ++ bytes := by
  have single := Text.lineFeed_not_mem h.single
  have some : Text.encodeUtf8 line ≠ [] := fun same =>
    h.full.1 (Text.encodeUtf8_injective (same.trans Text.encodeUtf8_empty.symm))
  have other : Text.encodeUtf8 line ≠ [13] := fun same =>
    h.full.2 (Text.encodeUtf8_injective (same.trans Text.encodeUtf8_return.symm))
  cases encoded : Text.encodeUtf8 line with
  | nil => exact absurd encoded some
  | cons b rest =>
    rw [encoded] at single other
    obtain ⟨first, later⟩ := not_or.1 (mt List.mem_cons.2 single)
    refine ⟨fun start => first (List.cons_prefix_cons.1 start).1, fun start => ?_⟩
    obtain ⟨rfl, after⟩ := List.cons_prefix_cons.1 start
    cases rest with
    | nil => exact other rfl
    | cons c rest =>
      have second := (List.cons_prefix_cons.1 after).1
      exact later (second ▸ List.mem_cons_self)

theorem encodeUtf8_frameText (line next : String) (rest : List String) :
    Text.encodeUtf8 (frameText (line :: next :: rest)) =
      Text.encodeUtf8 line ++ 10 :: Text.encodeUtf8 (frameText (next :: rest)) := by
  rw [frameText, Text.encodeUtf8_append, Text.encodeUtf8_append, Text.encodeUtf8_lineFeed,
    List.append_assoc, List.singleton_append]

theorem FullLine.full_frameBytes {line : String} (h : FullLine line) (rest : List String)
    (crlf : Bool) (bytes : List UInt8) :
    ¬ [10] <+: frameBytes (line :: rest) crlf ++ bytes ∧
      ¬ [13, 10] <+: frameBytes (line :: rest) crlf ++ bytes := by
  cases rest with
  | nil =>
    rw [frameBytes, List.append_assoc]
    exact h.full_append _
  | cons next rest =>
    rw [frameBytes, encodeUtf8_frameText, List.append_assoc, List.append_assoc]
    exact h.full_append _

/-- Lines that do not end a frame are a frame if an empty line follows them. -/
theorem splitFrames_frame {lines : List String} (full : ∀ line ∈ lines, FullLine line)
    (crlf : Bool) (bytes : List UInt8) :
    splitFrames (frameBytes lines crlf ++ bytes) =
      (Text.encodeUtf8 (frameText lines) :: (splitFrames bytes).1, (splitFrames bytes).2) := by
  induction lines with
  | nil =>
    rw [frameBytes, frameText, Text.encodeUtf8_empty]
    exact splitFrames_last List.not_mem_nil crlf bytes
  | cons line rest ih =>
    have single := Text.lineFeed_not_mem (full line List.mem_cons_self).single
    cases rest with
    | nil =>
      rw [frameBytes, List.append_assoc]
      exact splitFrames_last single crlf bytes
    | cons next rest =>
      have split := ih fun other mem => full other (List.mem_cons_of_mem _ mem)
      have follows := full next (List.mem_cons_of_mem _ List.mem_cons_self)
      have joined : frameBytes (line :: next :: rest) crlf ++ bytes =
          Text.encodeUtf8 line ++ 10 :: (frameBytes (next :: rest) crlf ++ bytes) := by
        simp only [frameBytes, encodeUtf8_frameText, List.append_assoc, List.cons_append]
      rw [joined, splitFrames_more single (follows.full_frameBytes rest crlf bytes) split,
        encodeUtf8_frameText]

theorem lines_append {line : List Char} (single : '\n' ∉ line) (rest : List Char) :
    lines (line ++ '\n' :: rest) = line :: lines rest := by
  induction line with
  | nil => rfl
  | cons c line ih =>
    obtain ⟨other, single⟩ := not_or.1 (mt List.mem_cons.2 single)
    rw [List.cons_append, lines, if_neg (Ne.symm other), ih single]

theorem lines_single {line : List Char} (single : '\n' ∉ line) : lines line = [line] := by
  induction line with
  | nil => rfl
  | cons c line ih =>
    obtain ⟨other, single⟩ := not_or.1 (mt List.mem_cons.2 single)
    rw [lines, if_neg (Ne.symm other), ih single]

theorem lines_frameText {line : String} {rest : List String}
    (single : ∀ other ∈ line :: rest, '\n' ∉ other.toList) :
    lines (frameText (line :: rest)).toList = (line :: rest).map String.toList := by
  induction rest generalizing line with
  | nil => exact lines_single (single line List.mem_cons_self)
  | cons next rest ih =>
    have first := single line List.mem_cons_self
    rw [frameText, String.toList_append, String.toList_append, List.append_assoc,
      List.map_cons, ← ih fun other mem => single other (List.mem_cons_of_mem _ mem)]
    exact lines_append first _

/-- The data of a frame are what its first data line holds. -/
theorem frameData_frameText {lines : List String} (single : ∀ line ∈ lines, '\n' ∉ line.toList) :
    frameData (frameText lines).toList =
      (lines.find? fun line => dataMark.isPrefixOf line.toList).map fun line =>
        Text.trim (line.toList.drop dataMark.length) := by
  cases lines with
  | nil => rfl
  | cons line rest =>
    rw [frameData, lines_frameText single, List.find?_map, Option.map_map]
    rfl

theorem mem_frameText {lines : List String} {line : String} {c : Char} (mem : line ∈ lines)
    (inside : c ∈ line.toList) : c ∈ (frameText lines).toList := by
  induction lines with
  | nil => cases mem
  | cons first rest ih =>
    cases rest with
    | nil =>
      rw [List.mem_singleton.1 mem] at inside
      exact inside
    | cons next rest =>
      rw [frameText, String.toList_append, String.toList_append, List.append_assoc]
      obtain rfl | mem := List.mem_cons.1 mem
      · exact List.mem_append_left _ inside
      · exact List.mem_append_right _ (List.mem_append_right _ (ih mem))

theorem fullLine_data {text : String} (single : '\n' ∉ text.toList) :
    FullLine ("data:" ++ text) := by
  refine ⟨?_, fun same => ?_, fun same => ?_⟩
  · rw [String.toList_append, List.mem_append]
    exact not_or.2 ⟨by decide, single⟩
  · have texts := congrArg String.toList same
    rw [String.toList_append] at texts
    cases texts
  · have texts := congrArg String.toList same
    rw [String.toList_append] at texts
    cases texts

/-- A frame is cut where it ends, and its text has its data. -/
theorem Frame.spec {data : Option String} {frame : List UInt8} (h : Frame data frame) :
    ∃ text : String, (∀ bytes, (splitFrames (frame ++ bytes)).1 =
        Text.encodeUtf8 text :: (splitFrames bytes).1) ∧
      frameData text.toList = data.map (fun held => Text.trim held.toList) ∧
      (data ≠ none → Text.isBlankText text.toList = false) := by
  cases h with
  | @comment lines crlf side =>
    refine ⟨frameText lines, fun bytes => ?_, ?_, absurd rfl⟩
    · rw [splitFrames_frame (fun line mem => (side line mem).toFullLine)]
    · rw [frameData_frameText fun line mem => (side line mem).single,
        List.find?_eq_none.2 fun line mem => Bool.eq_false_iff.1 (side line mem).silent]
      rfl
  | @data text before after crlf first single last =>
    have full : ∀ line ∈ before ++ ("data:" ++ text) :: after, FullLine line := by
      intro line mem
      obtain mem | mem := List.mem_append.1 mem
      · exact (first line mem).toFullLine
      · obtain rfl | mem := List.mem_cons.1 mem
        · exact fullLine_data single
        · exact (last line mem).toFullLine
    have marked : dataMark.isPrefixOf ("data:" ++ text).toList = true := by
      rw [String.toList_append]
      rfl
    refine ⟨_, fun bytes => by rw [splitFrames_frame full], ?_, fun _ => ?_⟩
    · rw [frameData_frameText fun line mem => (full line mem).single, List.find?_append,
        List.find?_eq_none.2 fun line mem => Bool.eq_false_iff.1 (first line mem).silent,
        Option.none_or]
      rw [List.find?_cons_of_pos (p := fun line : String => dataMark.isPrefixOf line.toList) marked,
        Option.map_some, String.toList_append]
      rfl
    · have inside : 'd' ∈ ("data:" ++ text).toList := by
        rw [String.toList_append]
        exact List.mem_cons_self
      have line : ("data:" ++ text) ∈ before ++ ("data:" ++ text) :: after :=
        List.mem_append_right _ List.mem_cons_self
      have there := mem_frameText line inside
      exact List.all_eq_false.2 ⟨'d', there, by decide⟩

namespace Assembly

variable {fresh : Nat → String} {a : Assembly}

/-- What objects yield, one after the other, when nothing comes after them. -/
def told (fresh : Nat → String) (a : Assembly) : List Json → List Chunk
  | [] => (a.finish fresh).2
  | answer :: rest =>
    (a.takeObject fresh answer).2 ++ told fresh (a.takeObject fresh answer).1 rest

/-- The mark of the end is no JSON. -/
theorem ne_endMark {data : List Char} {answer : Json}
    (parsed : Json.parse (String.ofList data) = .ok answer) : data ≠ endMark := by
  rintro rfl
  have refused : (Json.parse (String.ofList endMark)).toOption = none := by decide
  rw [parsed] at refused
  cases refused

theorem takeObject_done (fresh : Nat → String) (a : Assembly) (answer : Json) :
    (a.takeObject fresh answer).1.done = a.done := by
  unfold takeObject
  dsimp only
  split
  · split <;> rfl
  · rfl

theorem finish_done (fresh : Nat → String) (a : Assembly) :
    ({ a with done := true }.finish fresh).1.done = true ∧
      ({ a with done := true }.finish fresh).2 = (a.finish fresh).2 := by
  unfold finish
  dsimp only
  split
  · exact ⟨rfl, rfl⟩
  · exact ⟨rfl, rfl⟩

/-- The first frame yields chunks, and then all others are taken. -/
theorem readFrames_cons {b : Assembly} {line : String} {chunks : List Chunk}
    {rest : List (List UInt8)} (full : Text.isBlankText line.toList = false)
    (taken : a.takeText fresh line.toList = (b, .ok chunks)) (undone : b.done = false) :
    a.readFrames fresh (Text.encodeUtf8 line :: rest) =
      prepend chunks (b.readFrames fresh rest) := by
  apply readFrames_prepend
  simp only [takeFrames, Text.decodeUtf8?_encodeUtf8, full, taken, undone, Bool.false_eq_true,
    if_false]

/-- A frame without data yields nothing. -/
theorem readFrames_silent {text : String} (silent : frameData text.toList = none)
    (undone : a.done = false) (rest : List (List UInt8)) :
    a.readFrames fresh (Text.encodeUtf8 text :: rest) = a.readFrames fresh rest := by
  cases blank : Text.isBlankText text.toList with
  | true =>
    simp only [readFrames, takeFrames, Text.decodeUtf8?_encodeUtf8, blank, if_true]
  | false =>
    have taken : a.takeText fresh text.toList = (a, .ok []) := by rw [takeText, silent]
    rw [readFrames_cons blank taken undone]
    cases a.readFrames fresh rest <;> rfl

/-- The frames of a stream yield what its objects yield. -/
theorem readFrames_stream {answers : List Json} {ended : Bool} {bytes : List UInt8}
    (stream : EventStream answers ended bytes) (undone : a.done = false) :
    a.readFrames fresh (splitFrames bytes).1 = .ok (a.told fresh answers, ended) := by
  induction stream generalizing a with
  | eof =>
    simp only [splitFrames, readFrames, takeFrames, undone, told, Bool.false_eq_true, if_false,
      List.nil_append]
  | done rest marked last =>
    obtain ⟨text, split, data, full⟩ := marked.spec
    have taken : a.takeText fresh text.toList =
        (({ a with done := true }.finish fresh).1,
          .ok ({ a with done := true }.finish fresh).2) := by
      rw [takeText, data, Option.map_some, last]
      rfl
    obtain ⟨done, same⟩ := finish_done fresh a
    rw [split]
    simp only [readFrames, takeFrames, Text.decodeUtf8?_encodeUtf8, full (Option.some_ne_none _),
      taken, done, same, told, Bool.false_eq_true, if_false, if_true]
  | comment framed _ ih =>
    obtain ⟨text, split, silent, -⟩ := framed.spec
    rw [split, readFrames_silent silent undone, ih undone]
  | @object answers ended frame bytes answer held framed parsed _ ih =>
    obtain ⟨text, split, data, full⟩ := framed.spec
    have taken : a.takeText fresh text.toList =
        ((a.takeObject fresh answer).1, .ok (a.takeObject fresh answer).2) := by
      rw [takeText, data]
      simp only [Option.map_some, takeData, if_neg (ne_endMark parsed), parsed]
    have undone' := (takeObject_done fresh a answer).trans undone
    rw [split, readFrames_cons (full (Option.some_ne_none _)) taken undone', ih undone']
    rfl

end Assembly

/-- Pieces of a stream yield what its objects yield. -/
theorem Decoder.readAll_stream {fresh : Nat → String} {answers : List Json} {ended : Bool}
    {pieces : List (List UInt8)} (stream : EventStream answers ended pieces.flatten) :
    readAll fresh {} pieces = .ok (Assembly.told fresh {} answers, ended) := by
  rw [readAll_eq new_waits]
  exact Assembly.readFrames_stream stream rfl

/-- The reason for which an answer is finished with an object. -/
def finishReason? (answer : Json) : Option String :=
  (((choice? answer).getD .null).field "finish_reason").string?

def deltaOf (answer : Json) : Json := ((choice? answer).getD .null).field "delta"

/-- The fragments of calls in an object. -/
def fragmentsOf (answer : Json) : List Json := ((deltaOf answer).field "tool_calls").array?.getD []

/-- What an object tells at once: its text, and its usage. -/
def said (answer : Json) : List Chunk :=
  (match ((deltaOf answer).field "content").string? with
    | some "" | none => []
    | some words => [Chunk.text words]) ++ (usage? answer).toList.map Chunk.usage

/-- Objects tell only text and usage at once. -/
theorem plain_of_said {objects : List Json} {chunk : Chunk} (mem : chunk ∈ objects.flatMap said) :
    chunk.call? = none ∧ chunk.reason? = none := by
  obtain ⟨answer, -, mem⟩ := List.mem_flatMap.1 mem
  unfold said at mem
  obtain mem | mem := List.mem_append.1 mem
  · split at mem
    · cases mem
    · cases mem
    · obtain rfl := List.mem_singleton.1 mem
      exact ⟨rfl, rfl⟩
  · obtain ⟨usage, -, rfl⟩ := List.mem_map.1 mem
    exact ⟨rfl, rfl⟩

theorem usage_said (answer : Json) :
    (said answer).filterMap Chunk.usage? = (usage? answer).toList := by
  have counted : ((usage? answer).toList.map Chunk.usage).filterMap Chunk.usage? =
      (usage? answer).toList := by
    cases usage? answer <;> rfl
  rw [said, List.filterMap_append, counted]
  split <;> rfl

theorem usages_said (objects : List Json) :
    (objects.flatMap said).filterMap Chunk.usage? = objects.filterMap usage? := by
  induction objects with
  | nil => rfl
  | cons object rest ih =>
    rw [List.flatMap_cons, List.filterMap_append, usage_said, ih, List.filterMap_cons]
    cases usage? object <;> rfl

theorem text_said (answer : Json) :
    String.join ((said answer).filterMap Chunk.text?) =
      ((deltaOf answer).field "content").string?.getD "" := by
  have counted : ((usage? answer).toList.map Chunk.usage).filterMap Chunk.text? = [] := by
    cases usage? answer <;> rfl
  rw [said, List.filterMap_append, counted, List.append_nil]
  split
  · next same =>
    rw [same]
    rfl
  · next same =>
    rw [same]
    rfl
  · next words _ same =>
    have view : [Chunk.text words].filterMap Chunk.text? = [words] := rfl
    rw [same, view, String.join_cons, String.join_nil, String.append_empty]
    rfl

/-- The calls that were gathered. -/
def callsOf (fresh : Nat → String) (calls : List (Nat × CallBuffer)) : List Chunk :=
  calls.map fun (index, buffer) => .call (buffer.call (fresh index))

namespace Assembly

variable {fresh : Nat → String} {a : Assembly} {answer : Json} {early rest : List Json}

theorem takeObject_going (fresh : Nat → String) (a : Assembly)
    (going : finishReason? answer = none) :
    a.takeObject fresh answer =
      ({ a with calls := (fragmentsOf answer).foldl addCall a.calls }, said answer) := by
  unfold finishReason? at going
  unfold takeObject
  dsimp only
  rw [going]
  rfl

theorem takeObject_last {reason : String} (fresh : Nat → String) (a : Assembly)
    (unfinished : a.finished = false) (last : finishReason? answer = some reason) :
    a.takeObject fresh answer =
      ({ a with calls := [], finished := true },
        said answer ++ (callsOf fresh ((fragmentsOf answer).foldl addCall a.calls) ++
          [.finished (.ofText reason)])) := by
  unfold finishReason? at last
  unfold takeObject
  dsimp only
  rw [last]
  simp only [unfinished, Bool.false_eq_true, if_false]
  rfl

/-- Before the answer is finished, its calls are gathered and all else is told at once. -/
theorem told_early (fresh : Nat → String) (a : Assembly)
    (going : ∀ answer ∈ early, finishReason? answer = none) (rest : List Json) :
    a.told fresh (early ++ rest) = early.flatMap said ++
      told fresh { a with calls := (early.flatMap fragmentsOf).foldl addCall a.calls } rest := by
  induction early generalizing a with
  | nil => rfl
  | cons answer early ih =>
    rw [List.cons_append, told, takeObject_going fresh a (going answer List.mem_cons_self),
      ih _ fun other mem => going other (List.mem_cons_of_mem _ mem)]
    simp only [List.flatMap_cons, List.foldl_append, List.append_assoc]

/-- With the object that finishes an answer all its calls are told. -/
theorem told_last {reason : String} (unfinished : a.finished = false)
    (going : ∀ answer ∈ early, finishReason? answer = none)
    (last : finishReason? answer = some reason) (rest : List Json) :
    a.told fresh (early ++ answer :: rest) =
      (early ++ [answer]).flatMap said ++
        (callsOf fresh (((early ++ [answer]).flatMap fragmentsOf).foldl addCall a.calls) ++
          .finished (.ofText reason) ::
            told fresh { a with calls := [], finished := true } rest) := by
  rw [told_early fresh a going, told, takeObject_last fresh
    { a with calls := (early.flatMap fragmentsOf).foldl addCall a.calls } unfinished last]
  simp only [List.flatMap_append, List.flatMap_cons, List.flatMap_nil, List.append_nil,
    List.foldl_append, List.append_assoc, List.cons_append, List.nil_append]

/-- An answer that nothing finishes is finished at the end of its stream. -/
theorem told_unfinished (fresh : Nat → String) (a : Assembly) (unfinished : a.finished = false)
    (going : ∀ answer ∈ early, finishReason? answer = none) :
    ∃ reason, a.told fresh early = early.flatMap said ++
      (callsOf fresh ((early.flatMap fragmentsOf).foldl addCall a.calls) ++
        [.finished reason]) := by
  have split := told_early fresh a going []
  rw [List.append_nil] at split
  rw [split]
  simp only [told, finish, unfinished, Bool.false_eq_true, if_false]
  exact ⟨_, rfl⟩

end Assembly

end Remote

end Responder
