import Mathlib.Data.Bool.Basic
import Responder.Proofs.Remote.Buffers
import Responder.Proofs.Remote.Undecodable

/-!
# Finishing an answer once

A reason to finish, the mark of the end and the end of the body may all come, in any order and with
frames after them, and a read with a fault loses its chunks. Main statement: in whatever way a
decoder is used, an answer is finished at most once, with one call for each index that was seen, and
exactly once if nothing fails and an end is told.
-/

namespace Responder.Remote

/-- A chunk that neither makes a call nor finishes the answer. -/
def Chunk.Plain (chunk : Chunk) : Prop := chunk.call? = none ∧ chunk.reason? = none

namespace Content

/-- Whether an answer is finished after it, for this reason or an earlier one. -/
def closes : Content → Bool
  | mark => true
  | object answer => (finishReason? answer).isSome
  | nothing | broken _ => false

def fragments : Content → List Json
  | object answer => fragmentsOf answer
  | nothing | mark | broken _ => []

end Content

/-- The contents up to the first after which an answer is finished. -/
def untilClosed : List Content → List Content
  | [] => []
  | content :: rest => if content.closes then [content] else content :: untilClosed rest

/-- The index of a fragment; one that names none belongs to the first call. -/
def placeOf (fragment : Json) : Nat := (fragment.field "index").nat?.getD 0

/-- The indices that were seen before an answer was finished. -/
def seenIn (contents : List Content) : List Nat :=
  ((untilClosed contents).flatMap Content.fragments).map placeOf

/-- Chunks with which an answer is finished: its calls come right before the reason, one for each
index, in ascending order. -/
def Finishes (fresh : Nat → String) (indices : List Nat) (chunks : List Chunk) : Prop :=
  ∃ early buffers reason late,
    chunks = early ++ (callsOf fresh buffers ++ .finished reason :: late) ∧
      (∀ chunk ∈ early ++ late, Chunk.Plain chunk) ∧ Ascending buffers ∧
      ∀ index, index ∈ buffers.map (·.1) ↔ index ∈ indices

section
variable {calls : List (Nat × CallBuffer)} {contents : List Content}

theorem index_updateCall (index place : Nat) (change : CallBuffer → CallBuffer) :
    index ∈ (updateCall place change calls).map (·.1) ↔
      index = place ∨ index ∈ calls.map (·.1) := by
  induction calls with
  | nil => simp [updateCall]
  | cons first rest ih =>
    obtain ⟨other, buffer⟩ := first
    unfold updateCall
    split
    · simp
    · split
      · next same => simp [same]
      · rw [List.map_cons, List.mem_cons, ih, List.map_cons, List.mem_cons, or_left_comm]

/-- What was gathered is in order, with one buffer for each index. -/
theorem gathered_spec (ascending : Ascending calls) (fragments : List Json) :
    Ascending (fragments.foldl Assembly.addCall calls) ∧
      ∀ index, index ∈ (fragments.foldl Assembly.addCall calls).map (·.1) ↔
        index ∈ calls.map (·.1) ∨ index ∈ fragments.map placeOf := by
  induction fragments generalizing calls with
  | nil => exact ⟨ascending, fun index => by simp⟩
  | cons fragment rest ih =>
    obtain ⟨ordered, places⟩ := ih (ascending.updateCall (placeOf fragment) (·.add fragment))
    refine ⟨ordered, fun index => (places index).trans ?_⟩
    rw [index_updateCall, List.map_cons, List.mem_cons, or_assoc, or_left_comm]

theorem untilClosed_of_going (going : ∀ content ∈ contents, content.closes = false) :
    untilClosed contents = contents := by
  induction contents with
  | nil => rfl
  | cons content rest ih =>
    obtain ⟨first, others⟩ := List.forall_mem_cons.1 going
    rw [untilClosed, first, if_neg Bool.false_ne_true, ih others]

theorem untilClosed_append_closing {content : Content}
    (going : ∀ content ∈ contents, content.closes = false) (closing : content.closes = true)
    (late : List Content) : untilClosed (contents ++ content :: late) = contents ++ [content] := by
  induction contents with
  | nil => rw [List.nil_append, untilClosed, if_pos closing, List.nil_append]
  | cons first rest ih =>
    obtain ⟨open_, others⟩ := List.forall_mem_cons.1 going
    rw [List.cons_append, untilClosed, open_, if_neg Bool.false_ne_true, ih others,
      List.cons_append]

end

section
variable {fresh : Nat → String} {indices : List Nat} {chunks more : List Chunk}

theorem Finishes.prepend (h : Finishes fresh indices chunks)
    (plain : ∀ chunk ∈ more, Chunk.Plain chunk) : Finishes fresh indices (more ++ chunks) := by
  obtain ⟨early, buffers, reason, late, rfl, side, ordered⟩ := h
  refine ⟨more ++ early, buffers, reason, late, (List.append_assoc ..).symm, ?_, ordered⟩
  rw [List.append_assoc]
  exact List.forall_mem_append.2 ⟨plain, side⟩

theorem Finishes.append (h : Finishes fresh indices chunks)
    (plain : ∀ chunk ∈ more, Chunk.Plain chunk) : Finishes fresh indices (chunks ++ more) := by
  obtain ⟨early, buffers, reason, late, rfl, side, ordered⟩ := h
  refine ⟨early, buffers, reason, late ++ more, by simp, ?_, ordered⟩
  rw [← List.append_assoc]
  exact List.forall_mem_append.2 ⟨side, plain⟩

theorem finishes_gathered (fresh : Nat → String) {early : List Chunk}
    (plain : ∀ chunk ∈ early, Chunk.Plain chunk) (fragments : List Json) (reason : FinishReason) :
    Finishes fresh (fragments.map placeOf) (early ++
      (callsOf fresh (fragments.foldl Assembly.addCall []) ++ [.finished reason])) := by
  obtain ⟨ordered, places⟩ := gathered_spec .nil fragments
  refine ⟨early, _, reason, [], rfl, ?_, ordered, fun index => (places index).trans ?_⟩
  · rwa [List.append_nil]
  · exact or_iff_right List.not_mem_nil

end

namespace Assembly

variable {fresh : Nat → String} {a b c : Assembly} {contents : List Content} {content : Content}

/-- Until an answer is finished, its calls are what was gathered from all that came. -/
structure Knows (contents : List Content) (a : Assembly) : Prop where
  going : a.finished = false → (∀ content ∈ contents, content.closes = false) ∧
    a.calls = (contents.flatMap Content.fragments).foldl addCall []
  ended : a.done = true → a.finished = true

/-- An answer is finished or left as it is. -/
def Told (fresh : Nat → String) (indices : List Nat) (a b : Assembly) (chunks : List Chunk) :
    Prop :=
  (b.finished = a.finished ∧ ∀ chunk ∈ chunks, Chunk.Plain chunk) ∨
    a.finished = false ∧ b.finished = true ∧ Finishes fresh indices chunks

theorem takeObject_over (fresh : Nat → String) (answer : Json) (closed : a.finished = true) :
    a.takeObject fresh answer =
      ({ a with calls := (fragmentsOf answer).foldl addCall a.calls }, said answer) := by
  unfold takeObject
  dsimp only
  split
  · rw [if_pos closed]
    rfl
  · rfl

/-- What finishes an answer is told by the contents alone. -/
theorem takeContent_finished (fresh : Nat → String) (a : Assembly) (content : Content) :
    (a.takeContent fresh content).1.finished = (a.finished || content.closes) := by
  cases closed : a.finished with
  | true =>
    cases content with
    | nothing | broken => exact closed
    | mark => simp only [takeContent, finish, closed, if_true, Bool.true_or]
    | object answer =>
      simp only [takeContent, takeObject_over fresh answer closed, closed, Bool.true_or]
  | false =>
    cases content with
    | nothing | broken => exact closed
    | mark => simp [takeContent, finish, closed, flush, Content.closes]
    | object answer =>
      cases ends : finishReason? answer with
      | none => simp [takeContent, takeObject_going fresh a ends, closed, Content.closes, ends]
      | some reason => simp [takeContent, takeObject_last fresh a closed ends, Content.closes, ends]

theorem said_plain (answer : Json) : ∀ chunk ∈ said answer, Chunk.Plain chunk := fun _ mem =>
  plain_of_said (List.mem_flatMap.2 ⟨answer, List.mem_singleton_self _, mem⟩)

/-- A content after which nothing is finished adds its fragments. -/
theorem takeContent_going {chunks : List Chunk} (going : a.finished = true ∨ content.closes = false)
    (taken : a.takeContent fresh content = (b, .ok chunks)) :
    (∀ chunk ∈ chunks, Chunk.Plain chunk) ∧
      b.calls = content.fragments.foldl addCall a.calls ∧
      (b.done = true → a.done = true ∨ a.finished = true) := by
  cases content with
  | nothing =>
    cases taken
    exact ⟨List.forall_mem_nil _, rfl, .inl⟩
  | mark =>
    have closed := going.resolve_right nofun
    simp only [takeContent, finish, closed, if_true] at taken
    cases taken
    exact ⟨List.forall_mem_nil _, rfl, fun _ => .inr closed⟩
  | object answer =>
    have same : a.takeObject fresh answer =
        ({ a with calls := (fragmentsOf answer).foldl addCall a.calls }, said answer) := by
      obtain closed | going := going
      · exact takeObject_over fresh answer closed
      · have unfinished := Option.isNone_iff_eq_none.1 (Option.isSome_eq_false_iff.1 going)
        exact takeObject_going fresh a unfinished
    rw [takeContent, same] at taken
    cases taken
    exact ⟨said_plain answer, rfl, .inl⟩
  | broken fault => cases taken

/-- A content after which an answer is finished tells the calls and the reason. -/
theorem takeContent_closing (fresh : Nat → String) (unfinished : a.finished = false)
    (closing : content.closes = true) :
    ∃ early reason, (∀ chunk ∈ early, Chunk.Plain chunk) ∧ (a.takeContent fresh content).2 =
      .ok (early ++ (callsOf fresh (content.fragments.foldl addCall a.calls) ++
        [.finished reason])) := by
  cases content with
  | nothing | broken => cases closing
  | mark =>
    simp only [takeContent, finish, unfinished, Bool.false_eq_true, if_false]
    exact ⟨[], _, List.forall_mem_nil _, rfl⟩
  | object answer =>
    obtain ⟨reason, last⟩ := Option.isSome_iff_exists.1 closing
    rw [takeContent, takeObject_last fresh a unfinished last]
    exact ⟨said answer, _, said_plain answer, rfl⟩

theorem knows_of_finished (closed : a.finished = true) (contents : List Content) :
    a.Knows contents :=
  ⟨fun going => absurd (closed.symm.trans going) nofun, fun _ => closed⟩

theorem takeContent_told {chunks : List Chunk} (knows : a.Knows contents)
    (taken : a.takeContent fresh content = (b, .ok chunks)) :
    b.Knows (contents ++ [content]) ∧ Told fresh (seenIn (contents ++ [content])) a b chunks := by
  have finished := takeContent_finished fresh a content
  rw [taken] at finished
  cases closed : a.finished with
  | true =>
    rw [closed, Bool.true_or] at finished
    obtain ⟨plain, -⟩ := takeContent_going (.inl closed) taken
    exact ⟨knows_of_finished finished _, .inl ⟨finished.trans closed.symm, plain⟩⟩
  | false =>
    obtain ⟨going, calls⟩ := knows.going closed
    have gathered : (contents ++ [content]).flatMap Content.fragments =
        contents.flatMap Content.fragments ++ content.fragments := by
      rw [List.flatMap_append, List.flatMap_singleton]
    rw [closed, Bool.false_or] at finished
    cases closes : content.closes with
    | false =>
      rw [closes] at finished
      obtain ⟨plain, more, done⟩ := takeContent_going (.inr closes) taken
      refine ⟨⟨fun _ => ⟨?_, ?_⟩, fun ended => ?_⟩, .inl ⟨finished.trans closed.symm, plain⟩⟩
      · exact List.forall_mem_append.2 ⟨going, List.forall_mem_singleton.2 closes⟩
      · rw [more, calls, gathered, List.foldl_append]
      · exact absurd (closed.symm.trans ((done ended).elim knows.ended id)) nofun
    | true =>
      rw [closes] at finished
      obtain ⟨early, reason, plain, told⟩ := takeContent_closing fresh closed closes
      rw [taken] at told
      cases told
      refine ⟨knows_of_finished finished _, .inr ⟨closed, finished, ?_⟩⟩
      rw [seenIn, untilClosed_append_closing going closes [], gathered, calls, ← List.foldl_append]
      exact finishes_gathered fresh plain _ reason

/-- A content that cannot be decoded is passed over. -/
theorem Knows.passed (knows : a.Knows contents) (going : content.closes = false)
    (silent : content.fragments = []) : a.Knows (contents ++ [content]) := by
  refine ⟨fun unfinished => ?_, knows.ended⟩
  obtain ⟨before, calls⟩ := knows.going unfinished
  refine ⟨List.forall_mem_append.2 ⟨before, List.forall_mem_singleton.2 going⟩, ?_⟩
  rw [calls, List.flatMap_append, List.flatMap_singleton, silent, List.append_nil]

/-- What the first frame does: it is broken, or what it holds is taken, as the last or before the
frames that follow. -/
theorem takeFrames_step (fresh : Nat → String) (a : Assembly) (frame : List UInt8)
    (rest : List (List UInt8)) :
    (∃ fault, Content.ofFrame frame = .broken fault ∧
      a.takeFrames fresh (frame :: rest) = (a, rest, .error fault)) ∨
    ∃ b chunks, a.takeContent fresh (.ofFrame frame) = (b, .ok chunks) ∧
      (a.takeFrames fresh (frame :: rest) = (b, rest, .ok chunks) ∨
        a.takeFrames fresh (frame :: rest) = resume fresh (b, chunks) rest) := by
  unfold Content.ofFrame
  rw [takeFrames]
  cases Text.decodeUtf8? frame with
  | none => exact .inl ⟨_, rfl, rfl⟩
  | some text =>
    dsimp only
    rw [takeText_eq]
    cases held : frameData text.toList with
    | none =>
      refine .inr ⟨a, [], rfl, ?_⟩
      split
      · exact .inr (resume_nil a rest).symm
      · simp only [Option.elim, takeContent]
        split
        · exact .inl rfl
        · exact .inr rfl
    | some data =>
      rw [not_blank_of_data held, if_neg Bool.false_ne_true]
      simp only [Option.elim]
      cases Content.ofData data with
      | broken fault => exact .inl ⟨fault, rfl, rfl⟩
      | nothing | mark | object =>
        refine .inr ⟨_, _, rfl, ?_⟩
        simp only [takeContent]
        split
        · exact .inl rfl
        · exact .inr rfl

/-- Chunks of one content, and of others after it. -/
theorem Told.trans {indices indices' : List Nat} {chunks more : List Chunk}
    (first : Told fresh indices a b chunks) (later : Told fresh indices' b c more)
    (closed : a.finished = false → b.finished = true → indices' = indices) :
    Told fresh indices' a c (chunks ++ more) := by
  obtain ⟨same, plain⟩ | ⟨unfinished, finished, ends⟩ := first
  · obtain ⟨same', plain'⟩ | ⟨unfinished, finished, ends⟩ := later
    · exact .inl ⟨same'.trans same, List.forall_mem_append.2 ⟨plain, plain'⟩⟩
    · exact .inr ⟨same ▸ unfinished, finished, ends.prepend plain⟩
  · obtain ⟨same, plain⟩ | ⟨open_, -⟩ := later
    · rw [closed unfinished finished]
      exact .inr ⟨unfinished, same.trans finished, ends.append plain⟩
    · exact absurd (finished.symm.trans open_) nofun

/-- The frames that are taken are known then, also if a fault takes the place of their chunks. -/
theorem takeFrames_told {frames left : List (List UInt8)}
    {result : Except FrameFault (List Chunk)} (knows : a.Knows contents)
    (taken : a.takeFrames fresh frames = (b, left, result)) :
    ∃ read, frames = read ++ left ∧ b.Knows (contents ++ read.map .ofFrame) ∧
      (a.finished = true → b.finished = true) ∧ ∀ chunks, result = .ok chunks →
        Told fresh (seenIn (contents ++ read.map .ofFrame)) a b chunks := by
  induction frames generalizing a contents result with
  | nil =>
    cases taken
    refine ⟨[], rfl, ?_, id, fun chunks same => ?_⟩
    · rwa [List.map_nil, List.append_nil]
    · cases same
      exact .inl ⟨rfl, List.forall_mem_nil _⟩
  | cons frame rest ih =>
    obtain ⟨fault, broken, stop⟩ | ⟨c, first, content, goes⟩ := takeFrames_step fresh a frame rest
    · cases stop.symm.trans taken
      exact ⟨[frame], rfl, knows.passed (by rw [broken]; rfl) (by rw [broken]; rfl), id, nofun⟩
    obtain ⟨knows', told⟩ := takeContent_told knows content
    have finished := takeContent_finished fresh a (.ofFrame frame)
    rw [content] at finished
    obtain stop | goes := goes
    · cases stop.symm.trans taken
      refine ⟨[frame], rfl, knows', fun closed => ?_, fun chunks same => ?_⟩
      · rw [finished, closed, Bool.true_or]
      · cases same
        exact told
    · rcases later : c.takeFrames fresh rest with ⟨d, others, more⟩
      rw [resume, later] at goes
      cases goes.symm.trans taken
      obtain ⟨read, rfl, known, kept, tell⟩ := ih knows' later
      refine ⟨frame :: read, rfl, ?_, fun closed => kept ?_, fun chunks same => ?_⟩
      · rwa [List.map_cons, List.append_cons]
      · rw [finished, closed, Bool.true_or]
      · cases more with
        | error fault => cases same
        | ok more =>
          cases same
          rw [List.map_cons]
          have rest := tell more rfl
          rw [List.append_assoc, List.singleton_append] at rest
          -- Where the first frame finishes the answer, what later frames hold was not yet seen.
          refine told.trans rest fun unfinished closed => ?_
          rw [closed, unfinished, Bool.false_or] at finished
          have going := (knows.going unfinished).1
          rw [seenIn, seenIn, untilClosed_append_closing going finished.symm,
            untilClosed_append_closing going finished.symm]

end Assembly

/-- A use of a decoder: bytes arrive, or the body ends. -/
inductive Use where
  | feed (bytes : List UInt8)
  | finish
  deriving DecidableEq, Repr

def Use.bytes : Use → List UInt8
  | feed bytes => bytes
  | finish => []

/-- The reasons among all chunks that are returned. -/
def reasonsIn (results : List (Except FrameFault (List Chunk))) : List FinishReason :=
  (results.flatMap fun result => result.toOption.getD []).filterMap Chunk.reason?

namespace Decoder

def use (fresh : Nat → String) (d : Decoder) : Use → Decoder × Except FrameFault (List Chunk)
  | .feed bytes => d.feed fresh bytes
  | .finish => ((d.finish fresh).1, .ok (d.finish fresh).2)

/-- A decoder after uses, one after the other. -/
def used (fresh : Nat → String) (d : Decoder) (uses : List Use) : Decoder :=
  uses.foldl (fun d use => (d.use fresh use).1) d

/-- What uses return, one after the other. -/
def results (fresh : Nat → String) (d : Decoder) :
    List Use → List (Except FrameFault (List Chunk))
  | [] => []
  | use :: rest => (d.use fresh use).2 :: (d.use fresh use).1.results fresh rest

/-- The frames of all bytes so far are those that were read and those that are left. -/
structure Knows (sofar : List UInt8) (read : List (List UInt8)) (d : Decoder) : Prop where
  frames : (splitFrames sofar).1 = read ++ d.frames
  tail : (splitFrames sofar).2 = d.tail
  assembly : d.assembly.Knows (read.map .ofFrame)

variable {fresh : Nat → String} {d e : Decoder} {sofar : List UInt8} {read : List (List UInt8)}
  {use : Use} {uses : List Use} {result : Except FrameFault (List Chunk)}

theorem new_knows : Knows [] [] {} := ⟨rfl, rfl, fun _ => ⟨nofun, rfl⟩, nofun⟩

/-- What one use does. -/
theorem use_told (knows : d.Knows sofar read) (step : d.use fresh use = (e, result)) :
    ∃ more, e.Knows (sofar ++ use.bytes) (read ++ more) ∧
      (d.assembly.finished = true → e.assembly.finished = true) ∧
      ∀ chunks, result = .ok chunks → Assembly.Told fresh
        (seenIn ((read ++ more).map .ofFrame)) d.assembly e.assembly chunks := by
  cases use with
  | feed bytes =>
    have cut := splitFrames_append sofar bytes
    simp only [Decoder.use, feed] at step
    rw [knows.frames, knows.tail] at cut
    rcases taken : d.assembly.takeFrames fresh (d.frames ++ (splitFrames (d.tail ++ bytes)).1)
      with ⟨b, left, found⟩
    rw [taken] at step
    cases step
    obtain ⟨more, split, known, kept, told⟩ := Assembly.takeFrames_told knows.assembly taken
    rw [← List.map_append] at known told
    refine ⟨more, ⟨?_, ?_, known⟩, kept, told⟩
    · rw [Use.bytes, cut, List.append_assoc, split, List.append_assoc]
    · rw [Use.bytes, cut]
  | finish =>
    refine ⟨[], ?_⟩
    rw [Use.bytes, List.append_nil, List.append_nil]
    simp only [Decoder.use, finish, Assembly.finish] at step
    cases closed : d.assembly.finished with
    | true =>
      simp only [closed, if_true] at step
      cases step
      refine ⟨knows, fun _ => closed, fun chunks same => ?_⟩
      cases same
      exact .inl ⟨rfl, List.forall_mem_nil _⟩
    | false =>
      simp only [closed, Bool.false_eq_true, if_false] at step
      cases step
      obtain ⟨going, calls⟩ := knows.assembly.going closed
      refine ⟨⟨knows.frames, knows.tail, Assembly.knows_of_finished rfl _⟩, fun _ => rfl,
        fun chunks same => ?_⟩
      cases same
      refine .inr ⟨closed, rfl, ?_⟩
      rw [Assembly.flush, seenIn, untilClosed_of_going going, calls]
      exact finishes_gathered fresh (List.forall_mem_nil _) _ _

theorem used_cons (fresh : Nat → String) (d : Decoder) (use : Use) (rest : List Use) :
    d.used fresh (use :: rest) = (d.use fresh use).1.used fresh rest := rfl

/-- Whatever was done, it is known which frames were read. -/
theorem used_knows (fresh : Nat → String) (knows : d.Knows sofar read) (uses : List Use) :
    ∃ more, (d.used fresh uses).Knows (sofar ++ uses.flatMap Use.bytes) (read ++ more) := by
  induction uses generalizing d sofar read with
  | nil => exact ⟨[], by rwa [List.flatMap_nil, List.append_nil, List.append_nil]⟩
  | cons use rest ih =>
    rcases step : d.use fresh use with ⟨e, result⟩
    obtain ⟨more, knows', -⟩ := use_told knows step
    obtain ⟨others, known⟩ := ih knows'
    rw [used_cons, step, List.flatMap_cons]
    rw [List.append_assoc, List.append_assoc] at known
    exact ⟨more ++ others, known⟩

theorem reasons_told {indices : List Nat} {a b : Assembly} {chunks : List Chunk}
    (told : Assembly.Told fresh indices a b chunks) :
    (chunks.filterMap Chunk.reason?).length + a.finished.toNat = b.finished.toNat := by
  have plain {chunks : List Chunk} (plain : ∀ chunk ∈ chunks, Chunk.Plain chunk) :
      chunks.filterMap Chunk.reason? = [] :=
    List.filterMap_eq_nil_iff.2 fun chunk mem => (plain chunk mem).2
  have silent (buffers : List (Nat × CallBuffer)) :
      (callsOf fresh buffers).filterMap Chunk.reason? = [] := by
    simp [callsOf, Chunk.reason?]
  obtain ⟨same, side⟩ | ⟨unfinished, finished, early, buffers, reason, late, rfl, side, -⟩ := told
  · rw [plain side, same, List.length_nil, Nat.zero_add]
  · obtain ⟨before, after⟩ := List.forall_mem_append.1 side
    rw [unfinished, finished]
    simp [plain before, plain after, silent, Chunk.reason?]

/-- An answer that is finished once is not finished again, and its reason is lost only with a
fault. -/
theorem reasons_results (fresh : Nat → String) (knows : d.Knows sofar read) (uses : List Use) :
    (reasonsIn (d.results fresh uses)).length + d.assembly.finished.toNat ≤
        (d.used fresh uses).assembly.finished.toNat ∧
      ((∀ result ∈ d.results fresh uses, result.isOk = true) →
        (reasonsIn (d.results fresh uses)).length + d.assembly.finished.toNat =
          (d.used fresh uses).assembly.finished.toNat) := by
  induction uses generalizing d sofar read with
  | nil => exact ⟨Nat.le_of_eq (Nat.zero_add _), fun _ => Nat.zero_add _⟩
  | cons use rest ih =>
    rcases step : d.use fresh use with ⟨e, result⟩
    obtain ⟨more, knows', kept, told⟩ := use_told knows step
    obtain ⟨most, all⟩ := ih knows'
    simp only [results, used_cons, step]
    cases result with
    | error fault =>
      -- The answer may have been finished in this very use, and then its reason is lost.
      refine ⟨Nat.le_trans (Nat.add_le_add_left (Bool.toNat_le_toNat kept) _) most, fun ok => ?_⟩
      cases ok _ List.mem_cons_self
    | ok chunks =>
      have now := reasons_told (told chunks rfl)
      have split : reasonsIn (.ok chunks :: e.results fresh rest) =
          chunks.filterMap Chunk.reason? ++ reasonsIn (e.results fresh rest) :=
        List.filterMap_append
      rw [split, List.length_append]
      refine ⟨by omega, fun ok => ?_⟩
      have later := all (List.forall_mem_cons.1 ok).2
      omega

/-- Without a fault all complete frames were read, unless the mark of the end was. -/
theorem used_frames (idle : d.assembly.done = false → d.frames = [])
    (ok : ∀ result ∈ d.results fresh uses, result.isOk = true)
    (undone : (d.used fresh uses).assembly.done = false) : (d.used fresh uses).frames = [] := by
  induction uses generalizing d with
  | nil => exact idle undone
  | cons use rest ih =>
    obtain ⟨first, others⟩ := List.forall_mem_cons.1 ok
    refine ih (fun undone => ?_) others undone
    cases use with
    | feed bytes =>
      simp only [Decoder.use, feed] at first undone ⊢
      rcases taken : d.assembly.takeFrames fresh (d.frames ++ (splitFrames (d.tail ++ bytes)).1)
        with ⟨b, left, fault | chunks⟩
      · rw [taken] at first
        cases first
      · rw [taken] at undone
        exact Assembly.takeFrames_left taken undone
    | finish =>
      refine idle ?_
      simp only [Decoder.use, finish, Assembly.finish] at undone
      split at undone <;> exact undone

theorem finish_finished (fresh : Nat → String) (d : Decoder) :
    (d.finish fresh).1.assembly.finished = true := by
  simp only [finish, Assembly.finish]
  split
  · next closed => exact closed
  · rfl

/-- An answer is finished by the end of its body at the latest, and stays so. -/
theorem used_finished (knows : d.Knows sofar read)
    (closed : d.assembly.finished = true ∨ .finish ∈ uses) :
    (d.used fresh uses).assembly.finished = true := by
  induction uses generalizing d sofar read with
  | nil => exact closed.resolve_right List.not_mem_nil
  | cons use rest ih =>
    rcases step : d.use fresh use with ⟨e, result⟩
    obtain ⟨more, knows', kept, -⟩ := use_told knows step
    rw [used_cons, step]
    refine ih knows' ?_
    obtain closed | ends := closed
    · exact .inl (kept closed)
    · obtain rfl | later := List.mem_cons.1 ends
      · left
        cases step
        exact finish_finished fresh d
      · exact .inr later

/-- In whatever way a decoder is used, an answer is finished at most once, and calls are made right
before that only; it is finished exactly once if no use fails and an end is told. -/
theorem finishes_once (fresh : Nat → String) (uses : List Use) :
    (reasonsIn (results fresh {} uses)).length ≤ 1 ∧
      (∀ before use, before ++ [use] <+: uses → ∀ d chunks,
        (used fresh {} before).use fresh use = (d, .ok chunks) →
          (∀ chunk ∈ chunks, Chunk.Plain chunk) ∨
          ∃ read, (splitFrames ((before ++ [use]).flatMap Use.bytes)).1 = read ++ d.frames ∧
            Finishes fresh (seenIn (read.map .ofFrame)) chunks) ∧
      ((∀ result ∈ results fresh {} uses, result.isOk = true) →
        (.finish ∈ uses ∨
          ∃ frame ∈ (splitFrames (uses.flatMap Use.bytes)).1, Content.ofFrame frame = .mark) →
        (reasonsIn (results fresh {} uses)).length = 1) := by
  obtain ⟨most, all⟩ := reasons_results fresh new_knows uses
  refine ⟨Nat.le_trans most (Bool.toNat_le _), fun before use _ d chunks step => ?_,
    fun ok ends => ?_⟩
  · obtain ⟨read, knows⟩ := used_knows fresh new_knows before
    obtain ⟨more, known, -, told⟩ := use_told knows step
    rw [List.flatMap_append, List.flatMap_singleton]
    obtain ⟨-, plain⟩ | ⟨-, -, finishes⟩ := told chunks rfl
    · exact .inl plain
    · exact .inr ⟨_, known.frames, finishes⟩
  · have finished : (used fresh {} uses).assembly.finished = true := by
      obtain ends | ⟨frame, mem, mark⟩ := ends
      · exact used_finished new_knows (.inr ends)
      · obtain ⟨read, knows⟩ := used_knows fresh new_knows uses
        cases done : (used fresh {} uses).assembly.done with
        | true => exact knows.assembly.ended done
        | false =>
          -- The mark is among the frames that were read, for none is left.
          have whole := knows.frames
          rw [used_frames (fun _ => rfl) ok done, List.append_nil] at whole
          refine Bool.of_not_eq_false fun going => ?_
          have open_ := (knows.assembly.going going).1 (.ofFrame frame)
            (List.mem_map_of_mem (whole ▸ mem))
          rw [mark] at open_
          cases open_
    have once := all ok
    rw [finished] at once
    exact once

/-- A frame with fragments of two calls, the later one first. -/
def twoCalls : List UInt8 := Text.encodeUtf8
  ("data: \x7b\"choices\":[\x7b\"delta\":\x7b\"tool_calls\":[" ++
    "\x7b\"index\":7\x7d,\x7b\"index\":0\x7d]\x7d\x7d]\x7d\n\n")

/-- A reason to finish, and the mark of the end. -/
def twoEnds : List UInt8 := Text.encodeUtf8
  ("data: \x7b\"choices\":[\x7b\"finish_reason\":\"tool_calls\"\x7d]\x7d\n\n" ++ "data: [DONE]\n\n")

/-- With three ends the calls are made once, in the order of their indices. -/
theorem calls_made_once :
    let uses := [.feed twoCalls, .feed twoEnds, .finish]
    (results toString {} uses).map Except.toOption =
        [some [], some [.call ⟨"0", "", "\x7b\x7d"⟩, .call ⟨"7", "", "\x7b\x7d"⟩,
          .finished .toolCalls], some []] ∧
      (∀ result ∈ results toString {} uses, result.isOk = true) ∧
      (reasonsIn (results toString {} uses)).length = 1 := by
  intro uses
  have ok : ∀ result ∈ results toString {} uses, result.isOk = true := by decide +kernel
  exact ⟨by decide +kernel, ok, (finishes_once toString uses).2.2 ok (.inl (by decide))⟩

end Decoder

end Responder.Remote
