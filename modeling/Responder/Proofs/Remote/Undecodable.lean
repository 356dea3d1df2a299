import Responder.Proofs.Remote.StreamedUsage

/-!
# Frames that cannot be decoded

A stream ends with a fault at the first frame that cannot be decoded. The chunks of a read are
handed on together, and a fault takes their place. Main statement: before the fault stands what the
frames yield that were complete before the read with the fault; what comes in this read is lost, so
a failed turn keeps less of an answer when its network delivers more of it at once.
-/

namespace Responder

namespace Remote

/-- What a frame holds. -/
inductive Content where
  | nothing
  /-- The mark of the end. -/
  | mark
  | object (answer : Json)
  | broken (fault : FrameFault)
  deriving DecidableEq, Repr

namespace Content

def object? : Content → Option Json
  | object answer => some answer
  | nothing | mark | broken _ => none

/-- Whether a stream goes on after it. -/
def isGood : Content → Bool
  | nothing | object _ => true
  | mark | broken _ => false

def ofData (data : List Char) : Content :=
  if data = endMark then mark
  else match Json.parse (String.ofList data) with
    | .ok answer => object answer
    | .error message => broken (.notJson message)

def ofFrame (frame : List UInt8) : Content :=
  match Text.decodeUtf8? frame with
  | none => broken (.notText "invalid byte sequence")
  | some text => (frameData text.toList).elim nothing ofData

end Content

/-- The objects in frames. -/
def objectsOf (frames : List (List UInt8)) : List Json :=
  frames.filterMap fun frame => (Content.ofFrame frame).object?

namespace Assembly

variable {fresh : Nat → String} {a : Assembly} {good rest : List (List UInt8)}

/-- Takes objects one after the other. -/
def takeObjects (fresh : Nat → String) (a : Assembly) : List Json → Assembly × List Chunk
  | [] => (a, [])
  | answer :: rest =>
    let (b, chunks) := a.takeObject fresh answer
    let (c, more) := b.takeObjects fresh rest
    (c, chunks ++ more)

theorem takeObjects_append (fresh : Nat → String) (a : Assembly) (early late : List Json) :
    a.takeObjects fresh (early ++ late) =
      let (b, chunks) := a.takeObjects fresh early
      ((b.takeObjects fresh late).1, chunks ++ (b.takeObjects fresh late).2) := by
  induction early generalizing a with
  | nil => rfl
  | cons answer early ih => simp only [List.cons_append, takeObjects, ih, List.append_assoc]

theorem takeObjects_done (fresh : Nat → String) (a : Assembly) (objects : List Json) :
    (a.takeObjects fresh objects).1.done = a.done := by
  induction objects generalizing a with
  | nil => rfl
  | cons answer rest ih => exact (ih _).trans (takeObject_done fresh a answer)

end Assembly

theorem mem_of_mem_lines {text line : List Char} {c : Char} (mem : line ∈ lines text)
    (inside : c ∈ line) : c ∈ text := by
  induction text generalizing line with
  | nil =>
    rw [List.mem_singleton.1 mem] at inside
    exact inside
  | cons d rest ih =>
    rw [lines] at mem
    split at mem
    · obtain rfl | mem := List.mem_cons.1 mem
      · cases inside
      · exact List.mem_cons_of_mem _ (ih mem inside)
    · split at mem
      · next first others split =>
        obtain rfl | mem := List.mem_cons.1 mem
        · obtain rfl | inside := List.mem_cons.1 inside
          · exact List.mem_cons_self
          · exact List.mem_cons_of_mem _ (ih (split ▸ List.mem_cons_self) inside)
        · exact List.mem_cons_of_mem _ (ih (split ▸ List.mem_cons_of_mem _ mem) inside)
      · next split =>
        obtain rfl := List.mem_singleton.1 mem
        obtain rfl := List.mem_singleton.1 inside
        exact List.mem_cons_self

/-- A frame with data is not blank. -/
theorem not_blank_of_data {text data : List Char} (held : frameData text = some data) :
    Text.isBlankText text = false := by
  obtain ⟨line, found, -⟩ := Option.map_eq_some_iff.1 held
  have marked : dataMark <+: line := List.isPrefixOf_iff_prefix.1 (List.find?_some found)
  have inside : 'd' ∈ line := marked.subset List.mem_cons_self
  exact List.all_eq_false.2 ⟨'d', mem_of_mem_lines (List.mem_of_find?_eq_some found) inside,
    by decide⟩

namespace Assembly

variable {fresh : Nat → String} {a : Assembly} {frames : List (List UInt8)}

/-- Takes what a frame holds. -/
def takeContent (fresh : Nat → String) (a : Assembly) :
    Content → Assembly × Except FrameFault (List Chunk)
  | .nothing => (a, .ok [])
  | .mark =>
    let (ended, chunks) := { a with done := true }.finish fresh
    (ended, .ok chunks)
  | .object answer => ((a.takeObject fresh answer).1, .ok (a.takeObject fresh answer).2)
  | .broken fault => (a, .error fault)

theorem takeData_eq (fresh : Nat → String) (a : Assembly) (data : List Char) :
    a.takeData fresh data = a.takeContent fresh (.ofData data) := by
  unfold takeData Content.ofData
  split
  · rfl
  · cases Json.parse (String.ofList data) <;> rfl

theorem takeText_eq (fresh : Nat → String) (a : Assembly) (text : List Char) :
    a.takeText fresh text = a.takeContent fresh ((frameData text).elim .nothing .ofData) := by
  unfold takeText
  cases frameData text with
  | none => rfl
  | some data => exact takeData_eq fresh a data

/-- At a frame that cannot be decoded the chunks of all frames before it in a read are lost. -/
theorem takeFrames_broken {frame : List UInt8} {fault : FrameFault}
    (broken : Content.ofFrame frame = .broken fault) (rest : List (List UInt8)) :
    a.takeFrames fresh (frame :: rest) = (a, rest, .error fault) := by
  unfold Content.ofFrame at broken
  rw [takeFrames]
  cases read : Text.decodeUtf8? frame with
  | none =>
    rw [read] at broken
    cases broken
    rfl
  | some text =>
    rw [read] at broken
    dsimp only at broken ⊢
    cases held : frameData text.toList with
    | none =>
      rw [held] at broken
      cases broken
    | some data =>
      rw [takeText_eq, broken, not_blank_of_data held]
      rfl

/-- Goes on with frames after chunks. -/
def resume (fresh : Nat → String) (taken : Assembly × List Chunk) (rest : List (List UInt8)) :
    Assembly × List (List UInt8) × Except FrameFault (List Chunk) :=
  let (last, left, more) := taken.1.takeFrames fresh rest
  (last, left, more.map (taken.2 ++ ·))

theorem resume_nil (a : Assembly) (rest : List (List UInt8)) :
    resume fresh (a, []) rest = a.takeFrames fresh rest := by
  unfold resume
  rcases a.takeFrames fresh rest with ⟨last, left, fault | chunks⟩ <;> rfl

/-- A good frame yields what its object yields, if it has one. -/
theorem takeFrames_good {frame : List UInt8} (good : (Content.ofFrame frame).isGood = true)
    (undone : a.done = false) (rest : List (List UInt8)) :
    a.takeFrames fresh (frame :: rest) =
      resume fresh (a.takeObjects fresh (Content.ofFrame frame).object?.toList) rest := by
  unfold Content.ofFrame at good ⊢
  rw [takeFrames]
  cases read : Text.decodeUtf8? frame with
  | none =>
    rw [read] at good
    cases good
  | some text =>
    rw [read] at good
    dsimp only at good ⊢
    rw [takeText_eq]
    have passed : resume fresh (a.takeObjects fresh []) rest = a.takeFrames fresh rest :=
      resume_nil a rest
    cases held : frameData text.toList with
    | none =>
      split
      · exact passed.symm
      · simp only [Option.elim, takeContent, undone, Bool.false_eq_true, if_false]
        rfl
    | some data =>
      rw [held] at good
      rw [not_blank_of_data held]
      simp only [Option.elim] at good ⊢
      cases holds : Content.ofData data with
      | nothing =>
        simp only [takeContent, undone, Bool.false_eq_true, if_false]
        rfl
      | object answer =>
        have undone' := (takeObject_done fresh a answer).trans undone
        simp only [takeContent, undone', Bool.false_eq_true, if_false, Content.object?,
          Option.toList, takeObjects, List.append_nil, resume]
      | mark | broken fault =>
        rw [holds] at good
        cases good

/-- Good frames yield what their objects yield. -/
theorem takeFrames_append (fresh : Nat → String)
    (good : ∀ frame ∈ frames, (Content.ofFrame frame).isGood = true) (undone : a.done = false)
    (rest : List (List UInt8)) :
    a.takeFrames fresh (frames ++ rest) =
      resume fresh (a.takeObjects fresh (objectsOf frames)) rest := by
  induction frames generalizing a with
  | nil => exact (resume_nil a rest).symm
  | cons frame more ih =>
    obtain ⟨first, others⟩ := List.forall_mem_cons.1 good
    have undone' := (takeObjects_done fresh a (Content.ofFrame frame).object?.toList).trans undone
    have objects : objectsOf (frame :: more) =
        (Content.ofFrame frame).object?.toList ++ objectsOf more := by
      unfold objectsOf
      rw [List.filterMap_cons]
      cases (Content.ofFrame frame).object? <;> rfl
    rw [List.cons_append, takeFrames_good first undone, objects, takeObjects_append]
    simp only [resume, ih others undone']
    rcases Assembly.takeFrames fresh _ rest with ⟨last, left, fault | chunks⟩
    · rfl
    · simp only [Except.map, List.append_assoc]

end Assembly

/-- The chunks of good frames. -/
def chunksOf (fresh : Nat → String) (frames : List (List UInt8)) : List Chunk :=
  (Assembly.takeObjects fresh {} (objectsOf frames)).2

/-- The frames that are complete before the read after which there are more than so many. -/
def framesBefore (count : Nat) (sofar : List UInt8) : List (List UInt8) → List (List UInt8)
  | [] => (splitFrames sofar).1
  | piece :: rest =>
    if count < (splitFrames (sofar ++ piece)).1.length then (splitFrames sofar).1
    else framesBefore count (sofar ++ piece) rest

/-- Chunks that are sent at once, and a fault after them. -/
def brokenOff (chunks : List Chunk) (fault : FrameFault) :
    List (Wait (Except BackendFault Chunk)) :=
  chunks.map (fun chunk => .now (.ok chunk)) ++ [.now (.error (.undecodable fault.message))]

/-- A decoder that has read bytes of which all frames were good. -/
def Decoder.after (fresh : Nat → String) (sofar : List UInt8) : Decoder where
  tail := (splitFrames sofar).2
  assembly := (Assembly.takeObjects fresh {} (objectsOf (splitFrames sofar).1)).1

section
variable {fresh : Nat → String} {sofar piece bad : List UInt8} {good new rest : List (List UInt8)}
  {fault : FrameFault}

theorem objectsOf_append (early late : List (List UInt8)) :
    objectsOf (early ++ late) = objectsOf early ++ objectsOf late :=
  List.filterMap_append

theorem Decoder.after_undone (fresh : Nat → String) (sofar : List UInt8) :
    (Decoder.after fresh sofar).assembly.done = false :=
  Assembly.takeObjects_done fresh {} _

/-- The frames that a read completes. -/
def newFrames (sofar piece : List UInt8) : List (List UInt8) :=
  (splitFrames ((splitFrames sofar).2 ++ piece)).1

theorem splitFrames_read (sofar piece : List UInt8) :
    (splitFrames (sofar ++ piece)).1 = (splitFrames sofar).1 ++ newFrames sofar piece :=
  congrArg Prod.fst (splitFrames_append sofar piece)

theorem feed_after (fresh : Nat → String) (sofar piece : List UInt8) :
    (Decoder.after fresh sofar).feed fresh piece =
      let (assembly, left, chunks) :=
        (Decoder.after fresh sofar).assembly.takeFrames fresh (newFrames sofar piece)
      (⟨left, (splitFrames (sofar ++ piece)).2, assembly⟩, chunks) := by
  rw [splitFrames_append]
  rfl

/-- A read that completes good frames only. -/
theorem feed_good (fine : ∀ frame ∈ newFrames sofar piece, (Content.ofFrame frame).isGood = true) :
    (Decoder.after fresh sofar).feed fresh piece = (.after fresh (sofar ++ piece),
      .ok ((Decoder.after fresh sofar).assembly.takeObjects fresh
        (objectsOf (newFrames sofar piece))).2) := by
  have taken := Assembly.takeFrames_append fresh fine (Decoder.after_undone fresh sofar) []
  rw [List.append_nil] at taken
  rw [feed_after, taken, Decoder.after.eq_1 fresh (sofar ++ piece), splitFrames_read,
    objectsOf_append, Assembly.takeObjects_append]
  simp only [Assembly.resume, Assembly.takeFrames, Except.map, List.append_nil]
  rfl

/-- A read that completes a frame that cannot be decoded, after good ones. -/
theorem feed_broken (fine : ∀ frame ∈ good, (Content.ofFrame frame).isGood = true)
    (undecodable : Content.ofFrame bad = .broken fault)
    (first : good ++ [bad] <+: newFrames sofar piece) :
    ((Decoder.after fresh sofar).feed fresh piece).2 = .error fault := by
  obtain ⟨rest, split⟩ := first
  rw [List.append_assoc] at split
  rw [feed_after, ← split, Assembly.takeFrames_append fresh fine (Decoder.after_undone fresh sofar)]
  simp only [Assembly.resume, List.singleton_append, Assembly.takeFrames_broken undecodable,
    Except.map]

theorem chunksOf_append (fresh : Nat → String) (early late : List (List UInt8)) :
    chunksOf fresh (early ++ late) = chunksOf fresh early ++ (Assembly.takeObjects fresh
      (Assembly.takeObjects fresh {} (objectsOf early)).1 (objectsOf late)).2 := by
  rw [chunksOf, objectsOf_append, Assembly.takeObjects_append]
  rfl

/-- Nothing is sent but the fault. -/
theorem streamOf_broken (timeout : Duration) (ending : BodyEnd)
    (fine : ∀ frame ∈ good, (Content.ofFrame frame).isGood = true)
    (undecodable : Content.ofFrame bad = .broken fault)
    (first : good ++ [bad] <+: newFrames sofar piece) (rest : List (List UInt8)) :
    Client.streamOf fresh timeout ending (.after fresh sofar) (piece :: rest) =
      brokenOff [] fault := by
  have fed : ((Decoder.after fresh sofar).feed fresh piece).2 = .error fault :=
    feed_broken fine undecodable first
  rw [Client.streamOf]
  generalize (Decoder.after fresh sofar).feed fresh piece = outcome at fed ⊢
  obtain ⟨next, outcome⟩ := outcome
  cases fed
  rfl

/-- The chunks of good frames are sent, and the client reads on. -/
theorem streamOf_good (timeout : Duration) (ending : BodyEnd)
    (fine : ∀ frame ∈ newFrames sofar piece, (Content.ofFrame frame).isGood = true)
    (rest : List (List UInt8)) :
    Client.streamOf fresh timeout ending (.after fresh sofar) (piece :: rest) =
      ((Decoder.after fresh sofar).assembly.takeObjects fresh
        (objectsOf (newFrames sofar piece))).2.map (fun chunk => .now (.ok chunk)) ++
      Client.streamOf fresh timeout ending (.after fresh (sofar ++ piece)) rest := by
  have undone := Decoder.after_undone fresh (sofar ++ piece)
  simp only [Client.streamOf, feed_good fine, undone, Bool.false_eq_true, if_false]

/-- From any read on, frames that are complete before the read with the fault yield their chunks,
and good frames that come with it yield none. -/
theorem streamOf_brokenOff (timeout : Duration) (ending : BodyEnd)
    (fine : ∀ frame ∈ good, (Content.ofFrame frame).isGood = true)
    (undecodable : Content.ofFrame bad = .broken fault) {pieces : List (List UInt8)}
    (before : (splitFrames sofar).1 <+: good)
    (first : good ++ [bad] <+: (splitFrames (sofar ++ pieces.flatten)).1) :
    framesBefore good.length sofar pieces <+: good ∧
    ∃ more, chunksOf fresh (framesBefore good.length sofar pieces) =
        chunksOf fresh (splitFrames sofar).1 ++ more ∧
      Client.streamOf fresh timeout ending (.after fresh sofar) pieces = brokenOff more fault := by
  induction pieces generalizing sofar with
  | nil =>
    -- The frames so far would be more than there are.
    rw [List.flatten_nil, List.append_nil] at first
    have short := Nat.le_trans first.length_le before.length_le
    rw [List.length_append, List.length_singleton] at short
    omega
  | cons piece rest ih =>
    rw [List.flatten_cons, ← List.append_assoc] at first
    have whole : (splitFrames (sofar ++ piece)).1 <+:
        (splitFrames (sofar ++ piece ++ rest.flatten)).1 := by
      rw [splitFrames_read (sofar ++ piece)]
      exact List.prefix_append _ _
    have read := splitFrames_read sofar piece
    obtain ⟨late, rfl⟩ := before
    rw [framesBefore]
    split
    · next exceeds =>
      have reached : (splitFrames sofar).1 ++ late ++ [bad] <+: (splitFrames (sofar ++ piece)).1 :=
        List.prefix_of_prefix_length_le first whole
          (by rwa [List.length_append, List.length_singleton])
      rw [read, List.append_assoc, List.prefix_append_right_inj] at reached
      refine ⟨List.prefix_append _ _, [], (List.append_nil _).symm, ?_⟩
      exact streamOf_broken timeout ending
        (fun frame mem => fine frame (List.mem_append_right _ mem)) undecodable reached rest
    · next within =>
      have still : (splitFrames (sofar ++ piece)).1 <+: (splitFrames sofar).1 ++ late :=
        List.prefix_of_prefix_length_le whole ((List.prefix_append _ [bad]).trans first)
          (Nat.le_of_not_lt within)
      have new : ∀ frame ∈ newFrames sofar piece, (Content.ofFrame frame).isGood = true :=
        fun frame mem => fine frame (still.subset (read ▸ List.mem_append_right _ mem))
      obtain ⟨early, more, chunks, streamed⟩ := ih still first
      rw [read, chunksOf_append, List.append_assoc] at chunks
      refine ⟨early, _, chunks, ?_⟩
      rw [streamOf_good timeout ending new, streamed, brokenOff, brokenOff, List.map_append,
        List.append_assoc]
      rfl

end

/-- What the stream of a client opens with, if a frame of its reply cannot be decoded. -/
theorem Client.stream_undecodable {client : Client} {request : ChatRequest} {reply : Reply}
    {after : Duration} {good : List (List UInt8)} {bad : List UInt8} {fault : FrameFault}
    (fresh : Nat → String)
    (replied : (client.attempt (bodyJson request true).text (maxAttempts - 1)).2 =
      .done after (.ok reply))
    (fine : ∀ frame ∈ good, (Content.ofFrame frame).isGood = true)
    (undecodable : Content.ofFrame bad = .broken fault)
    (first : good ++ [bad] <+: (splitFrames reply.pieces.flatten).1) :
    framesBefore good.length [] reply.pieces <+: good ∧
      chunksOf fresh (framesBefore good.length [] reply.pieces) <+: chunksOf fresh good ∧
      (client.stream fresh request).2 = .done after
        (.ok ⟨brokenOff (chunksOf fresh (framesBefore good.length [] reply.pieces)) fault⟩) := by
  obtain ⟨timeout, opening⟩ := stream_opening fresh replied
  have begun : (splitFrames []).1 <+: good := List.nil_prefix
  obtain ⟨complete, chunks, same, streamed⟩ :=
    streamOf_brokenOff timeout reply.ending fine undecodable begun first
  have told : chunksOf fresh (framesBefore good.length [] reply.pieces) = chunks := same
  refine ⟨complete, ?_, ?_⟩
  · generalize framesBefore good.length [] reply.pieces = early at complete
    obtain ⟨late, rfl⟩ := complete
    rw [chunksOf_append]
    exact List.prefix_append _ _
  · rw [opening, told, ← streamed]
    rfl

namespace Assembly

/-- Objects that do not finish an answer tell their text and usage at once. -/
theorem takeObjects_going {fresh : Nat → String} {a : Assembly} {objects : List Json}
    (going : ∀ object ∈ objects, finishReason? object = none) :
    (a.takeObjects fresh objects).2 = objects.flatMap said := by
  induction objects generalizing a with
  | nil => rfl
  | cons object rest ih =>
    obtain ⟨here, later⟩ := List.forall_mem_cons.1 going
    rw [List.flatMap_cons, takeObjects, takeObject_going fresh a here]
    exact congrArg (said object ++ ·) (ih later)

end Assembly

end Remote

namespace Accumulator

variable {registry : Registry} {lane : Lane} {a : Accumulator}

/-- Whatever was sent before a fault, it comes to something. -/
theorem consume_brokenOff (registry : Registry) (lane : Lane) (a : Accumulator)
    (chunks : List Chunk) (fault : Remote.FrameFault) :
    ∃ goal, a.consume registry lane (Remote.brokenOff chunks fault) = some goal := by
  induction chunks generalizing a with
  | nil => exact ⟨_, rfl⟩
  | cons chunk rest ih =>
    simp only [Remote.brokenOff, List.map_cons, List.cons_append, Wait.now] at ih ⊢
    cases chunk with
    | text | usage => exact ih _
    | finished => exact ⟨_, rfl⟩
    | call made =>
      rw [consume]
      split
      · exact ih _
      · exact ⟨_, rfl⟩

/-- An answer of which only text was heard, and it is not at its end. -/
structure Speaks (lane : Lane) (text : String) (a : Accumulator) : Prop where
  status : a.response.status = .inProgress
  silent : text = "" → a.openText = none ∧ a.response.output = []
  spoken : text ≠ "" → a.openText = some 0 ∧ a.response.output =
    [.message (lane.id .message (.output 0)) .inProgress [.outputText text]]

theorem Speaks.addText {text : String} (h : Speaks lane text a) (delta : String) :
    Speaks lane (text ++ delta) (a.addText lane delta) := by
  unfold Accumulator.addText
  split
  · next empty =>
    rw [empty, String.append_empty]
    exact h
  · next full =>
    have more : text ++ delta ≠ "" := fun none => full (String.append_eq_empty_iff.1 none).2
    refine ⟨?_, fun none => (more none).elim, fun _ => ?_⟩
    · split
      · exact (pushText_status a delta).trans h.status
      · exact (pushText_status _ delta).trans h.status
    · by_cases first : text = ""
      · obtain ⟨closed, output⟩ := h.silent first
        simp [closed, pushText, openMessage, pushItem, nextIndex, modifyItem, output, extendText,
          first]
      · obtain ⟨opened, output⟩ := h.spoken first
        simp [opened, pushText, modifyItem, output, extendText]

theorem Speaks.consume {text : String} (h : Speaks lane text a) (registry : Registry)
    {chunks : List Chunk} (plain : ∀ chunk ∈ chunks, chunk.call? = none ∧ chunk.reason? = none)
    (fault : Remote.FrameFault) :
    ∃ b : Accumulator, a.consume registry lane (Remote.brokenOff chunks fault) =
        some (b, .failed (.backend (BackendFault.undecodable fault.message).message)) ∧
      Speaks lane (text ++ String.join (chunks.filterMap Chunk.text?)) b := by
  induction chunks generalizing a text with
  | nil => exact ⟨a, rfl, by simpa using h⟩
  | cons chunk rest ih =>
    obtain ⟨here, later⟩ := List.forall_mem_cons.1 plain
    cases chunk with
    | text delta =>
      obtain ⟨b, same, speaks⟩ := ih (h.addText delta) later
      rw [String.append_assoc, ← String.join_cons] at speaks
      exact ⟨b, same, speaks⟩
    | usage counted =>
      have counts : Speaks lane text (a.recordUsage counted) := ⟨h.status, h.silent, h.spoken⟩
      exact ih counts later
    | call made => cases here.1
    | finished reason => cases here.2

/-- The output of an answer that was cut off after a text. -/
def cutOff (lane : Lane) (text : String) : List OutputItem :=
  if text = "" then []
  else [.message (lane.id .message (.output 0)) .incomplete [.outputText text]]

theorem Speaks.finalize {text : String} (h : Speaks lane text a) (schema : Option Json) (now : Int)
    (failure : Failure) :
    (a.finalize schema now (.failed failure)).status = .failed ∧
      (a.finalize schema now (.failed failure)).error = some failure.detail ∧
      (a.finalize schema now (.failed failure)).output = cutOff lane text := by
  rw [finalize_eq h.status]
  refine ⟨rfl, rfl, ?_⟩
  dsimp only
  by_cases silent : text = ""
  · rw [(h.silent silent).2, cutOff, if_pos silent, List.map_nil]
  · rw [(h.spoken silent).2, cutOff, if_neg silent]
    rfl

end Accumulator

namespace Turn

open Admission (Setting Admitted accept accept_spec)
open Remote (Content objectsOf chunksOf framesBefore brokenOff said finishReason? splitFrames)

variable {s : Setting} {r : Request} {admitted : Admitted} {p : Prepared} {after : Duration}
  {chunks : List Chunk} {fault : Remote.FrameFault}

theorem exists_finishes_of_brokenOff
    (opens : p.opening = .done after (.ok ⟨brokenOff chunks fault⟩)) (seen : Nat) :
    ∃ x, Finishes p (admitted.turn s seen true) x := by
  obtain ⟨goal, told⟩ := Accumulator.consume_brokenOff admitted.registry s.lane
    { response := admitted.response } chunks fault
  have foretold := Accumulator.foretell_opening admitted.registry s.lane opens
    { response := admitted.response } admitted.response
  exact exists_finishes_of_foretold rfl (foretold.trans told) (turn_quiet _ _ _ _) turn_roomy rfl

/-- A turn whose stream breaks off after text fails with the fault, and keeps the text. -/
theorem failed_of_brokenOff (accepted : accept s r = .ok admitted)
    (opens : p.opening = .done after (.ok ⟨brokenOff chunks fault⟩))
    (plain : ∀ chunk ∈ chunks, chunk.call? = none ∧ chunk.reason? = none) {seen : Nat}
    {x : Response} (finishes : Finishes p (admitted.turn s seen true) x) :
    x.status = .failed ∧
      x.error = some (Failure.backend (BackendFault.undecodable fault.message).message).detail ∧
      x.output = Accumulator.cutOff s.lane (String.join (chunks.filterMap Chunk.text?)) := by
  have fresh := accept_spec accepted
  have start : Accumulator.Speaks s.lane "" { response := admitted.response } :=
    ⟨fresh.status, fun _ => ⟨rfl, fresh.output⟩, absurd rfl⟩
  obtain ⟨b, told, speaks⟩ := start.consume admitted.registry plain fault
  have foretold := Accumulator.foretell_opening admitted.registry s.lane opens
    { response := admitted.response } admitted.response
  obtain ⟨now, rfl⟩ := finishes.comes_to rfl (foretold.trans told)
  rw [String.empty_append] at speaks
  exact speaks.finalize _ now _

/-- However the network cuts a stream whose first bad frame is one that cannot be decoded: before
the fault stand the chunks of the good frames that were complete before the read with the fault,
and a turn that has not heard the end of its answer fails and keeps their text. -/
theorem undecodable_stream {client : Remote.Client} {reply : Remote.Reply}
    {good : List (List UInt8)} {bad : List UInt8} (accepted : accept s r = .ok admitted)
    (replied : (client.attempt (Remote.bodyJson admitted.request true).text
      (Remote.Client.maxAttempts - 1)).2 = .done after (.ok reply))
    (opens : p.opening = (client.stream (Backend.callId s.lane) admitted.request).2)
    (fine : ∀ frame ∈ good, (Content.ofFrame frame).isGood = true)
    (undecodable : Content.ofFrame bad = .broken fault)
    (first : good ++ [bad] <+: (splitFrames reply.pieces.flatten).1) (seen : Nat) :
    let early := framesBefore good.length [] reply.pieces
    early <+: good ∧
      chunksOf (Backend.callId s.lane) early <+: chunksOf (Backend.callId s.lane) good ∧
      p.opening = .done after (.ok ⟨brokenOff (chunksOf (Backend.callId s.lane) early) fault⟩) ∧
      (∃ x, Finishes p (admitted.turn s seen true) x) ∧
      ((∀ object ∈ objectsOf early, finishReason? object = none) →
        ∀ x, Finishes p (admitted.turn s seen true) x → x.status = .failed ∧
          x.error = some (Failure.backend (BackendFault.undecodable fault.message).message).detail ∧
          x.output = Accumulator.cutOff s.lane
            (String.join (((objectsOf early).flatMap said).filterMap Chunk.text?))) := by
  intro early
  obtain ⟨complete, told, opened⟩ :=
    Remote.Client.stream_undecodable (Backend.callId s.lane) replied fine undecodable first
  rw [← opens] at opened
  refine ⟨complete, told, opened, exists_finishes_of_brokenOff opened seen, ?_⟩
  intro going x finishes
  have said : chunksOf (Backend.callId s.lane) early = (objectsOf early).flatMap said :=
    Remote.Assembly.takeObjects_going going
  rw [← said]
  refine failed_of_brokenOff accepted opened (fun chunk mem => ?_) finishes
  exact Remote.plain_of_said (said ▸ mem)

end Turn

namespace Remote

/-- A frame with a word, without its empty line. -/
def wordLine : List UInt8 := Text.encodeUtf8 ("data:" ++ word.text)

/-- A frame with a word, and one that is no text. -/
def twoFrames : List UInt8 × List UInt8 := (wordLine ++ emptyLine false, 255 :: emptyLine false)

theorem wordLine_good : ∀ frame ∈ [wordLine], (Content.ofFrame frame).isGood = true :=
  List.forall_mem_singleton.2 (by decide +kernel)

theorem no_text : Content.ofFrame [255] = .broken (.notText "invalid byte sequence") := rfl

end Remote

namespace Turn

open Admission (accept startup greeting)
open Remote (serving serving_replies wordLine twoFrames wordLine_good no_text framesBefore
  splitFrames objectsOf chunksOf brokenOff said)

/-- A turn that gets two frames one by one keeps the word of the first. -/
theorem frame_by_frame_kept : ∃ admitted p x, accept startup greeting = .ok admitted ∧
    p.opening = ((serving [twoFrames.1, twoFrames.2]).stream (Backend.callId startup.lane)
      admitted.request).2 ∧
    Finishes p (admitted.turn startup 0 true) x ∧ x.status = .failed ∧
    x.output = Accumulator.cutOff startup.lane "a" := by
  obtain ⟨admitted, accepted⟩ := Admission.accept_greeting
  let p : Prepared := ⟨.forever, ((serving [twoFrames.1, twoFrames.2]).stream
    (Backend.callId startup.lane) admitted.request).2⟩
  have first : [wordLine] ++ [[255]] <+:
      (splitFrames [twoFrames.1, twoFrames.2].flatten).1 := by decide +kernel
  obtain ⟨-, -, -, ⟨x, finishes⟩, fails⟩ := undecodable_stream (p := p) accepted
    (serving_replies [twoFrames.1, twoFrames.2] _) rfl wordLine_good no_text first 0
  have early : framesBefore [wordLine].length [] [twoFrames.1, twoFrames.2] = [wordLine] := by
    decide +kernel
  rw [early] at fails
  obtain ⟨failed, -, output⟩ := fails (by decide +kernel) x finishes
  have text : String.join (((objectsOf [wordLine]).flatMap said).filterMap Chunk.text?) = "a" := by
    decide +kernel
  rw [text] at output
  exact ⟨admitted, p, x, accepted, rfl, finishes, failed, output⟩

/-- A turn that gets the same bytes at once keeps nothing. -/
theorem both_frames_lost : ∃ admitted p x, accept startup greeting = .ok admitted ∧
    p.opening = ((serving [twoFrames.1 ++ twoFrames.2]).stream (Backend.callId startup.lane)
      admitted.request).2 ∧
    chunksOf (Backend.callId startup.lane) [wordLine] = [.text "a"] ∧
    p.opening = .now (.ok ⟨brokenOff [] (.notText "invalid byte sequence")⟩) ∧
    Finishes p (admitted.turn startup 0 true) x ∧ x.status = .failed ∧ x.output = [] := by
  obtain ⟨admitted, accepted⟩ := Admission.accept_greeting
  let p : Prepared := ⟨.forever, ((serving [twoFrames.1 ++ twoFrames.2]).stream
    (Backend.callId startup.lane) admitted.request).2⟩
  have first : [wordLine] ++ [[255]] <+:
      (splitFrames [twoFrames.1 ++ twoFrames.2].flatten).1 := by decide +kernel
  obtain ⟨-, -, opening⟩ := Remote.Client.stream_undecodable (Backend.callId startup.lane)
    (serving_replies [twoFrames.1 ++ twoFrames.2] (Remote.bodyJson admitted.request true).text)
    wordLine_good no_text first
  have early : framesBefore [wordLine].length [] [twoFrames.1 ++ twoFrames.2] = [] := by
    decide +kernel
  rw [early] at opening
  obtain ⟨x, finishes⟩ : ∃ x, Finishes p (admitted.turn startup 0 true) x :=
    exists_finishes_of_brokenOff opening 0
  obtain ⟨failed, -, output⟩ := failed_of_brokenOff (p := p) accepted opening nofun finishes
  exact ⟨admitted, p, x, accepted, rfl, by decide +kernel, opening, finishes, failed, output⟩

end Turn

end Responder
