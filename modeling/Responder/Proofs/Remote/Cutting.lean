import Mathlib.Data.List.Forall2
import Responder.Proofs.Remote.Frames
import Responder.Remote.Client

/-!
# Reads may end anywhere

A body arrives in pieces, as the network cuts it. Main statement: what a decoder makes of
the pieces depends on their bytes alone. The decoder between two reads knows what it would
know had the bytes so far come at once, and the bytes that it keeps are those after the
last complete frame.
-/

namespace Responder.Remote

/-- Chunks that differ at most in an id that was generated for the same call. -/
inductive SameChunk (fresh fresh' : Nat → String) : Chunk → Chunk → Prop
  | same (chunk : Chunk) : SameChunk fresh fresh' chunk chunk
  | generated (index : Nat) (name arguments : String) :
      SameChunk fresh fresh' (.call ⟨fresh index, name, arguments⟩)
        (.call ⟨fresh' index, name, arguments⟩)

/-- The same fault, or values that are related. -/
inductive SameResult {α β : Type} (related : α → β → Prop) :
    Except FrameFault α → Except FrameFault β → Prop
  | error (fault : FrameFault) : SameResult related (.error fault) (.error fault)
  | ok {x : α} {y : β} : related x y → SameResult related (.ok x) (.ok y)

theorem SameResult.map {α β γ δ : Type} {related : α → β → Prop} {later : γ → δ → Prop}
    {x : Except FrameFault α} {y : Except FrameFault β} {f : α → γ} {g : β → δ}
    (h : SameResult related x y) (keep : ∀ x y, related x y → later (f x) (g y)) :
    SameResult later (x.map f) (y.map g) := by
  cases h with
  | error fault => exact .error fault
  | ok same => exact .ok (keep _ _ same)

namespace Assembly

/-- What frames yield when nothing comes after them: all chunks, and whether the mark of
the end was among them. -/
def readFrames (fresh : Nat → String) (a : Assembly) (frames : List (List UInt8)) :
    Except FrameFault (List Chunk × Bool) :=
  match a.takeFrames fresh frames with
  | (_, _, .error fault) => .error fault
  | (b, _, .ok chunks) =>
    if b.done then .ok (chunks, true) else .ok (chunks ++ (b.finish fresh).2, false)

end Assembly

/-- What the pieces of a body yield: all chunks, and whether the mark of the end was seen.
Reading stops at this mark, and a body without it is finished at its end. -/
def Decoder.readAll (fresh : Nat → String) (d : Decoder) :
    List (List UInt8) → Except FrameFault (List Chunk × Bool)
  | [] => .ok ((d.finish fresh).2, false)
  | piece :: rest =>
    match d.feed fresh piece with
    | (_, .error fault) => .error fault
    | (d, .ok chunks) =>
      if d.assembly.done then .ok (chunks, true)
      else (d.readAll fresh rest).map fun (more, done) => (chunks ++ more, done)

/-- The stream of a whole body is what its pieces yield; a fault comes after the chunks of
the pieces before it. -/
theorem Client.streamOf_complete (fresh : Nat → String) (timeout : Duration) (d : Decoder)
    (pieces : List (List UInt8)) :
    match d.readAll fresh pieces with
    | .ok (chunks, _) =>
      streamOf fresh timeout .complete d pieces = chunks.map fun chunk => .now (.ok chunk)
    | .error fault => ∃ chunks : List Chunk, streamOf fresh timeout .complete d pieces =
        (chunks.map fun chunk => .now (.ok chunk)) ++
          [.now (.error (.undecodable fault.message))] := by
  induction pieces generalizing d with
  | nil => rfl
  | cons piece rest ih =>
    simp only [Decoder.readAll, streamOf]
    rcases d.feed fresh piece with ⟨next, fault | first⟩
    · exact ⟨[], rfl⟩
    · cases done : next.assembly.done with
      | true => simp only [done, if_true, List.append_nil]
      | false =>
        have later := ih next
        simp only [done, Bool.false_eq_true, if_false]
        cases read : next.readAll fresh rest with
        | error fault =>
          rw [read] at later
          obtain ⟨more, streamed⟩ := later
          exact ⟨first ++ more, by rw [streamed, List.map_append, List.append_assoc]⟩
        | ok result =>
          rw [read] at later
          dsimp only at later
          simp only [Except.map, later, List.map_append]

namespace Assembly

variable {fresh fresh' : Nat → String} {a : Assembly}

/-- What one frame does: it cannot be decoded, it is passed over, it is the mark of the end,
or it yields chunks before the frames that follow. -/
theorem takeFrames_cons (fresh : Nat → String) (a : Assembly) (frame : List UInt8) :
    (∃ (b : Assembly) (fault : FrameFault), ∀ rest,
      a.takeFrames fresh (frame :: rest) = (b, rest, .error fault)) ∨
    (∀ rest, a.takeFrames fresh (frame :: rest) = a.takeFrames fresh rest) ∨
    (∃ (b : Assembly) (chunks : List Chunk), b.done = true ∧ ∀ rest,
      a.takeFrames fresh (frame :: rest) = (b, rest, .ok chunks)) ∨
    ∃ (b : Assembly) (chunks : List Chunk), b.done = false ∧ ∀ rest,
      a.takeFrames fresh (frame :: rest) =
        ((b.takeFrames fresh rest).1, (b.takeFrames fresh rest).2.1,
          (b.takeFrames fresh rest).2.2.map (chunks ++ ·)) := by
  simp only [takeFrames]
  cases Text.decodeUtf8? frame with
  | none => exact .inl ⟨_, _, fun _ => rfl⟩
  | some text =>
    by_cases blank : Text.isBlankText text.toList = true
    · exact .inr (.inl fun _ => if_pos blank)
    · simp only [blank, Bool.false_eq_true, if_false]
      rcases a.takeText fresh text.toList with ⟨b, fault | chunks⟩
      · exact .inl ⟨b, fault, fun _ => rfl⟩
      · cases done : b.done with
        | true => exact .inr (.inr (.inl ⟨b, chunks, done, fun _ => if_pos done⟩))
        | false =>
          refine .inr (.inr (.inr ⟨b, chunks, done, fun _ => ?_⟩))
          simp only [done, Bool.false_eq_true, if_false]

/-- Chunks that come before all others. -/
def prepend (chunks : List Chunk) :
    Except FrameFault (List Chunk × Bool) → Except FrameFault (List Chunk × Bool) :=
  Except.map fun (others, done) => (chunks ++ others, done)

theorem readFrames_prepend {b : Assembly} {frames rest : List (List UInt8)}
    {chunks : List Chunk} (h : a.takeFrames fresh frames =
      ((b.takeFrames fresh rest).1, (b.takeFrames fresh rest).2.1,
        (b.takeFrames fresh rest).2.2.map (chunks ++ ·))) :
    a.readFrames fresh frames = prepend chunks (b.readFrames fresh rest) := by
  simp only [readFrames, h]
  rcases b.takeFrames fresh rest with ⟨c, left, fault | others⟩
  · rfl
  · cases done : c.done with
    | true => simp only [prepend, Except.map, done, if_true]
    | false =>
      simp only [prepend, Except.map, done, Bool.false_eq_true, if_false, List.append_assoc]

theorem readFrames_append (undone : a.done = false) (frames more : List (List UInt8)) :
    a.readFrames fresh (frames ++ more) =
      match a.takeFrames fresh frames with
      | (_, _, .error fault) => .error fault
      | (b, _, .ok chunks) =>
        if b.done then .ok (chunks, true)
        else prepend chunks (b.readFrames fresh more) := by
  induction frames generalizing a with
  | nil =>
    simp only [takeFrames, undone, List.nil_append, Bool.false_eq_true, if_false]
    cases a.readFrames fresh more <;> rfl
  | cons frame rest ih =>
    rw [List.cons_append]
    obtain ⟨b, fault, taken⟩ | skipped | ⟨b, chunks, done, taken⟩ | ⟨b, chunks, going, taken⟩ :=
      takeFrames_cons fresh a frame
    · simp only [readFrames, taken]
    · simp only [readFrames, skipped] at ih ⊢
      exact ih undone
    · simp only [readFrames, taken, done, if_true]
    · rw [readFrames_prepend (taken _), ih going, taken rest]
      rcases b.takeFrames fresh rest with ⟨c, left, fault | others⟩
      · rfl
      · simp only [Except.map]
        split
        · rfl
        · cases c.readFrames fresh more with
          | error fault => rfl
          | ok result => simp only [prepend, Except.map, List.append_assoc]

/-- No frame is left where all were taken without a fault or the mark of the end. -/
theorem takeFrames_left {b : Assembly} {frames left : List (List UInt8)} {chunks : List Chunk}
    (h : a.takeFrames fresh frames = (b, left, .ok chunks)) (undone : b.done = false) :
    left = [] := by
  induction frames generalizing a chunks with
  | nil =>
    cases h
    rfl
  | cons frame rest ih =>
    obtain ⟨c, fault, taken⟩ | skipped | ⟨c, first, done, taken⟩ | ⟨c, first, -, taken⟩ :=
      takeFrames_cons fresh a frame
    · cases (taken rest).symm.trans h
    · exact ih ((skipped rest).symm.trans h)
    · cases (taken rest).symm.trans h
      rw [done] at undone
      cases undone
    · have same := (taken rest).symm.trans h
      rcases hr : c.takeFrames fresh rest with ⟨d, others, fault | more⟩
      · rw [hr] at same
        cases same
      · rw [hr] at same
        cases same
        exact ih hr

end Assembly

namespace Decoder

variable {fresh fresh' : Nat → String} {d : Decoder}

/-- A decoder that waits for bytes. -/
structure Waits (d : Decoder) : Prop where
  undone : d.assembly.done = false
  frames : d.frames = []
  tail : splitFrames d.tail = ([], d.tail)

/-- Pieces yield what the frames of all their bytes yield. -/
theorem readAll_eq (waits : d.Waits) (pieces : List (List UInt8)) :
    d.readAll fresh pieces =
      d.assembly.readFrames fresh (splitFrames (d.tail ++ pieces.flatten)).1 := by
  induction pieces generalizing d with
  | nil =>
    simp only [readAll, finish, List.flatten_nil, List.append_nil, waits.tail,
      Assembly.readFrames, Assembly.takeFrames, waits.undone, Bool.false_eq_true, if_false,
      List.nil_append]
  | cons piece rest ih =>
    rw [List.flatten_cons, ← List.append_assoc, splitFrames_append,
      Assembly.readFrames_append waits.undone]
    -- What is kept between two reads is what follows the last frame of the bytes so far.
    have left := splitFrames_tail (d.tail ++ piece)
    simp only [readAll, feed, waits.frames, List.nil_append]
    rcases cut : splitFrames (d.tail ++ piece) with ⟨frames, tail⟩
    rw [cut] at left
    rcases taken : d.assembly.takeFrames fresh frames with ⟨b, others, fault | chunks⟩
    · rfl
    · cases done : b.done with
      | true => simp only [done, if_true]
      | false =>
        simp only [done, Bool.false_eq_true, if_false]
        rw [ih ⟨done, Assembly.takeFrames_left taken done, left⟩]
        rfl

theorem new_waits : Waits {} := ⟨rfl, rfl, rfl⟩

end Decoder

namespace Assembly

variable {fresh fresh' : Nat → String} {a : Assembly}

theorem same_chunks (chunks : List Chunk) :
    List.Forall₂ (SameChunk fresh fresh') chunks chunks :=
  List.forall₂_same.2 fun chunk _ => .same chunk

theorem call_same (buffer : CallBuffer) (index : Nat) :
    SameChunk fresh fresh' (.call (buffer.call (fresh index)))
      (.call (buffer.call (fresh' index))) := by
  unfold CallBuffer.call
  by_cases nameless : buffer.id = ""
  · rw [if_pos nameless, if_pos nameless]
    exact .generated ..
  · rw [if_neg nameless, if_neg nameless]
    exact .same _

theorem flush_same (a : Assembly) (reason : FinishReason) :
    List.Forall₂ (SameChunk fresh fresh') (a.flush fresh reason).2 (a.flush fresh' reason).2 := by
  refine List.rel_append ?_ (same_chunks [.finished reason])
  rw [List.forall₂_map_left_iff, List.forall₂_map_right_iff]
  exact List.forall₂_same.2 fun (index, buffer) _ => call_same buffer index

/-- What is known of an answer does not depend on generated ids. -/
theorem finish_same (fresh fresh' : Nat → String) (a : Assembly) :
    (a.finish fresh).1 = (a.finish fresh').1 ∧
      List.Forall₂ (SameChunk fresh fresh') (a.finish fresh).2 (a.finish fresh').2 := by
  unfold finish
  split
  · exact ⟨rfl, .nil⟩
  · exact ⟨rfl, flush_same a _⟩

theorem takeObject_same (fresh fresh' : Nat → String) (a : Assembly) (answer : Json) :
    (a.takeObject fresh answer).1 = (a.takeObject fresh' answer).1 ∧
      List.Forall₂ (SameChunk fresh fresh') (a.takeObject fresh answer).2
        (a.takeObject fresh' answer).2 := by
  unfold takeObject
  dsimp only
  split
  · split
    · exact ⟨rfl, same_chunks _⟩
    · exact ⟨rfl, List.rel_append (same_chunks _) (flush_same _ _)⟩
  · exact ⟨rfl, same_chunks _⟩

theorem takeText_same (fresh fresh' : Nat → String) (a : Assembly) (text : List Char) :
    (a.takeText fresh text).1 = (a.takeText fresh' text).1 ∧
      SameResult (List.Forall₂ (SameChunk fresh fresh')) (a.takeText fresh text).2
        (a.takeText fresh' text).2 := by
  unfold takeText
  split
  · next data _ =>
    unfold takeData
    split
    · have ended := finish_same fresh fresh' { a with done := true }
      exact ⟨ended.1, .ok ended.2⟩
    · split
      · next answer _ =>
        have taken := takeObject_same fresh fresh' a answer
        exact ⟨taken.1, .ok taken.2⟩
      · exact ⟨rfl, .error _⟩
  · exact ⟨rfl, .ok .nil⟩

theorem takeFrames_same (fresh fresh' : Nat → String) (a : Assembly)
    (frames : List (List UInt8)) :
    (a.takeFrames fresh frames).1 = (a.takeFrames fresh' frames).1 ∧
      SameResult (List.Forall₂ (SameChunk fresh fresh')) (a.takeFrames fresh frames).2.2
        (a.takeFrames fresh' frames).2.2 := by
  induction frames generalizing a with
  | nil => exact ⟨rfl, .ok .nil⟩
  | cons frame rest ih =>
    simp only [takeFrames]
    cases Text.decodeUtf8? frame with
    | none => exact ⟨rfl, .error _⟩
    | some text =>
      by_cases blank : Text.isBlankText text.toList = true
      · simp only [blank, if_true]
        exact ih a
      · simp only [blank, Bool.false_eq_true, if_false]
        have same := takeText_same fresh fresh' a text.toList
        rcases hx : a.takeText fresh text.toList with ⟨b, x⟩
        rcases hy : a.takeText fresh' text.toList with ⟨c, y⟩
        rw [hx, hy] at same
        obtain ⟨rfl, same⟩ := same
        cases same with
        | error fault => exact ⟨rfl, .error fault⟩
        | ok first =>
          cases done : b.done with
          | true =>
            simp only [done, if_true]
            exact ⟨trivial, .ok first⟩
          | false =>
            obtain ⟨known, more⟩ := ih b
            simp only [done, Bool.false_eq_true, if_false]
            exact ⟨known, more.map fun _ _ later => List.rel_append first later⟩

theorem readFrames_same (fresh fresh' : Nat → String) (a : Assembly)
    (frames : List (List UInt8)) :
    SameResult (fun x y => List.Forall₂ (SameChunk fresh fresh') x.1 y.1 ∧ x.2 = y.2)
      (a.readFrames fresh frames) (a.readFrames fresh' frames) := by
  have same := takeFrames_same fresh fresh' a frames
  simp only [readFrames]
  rcases hx : a.takeFrames fresh frames with ⟨b, left, x⟩
  rcases hy : a.takeFrames fresh' frames with ⟨c, left', y⟩
  rw [hx, hy] at same
  obtain ⟨rfl, same⟩ := same
  cases same with
  | error fault => exact .error fault
  | ok chunks =>
    dsimp only
    split
    · exact .ok ⟨chunks, rfl⟩
    · exact .ok ⟨List.rel_append chunks (finish_same fresh fresh' b).2, rfl⟩

end Assembly

namespace Decoder

/-- However a body is cut into pieces, they yield the same chunks, but for generated ids,
and the same mark of the end, or all the same fault. The client streams these chunks. -/
theorem readAll_cut (fresh fresh' : Nat → String) {pieces pieces' : List (List UInt8)}
    (same : pieces.flatten = pieces'.flatten) :
    SameResult (fun x y => List.Forall₂ (SameChunk fresh fresh') x.1 y.1 ∧ x.2 = y.2)
        (readAll fresh {} pieces) (readAll fresh' {} pieces') ∧
      ∀ timeout chunks done, readAll fresh {} pieces = .ok (chunks, done) →
        Client.streamOf fresh timeout .complete {} pieces =
          chunks.map fun chunk => .now (.ok chunk) := by
  constructor
  · rw [readAll_eq new_waits, readAll_eq new_waits, same]
    exact Assembly.readFrames_same fresh fresh' _ _
  · intro timeout chunks done read
    have streamed := Client.streamOf_complete fresh timeout {} pieces
    rw [read] at streamed
    exact streamed

/-- A body whose word is one character of two bytes. -/
def accent : List UInt8 := Text.encodeUtf8
  "data: \x7b\"choices\":[\x7b\"delta\":\x7b\"content\":\"é\"\x7d\x7d]\x7d\n\ndata: [DONE]\n\n"

/-- A cut inside the character, and one inside the empty line. -/
theorem accent_cut :
    (readAll (fun _ => "a") {} [accent.take 40, accent.drop 40]).toOption =
        some ([.text "é", .finished .stop], true) ∧
      SameResult (fun x y => List.Forall₂ (SameChunk (fun _ => "a") fun _ => "b") x.1 y.1 ∧
          x.2 = y.2)
        (readAll (fun _ => "a") {} [accent.take 40, accent.drop 40])
        (readAll (fun _ => "b") {} [accent.take 47, accent.drop 47]) := by
  refine ⟨by decide +kernel, (readAll_cut _ _ ?_).1⟩
  simp only [List.flatten_cons, List.flatten_nil, List.append_nil, List.take_append_drop]

end Decoder

end Responder.Remote
