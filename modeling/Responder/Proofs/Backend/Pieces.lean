import Responder.Backend.Mock
import Responder.Proofs.Turn.Agreement

/-!
# Texts of the mock in pieces

The mock streams a text word by word: it cuts it before each space, unless the space begins the
text. Main statement: the pieces make up the text, and there are as many as its spaces tell; a
stream that is not made to fail is the whole answer with its text in these pieces.
-/

namespace Responder

/-- The same answer, whose calls have this id. -/
def Completion.withCallId (id : String) (c : Completion) : Completion :=
  { c with calls := c.calls.map fun call => { call with id } }

namespace Mock

/-- Pieces that make up a text. A space can only begin a piece; there is one for each space, and
one more if the text begins with something else. -/
structure Pieces (text : String) (pieces : List String) : Prop where
  whole : String.join pieces = text
  full : ∀ piece ∈ pieces, piece ≠ ""
  leading : ∀ piece ∈ pieces, ' ' ∉ piece.toList.tail
  spaced : text.toList.head? = some ' ' → pieces.length = text.toList.count ' '
  unspaced : text ≠ "" → text.toList.head? ≠ some ' ' →
    pieces.length = text.toList.count ' ' + 1

section splitting
variable {current rest : List Char}

theorem flatten_splitFrom (current rest : List Char) :
    (splitFrom current rest).flatten = current ++ rest := by
  induction rest generalizing current with
  | nil =>
    unfold splitFrom
    split
    · next none => rw [none]; rfl
    · rw [List.flatten_singleton, List.append_nil]
  | cons c rest ih =>
    unfold splitFrom
    split
    · rw [List.flatten_cons, ih]
      rfl
    · rw [ih, List.append_assoc]
      rfl

/-- A piece that is begun takes no space into it. -/
theorem leading_of_mem_splitFrom (leading : ' ' ∉ current.tail) :
    ∀ piece ∈ splitFrom current rest, piece ≠ [] ∧ ' ' ∉ piece.tail := by
  induction rest generalizing current with
  | nil =>
    unfold splitFrom
    split
    · exact List.forall_mem_nil _
    · next some => exact List.forall_mem_singleton.2 ⟨some, leading⟩
  | cons c rest ih =>
    unfold splitFrom
    split
    · next cut => exact List.forall_mem_cons.2 ⟨⟨cut.2, leading⟩, ih List.not_mem_nil⟩
    · next uncut =>
      refine ih ?_
      cases current with
      | nil => exact List.not_mem_nil
      | cons first more =>
        have other : c ≠ ' ' := fun same => uncut ⟨same, List.cons_ne_nil _ _⟩
        simpa [other.symm] using leading

/-- Once a piece is begun, each space begins another one. -/
theorem length_splitFrom (some : current ≠ []) (rest : List Char) :
    (splitFrom current rest).length = rest.count ' ' + 1 := by
  induction rest generalizing current with
  | nil => simp [splitFrom, some]
  | cons c rest ih =>
    unfold splitFrom
    split
    · next cut => rw [List.length_cons, ih (List.cons_ne_nil _ _), cut.1, List.count_cons_self]
    · next uncut =>
      have other : c ≠ ' ' := fun same => uncut ⟨same, some⟩
      rw [ih (by simp), List.count_cons_of_ne other]

end splitting

theorem splitTokens_pieces (text : String) : Pieces text (splitTokens text) := by
  have length (c : Char) (rest : List Char) :
      (splitFrom [] (c :: rest)).length = rest.count ' ' + 1 := by
    have begun : splitFrom [] (c :: rest) = splitFrom [c] rest := if_neg fun cut => cut.2 rfl
    rw [begun, length_splitFrom (List.cons_ne_nil _ _)]
  have each : ∀ piece ∈ splitFrom [] text.toList, piece ≠ [] ∧ ' ' ∉ piece.tail :=
    leading_of_mem_splitFrom List.not_mem_nil
  refine ⟨?_, ?_, ?_, ?_, ?_⟩
  · refine String.toList_injective ?_
    rw [String.toList_join, splitTokens, List.flatMap_map]
    simpa using flatten_splitFrom [] text.toList
  · refine List.forall_mem_map.2 fun piece mem => ?_
    simpa using (each piece mem).1
  · refine List.forall_mem_map.2 fun piece mem => ?_
    rw [String.toList_ofList]
    exact (each piece mem).2
  · intro spaced
    rw [splitTokens, List.length_map]
    cases chars : text.toList with
    | nil => cases chars ▸ spaced
    | cons c rest =>
      rw [chars] at spaced
      cases spaced
      rw [length, List.count_cons_self]
  · intro some unspaced
    rw [splitTokens, List.length_map]
    cases chars : text.toList with
    | nil => exact absurd (String.toList_eq_nil_iff.1 chars) some
    | cons c rest =>
      rw [chars] at unspaced
      have other : c ≠ ' ' := fun same => unspaced (congrArg Option.some same)
      rw [length, List.count_cons_of_ne other]

/-- The pieces in which the mock streams the text of an answer. -/
def piecesOf (c : Completion) : List String := (c.text.map splitTokens).getD []

theorem piecesOf_pieces (c : Completion) : Pieces (c.text.getD "") (piecesOf c) := by
  unfold piecesOf
  cases c.text with
  | none => exact splitTokens_pieces ""
  | some text => exact splitTokens_pieces text

/-- What arrives of a stream that is not made to fail. -/
theorem streamOf_values {m : Mock} (unbroken : m.failAfter = none) (c : Completion) :
    (m.streamOf c).results.map Wait.value? =
      (c.chunks (piecesOf c)).map fun chunk => some (.ok chunk) := by
  simp [streamOf, deltas, unbroken, Completion.chunks, piecesOf, Wait.value?, Wait.now,
    Function.comp_def]

theorem exists_plan {m : Mock} (working : m.failure = none) (fresh : String) (r : ChatRequest) :
    ∃ c, m.plan fresh r = .ok c := by
  simp only [plan, working]
  repeat' split
  all_goals exact ⟨_, rfl⟩

/-- The answer to a request depends on the id of a call only where it is told. -/
theorem plan_withCallId (fresh fresh' : String) (m : Mock) (r : ChatRequest) :
    m.plan fresh' r = (m.plan fresh r).map (·.withCallId fresh') := by
  unfold plan
  repeat' split
  all_goals rfl

/-- A text is told in pieces that make it up, and a stream of the mock that is not made to fail
tells all that the mock answers at once, the text in such pieces. -/
theorem tells_in_pieces (text : String) : Pieces text (splitTokens text) ∧
    ∀ (m : Mock) (r : ChatRequest) (fresh fresh' : String),
      m.failure = none → m.failAfter = none →
      ∃ c source pieces, m.complete fresh r = .done m.delay (.ok c) ∧
        m.stream fresh' r = .now (.ok source) ∧ Pieces (c.text.getD "") pieces ∧
        source.results.map Wait.value? =
          ((c.withCallId fresh').chunks pieces).map fun chunk => some (.ok chunk) := by
  refine ⟨splitTokens_pieces text, fun m r fresh fresh' working unbroken => ?_⟩
  obtain ⟨c, planned⟩ := exists_plan working fresh r
  have planned' : m.plan fresh' r = .ok (c.withCallId fresh') := by
    rw [plan_withCallId fresh, planned]
    rfl
  refine ⟨c, m.streamOf (c.withCallId fresh'), piecesOf c, ?_, ?_, piecesOf_pieces c, ?_⟩
  · rw [complete, planned]
  · rw [stream, planned']
    rfl
  · exact streamOf_values unbroken _

/-- A chat in which nothing was said yet. -/
def unspoken : ChatRequest where
  model := modelName
  messages := []
  tools := []
  toolChoice := .auto
  outputSchema := none
  temperature := singleOne
  topP := singleOne
  maxOutputTokens := none
  parallelToolCalls := true

/-- Of two spaces in a row each begins a piece, and the mock tells a text with them whole. -/
theorem gap_told : (splitTokens "a  b").length = "a  b".toList.count ' ' + 1 ∧
    ∃ c source pieces, ({ text := some "a  b" } : Mock).complete "" unspoken = .now (.ok c) ∧
      c.text = some "a  b" ∧
      ({ text := some "a  b" } : Mock).stream "" unspoken = .now (.ok source) ∧
      Pieces "a  b" pieces ∧
      source.results.map Wait.value? =
        ((c.withCallId "").chunks pieces).map fun chunk => some (.ok chunk) := by
  obtain ⟨parts, tells⟩ := tells_in_pieces "a  b"
  obtain ⟨c, source, pieces, whole, streamed, parted, values⟩ :=
    tells { text := some "a  b" } unspoken "" "" rfl rfl
  have said : c.text = some "a  b" := by
    cases whole
    rfl
  rw [said] at parted
  exact ⟨parts.unspaced (by decide) (by decide), c, source, pieces, whole, said, streamed, parted,
    values⟩

end Mock

end Responder
