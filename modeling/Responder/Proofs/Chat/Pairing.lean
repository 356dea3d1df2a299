import Responder.Proofs.Chat.Truncation

/-!
# Tool results and their calls

A result of a tool belongs to a call of the message before it, where other results may stand
between them. Main statement: what the context window leaves of a chat in which each result
has its call is such a chat again.
-/

namespace Responder.Context

open scoped List

/-- The last message of a chat that is no result of a tool. -/
def lastOther (messages : List ChatMessage) : Option ChatMessage :=
  messages.reverse.find? (·.role ≠ .tool)

/-- A result is that of a call of an assistant. -/
def Answers (m caller : ChatMessage) : Prop :=
  caller.role = .assistant ∧ ∃ call ∈ caller.calls, m.callId = some call.id

instance (m caller : ChatMessage) : Decidable (Answers m caller) :=
  inferInstanceAs (Decidable (_ ∧ _))

/-- Each result of a tool answers the nearest message before it that is none. -/
def ToolPaired (messages : List ChatMessage) : Prop :=
  ∀ i (h : i < messages.length), messages[i].role = .tool →
    ∃ caller ∈ lastOther (messages.take i), Answers messages[i] caller

instance (messages : List ChatMessage) : Decidable (ToolPaired messages) :=
  inferInstanceAs (Decidable (∀ _, _))

variable {xs ys messages : List ChatMessage} {m caller : ChatMessage}

theorem isCall_iff : m.isCall = true ↔ m.role = .assistant ∧ m.calls ≠ [] := by
  simp [ChatMessage.isCall]

theorem lastOther_append (xs ys : List ChatMessage) :
    lastOther (xs ++ ys) = (lastOther ys).or (lastOther xs) := by
  rw [lastOther, List.reverse_append, List.find?_append]
  rfl

theorem toolPaired_iff : ToolPaired messages ↔
    ∀ before m after, messages = before ++ m :: after → m.role = .tool →
      ∃ caller ∈ lastOther before, Answers m caller := by
  constructor
  · rintro h before m after rfl result
    have here := h before.length (by simp)
    simp only [List.getElem_append_right (Nat.le_refl _), Nat.sub_self, List.getElem_cons_zero,
      List.take_left] at here
    exact here result
  · intro h i inside result
    have split : messages = messages.take i ++ messages[i] :: messages.drop (i + 1) := by
      rw [List.getElem_cons_drop, List.take_append_drop]
    exact h _ _ _ split result

namespace ToolPaired

theorem of_others (h : ∀ m ∈ messages, m.role ≠ .tool) : ToolPaired messages :=
  fun _ inside result => absurd result (h _ (List.getElem_mem inside))

theorem append (hx : ToolPaired xs) (hy : ToolPaired ys) : ToolPaired (xs ++ ys) := by
  rw [toolPaired_iff] at *
  intro before m after split result
  obtain ⟨between, rfl, rest⟩ | ⟨between, rfl, rest⟩ := List.append_eq_append_iff.1 split
  · obtain ⟨caller, last, answers⟩ := hy between m after rest result
    refine ⟨caller, ?_, answers⟩
    rw [lastOther_append, last]
    rfl
  · cases between with
    | nil =>
      obtain ⟨caller, last, -⟩ := hy [] m after rest.symm result
      cases last
    | cons first between =>
      obtain ⟨rfl, rfl⟩ := List.cons.inj rest
      exact hx before m between rfl result

theorem left (h : ToolPaired (xs ++ ys)) : ToolPaired xs := by
  rw [toolPaired_iff] at *
  rintro before m after rfl result
  exact h before m (after ++ ys) (by simp) result

/-- From a message on that is no result, nothing is needed of those before it. -/
theorem right (h : ToolPaired (xs ++ ys)) (starts : ∀ m ∈ ys.head?, m.role ≠ .tool) :
    ToolPaired ys := by
  rw [toolPaired_iff] at *
  rintro before m after rfl result
  cases before with
  | nil => exact absurd result (starts m rfl)
  | cons first before =>
    obtain ⟨caller, last, answers⟩ := h (xs ++ first :: before) m after (by simp) result
    refine ⟨caller, ?_, answers⟩
    -- There is such a message behind the cut: the first one.
    have other : first.role ≠ .tool := starts first rfl
    have some : (lastOther (first :: before)).isSome := by
      rw [lastOther, List.find?_isSome]
      exact ⟨first, by simp, by simpa using other⟩
    obtain ⟨nearest, near⟩ := Option.isSome_iff_exists.1 some
    rw [lastOther_append, near] at last
    rw [near]
    exact last

end ToolPaired

/-- The results at the end of a chat stand behind the last other message. -/
theorem getLast?_resultsAtEnd (messages : List ChatMessage) :
    (resultsAtEnd messages).1.getLast? = lastOther messages := by
  have whole := resultsAtEnd_append messages
  have results :
      (resultsAtEnd messages).2 = (messages.reverse.takeWhile (·.role = .tool)).reverse :=
    rfl
  have rest : (resultsAtEnd messages).1.reverse = messages.reverse.dropWhile (·.role = .tool) := by
    have parts := congrArg List.reverse whole
    rw [List.reverse_append, results, List.reverse_reverse] at parts
    exact List.append_cancel_left (parts.trans List.takeWhile_append_dropWhile.symm)
  rw [List.getLast?_eq_head?_reverse, rest, lastOther, List.find?_eq_head?_dropWhile_not]
  simp

/-- What is pinned of a chat in which each result has its call starts with no result. -/
theorem pin_starts (paired : ToolPaired messages) (start : Nat) :
    ∀ m ∈ (pin messages start).2.head?, m.role ≠ .tool := by
  intro m first
  unfold pin at first
  dsimp only at first
  split at first
  · next starts =>
    obtain ⟨result, there, role⟩ := Option.map_eq_some_iff.1 starts
    obtain ⟨after, drops⟩ := List.head?_eq_some_iff.1 there
    -- The first of the turn is a result, and so it has a call.
    have split : messages = messages.take start ++ result :: after := by
      rw [← drops, List.take_append_drop]
    obtain ⟨caller, last, assistant, call, mem, -⟩ :=
      toolPaired_iff.1 paired _ result after split role
    have calls : caller.isCall = true := isCall_iff.2 ⟨assistant, List.ne_nil_of_mem mem⟩
    rw [getLast?_resultsAtEnd, last] at first
    simp only [calls, if_true] at first
    cases first
    rw [assistant]
    decide
  · next starts =>
    intro role
    apply starts
    rw [first, Option.map_some, role]

/-- Of a chat in which each result has its call, truncation leaves such a chat. -/
theorem truncate_toolPaired {count : Counter} {window : Nat}
    {earlier pinned : List ChatMessage} (paired : ToolPaired (earlier ++ pinned))
    (starts : ∀ m ∈ pinned.head?, m.role ≠ .tool)
    (truncated : truncate count window earlier pinned = .ok messages) : ToolPaired messages := by
  obtain ⟨head, tail, kept, rfl, -, roles, suffix, first⟩ := truncate_spec truncated
  by_cases shorter : head.length + tail.length < earlier.length
  · rw [if_pos shorter]
    have leading : ToolPaired head := by
      apply ToolPaired.of_others
      intro m mem
      obtain role | role := roles m mem <;> rw [role] <;> decide
    have noticed : ToolPaired [noticeMessage] := ToolPaired.of_others (by decide)
    have recent : ToolPaired tail := by
      obtain ⟨dropped, rfl⟩ := suffix
      apply paired.left.right
      intro m mem
      rw [first m mem]
      decide
    exact ((leading.append noticed).append recent).append (paired.right starts)
  · have whole := (keeps_all_iff pinned kept).2 shorter
    rw [if_neg shorter, List.append_nil, List.append_assoc, whole]
    exact paired

/-- If each result of a tool in the whole chat has its call before it, so has each in the chat
that is built. -/
theorem build_toolPaired {count : Counter} {window : Nat} {truncation : Truncation}
    {instructions : Option String} {ancestry : List Response} {input : List InputItem}
    (paired : ToolPaired (untruncated instructions ancestry input))
    (built : build count window truncation instructions ancestry input = .ok messages) :
    ToolPaired messages := by
  unfold build at built
  dsimp only at built
  split at built
  · cases built
    exact paired
  · split at built
    · cases built
    · have starts := pin_starts paired (inputStart (history instructions ancestry) input)
      obtain ⟨whole, -⟩ := pin_spec (untruncated instructions ancestry input)
        (inputStart (history instructions ancestry) input)
      rw [← whole] at paired
      exact truncate_toolPaired paired starts built

/-- The second question is dropped, but the call that was the answer to it stays with its
result. -/
theorem weather_toolPaired :
    ToolPaired (untruncated (some "be brief") [weather] weatherInput) ∧
      build (fun _ => 1) 30 .auto (some "be brief") [weather] weatherInput = .ok weatherChat ∧
      ToolPaired weatherChat := by
  have paired : ToolPaired (untruncated (some "be brief") [weather] weatherInput) := by decide
  have built : build (fun _ => 1) 30 .auto (some "be brief") [weather] weatherInput =
      .ok weatherChat := rfl
  exact ⟨paired, built, build_toolPaired paired built⟩

end Responder.Context
