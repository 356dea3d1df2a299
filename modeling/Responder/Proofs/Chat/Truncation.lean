import Mathlib.Data.List.TakeWhile
import Responder.Chat.Context

/-!
# What the context window leaves

A chat that does not fit the window loses messages from its middle. Main statement: what is
left fits the window and ends with the whole new turn; but for the notice it is a
subsequence of the whole chat, and the notice stands in it exactly if a message is missing.
-/

namespace Responder.Context

open scoped List

variable {count : Counter} {window : Nat} {earlier pinned result : List ChatMessage}

@[simp] theorem totalTokens_nil (count : Counter) : totalTokens count [] = 0 := rfl

@[simp] theorem totalTokens_cons (count : Counter) (m : ChatMessage) (rest : List ChatMessage) :
    totalTokens count (m :: rest) = messageTokens count m + totalTokens count rest := rfl

@[simp] theorem totalTokens_append (count : Counter) (xs ys : List ChatMessage) :
    totalTokens count (xs ++ ys) = totalTokens count xs + totalTokens count ys := by
  induction xs with
  | nil => simp
  | cons m rest ih => simp [ih, Nat.add_assoc]

@[simp] theorem totalTokens_reverse (count : Counter) (xs : List ChatMessage) :
    totalTokens count xs.reverse = totalTokens count xs := by
  induction xs with
  | nil => rfl
  | cons m rest ih =>
    simp [ih]
    omega

theorem totalTokens_le_of_suffix (count : Counter) {xs ys : List ChatMessage} (h : xs <:+ ys) :
    totalTokens count xs ≤ totalTokens count ys := by
  obtain ⟨before, rfl⟩ := h
  rw [totalTokens_append]
  exact Nat.le_add_left ..

/-- The message at an index, if there is one. -/
theorem filterMap_index (earlier : List ChatMessage) (index : Option Nat) :
    index.toList.filterMap (earlier[·]?) = (index.bind (earlier[·]?)).toList := by
  cases index with
  | none => rfl
  | some i => cases h : earlier[i]? <;> simp [h]

theorem totalTokens_index (count : Counter) (earlier : List ChatMessage) (index : Option Nat) :
    totalTokens count (index.bind (earlier[·]?)).toList = tokensAt count earlier index := by
  unfold tokensAt
  cases index.bind (earlier[·]?) <;> rfl

theorem fittingSuffix_go (count : Counter) (room : Nat) (reversed kept : List ChatMessage) :
    ∃ taken left, reversed = taken ++ left ∧ totalTokens count taken ≤ room ∧
      fittingSuffix.go count room reversed kept = taken.reverse ++ kept := by
  induction reversed generalizing room kept with
  | nil => exact ⟨[], [], rfl, Nat.zero_le room, rfl⟩
  | cons m rest ih =>
    unfold fittingSuffix.go
    split
    · exact ⟨[], m :: rest, rfl, Nat.zero_le room, rfl⟩
    · next fits =>
      obtain ⟨taken, left, rfl, small, same⟩ := ih (room - messageTokens count m) (m :: kept)
      refine ⟨m :: taken, left, rfl, ?_, ?_⟩
      · rw [totalTokens_cons]
        omega
      · rw [same]
        simp

theorem fittingSuffix_spec (count : Counter) (room : Nat) (messages : List ChatMessage) :
    fittingSuffix count room messages <:+ messages ∧
      totalTokens count (fittingSuffix count room messages) ≤ room := by
  obtain ⟨taken, left, split, small, same⟩ := fittingSuffix_go count room messages.reverse []
  have whole : messages = left.reverse ++ taken.reverse := by
    rw [← List.reverse_append, ← split, List.reverse_reverse]
  unfold fittingSuffix
  rw [same, List.append_nil]
  constructor
  · rw [whole]
    exact List.suffix_append ..
  · rw [totalTokens_reverse]
    exact small

/-- The system message that is kept stands before the user's message that is kept. -/
theorem leadingSystem_lt {s u : Nat} (hs : leadingSystem earlier = some s)
    (hu : firstUser earlier = some u) : s < u := by
  obtain ⟨inside, -⟩ := List.findIdx?_eq_some_iff_getElem.1 hs
  obtain ⟨there, user, -⟩ := List.findIdx?_eq_some_iff_getElem.1 hu
  have before : (earlier.takeWhile (·.role ≠ .user)).length ≤ u := by
    by_contra inside
    have other := List.mem_takeWhile_imp (List.getElem_mem (Nat.lt_of_not_le inside))
    rw [(List.takeWhile_prefix _).getElem] at other
    simp only [ne_eq, decide_not, Bool.not_eq_true', decide_eq_false_iff_not] at other
    exact other (of_decide_eq_true user)
  exact Nat.lt_of_lt_of_le inside before

theorem role_of_leadingSystem {m : ChatMessage}
    (h : (leadingSystem earlier).bind (earlier[·]?) = some m) : m.role = .system := by
  obtain ⟨s, first, there⟩ := Option.bind_eq_some_iff.1 h
  obtain ⟨inside, system, -⟩ := List.findIdx?_eq_some_iff_getElem.1 first
  have within := List.getElem?_eq_some_iff.1 there
  rw [(List.takeWhile_prefix _).getElem, within.choose_spec] at system
  exact of_decide_eq_true system

theorem role_of_firstUser {u : Nat} {m : ChatMessage} (h : firstUser earlier = some u)
    (there : earlier[u]? = some m) : m.role = .user := by
  obtain ⟨inside, user, -⟩ := List.findIdx?_eq_some_iff_getElem.1 h
  rw [(List.getElem?_eq_some_iff.1 there).choose_spec] at user
  exact of_decide_eq_true user

theorem role_of_trimmed {messages : List ChatMessage} {m : ChatMessage}
    (first : m ∈ (messages.dropWhile (·.role ≠ .user)).head?) : m.role = .user := by
  have stopped := List.head?_dropWhile_not (fun m : ChatMessage => decide (m.role ≠ .user)) messages
  rw [first] at stopped
  simpa using stopped

/-- The messages that are kept at the start come before all that may be kept behind them. -/
theorem head_sublist {user : Option Nat} (hu : ∀ u ∈ user, firstUser earlier = some u) :
    ((leadingSystem earlier).toList ++ user.toList).filterMap (earlier[·]?) <+
      earlier.take (((user <|> leadingSystem earlier).map (· + 1)).getD 0) := by
  have last (i : Nat) : earlier[i]?.toList <+ earlier.take (i + 1) := by
    rw [List.take_add_one]
    exact List.sublist_append_right ..
  rw [List.filterMap_append, filterMap_index, filterMap_index]
  cases hs : leadingSystem earlier with
  | none =>
    cases user with
    | none => exact List.nil_sublist _
    | some u => exact last u
  | some s =>
    cases user with
    | none =>
      rw [Option.bind_none, Option.toList_none, List.append_nil]
      exact last s
    | some u =>
      have order : s < u := leadingSystem_lt hs (hu u rfl)
      have early : earlier[s]?.toList <+ earlier.take u :=
        (last s).trans (List.take_prefix_take_left order).sublist
      change earlier[s]?.toList ++ earlier[u]?.toList <+ earlier.take (u + 1)
      rw [List.take_add_one]
      exact early.append (List.Sublist.refl _)

/-- What truncation leaves: a part of the history, the notice if that is not all of it, and
the pinned messages. The part of the history is the system message, the user's first message
and what the user's last messages that fit began. -/
theorem truncate_spec (h : truncate count window earlier pinned = .ok result) :
    ∃ head tail, head ++ tail <+ earlier ∧
      result = head ++ (if head.length + tail.length < earlier.length then [noticeMessage]
        else []) ++ tail ++ pinned ∧
      totalTokens count head + messageTokens count noticeMessage + totalTokens count tail +
        totalTokens count pinned ≤ window ∧
      (∀ m ∈ head, m.role = .system ∨ m.role = .user) ∧
      tail <:+ earlier ∧ ∀ m ∈ tail.head?, m.role = .user := by
  unfold truncate at h
  dsimp only at h
  split at h
  · cases h
  · next enough =>
    cases h
    -- The room that the system message, the notice and the pinned messages leave.
    generalize room : window - (tokensAt count earlier (leadingSystem earlier) +
      totalTokens count pinned + messageTokens count noticeMessage) = free at *
    have fits : ∀ u ∈ (firstUser earlier).filter fun i => tokensAt count earlier (some i) ≤ free,
        firstUser earlier = some u ∧ tokensAt count earlier (some u) ≤ free := by
      intro u mem
      simpa using Option.filter_eq_some_iff.1 mem
    generalize (firstUser earlier).filter _ = user at *
    have spent : tokensAt count earlier user ≤ free := by
      cases user with
      | none => exact Nat.zero_le free
      | some u => exact (fits u rfl).2
    obtain ⟨suffix, small⟩ := fittingSuffix_spec count (free - tokensAt count earlier user)
      (earlier.drop (((user <|> leadingSystem earlier).map (· + 1)).getD 0))
    have trimmed := List.dropWhile_suffix (l := fittingSuffix count
      (free - tokensAt count earlier user)
      (earlier.drop (((user <|> leadingSystem earlier).map (· + 1)).getD 0))) (·.role ≠ .user)
    refine ⟨_, _, ?_, rfl, ?_, ?_, ?_, ?_⟩
    · have parts := (head_sublist fun u mem => (fits u mem).1).append (trimmed.trans suffix).sublist
      rwa [List.take_append_drop] at parts
    · have tail := totalTokens_le_of_suffix count trimmed
      rw [List.filterMap_append, filterMap_index, filterMap_index, totalTokens_append,
        totalTokens_index, totalTokens_index]
      omega
    · intro m mem
      rw [List.filterMap_append, filterMap_index, filterMap_index] at mem
      obtain system | first := List.mem_append.1 mem
      · exact .inl (role_of_leadingSystem (Option.mem_toList.1 system))
      · obtain ⟨u, kept, there⟩ := Option.bind_eq_some_iff.1 (Option.mem_toList.1 first)
        exact .inr (role_of_firstUser (fits u kept).1 there)
    · exact (trimmed.trans suffix).trans (List.drop_suffix ..)
    · exact fun m first => role_of_trimmed first

theorem resultsAtEnd_append (messages : List ChatMessage) :
    (resultsAtEnd messages).1 ++ (resultsAtEnd messages).2 = messages := by
  have suffix : (resultsAtEnd messages).2 <:+ messages := by
    have front := List.takeWhile_prefix (l := messages.reverse) (·.role = .tool)
    exact List.reverse_prefix.1 (by rwa [resultsAtEnd, List.reverse_reverse])
  obtain ⟨rest, whole⟩ := suffix
  have first : (resultsAtEnd messages).1 = rest := by
    have length : messages.length - (resultsAtEnd messages).2.length = rest.length := by
      have both := congrArg List.length whole
      rw [List.length_append] at both
      omega
    change messages.take (messages.length - (resultsAtEnd messages).2.length) = rest
    rw [length]
    exact (congrArg _ whole.symm).trans List.take_left
  rw [first, whole]

/-- Nothing is lost when messages are pinned, and all from the start on are. -/
theorem pin_spec (messages : List ChatMessage) (start : Nat) :
    (pin messages start).1 ++ (pin messages start).2 = messages ∧
      messages.drop start <:+ (pin messages start).2 := by
  have plain : messages.take start ++ messages.drop start = messages ∧
      messages.drop start <:+ messages.drop start :=
    ⟨List.take_append_drop .., List.suffix_refl _⟩
  unfold pin
  dsimp only
  split
  · split
    · next caller last =>
      split
      · obtain ⟨front, ends⟩ := List.getLast?_eq_some_iff.1 last
        constructor
        · rw [ends, List.dropLast_concat]
          dsimp only
          rw [List.append_cons, ← ends, ← List.append_assoc, resultsAtEnd_append]
          exact plain.1
        · exact List.suffix_cons_iff.2 (.inr (List.suffix_append ..))
      · exact plain
    · exact plain
  · exact plain

/-- The new turn within the whole chat: all from the message that holds its first item on.
That message is the last one when the item has just been added. -/
def newTurn (instructions : Option String) (ancestry : List Response) :
    List InputItem → List ChatMessage
  | [] => []
  | item :: rest => (untruncated instructions ancestry (item :: rest)).drop
    ((append (history instructions ancestry) (.ofInputItem item)).length - 1)

theorem inputStart_cons (before : List ChatMessage) (item : InputItem) (rest : List InputItem) :
    inputStart before (item :: rest) = (append before (.ofInputItem item)).length - 1 := by
  unfold inputStart append
  cases h : before.getLast? with
  | none =>
    rw [List.getLast?_eq_none_iff] at h
    rw [h]
    rfl
  | some last =>
    dsimp only [List.head?_cons]
    split
    · simp
    · simp

theorem newTurn_eq (instructions : Option String) (ancestry : List Response)
    (input : List InputItem) : newTurn instructions ancestry input =
      (untruncated instructions ancestry input).drop
        (inputStart (history instructions ancestry) input) := by
  cases input with
  | nil =>
    have none : inputStart (history instructions ancestry) [] =
        (history instructions ancestry).length := by
      unfold inputStart
      cases (history instructions ancestry).getLast? <;> rfl
    rw [none]
    exact List.drop_length.symm
  | cons item rest =>
    rw [inputStart_cons]
    rfl

theorem newTurn_suffix (instructions : Option String) (ancestry : List Response)
    (input : List InputItem) :
    newTurn instructions ancestry input <:+ (untruncated instructions ancestry input).drop
      (inputStart (history instructions ancestry) input) :=
  ⟨[], newTurn_eq instructions ancestry input⟩

/-- The kept part of a history is all of it if it is as long. -/
theorem keeps_all_iff {head tail : List ChatMessage} (pinned : List ChatMessage)
    (kept : head ++ tail <+ earlier) :
    head ++ (tail ++ pinned) = earlier ++ pinned ↔
      ¬ head.length + tail.length < earlier.length := by
  rw [← List.append_assoc, List.append_left_inj, ← List.length_append]
  constructor
  · intro same
    rw [same]
    exact Nat.lt_irrefl _
  · intro long
    exact kept.eq_of_length_le (Nat.le_of_not_lt long)

/-- A chat that is built fits the window and ends with the whole new turn. But for the notice
it is a subsequence of the whole chat, and the notice is there if a message is missing. -/
theorem build_within_window {truncation : Truncation} {instructions : Option String}
    {ancestry : List Response} {input : List InputItem} {messages : List ChatMessage}
    (built : build count window truncation instructions ancestry input = .ok messages) :
    totalTokens count messages ≤ window ∧
      newTurn instructions ancestry input <:+ messages ∧
      ∃ front back, front ++ back <+ untruncated instructions ancestry input ∧
        messages = front ++
          (if front ++ back = untruncated instructions ancestry input then []
            else [noticeMessage]) ++ back := by
  unfold build at built
  dsimp only at built
  split at built
  · next fits =>
    cases built
    refine ⟨fits, (newTurn_suffix ..).trans (List.drop_suffix ..), [],
      untruncated instructions ancestry input, List.Sublist.refl _, ?_⟩
    simp only [List.nil_append, if_true]
  · split at built
    · cases built
    · obtain ⟨whole, pinned⟩ := pin_spec (untruncated instructions ancestry input)
        (inputStart (history instructions ancestry) input)
      obtain ⟨head, tail, kept, rfl, cost, -⟩ := truncate_spec built
      generalize pin (untruncated instructions ancestry input) _ = parts at *
      rw [← whole]
      refine ⟨?_, ?_, head, tail ++ parts.2, ?_, ?_⟩
      · split
        · simp only [totalTokens_append, totalTokens_cons, totalTokens_nil]
          omega
        · simp only [totalTokens_append, totalTokens_nil]
          omega
      · exact ((newTurn_suffix ..).trans pinned).trans (List.suffix_append ..)
      · rw [← List.append_assoc]
        exact kept.append (List.Sublist.refl _)
      · have all := keeps_all_iff parts.2 kept
        by_cases shorter : head.length + tail.length < parts.1.length
        · rw [if_pos shorter, if_neg (fun same => all.1 same shorter)]
          simp only [List.append_assoc]
        · rw [if_neg shorter, if_pos (all.2 shorter)]
          simp only [List.append_assoc]

/-- Two questions, the second of which was answered with a call. -/
def weather : Response where
  id := "resp"
  model := "small"
  input := [.message "1" .user [.inputText "is it cold"],
    .message "2" .assistant [.outputText "yes"], .message "3" .user [.inputText "does it rain"]]
  output := [.functionCall "4" .completed "call_1" "look" "out"]
  temperature := singleOne
  topP := singleOne

/-- Another call, and the result of the earlier one. -/
def weatherInput : List InputItem :=
  [.functionCall "5" "call_2" "look" "up", .functionCallOutput "6" "call_1" "it does"]

/-- What is left of the weather when every text counts as one token. -/
def weatherChat : List ChatMessage :=
  [.ofText .system "be brief", .ofText .user "is it cold", noticeMessage,
    { role := .assistant, calls := [⟨"call_1", "look", "out"⟩, ⟨"call_2", "look", "up"⟩] },
    { role := .tool, content := [.text "it does"], callId := some "call_1" }]

/-- The first call of the new turn is folded into the message of the earlier call; the second
question is dropped, and what was said before it. -/
theorem weather_within_window :
    build (fun _ => 1) 30 .auto (some "be brief") [weather] weatherInput = .ok weatherChat ∧
      totalTokens (fun _ => 1) weatherChat ≤ 30 ∧
      newTurn (some "be brief") [weather] weatherInput <:+ weatherChat ∧
      ∃ front back, front ++ back <+ untruncated (some "be brief") [weather] weatherInput ∧
        weatherChat = front ++
          (if front ++ back = untruncated (some "be brief") [weather] weatherInput then []
            else [noticeMessage]) ++ back := by
  have built : build (fun _ => 1) 30 .auto (some "be brief") [weather] weatherInput =
      .ok weatherChat := rfl
  exact ⟨built, build_within_window built⟩

end Responder.Context
