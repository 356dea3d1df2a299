import Responder.Proofs.Chat.Pairing

/-!
# What truncation selects

A chat that is too large keeps what it must and as much of the rest as fits. Main statement: it is
refused exactly if the system message, the notice and the pinned messages do not fit together;
else the user's first message is kept if it fits, and then the longest end of the history that
fits and starts with a message of the user.
-/

namespace Responder.Context

open scoped List

/-- A chat starts with a message of a role. -/
def Opens (role : ChatRole) (messages : List ChatMessage) : Prop :=
  ∃ m ∈ messages.head?, m.role = role

/-- A chat ends with calls and results right behind them. -/
structure EndsAsked (earlier rest : List ChatMessage) (caller : ChatMessage)
    (results : List ChatMessage) : Prop where
  whole : earlier = rest ++ caller :: results
  asks : caller.role = .assistant ∧ caller.calls ≠ []
  answered : ∀ m ∈ results, m.role = .tool

/-- What is left of an earlier chat, and what is pinned: the new turn, and if this starts with a
result, the calls and results right before it. -/
inductive Pins (earlier turn : List ChatMessage) : List ChatMessage → List ChatMessage → Prop
  | turn : (Opens .tool turn → ∀ rest caller results, ¬ EndsAsked earlier rest caller results) →
      Pins earlier turn earlier turn
  | asked {rest results : List ChatMessage} {caller : ChatMessage} : Opens .tool turn →
      EndsAsked earlier rest caller results → Pins earlier turn rest (caller :: results ++ turn)

/-- The first system message before the first message of the user. -/
def system? (past : List ChatMessage) : Option ChatMessage :=
  (past.takeWhile (·.role ≠ .user)).find? (·.role = .system)

/-- The tokens of all that is kept whatever it costs. -/
def needed (count : Counter) (past pinned : List ChatMessage) : Nat :=
  totalTokens count (system? past).toList + totalTokens count pinned +
    messageTokens count noticeMessage

/-- The first message of the user, if there is room for it. -/
def user? (count : Counter) (room : Nat) (past : List ChatMessage) : Option ChatMessage :=
  (past.find? (·.role = .user)).filter (messageTokens count · ≤ room)

/-- What stands behind the first message of a role. -/
def behind (role : ChatRole) (messages : List ChatMessage) : List ChatMessage :=
  (messages.dropWhile (·.role ≠ role)).tail

/-- What stands behind the messages that are kept at the start. -/
def remainder (past : List ChatMessage) (user : Option ChatMessage) : List ChatMessage :=
  if user.isSome then behind .user past
  else if (system? past).isSome then behind .system past
  else past

/-- The longest end of a chat that starts with a message of the user and fits, if there is one. -/
structure Recent (count : Counter) (room : Nat) (messages recent : List ChatMessage) : Prop where
  suffix : recent <:+ messages
  opens : recent = [] ∨ Opens .user recent
  fits : totalTokens count recent ≤ room
  longest : ∀ other, other <:+ messages → Opens .user other → totalTokens count other ≤ room →
    other <:+ recent

/-- What comes of a chat that is too large, whose history may be dropped. -/
inductive Selects (count : Counter) (window : Nat) (past pinned : List ChatMessage) :
    Except Failure (List ChatMessage) → Prop
  | overflow : window < needed count past pinned →
      Selects count window past pinned (.error (inputOverflow (totalTokens count pinned) window))
  | kept {room : Nat} {user : Option ChatMessage} {recent : List ChatMessage} :
      window = needed count past pinned + room → user = user? count room past →
      Recent count (room - totalTokens count user.toList) (remainder past user) recent →
      Selects count window past pinned (.ok ((system? past).toList ++ user.toList ++
        noticeMessage :: recent ++ pinned))

variable {count : Counter} {window room : Nat} {past earlier turn pinned : List ChatMessage}

theorem opens_cons {role : ChatRole} {m : ChatMessage} {rest : List ChatMessage} :
    Opens role (m :: rest) ↔ m.role = role := by
  simp [Opens]

theorem role_of_result {m : ChatMessage} (mem : m ∈ (resultsAtEnd earlier).2) : m.role = .tool := by
  have taken : m ∈ (earlier.reverse.takeWhile (·.role = .tool)).reverse := mem
  have result := List.mem_takeWhile_imp (List.mem_reverse.1 taken)
  exact of_decide_eq_true result

/-- The calls that a chat ends with are the last message before the results at its end. -/
theorem EndsAsked.caller_last {rest results : List ChatMessage} {caller : ChatMessage}
    (h : EndsAsked earlier rest caller results) :
    (resultsAtEnd earlier).1.getLast? = some caller := by
  have answers : lastOther results = none := by
    unfold lastOther
    rw [List.find?_eq_none]
    intro m mem
    simp [h.answered m (List.mem_reverse.1 mem)]
  have asks : lastOther [caller] = some caller := by
    simp [lastOther, h.asks.1]
  rw [getLast?_resultsAtEnd, h.whole, List.append_cons, lastOther_append, lastOther_append,
    answers, asks]
  rfl

/-- The calls at the end of a chat are pinned with their results. -/
theorem pin_pins (messages : List ChatMessage) (start : Nat) :
    Pins (messages.take start) (messages.drop start) (pin messages start).1
      (pin messages start).2 := by
  unfold pin
  dsimp only
  split
  · next result =>
    obtain ⟨m, first, role⟩ := Option.map_eq_some_iff.1 result
    have parts := resultsAtEnd_append (messages.take start)
    split
    · next caller last =>
      split
      · next calls =>
        obtain ⟨front, ends⟩ := List.getLast?_eq_some_iff.1 last
        refine .asked ⟨m, first, role⟩ ⟨?_, isCall_iff.1 calls, ?_⟩
        · rw [ends, List.dropLast_concat, List.append_cons, ← ends, parts]
        · exact fun m mem => role_of_result mem
      · next none =>
        refine .turn fun _ rest asking results h => none (isCall_iff.2 ?_)
        cases last.symm.trans h.caller_last
        exact h.asks
    · next last =>
      refine .turn fun _ rest asking results h => ?_
      cases last.symm.trans h.caller_last
  · next other =>
    refine .turn ?_
    rintro ⟨m, first, role⟩
    exact absurd (Option.map_eq_some_iff.2 ⟨m, first, role⟩) other

section head

theorem find?_leadingSystem (past : List ChatMessage) :
    (leadingSystem past).bind (past[·]?) = system? past := by
  unfold system? leadingSystem
  rw [List.find?_eq_bind_findIdx?_getElem?]
  cases found : (past.takeWhile (·.role ≠ .user)).findIdx? (·.role = .system) with
  | none => rfl
  | some i =>
    obtain ⟨inside, -⟩ := List.findIdx?_eq_some_iff_getElem.1 found
    rw [Option.bind_some, Option.bind_some, List.getElem?_eq_getElem inside]
    exact List.prefix_iff_getElem?.1 (List.takeWhile_prefix _) i inside

theorem tokensAt_leadingSystem (count : Counter) (past : List ChatMessage) :
    tokensAt count past (leadingSystem past) = totalTokens count (system? past).toList := by
  rw [← totalTokens_index, find?_leadingSystem]

/-- The index of the user's first message, if there is room for it. -/
def userIndex (count : Counter) (room : Nat) (past : List ChatMessage) : Option Nat :=
  (firstUser past).filter fun i => tokensAt count past (some i) ≤ room

theorem firstUser_of_userIndex {u : Nat} (kept : u ∈ userIndex count room past) :
    firstUser past = some u :=
  (Option.filter_eq_some_iff.1 kept).1

theorem find?_userIndex (count : Counter) (room : Nat) (past : List ChatMessage) :
    (userIndex count room past).bind (past[·]?) = user? count room past := by
  unfold userIndex user? firstUser
  rw [List.find?_eq_bind_findIdx?_getElem?]
  cases found : past.findIdx? (·.role = .user) with
  | none => rfl
  | some i =>
    obtain ⟨inside, -⟩ := List.findIdx?_eq_some_iff_getElem.1 found
    have cost : tokensAt count past (some i) = messageTokens count past[i] := by
      simp [tokensAt, inside]
    by_cases fits : messageTokens count past[i] ≤ room <;> simp [Option.filter, cost, fits, inside]

theorem drop_findIdx? {role : ChatRole} {messages : List ChatMessage} {i : Nat}
    (found : messages.findIdx? (·.role = role) = some i) :
    messages.drop (i + 1) = behind role messages := by
  induction messages generalizing i with
  | nil => cases found
  | cons m rest ih =>
    rw [List.findIdx?_cons] at found
    split at found
    · next same =>
      cases found
      simp only [behind, List.dropWhile_cons, ne_eq, decide_not, same]
      simp
    · next other =>
      obtain ⟨j, there, rfl⟩ := Option.map_eq_some_iff.1 found
      rw [List.drop_succ_cons, ih there]
      simp only [behind, List.dropWhile_cons, ne_eq, decide_not, other]
      simp

/-- What stands behind the last message that is kept at the start. -/
theorem drop_head (count : Counter) (room : Nat) (past : List ChatMessage) :
    past.drop (((userIndex count room past <|> leadingSystem past).map (· + 1)).getD 0) =
      remainder past (user? count room past) := by
  unfold remainder
  rw [← find?_userIndex, ← find?_leadingSystem]
  cases user : userIndex count room past with
  | some i =>
    have first := firstUser_of_userIndex user
    obtain ⟨inside, -⟩ := List.findIdx?_eq_some_iff_getElem.1 first
    rw [Option.bind_some, List.getElem?_eq_getElem inside]
    exact drop_findIdx? first
  | none =>
    cases system : leadingSystem past with
    | some i =>
      have first := (List.takeWhile_prefix _).findIdx?_eq_some system
      obtain ⟨inside, -⟩ := List.findIdx?_eq_some_iff_getElem.1 first
      rw [Option.bind_some, List.getElem?_eq_getElem inside]
      exact drop_findIdx? first
    | none => rfl

/-- The messages that are kept at the start. -/
theorem filterMap_head (count : Counter) (room : Nat) (past : List ChatMessage) :
    ((leadingSystem past).toList ++ (userIndex count room past).toList).filterMap
        (past[·]?) =
      (system? past).toList ++ (user? count room past).toList := by
  rw [List.filterMap_append, filterMap_index, filterMap_index, find?_leadingSystem,
    find?_userIndex]

/-- What is kept of a history is a part of it. -/
theorem kept_sublist {recent : List ChatMessage}
    (ends : recent <:+ remainder past (user? count room past)) :
    (system? past).toList ++ (user? count room past).toList ++ recent <+ past := by
  have first : ∀ u ∈ userIndex count room past, firstUser past = some u :=
    fun _ kept => firstUser_of_userIndex kept
  have start := head_sublist first
  rw [filterMap_head] at start
  rw [← drop_head] at ends
  have parts := start.append ends.sublist
  rwa [List.take_append_drop] at parts

end head

section suffix

theorem fittingSuffix_go_length {reversed kept other : List ChatMessage}
    (front : other <+: reversed) (fits : totalTokens count other ≤ room) :
    other.length + kept.length ≤ (fittingSuffix.go count room reversed kept).length := by
  induction reversed generalizing other kept room with
  | nil =>
    rw [List.prefix_nil.1 front]
    exact Nat.le_of_eq (Nat.zero_add _)
  | cons m rest ih =>
    unfold fittingSuffix.go
    cases other with
    | nil =>
      split
      · exact Nat.le_of_eq (Nat.zero_add _)
      · have longer := @ih (room - messageTokens count m) (m :: kept) [] List.nil_prefix
          (Nat.zero_le _)
        simp only [List.length_nil, List.length_cons] at longer ⊢
        omega
    | cons first more =>
      obtain ⟨rfl, inner⟩ := List.cons_prefix_cons.1 front
      rw [totalTokens_cons] at fits
      rw [if_neg (by omega)]
      have longer := @ih (room - messageTokens count first) (first :: kept) more inner (by omega)
      simp only [List.length_cons] at longer ⊢
      omega

/-- No longer end of a chat fits. -/
theorem suffix_fittingSuffix {messages other : List ChatMessage} (ends : other <:+ messages)
    (fits : totalTokens count other ≤ room) : other <:+ fittingSuffix count room messages := by
  apply List.suffix_of_suffix_length_le ends (fittingSuffix_spec count room messages).1
  rw [← totalTokens_reverse] at fits
  have longer := @fittingSuffix_go_length count room messages.reverse [] other.reverse
    (List.reverse_prefix.2 ends) fits
  rwa [List.length_reverse] at longer

/-- An end of a chat that starts with a message of the user is kept when the chat is trimmed. -/
theorem suffix_trimmed {messages other : List ChatMessage} (ends : other <:+ messages)
    (opens : Opens .user other) : other <:+ messages.dropWhile (·.role ≠ .user) := by
  induction messages with
  | nil => exact ends
  | cons m rest ih =>
    rw [List.dropWhile_cons]
    split
    · next skipped =>
      rcases List.suffix_cons_iff.1 ends with rfl | later
      · have role := opens_cons.1 opens
        simp [role] at skipped
      · exact ih later
    · exact ends

/-- What fits of a chat, from the first message of the user on, is the longest of its kind. -/
theorem recent_trimmed (count : Counter) (room : Nat) (messages : List ChatMessage) :
    Recent count room messages
      ((fittingSuffix count room messages).dropWhile (·.role ≠ .user)) := by
  obtain ⟨ends, fits⟩ := fittingSuffix_spec count room messages
  have trimmed : (fittingSuffix count room messages).dropWhile (·.role ≠ .user) <:+
      fittingSuffix count room messages :=
    List.dropWhile_suffix _
  refine ⟨trimmed.trans ends, ?_, (totalTokens_le_of_suffix count trimmed).trans fits, ?_⟩
  · cases first : (fittingSuffix count room messages).dropWhile (·.role ≠ .user) with
    | nil => exact .inl rfl
    | cons m rest => exact .inr ⟨m, rfl, role_of_trimmed (by rw [first]; rfl)⟩
  · intro other last opens small
    exact suffix_trimmed (suffix_fittingSuffix last small) opens

end suffix

/-- The notice is there: with all of the history the chat would have fitted. -/
theorem shorter_of_large {head tail : List ChatMessage}
    (large : window < totalTokens count (past ++ pinned)) (part : head ++ tail <+ past)
    (fits : totalTokens count head + messageTokens count noticeMessage + totalTokens count tail +
      totalTokens count pinned ≤ window) : head.length + tail.length < past.length := by
  by_contra long
  have whole := (keeps_all_iff pinned part).2 long
  rw [← whole] at large
  simp only [totalTokens_append] at large
  omega

/-- What is kept of the user's first message fits. -/
theorem user?_fits (count : Counter) (room : Nat) (past : List ChatMessage) :
    totalTokens count (user? count room past).toList ≤ room := by
  cases kept : user? count room past with
  | none => exact Nat.zero_le room
  | some m => exact of_decide_eq_true (Option.filter_eq_some_iff.1 kept).2

theorem truncate_selects (large : window < totalTokens count (past ++ pinned)) :
    Selects count window past pinned (truncate count window past pinned) := by
  have cost : tokensAt count past (leadingSystem past) + totalTokens count pinned +
      messageTokens count noticeMessage = needed count past pinned := by
    rw [tokensAt_leadingSystem]
    rfl
  unfold truncate
  dsimp only
  rw [cost]
  split
  · next overflows => exact .overflow overflows
  · next small =>
    obtain ⟨room, whole⟩ := Nat.exists_eq_add_of_le (Nat.le_of_not_lt small)
    have left : window - needed count past pinned = room := by omega
    have index : (firstUser past).filter (fun i => tokensAt count past (some i) ≤ room) =
        userIndex count room past := rfl
    rw [left, index]
    have cost := totalTokens_index count past (userIndex count room past)
    rw [filterMap_head, drop_head, ← cost, find?_userIndex]
    have recent := recent_trimmed count (room - totalTokens count (user? count room past).toList)
      (remainder past (user? count room past))
    generalize (fittingSuffix count _ _).dropWhile _ = tail at recent ⊢
    have user := user?_fits count room past
    have shorter := shorter_of_large large (kept_sublist recent.suffix) (by
      have fits := recent.fits
      unfold needed at whole
      rw [totalTokens_append]
      omega)
    rw [if_pos shorter, List.append_assoc _ [noticeMessage], List.singleton_append]
    exact .kept whole rfl recent

/-- A chat that is too large is refused exactly if what has to be kept is too large by itself. Else
this is kept, and beside it the user's first message if it fits and the longest end of the history
that fits and starts with a message of the user. -/
theorem build_selects {instructions : Option String} {ancestry : List Response}
    {input : List InputItem}
    (large : window < totalTokens count (untruncated instructions ancestry input)) :
    ∃ earlier past pinned,
      untruncated instructions ancestry input = earlier ++ newTurn instructions ancestry input ∧
      Pins earlier (newTurn instructions ancestry input) past pinned ∧
      Selects count window past pinned
        (build count window .auto instructions ancestry input) := by
  have start := newTurn_eq instructions ancestry input
  have parts := pin_pins (untruncated instructions ancestry input)
    (inputStart (history instructions ancestry) input)
  obtain ⟨whole, -⟩ := pin_spec (untruncated instructions ancestry input)
    (inputStart (history instructions ancestry) input)
  rw [← start] at parts
  refine ⟨_, _, _, ?_, parts, ?_⟩
  · rw [start, List.take_append_drop]
  · unfold build
    dsimp only
    rw [if_neg (Nat.not_le_of_lt large)]
    apply truncate_selects
    rwa [whole]

/-- The result of the call that ends a conversation in which nearly all was asked twice. -/
def rainInput : List InputItem := [.functionCallOutput "6" "call_1" "it does"]

/-- What is left of it when every text counts as one token. -/
def rainChat : List ChatMessage :=
  [.ofText .system "be brief", .ofText .user "is it cold", noticeMessage,
    .ofText .user "does it rain", .ofCall ⟨"call_1", "look", "out"⟩,
    { role := .tool, content := [.text "it does"], callId := some "call_1" }]

/-- The last question is kept, but not what stands before it: that starts with no question. -/
theorem rain_selected :
    40 < totalTokens (fun _ => 1) (untruncated (some "be brief") [weather, weather] rainInput) ∧
      build (fun _ => 1) 40 .auto (some "be brief") [weather, weather] rainInput = .ok rainChat ∧
      ∃ earlier past pinned,
        untruncated (some "be brief") [weather, weather] rainInput =
          earlier ++ newTurn (some "be brief") [weather, weather] rainInput ∧
        Pins earlier (newTurn (some "be brief") [weather, weather] rainInput) past pinned ∧
        Selects (fun _ => 1) 40 past pinned (.ok rainChat) := by
  have large : 40 <
      totalTokens (fun _ => 1) (untruncated (some "be brief") [weather, weather] rainInput) := by
    decide
  have built : build (fun _ => 1) 40 .auto (some "be brief") [weather, weather] rainInput =
      .ok rainChat := rfl
  have selects := build_selects large
  rw [built] at selects
  exact ⟨large, built, selects⟩

end Responder.Context
