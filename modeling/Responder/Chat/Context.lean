import Responder.Chat.Ancestry

/-!
# The context of a turn

The chat of a turn is kept within the context window: if it is larger, older messages may be
dropped, but no message of the new input.
-/

namespace Responder.Context

abbrev Counter := String → Nat

/-- An estimate where tokens cannot be counted: four characters make a token, and a text
that is not empty has at least one. -/
def estimate : Counter := fun text => if text = "" then 0 else max 1 ((text.length + 3) / 4)

/-- The notice in place of dropped messages. -/
def notice : String := "[Previous messages truncated due to context limits]"

def noticeMessage : ChatMessage := .ofText .assistant notice

/-- What a message costs in addition to its texts. -/
def overhead : Nat := 4

def callTokens (count : Counter) (call : ToolCall) : Nat := count call.name + count call.arguments

def messageTokens (count : Counter) (m : ChatMessage) : Nat :=
  count m.text + m.calls.foldr (fun call n => callTokens count call + n) overhead

def totalTokens (count : Counter) (messages : List ChatMessage) : Nat :=
  messages.foldr (fun m n => messageTokens count m + n) 0

/-- Splits off the messages at the end that tell of tool results. -/
def resultsAtEnd (messages : List ChatMessage) : List ChatMessage × List ChatMessage :=
  let results := (messages.reverse.takeWhile (·.role = .tool)).reverse
  (messages.take (messages.length - results.length), results)

/-- Cuts a chat into what may be dropped and what is kept. Results of tools stay with
the message that called them. -/
def pin (messages : List ChatMessage) (start : Nat) : List ChatMessage × List ChatMessage :=
  let earlier := messages.take start
  let turn := messages.drop start
  if (turn.head?.map (·.role)) = some .tool then
    let (rest, results) := resultsAtEnd earlier
    match rest.getLast? with
    | some caller =>
      if caller.isCall then (rest.dropLast, caller :: (results ++ turn)) else (earlier, turn)
    | none => (earlier, turn)
  else (earlier, turn)

/-- The first system message before the first message of the user, and its index. -/
def leadingSystem (messages : List ChatMessage) : Option Nat :=
  (messages.takeWhile (·.role ≠ .user)).findIdx? (·.role = .system)

def firstUser (messages : List ChatMessage) : Option Nat := messages.findIdx? (·.role = .user)

def tokensAt (count : Counter) (messages : List ChatMessage) (index : Option Nat) : Nat :=
  ((index.bind (messages[·]?)).map (messageTokens count)).getD 0

/-- The longest part at the end of a chat that fits. -/
def fittingSuffix (count : Counter) (room : Nat) (messages : List ChatMessage) :
    List ChatMessage :=
  go room messages.reverse []
where
  go (room : Nat) : List ChatMessage → List ChatMessage → List ChatMessage
    | [], kept => kept
    | m :: rest, kept =>
      if room < messageTokens count m then kept
      else go (room - messageTokens count m) rest (m :: kept)

def overflow (total window : Nat) : Failure :=
  .invalid "input" ("conversation is " ++ total.repr ++
    " tokens which exceeds the context window of " ++ window.repr ++
    " tokens; set truncation to \"auto\" to drop older turns")

def inputOverflow (tokens window : Nat) : Failure :=
  .invalid "input" ("input is " ++ tokens.repr ++
    " tokens which does not fit the context window of " ++ window.repr ++
    " tokens even after dropping earlier turns")

/-- Keeps the leading system message, the first message of the user if it fits, as much
of the recent history as fits, and the pinned messages. -/
def truncate (count : Counter) (window : Nat) (history pinned : List ChatMessage) :
    Except Failure (List ChatMessage) :=
  let system := leadingSystem history
  let pinnedTokens := totalTokens count pinned
  let needed := tokensAt count history system + pinnedTokens + messageTokens count noticeMessage
  if window < needed then .error (inputOverflow pinnedTokens window)
  else
    let room := window - needed
    let user := (firstUser history).filter fun i => tokensAt count history (some i) ≤ room
    let room := room - tokensAt count history user
    let headEnd := ((user <|> system).map (· + 1)).getD 0
    let tail := (fittingSuffix count room (history.drop headEnd)).dropWhile (·.role ≠ .user)
    let head := (system.toList ++ user.toList).filterMap (history[·]?)
    let dropped := head.length + tail.length < history.length
    .ok (head ++ (if dropped then [noticeMessage] else []) ++ tail ++ pinned)

/-- The chat of a turn, within the context window. -/
def build (count : Counter) (window : Nat) (truncation : Truncation)
    (instructions : Option String) (ancestry : List Response) (input : List InputItem) :
    Except Failure (List ChatMessage) :=
  let messages := untruncated instructions ancestry input
  let total := totalTokens count messages
  if total ≤ window then .ok messages
  else match truncation with
    | .disabled => .error (overflow total window)
    | .auto =>
      let start := inputStart (history instructions ancestry) input
      let (earlier, pinned) := pin messages start
      truncate count window earlier pinned

end Responder.Context
