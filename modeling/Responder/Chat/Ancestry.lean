import Responder.Store

/-!
# Ancestry

A response may name the one it continues. Its ancestors are found by following these
links in the store; a chain ends at a response that names none, or one that is no
longer stored.

The chat of a turn is made of its instructions, the items of its ancestors and its own
input, in this order. Calls that follow each other become one message.
-/

namespace Responder

namespace Ancestry

/-- Extends a chain, oldest first, by the response of an id and its ancestors, in at
most so many steps; the ids on the way are those of the chain. -/
def walk (store : Store) : Nat → List Response → String → Except Failure (List Response)
  | steps, chain, id =>
    if chain.any (·.id = id) then
      .error (.invalid "previous_response_id"
        ("conversation chain contains a cycle at '" ++ id ++ "'"))
    else
      match store.find? id, steps with
      | none, _ => if chain = [] then .error (.previousNotFound id) else .ok chain
      | some _, 0 => .ok chain
      | some response, steps + 1 =>
        match response.previous with
        | none => .ok (response :: chain)
        | some previous => walk store steps (response :: chain) previous

/-- The response of an id and its ancestors, the oldest first. No chain is longer than
the store, so the steps never run out. -/
def resolve (store : Store) (id : String) : Except Failure (List Response) :=
  walk store store.size [] id

end Ancestry

namespace Context

def foldsInto (m last : ChatMessage) : Bool :=
  m.isCall && last.isCall && m.content.isEmpty

/-- Appends a message, or folds its calls into the last one. -/
def append (messages : List ChatMessage) (m : ChatMessage) : List ChatMessage :=
  match messages.getLast? with
  | some last =>
    if foldsInto m last then
      messages.dropLast ++ [{ last with calls := last.calls ++ m.calls }]
    else messages ++ [m]
  | none => [m]

def appendAll (messages more : List ChatMessage) : List ChatMessage := more.foldl append messages

def instructionMessages (instructions : Option String) : List ChatMessage :=
  match instructions with
  | some text => if text = "" then [] else [.ofText .system text]
  | none => []

def ancestorMessages (r : Response) : List ChatMessage :=
  r.input.map ChatMessage.ofInputItem ++ r.output.map ChatMessage.ofOutputItem

def history (instructions : Option String) (ancestry : List Response) : List ChatMessage :=
  appendAll (instructionMessages instructions) (ancestry.flatMap ancestorMessages)

def untruncated (instructions : Option String) (ancestry : List Response)
    (input : List InputItem) : List ChatMessage :=
  appendAll (history instructions ancestry) (input.map ChatMessage.ofInputItem)

/-- The index of the message that holds the first input item. -/
def inputStart (before : List ChatMessage) (input : List InputItem) : Nat :=
  match before.getLast?, input.head? with
  | some last, some item =>
    if foldsInto (.ofInputItem item) last then before.length - 1 else before.length
  | _, _ => before.length

end Context

end Responder
