import Responder.Proofs.Turn.Contract
import Responder.Proofs.Turn.Wholeness

/-!
# Replayed transcripts

A client may continue a response by its id, or send again all that was said as the items of a
new input. Main statement: for completed responses both make the same chat, and no item that is
sent again is refused.
-/

namespace Responder

/-- The items of a turn as they are shown. -/
def Response.shown (r : Response) : List Json :=
  r.input.map InputItem.toJson ++ r.output.map OutputItem.toJson

/-- The items of a turn as the items of an input. -/
def Response.items (r : Response) : List InputItem :=
  r.input ++ r.output.map OutputItem.asInput

theorem Response.reads_shown {r : Response} (input : ∀ item ∈ r.input, item.Normal)
    (output : ∀ item ∈ r.output, item.Whole) : List.Forall₂ InputItem.Reads r.shown r.items := by
  unfold shown items
  apply List.rel_append
  · rw [List.forall₂_map_left_iff, List.forall₂_same]
    exact fun item mem => InputItem.reads_toJson (input item mem)
  · rw [List.forall₂_map_left_iff, List.forall₂_map_right_iff, List.forall₂_same]
    exact fun item mem => OutputItem.reads_toJson (output item mem)

theorem reads_flatMap {chain : List Response}
    (reads : ∀ r ∈ chain, List.Forall₂ InputItem.Reads r.shown r.items) :
    List.Forall₂ InputItem.Reads (chain.flatMap Response.shown) (chain.flatMap Response.items) := by
  induction chain with
  | nil => exact .nil
  | cons r rest ih =>
    obtain ⟨first, others⟩ := List.forall_mem_cons.1 reads
    exact List.rel_append first (ih others)

namespace Context

theorem ancestorMessages_eq (r : Response) :
    ancestorMessages r = r.items.map ChatMessage.ofInputItem := by
  have said : ChatMessage.ofInputItem ∘ OutputItem.asInput = ChatMessage.ofOutputItem :=
    funext OutputItem.ofInputItem_asInput
  unfold ancestorMessages Response.items
  rw [List.map_append, List.map_map, said]

theorem untruncated_replay (instructions : Option String) (chain : List Response)
    (input : List InputItem) : untruncated instructions chain input =
      untruncated instructions [] (chain.flatMap Response.items ++ input) := by
  have messages : chain.flatMap ancestorMessages =
      (chain.flatMap Response.items).map ChatMessage.ofInputItem := by
    rw [List.map_flatMap]
    congr
    funext r
    exact ancestorMessages_eq r
  unfold untruncated history appendAll
  rw [messages, List.map_append, List.foldl_append]
  rfl

theorem build_replay (count : Counter) (window : Nat) (instructions : Option String)
    (chain : List Response) (input : List InputItem) :
    build count window .disabled instructions chain input =
      build count window .disabled instructions [] (chain.flatMap Response.items ++ input) := by
  unfold build
  rw [untruncated_replay]

end Context

namespace Server

variable {start s : Server} {log chain : List Response}

/-- Responses that a server has stored and that were completed make the same chat, or overflow in
the same way, as their items if these are sent again; and all of these are read. -/
theorem replay_chat (new : start.New) (run : Run start log s) (stored : chain ⊆ log)
    (completed : ∀ r ∈ chain, r.status = .completed) (lane : Lane) (index : Nat) :
    ∃ items, InputItem.listOfJson lane index (chain.flatMap Response.shown) = .ok items ∧
      ∀ count window instructions input,
        Context.build count window .disabled instructions chain input =
          Context.build count window .disabled instructions [] (items ++ input) := by
  have reads : ∀ r ∈ chain, List.Forall₂ InputItem.Reads r.shown r.items := by
    intro r mem
    obtain ⟨input, whole⟩ := run.readable new (stored mem)
    exact r.reads_shown input (whole (completed r mem))
  refine ⟨_, InputItem.listOfJson_eq_ok (reads_flatMap reads) lane index, ?_⟩
  intro count window instructions input
  exact Context.build_replay count window instructions chain input

/-- A server whose backend looks at a hill and then tells what it has seen. -/
def lookout : Server where
  limits := {}
  count := Context.estimate
  backend := .script { answers := [
    ⟨.now (.ok ⟨some "let me look", [⟨"call_1", "look", "\x7b\"place\":\"hill\"\x7d"⟩],
      .toolCalls, none⟩), .forever⟩,
    ⟨.now (.ok ⟨some "there are sheep", [], .stop, none⟩), .forever⟩] }

/-- Tells what was seen, and continues the first response. -/
def lookAnswer : Request :=
  { Turn.lookRequest with
    previous := some (lookout.lane.id .response .response)
    input := .array [.ofMembers [("type", .string "function_call_output"),
      ("call_id", .string "call_1"), ("output", .string "sheep")]] }

/-- After the look and its answer. -/
def looked : Server :=
  ((lookout.create Turn.lookRequest false).1.create lookAnswer false).1

/-- Two responses, the first of which ends with a call that the second one begins with the result
of, make the same chat if they are replayed. -/
theorem look_replayed : lookout.New ∧ ∃ log, Run lookout log looked ∧ ∃ chain,
    Ancestry.resolve looked.store (lookout.lane.next.id .response .response) = .ok chain ∧
      chain.map Response.status = [.completed, .completed] ∧
      ∃ items, InputItem.listOfJson {} 0 (chain.flatMap Response.shown) = .ok items ∧
        Context.build Context.estimate 100 .disabled none chain [] =
          Context.build Context.estimate 100 .disabled none [] (items ++ []) := by
  have new : lookout.New := ⟨rfl, rfl⟩
  have fresh : lookout.FreshId := fun t mem => absurd mem List.not_mem_nil
  have fresh' : (lookout.create Turn.lookRequest false).1.FreshId := by
    unfold FreshId
    decide +kernel
  obtain ⟨log, run⟩ := (create_goes fresh Turn.lookRequest false).trans (create_goes fresh' _ false)
  have resolved : Ancestry.resolve looked.store (lookout.lane.next.id .response .response) =
      .ok looked.store.entries := by
    decide +kernel
  have completed : looked.store.entries.map Response.status = [.completed, .completed] := by
    decide +kernel
  have all : ∀ r ∈ looked.store.entries, r.status = .completed := by decide +kernel
  have stored : looked.store.entries ⊆ log := (run.sound new).recent.subset
  obtain ⟨items, read, same⟩ := replay_chat new run stored all {} 0
  exact ⟨new, log, run, _, resolved, completed, items, read, same _ _ _ _⟩

end Server

end Responder
