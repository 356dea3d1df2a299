import Responder.Proofs.Http.Walk
import Responder.Proofs.Store.Growth

/-!
# Listings of stored responses

A client gets the stored responses page by page while more are stored. Main statement: without a
bound on the store the pages show each response once, all that were stored before the first
request if the newest come first and else all that were stored before the last.
-/

namespace Responder.Http

/-- The query of a request for a listing of the responses. -/
def Demand.lists? (d : Demand) : Option ListQuery :=
  match Url.ofText .unicode d.target with
  | .ok target =>
    if d.method = .get ∧ Route.ofPath? target.path = some .responses then
      ListQuery.ofQuery? target.query
    else none
  | .error _ => none

theorem exchange_lists {d : Demand} {q : ListQuery} (h : d.lists? = some q) (s : Server) :
    exchange s d = (s, listResponses s q) := by
  unfold Demand.lists? at h
  split at h
  · next target read =>
    split at h
    · next asks =>
      obtain ⟨get, path⟩ := asks
      have allowed : Route.responses.allows .get = true := rfl
      simp only [exchange, read, get, path, allowed, Bool.not_true, Bool.false_eq_true, if_false,
        follow, withQuery, h, Option.map_some, Option.getD_some, reduceCtorEq]
    · cases h
  · cases h

variable {limit : Int} {order : Order}

theorem pageRequest_eq (pos : 1 ≤ limit) (order : Order) (cursor : Option String) :
    pageRequest { limit := some limit, order := some order.text, after := cursor } =
      .ok ⟨min limit.toNat Page.maxLimit, order, cursor⟩ := by
  have size : Page.limitOfRequest (some limit) = .ok (min limit.toNat Page.maxLimit) :=
    if_neg (by omega)
  have named : Order.ofRequest (some order.text) = .ok order := by cases order <;> rfl
  simp only [pageRequest, PageRequest.ofRequest, size, named]
  rfl

theorem listResponses_eq {s : Server} (opened : s.store.closed = false) (pos : 1 ≤ limit)
    (order : Order) (cursor : Option String) :
    listResponses s { limit := some limit, order := some order.text, after := cursor } =
      .ofResult (Page.toJson Response.id Response.toJson)
        ((Page.after Response.id (order.arrange s.store.entries) cursor).map
          (Page.take · (min limit.toNat Page.maxLimit : Nat))) := by
  have listed : s.store.list = .ok s.store.entries := by
    unfold Store.list
    rw [opened]
    rfl
  simp only [listResponses, pageRequest_eq pos, listed, PageRequest.page]
  cases Page.after Response.id (order.arrange s.store.entries) cursor <;> rfl

theorem map_arrange {α β : Type} (f : α → β) (entries : List α) (order : Order) :
    (order.arrange entries).map f = order.arrange (entries.map f) := by
  cases order with
  | ascending => rfl
  | descending => exact List.map_reverse

theorem nodup_arrange {α : Type} {entries : List α} (once : entries.Nodup) (order : Order) :
    (order.arrange entries).Nodup := by
  cases order with
  | ascending => exact once
  | descending => exact List.nodup_reverse.2 once

theorem grows_arrange {α : Type} (older more : List α) (order : Order) :
    Grows (order.arrange older) (order.arrange (older ++ more)) order := by
  cases order with
  | ascending => exact ⟨more, rfl⟩
  | descending => exact ⟨more.reverse, List.reverse_append⟩

/-- While any responses are put into a store without bound, a walk through it shows each
response once: all that there were at its beginning, the newest first, or all that there are at
its end, the oldest first. Every page comes and is no longer than it may be, only the last has
nothing behind it, and there is a last one if no more is stored. -/
theorem walk_complete {servers : Nat → Server} {demand : Nat → Option String → Demand}
    (unbounded : (servers 0).store.capacity = none) (opened : (servers 0).store.closed = false)
    (grows : ∀ n, ∃ responses, (servers (n + 1)).store = (servers n).store.offer responses)
    (pos : 1 ≤ limit)
    (lists : ∀ n cursor, (∀ last ∈ cursor, last ∈ (servers n).store.entries.map Response.id) →
      (demand n cursor).lists? =
        some { limit := some limit, order := some order.text, after := cursor }) :
    Complete Response.id Response.toJson (min limit.toNat Page.maxLimit) order
      (fun n => order.arrange (servers n).store.entries)
      (fun n cursor => (exchange (servers n) (demand n cursor)).2) := by
  have still (n : Nat) :
      (servers n).store.capacity = none ∧ (servers n).store.closed = false := by
    induction n with
    | zero => exact ⟨unbounded, opened⟩
    | succ n ih =>
      obtain ⟨responses, grown⟩ := grows n
      obtain ⟨capacity, closed⟩ := (servers n).store.offer_frame responses
      rw [grown]
      exact ⟨capacity.trans ih.1, closed.trans ih.2⟩
  apply Listing.complete
  refine ⟨?_, Nat.min_le_right .., ?_, ?_, ?_⟩
  · have most : 0 < Page.maxLimit := by decide
    omega
  · intro n
    rw [map_arrange]
    exact nodup_arrange (servers n).store.nodup_entries order
  · intro n
    obtain ⟨responses, grown⟩ := grows n
    obtain ⟨taken, -, entries⟩ := Store.entries_offer (still n).1 responses
    rw [grown, entries]
    exact grows_arrange ..
  · intro n cursor known
    have within : ∀ last ∈ cursor, last ∈ (servers n).store.entries.map Response.id := by
      intro last mem
      obtain ⟨r, there, same⟩ := List.mem_map.1 (known last mem)
      refine List.mem_map.2 ⟨r, ?_, same⟩
      cases order with
      | ascending => exact there
      | descending => exact List.mem_reverse.1 there
    rw [exchange_lists (lists n cursor within)]
    exact listResponses_eq (still n).2 pos order cursor

section
open Admission (greeting)

/-- A server that was greeted so many times. -/
def greeted : Nat → Server
  | 0 => { limits := {}, count := Context.estimate, backend := .mock {} }
  | n + 1 => ((greeted n).create greeting false).1

/-- Asks for a page of two, the oldest first. -/
def demandTwo (cursor : Option String) : Demand where
  method := .get
  target := "/v1/responses?limit=2&order=asc" ++ (cursor.map ("&after=" ++ ·)).getD ""

/-- Of three responses two are shown, and then the third with one that was stored meanwhile. -/
theorem greetings_listed :
    let servers := fun n => greeted (if n = 0 then 3 else 4)
    let fetch := fun n cursor => (exchange (servers n) (demandTwo cursor)).2
    Complete Response.id Response.toJson 2 .ascending (fun n => (servers n).store.entries) fetch ∧
      (shown fetch 0).length = 2 ∧ walk fetch 1 ≠ none ∧ walk fetch 2 = none ∧
      shown fetch 1 = (greeted 4).store.entries.map Response.toJson := by
  intro servers fetch
  have grows (n : Nat) :
      ∃ responses, (servers (n + 1)).store = (servers n).store.offer responses := by
    cases n with
    | zero =>
      have fresh : (greeted 3).FreshId := by
        unfold Server.FreshId
        decide +kernel
      obtain ⟨log, run⟩ : Server.Goes (greeted 3) (greeted 4) :=
        Server.create_goes fresh greeting false
      have grown : (greeted 4).store = (greeted 3).store.offer log :=
        run.offers (by decide +kernel)
      exact ⟨log, grown⟩
    | succ n => exact ⟨[], rfl⟩
  have complete : Complete Response.id Response.toJson 2 .ascending
      (fun n => (servers n).store.entries) fetch := by
    refine @walk_complete 2 .ascending servers (fun _ => demandTwo) (by decide +kernel)
      (by decide +kernel) grows (by decide) ?_
    intro n cursor known
    have reads : ∀ last ∈ (greeted 4).store.entries.map Response.id,
        (demandTwo (some last)).lists? =
          some { limit := some 2, order := some "asc", after := some last } := by
      decide +kernel
    have older : (greeted 3).store.entries.map Response.id ⊆
        (greeted 4).store.entries.map Response.id := by
      decide +kernel
    cases cursor with
    | none => decide +kernel
    | some last =>
      have there := known last rfl
      cases n with
      | zero => exact reads last (older there)
      | succ n => exact reads last there
  have made : walk fetch 1 ≠ none ∧ walk fetch 2 = none := by decide +kernel
  exact ⟨complete, by decide +kernel, made.1, made.2, complete.whole 1 made.1 made.2⟩

end

end Responder.Http
