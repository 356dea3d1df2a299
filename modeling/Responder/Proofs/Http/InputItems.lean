import Responder.Proofs.Http.Cursor
import Responder.Proofs.Http.Listing
import Responder.Proofs.Item.Ids
import Responder.Proofs.Server.Turns

/-!
# Listings of input items

A client gets the input of a stored response page by page, in the order it asks for. Items keep
the ids that are written with them, and nothing asks these to differ. Main statement: a walk
through the input shows all of it once and in order exactly if every page but the last closes with
the first item of its id. So it does if the ids that are written are apart.
-/

namespace Responder

namespace Server

variable {s next later : Server} {r : Request} {streamed : Bool} {id : String} {x : Response}

/-- What is stored for a request has the input that was read from it. -/
theorem input_of_get (reached : s.Reached) (fresh : s.FreshId)
    (started : s.start r streamed = .ok (next, id)) (goes : next.Goes later)
    (kept : later.get id = .ok x) : ∃ items, r.input = .array items ∧
      InputItem.listOfJson s.lane 0 items = .ok x.input := by
  have reached' : next.Reached := reached.move (.accept fresh started)
  obtain ⟨admitted, accepted, started⟩ := bind_eq_ok.1 started
  cases started
  obtain ⟨items, given, read⟩ := Admission.accept_read accepted
  obtain ⟨log, run⟩ := goes
  have mem := List.mem_append_right s.turns <| List.mem_singleton_self <|
    admitted.turn ⟨s.limits, s.store, s.count, s.lane, s.now⟩ s.signals.count streamed
  have asked := run.asked_of_get reached' (turn?_of_mem reached'.ids mem) kept
  have same := congrArg Response.input asked
  have input : x.input = admitted.response.input := same
  exact ⟨items, given, input ▸ read⟩

end Server

namespace Http

/-- The response whose input a request asks for, and the query. -/
def Demand.listsInput? (d : Demand) : Option (String × ListQuery) :=
  match Url.ofText .unicode d.target with
  | .ok target =>
    match d.method, Route.ofPath? target.path with
    | .get, some (.inputItems part) => do
      let id ← Text.ofPathPart? part
      return (id, ← ListQuery.ofQuery? target.query)
    | _, _ => none
  | .error _ => none

theorem exchange_listsInput {d : Demand} {id : String} {q : ListQuery}
    (h : d.listsInput? = some (id, q)) (s : Server) :
    exchange s d = (s, listInputItems s id q) := by
  unfold Demand.listsInput? at h
  split at h
  · next target read =>
    split at h
    · next part get path =>
      obtain ⟨own, decoded, h⟩ := Option.bind_eq_some_iff.1 h
      obtain ⟨query, parsed, h⟩ := Option.bind_eq_some_iff.1 h
      cases h
      have allowed : (Route.inputItems part).allows .get = true := rfl
      simp only [exchange, read, get, path, allowed, Bool.not_true, Bool.false_eq_true, if_false,
        follow, withId, withQuery, decoded, parsed, Option.map_some, Option.getD_some, reduceCtorEq]
    · cases h
  · cases h

variable {s next : Server} {r : Request} {streamed : Bool} {id : String} {items : List Json}
  {input : List InputItem} {servers : Nat → Server} {demand : Nat → Option String → Demand}
  {limit : Int} {order : Order}

theorem listInputItems_eq {x : Response} (kept : s.get id = .ok x) (pos : 1 ≤ limit)
    (order : Order) (cursor : Option String) :
    listInputItems s id { limit := some limit, order := some order.text, after := cursor } =
      .ofResult (Page.toJson InputItem.id InputItem.toJson)
        ((Page.after InputItem.id (order.arrange x.input) cursor).map
          (Page.take · (min limit.toNat Page.maxLimit : Nat))) := by
  simp only [listInputItems, pageRequest_eq pos, kept, PageRequest.page, bind, Except.bind]
  cases Page.after InputItem.id (order.arrange x.input) cursor <;> rfl

/-- As long as a response is stored its input stands. -/
theorem input_stands (reached : s.Reached) (fresh : s.FreshId)
    (started : s.start r streamed = .ok (next, id)) (given : r.input = .array items)
    (read : InputItem.listOfJson s.lane 0 items = .ok input) (goes : ∀ n, next.Goes (servers n))
    (kept : ∀ n, ((servers n).get id).isOk) (pos : 1 ≤ limit)
    (lists : ∀ n cursor, (∀ last ∈ cursor, last ∈ input.map InputItem.id) →
      (demand n cursor).listsInput? =
        some (id, { limit := some limit, order := some order.text, after := cursor })) :
    Standing InputItem.id InputItem.toJson (min limit.toNat Page.maxLimit) (order.arrange input)
      fun n cursor => (exchange (servers n) (demand n cursor)).2 := by
  refine ⟨?_, Nat.min_le_right .., ?_⟩
  · have most : 0 < Page.maxLimit := by decide
    omega
  · intro n cursor known
    obtain ⟨x, stored⟩ := exists_ok (kept n)
    obtain ⟨own, same, read'⟩ := Server.input_of_get reached fresh started (goes n) stored
    cases given.symm.trans same
    cases read.symm.trans read'
    have within : ∀ last ∈ cursor, last ∈ x.input.map InputItem.id := by
      intro last mem
      have there := known last mem
      rw [map_arrange] at there
      cases order with
      | ascending => exact there
      | descending => exact List.mem_reverse.1 there
    rw [exchange_listsInput (lists n cursor within)]
    exact listInputItems_eq stored pos order cursor

/-- However a server goes on after it has admitted a request: as long as the response is stored,
a walk through its input ends after all items were shown, each once and in the order that is asked
for, exactly if every page but the last closes with the first item of its id. It does so if the
ids that are written with the items differ from each other and from those of the turn. -/
theorem input_items_walk (reached : s.Reached) (fresh : s.FreshId)
    (started : s.start r streamed = .ok (next, id)) (given : r.input = .array items)
    (read : InputItem.listOfJson s.lane 0 items = .ok input) (goes : ∀ n, next.Goes (servers n))
    (kept : ∀ n, ((servers n).get id).isOk) (pos : 1 ≤ limit)
    (lists : ∀ n cursor, (∀ last ∈ cursor, last ∈ input.map InputItem.id) →
      (demand n cursor).listsInput? =
        some (id, { limit := some limit, order := some order.text, after := cursor })) :
    input.length = items.length ∧
    (WalksWhole (fun n cursor => (exchange (servers n) (demand n cursor)).2)
        ((order.arrange input).map InputItem.toJson) ↔
      ClosedByFirst (min limit.toNat Page.maxLimit) ((order.arrange input).map InputItem.id)) ∧
    (InputItem.Apart s.lane items.length items → 3 * items.length ≤ Lane.width →
      WalksWhole (fun n cursor => (exchange (servers n) (demand n cursor)).2)
        ((order.arrange input).map InputItem.toJson)) := by
  have stands := input_stands reached fresh started given read goes kept pos lists
  refine ⟨InputItem.length_listOfJson read, ⟨stands.closedByFirst, stands.walksWhole⟩,
    fun apart fits => stands.walksWhole (.of_nodup ?_)⟩
  have once : (input.map InputItem.id).Nodup :=
    InputItem.nodup_ids read apart (Nat.le_of_eq (Nat.zero_add _)) fits
  rw [map_arrange]
  exact nodup_arrange once order

section

/-- A message, with the id that is written with it if there is one. -/
def note (id : Option String) : Json :=
  .ofMembers (("role", .string "user") :: ("content", .string "hello") ::
    (id.map fun id => ("id", Json.string id)).toList)

def noting (ids : List (Option String)) : Request where
  model := some "small"
  input := .array (ids.map note)

/-- A server whose first request was this. -/
def noted (ids : List (Option String)) : Server := ((greeted 0).create (noting ids) false).1

/-- The id of its response. -/
def notedId : String := (greeted 0).lane.id .response .response

/-- Asks for a page of its input, the oldest items first. -/
def demandNotes (limit : Nat) (cursor : Option String) : Demand where
  method := .get
  target := "/v1/responses/" ++ notedId ++ "/input_items?order=asc&limit=" ++ limit.repr ++
    (cursor.map ("&after=" ++ ·)).getD ""

/-- A message as it is kept. -/
def keptNote (id : String) : InputItem := .message id .user [.inputText "hello"]

theorem start_noting (ids : List (Option String))
    (admits : ((greeted 0).start (noting ids) false).isOk) :
    ∃ next, (greeted 0).start (noting ids) false = .ok (next, notedId) ∧ next.Goes (noted ids) := by
  obtain ⟨⟨next, id⟩, started⟩ := exists_ok admits
  have named : id = notedId := by
    obtain ⟨admitted, accepted, same⟩ := bind_eq_ok.1 started
    cases same
    exact (Admission.accept_spec accepted).id
  refine ⟨next, named ▸ started, ?_⟩
  unfold noted Server.create
  rw [started]
  exact Server.runAll_goes next

/-- Three items with different ids, one of them from the lane, on pages of two. -/
theorem notes_walked :
    let ids := [some "a", none, some "b"]
    let input := [keptNote "a", keptNote (Lane.id {} .message (.input 1)), keptNote "b"]
    let fetch := fun (_ : Nat) cursor => (exchange (noted ids) (demandNotes 2 cursor)).2
    InputItem.listOfJson {} 0 (ids.map note) = .ok input ∧
      ((noted ids).get notedId).isOk ∧ InputItem.Apart {} 3 (ids.map note) ∧
      ClosedByFirst 2 (input.map InputItem.id) ∧
      WalksWhole fetch (input.map InputItem.toJson) := by
  intro ids input fetch
  have new : (greeted 0).New := ⟨rfl, rfl⟩
  have reached : (greeted 0).Reached := ⟨_, [], new, .start⟩
  have fresh : (greeted 0).FreshId := fun t mem => absurd mem List.not_mem_nil
  have read : InputItem.listOfJson {} 0 (ids.map note) = .ok input := by rfl
  obtain ⟨next, started, goes⟩ := start_noting ids (by decide +kernel)
  have stored : ((noted ids).get notedId).isOk := by decide +kernel
  have asks : ∀ last ∈ input.map InputItem.id, (demandNotes 2 (some last)).listsInput? =
      some (notedId, { limit := some 2, order := some "asc", after := some last }) := by
    decide +kernel
  obtain ⟨-, closed, walked⟩ := @input_items_walk (greeted 0) next (noting ids) false notedId
    (ids.map note) input (fun _ => noted ids) (fun _ => demandNotes 2) 2 .ascending reached fresh
    started rfl read (fun _ => goes) (fun _ => stored) (by decide) <| by
      intro n cursor known
      cases cursor with
      | none => decide +kernel
      | some last => exact asks last (known last rfl)
  have foreign (kind : IdKind) : ∀ id ∈ (ids.map note).filterMap InputItem.written,
      ∀ place < 3, id ≠ Lane.id {} kind (.input place) := by
    cases kind <;> decide +kernel
  have apart : InputItem.Apart {} 3 (ids.map note) :=
    ⟨by decide +kernel, fun id mem place early kind => foreign kind id mem place early⟩
  have whole := walked apart (by decide +kernel)
  exact ⟨read, stored, apart, closed.1 whole, whole⟩

/-- The second of three items has the id of the first. On pages of one it is shown again and
again, and the third never. -/
theorem notes_repeat :
    let ids := [some "a", some "a", some "b"]
    let input := [keptNote "a", keptNote "a", keptNote "b"]
    let fetch := fun (_ : Nat) cursor => (exchange (noted ids) (demandNotes 1 cursor)).2
    ((noted ids).get notedId).toOption.map Response.input = some input ∧
      (∀ n, (walk fetch n).map Reply.entries = some [(keptNote "a").toJson]) ∧
      ¬ WalksWhole fetch (input.map InputItem.toJson) := by
  intro ids input fetch
  let again := fetch 1 (some "a")
  have more : again.hasMore? = some true := by decide +kernel
  have last : again.lastId? = some "a" := by decide +kernel
  have stays (n : Nat) : walk fetch (n + 1) = some again := by
    induction n with
    | zero => decide +kernel
    | succ n ih =>
      rw [walk, ih, Option.bind_some, if_pos more, last]
  refine ⟨by decide +kernel, fun n => ?_, ?_⟩
  · cases n with
    | zero => decide +kernel
    | succ n =>
      rw [stays n]
      decide +kernel
  · rintro ⟨n, -, ended, -⟩
    rw [stays n] at ended
    cases ended

end

end Http

end Responder
