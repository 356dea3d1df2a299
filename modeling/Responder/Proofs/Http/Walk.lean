import Mathlib.Data.List.Nodup
import Responder.Http.Exchange

/-!
# Walks through a listing

A client asks for a page, and as long as there is more it asks again with the last id it was
shown as cursor. The list may grow meanwhile. Main statement: if its entries have different ids,
the pages show each of them once and in order, and the walk ends when the list grows no more.
-/

namespace Responder

namespace Page

variable {α : Type} {id : α → String} {before front seen rest : List α} {last : α}

/-- What follows the first entry of an id. -/
theorem after_first (first : id last ∉ before.map id) :
    after id (before ++ last :: rest) (some (id last)) = .ok rest := by
  have other : ∀ x ∈ before, decide (id x = id last) = false := by
    intro x mem
    exact decide_eq_false fun same => first (same ▸ List.mem_map_of_mem mem)
  have found : (before ++ last :: rest).findIdx? (id · = id last) = some before.length := by
    rw [List.findIdx?_append, List.findIdx?_eq_none_iff.2 other, List.findIdx?_cons,
      if_pos (decide_eq_true rfl), Option.map_some, Nat.zero_add, Option.none_or]
  simp only [after, found, List.drop_length_add_append, List.drop_one, List.tail_cons]

/-- What follows the last of the entries that were seen was not seen yet. -/
theorem after_last (once : ((front ++ seen ++ rest).map id).Nodup)
    (h : seen.getLast? = some last) :
    after id (front ++ seen ++ rest) (some (id last)) = .ok rest := by
  obtain ⟨before, rfl⟩ := List.getLast?_eq_some_iff.1 h
  have whole : front ++ (before ++ [last]) ++ rest = (front ++ before) ++ last :: rest := by simp
  rw [whole] at once ⊢
  rw [List.map_append, List.map_cons, List.nodup_append] at once
  exact after_first fun mem => once.2.2 _ mem _ List.mem_cons_self rfl

end Page

namespace Http

/-- The entries that a listing shows. -/
def Reply.entries : Reply → List Json
  | .json 200 body => (body.field "data").array?.getD []
  | _ => []

def Reply.hasMore? : Reply → Option Bool
  | .json 200 body => (body.field "has_more").bool?
  | _ => none

def Reply.lastId? : Reply → Option String
  | .json 200 body => (body.field "last_id").string?
  | _ => none

/-- The replies to a client that walks through a listing: as long as there is more it makes its
next request, with the last id it was shown as cursor. -/
def walk (fetch : Nat → Option String → Reply) : Nat → Option Reply
  | 0 => some (fetch 0 none)
  | n + 1 => (walk fetch n).bind fun reply =>
    if reply.hasMore? = some true then some (fetch (n + 1) reply.lastId?) else none

/-- The entries of all pages up to one. -/
def shown (fetch : Nat → Option String → Reply) (n : Nat) : List Json :=
  (List.range (n + 1)).flatMap fun i => ((walk fetch i).map Reply.entries).getD []

theorem shown_succ (fetch : Nat → Option String → Reply) (n : Nat) :
    shown fetch (n + 1) = shown fetch n ++ ((walk fetch (n + 1)).map Reply.entries).getD [] := by
  unfold shown
  rw [List.range_succ, List.flatMap_append, List.flatMap_singleton]

variable {α : Type}

/-- A list grows at its end, or at its front if the newest entries come first. -/
def Grows (older newer : List α) : Order → Prop
  | .ascending => ∃ more, newer = older ++ more
  | .descending => ∃ more, newer = more ++ older

/-- A listing that is fetched in pages of a size, while its list grows. -/
structure Listing (id : α → String) (entry : α → Json) (size : Nat) (order : Order)
    (lists : Nat → List α) (fetch : Nat → Option String → Reply) : Prop where
  pos : 0 < size
  bounded : size ≤ Page.maxLimit
  once : ∀ n, ((lists n).map id).Nodup
  grows : ∀ n, Grows (lists n) (lists (n + 1)) order
  /-- What is asked for after an entry of the list is a page of what comes after it. -/
  page : ∀ n cursor, (∀ last ∈ cursor, last ∈ (lists n).map id) → fetch n cursor =
    .ofResult (Page.toJson id entry) ((Page.after id (lists n) cursor).map (Page.take · size))

/-- A list consists of what was seen and what is left. What is new since the first request comes
behind the rest or, if it comes first, before all that was seen. -/
def Seen (lists : Nat → List α) (n : Nat) (seen rest : List α) : Order → Prop
  | .ascending => lists n = seen ++ rest
  | .descending => lists 0 = seen ++ rest ∧ ∃ front, lists n = front ++ seen ++ rest

/-- A client has seen some entries and is now shown a page of the rest. -/
structure Stands (id : α → String) (entry : α → Json) (size : Nat) (order : Order)
    (lists : Nat → List α) (fetch : Nat → Option String → Reply) (n : Nat)
    (seen rest : List α) : Prop where
  list : Seen lists n seen rest order
  reply : walk fetch n = some (.ok (Page.toJson id entry (Page.take rest size)))
  shown : shown fetch n = (seen ++ rest.take size).map entry
  far : n ≤ seen.length

variable {id : α → String} {entry : α → Json} {size n : Nat} {order : Order}
  {lists : Nat → List α} {fetch : Nat → Option String → Reply} {seen rest : List α}

section reply

variable (id : α → String) (entry : α → Json) (page : Page α)

theorem entries_page : (Reply.ok (Page.toJson id entry page)).entries = page.entries.map entry :=
  rfl

theorem hasMore?_page : (Reply.ok (Page.toJson id entry page)).hasMore? = some page.hasMore := rfl

theorem lastId?_page : (Reply.ok (Page.toJson id entry page)).lastId? = page.lastId id := by
  unfold Reply.lastId? Reply.ok Page.lastId
  change (Json.ofStringOption (page.entries.getLast?.map id)).string? = _
  cases page.entries.getLast? <;> rfl

end reply

theorem take_eq (h : size ≤ Page.maxLimit) (rest : List α) :
    Page.take rest size = ⟨rest.take size, size < rest.length⟩ := by
  unfold Page.take
  rw [Int.toNat_natCast, Nat.min_eq_left h]

theorem Listing.stands_first (h : Listing id entry size order lists fetch) :
    Stands id entry size order lists fetch 0 [] (lists 0) := by
  have reply : fetch 0 none = .ok (Page.toJson id entry (Page.take (lists 0) size)) :=
    h.page 0 none nofun
  refine ⟨?_, congrArg some reply, ?_, Nat.le_refl 0⟩
  · cases order with
    | ascending => rfl
    | descending => exact ⟨rfl, [], rfl⟩
  · simp only [Http.shown, Nat.zero_add, List.range_one, List.flatMap_singleton, walk, reply,
      Option.map_some, Option.getD_some, entries_page, take_eq h.bounded, List.nil_append]

/-- A client that is told of more is shown a page of what is left then. -/
theorem Listing.stands_next (h : Listing id entry size order lists fetch)
    (stands : Stands id entry size order lists fetch n seen rest) (more : size < rest.length) :
    ∃ rest', Stands id entry size order lists fetch (n + 1) (seen ++ rest.take size) rest' := by
  obtain ⟨list, reply, shown, far⟩ := stands
  rw [take_eq h.bounded, decide_eq_true more] at reply
  have some' : rest.take size ≠ [] := by
    rw [← List.length_pos_iff, List.length_take]
    have pos := h.pos
    omega
  obtain ⟨last, isLast⟩ := List.getLast?_isSome.2 some' |> Option.isSome_iff_exists.1
  have seenLast : (seen ++ rest.take size).getLast? = some last := by
    rw [List.getLast?_append, isLast]
    rfl
  -- The rest grows at its end, or what is new comes before all that was seen.
  obtain ⟨front, rest', whole, list'⟩ : ∃ front rest',
      lists (n + 1) = front ++ (seen ++ rest.take size) ++ rest' ∧
        Seen lists (n + 1) (seen ++ rest.take size) rest' order := by
    have split : seen ++ rest = seen ++ rest.take size ++ rest.drop size := by
      rw [List.append_assoc, List.take_append_drop]
    have grown := h.grows n
    cases order with
    | ascending =>
      obtain ⟨new, grown⟩ := grown
      have same : lists (n + 1) = (seen ++ rest.take size) ++ (rest.drop size ++ new) := by
        rw [grown, list, split, List.append_assoc]
      exact ⟨[], rest.drop size ++ new, same, same⟩
    | descending =>
      obtain ⟨new, grown⟩ := grown
      obtain ⟨first, front, list⟩ := list
      have same : lists (n + 1) = (new ++ front) ++ (seen ++ rest.take size) ++ rest.drop size := by
        rw [grown, list, List.append_assoc front, split]
        simp only [List.append_assoc]
      exact ⟨new ++ front, rest.drop size, same, first.trans split, new ++ front, same⟩
  have reply' : walk fetch (n + 1) = some (.ok (Page.toJson id entry (Page.take rest' size))) := by
    have cursor : Page.lastId id ⟨rest.take size, true⟩ = some (id last) :=
      congrArg (Option.map id) isLast
    have there : last ∈ lists (n + 1) := by
      rw [whole, List.append_assoc]
      exact List.mem_append_right _ (List.mem_append_left _ (List.mem_of_getLast? seenLast))
    have page := h.page (n + 1) (some (id last)) <| by
      rintro _ ⟨⟩
      exact List.mem_map_of_mem there
    rw [whole, Page.after_last (whole ▸ h.once (n + 1)) seenLast] at page
    simp only [walk, reply, Option.bind_some, hasMore?_page, if_true, lastId?_page, cursor, page]
    rfl
  refine ⟨rest', list', reply', ?_, ?_⟩
  · rw [shown_succ, shown, reply', Option.map_some, Option.getD_some, entries_page,
      take_eq h.bounded, ← List.map_append]
  · rw [List.length_append, List.length_take]
    have pos := h.pos
    omega

theorem Listing.stands (h : Listing id entry size order lists fetch) {reply : Reply}
    (made : walk fetch n = some reply) :
    ∃ seen rest, Stands id entry size order lists fetch n seen rest := by
  induction n generalizing reply with
  | zero => exact ⟨[], lists 0, h.stands_first⟩
  | succ n ih =>
    obtain ⟨before, made', next⟩ := Option.bind_eq_some_iff.1 made
    obtain ⟨seen, rest, stands⟩ := ih made'
    have same := stands.reply
    rw [made', take_eq h.bounded] at same
    cases same
    rw [hasMore?_page] at next
    by_cases more : size < rest.length
    · obtain ⟨rest', stands'⟩ := h.stands_next stands more
      exact ⟨_, rest', stands'⟩
    · rw [decide_eq_false more, if_neg nofun] at next
      cases next

/-- What a client is shown that walks through a listing. -/
structure Complete (id : α → String) (entry : α → Json) (size : Nat) (order : Order)
    (lists : Nat → List α) (fetch : Nat → Option String → Reply) : Prop where
  once : ∀ n, ((lists n).map id).Nodup
  /-- Every request is answered with a page. -/
  answered : ∀ n reply, walk fetch n = some reply → ∃ body, reply = .ok body ∧
    reply.entries.length ≤ size ∧ (reply.hasMore? = some true ∨ reply.hasMore? = some false)
  /-- There is no more exactly when the next request is not made. -/
  last : ∀ n reply, walk fetch n = some reply →
    (reply.hasMore? = some false ↔ walk fetch (n + 1) = none)
  /-- Then all has been shown: what was there at the first request if the newest come first, and
  else what is there at the last one. -/
  whole : ∀ n, walk fetch n ≠ none → walk fetch (n + 1) = none →
    shown fetch n = (match order with
      | .ascending => lists n
      | .descending => lists 0).map entry
  ends : ∀ m, (∀ n, m ≤ n → lists n = lists m) → ∃ n, walk fetch n = none

theorem Listing.complete (h : Listing id entry size order lists fetch) :
    Complete id entry size order lists fetch := by
  have final {n : Nat} {seen rest : List α}
      (stands : Stands id entry size order lists fetch n seen rest) :
      walk fetch (n + 1) = none ↔ rest.length ≤ size := by
    simp only [walk, stands.reply, take_eq h.bounded, Option.bind_some, hasMore?_page]
    by_cases more : size < rest.length
    · simp [more]
    · simp [more, Nat.le_of_not_lt more]
  refine ⟨h.once, ?_, ?_, ?_, ?_⟩
  · intro n reply made
    obtain ⟨seen, rest, stands⟩ := h.stands made
    cases made.symm.trans stands.reply
    refine ⟨_, rfl, ?_, ?_⟩
    · rw [entries_page, take_eq h.bounded, List.length_map, List.length_take]
      exact Nat.min_le_left ..
    · rw [hasMore?_page, take_eq h.bounded]
      by_cases more : size < rest.length <;> simp [more]
  · intro n reply made
    obtain ⟨seen, rest, stands⟩ := h.stands made
    cases made.symm.trans stands.reply
    rw [final stands, hasMore?_page, take_eq h.bounded]
    simp
  · intro n made ended
    obtain ⟨reply, made⟩ := Option.ne_none_iff_exists'.1 made
    obtain ⟨seen, rest, stands⟩ := h.stands made
    rw [stands.shown, List.take_of_length_le ((final stands).1 ended)]
    have list := stands.list
    cases order with
    | ascending => rw [list]
    | descending => rw [list.1]
  · intro m still
    -- Each page takes the client further, and there is a last entry.
    refine ⟨m + (lists m).length + 1, ?_⟩
    cases made : walk fetch (m + (lists m).length + 1) with
    | none => rfl
    | some reply =>
      exfalso
      obtain ⟨seen, rest, stands⟩ := h.stands made
      have within : seen.length ≤ (lists m).length := by
        rw [← still (m + (lists m).length + 1) (by omega)]
        have list := stands.list
        cases order with
        | ascending =>
          rw [list, List.length_append]
          omega
        | descending =>
          obtain ⟨-, front, list⟩ := list
          rw [list, List.length_append, List.length_append]
          omega
      have far := stands.far
      omega

end Http

end Responder
