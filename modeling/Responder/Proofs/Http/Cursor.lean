import Responder.Proofs.Http.Walk

/-!
# Cursors in a list that stands

A cursor is an id, and a listing goes on behind the first entry that has it. In a list whose
entries may share their ids a client is so sent back to what it has seen. Main statement: a walk
through a list that stands shows all of it once and in order exactly if every page but the last
closes with an entry that is the first of its id.
-/

namespace Responder

namespace Page

variable {α : Type}

/-- The first entry of the id of an entry is this entry itself, or stands before it. -/
theorem exists_first (id : α → String) (before rest : List α) (last : α) :
    ∃ early x late, before ++ last :: rest = early ++ x :: late ∧ id x = id last ∧
      id x ∉ early.map id ∧ early.length ≤ before.length ∧
      (early.length = before.length ↔ id last ∉ before.map id) := by
  cases found : before.find? (id · = id last) with
  | none =>
    have first : id last ∉ before.map id := by
      intro mem
      obtain ⟨x, there, same⟩ := List.mem_map.1 mem
      exact List.find?_eq_none.1 found x there (decide_eq_true same)
    exact ⟨before, last, rest, rfl, rfl, first, Nat.le_refl _, fun _ => first, fun _ => rfl⟩
  | some x =>
    obtain ⟨same, early, late, rfl, others⟩ := List.find?_eq_some_iff_append.1 found
    have same : id x = id last := of_decide_eq_true same
    have fresh : id x ∉ early.map id := by
      intro mem
      obtain ⟨y, there, again⟩ := List.mem_map.1 mem
      have differs := others y there
      simp [again, same] at differs
    have repeated : id last ∈ (early ++ x :: late).map id :=
      List.mem_map.2 ⟨x, List.mem_append_right _ List.mem_cons_self, same⟩
    refine ⟨early, x, late ++ last :: rest, ?_, same, fresh, ?_, ?_⟩
    · rw [List.append_assoc, List.cons_append]
    · rw [List.length_append]
      exact Nat.le_add_right ..
    · rw [List.length_append, List.length_cons]
      exact ⟨fun long => by omega, fun none => (none repeated).elim⟩

end Page

namespace Http

/-- A walk that ends after it has shown all entries, each once and in order. -/
def WalksWhole (fetch : Nat → Option String → Reply) (entries : List Json) : Prop :=
  ∃ n, walk fetch n ≠ none ∧ walk fetch (n + 1) = none ∧ shown fetch n = entries

/-- Every page but the last closes with an id that none of the ids before it is. -/
def ClosedByFirst (size : Nat) (ids : List String) : Prop :=
  ∀ before last after, ids = before ++ last :: after → after ≠ [] → size ∣ before.length + 1 →
    last ∉ before

/-- The pages up to a bound are closed so. -/
def ClosedUpTo (bound size : Nat) (ids : List String) : Prop :=
  ∀ before last after, ids = before ++ last :: after → after ≠ [] → size ∣ before.length + 1 →
    before.length + 1 ≤ bound → last ∉ before

variable {α : Type}

/-- A list that stands is fetched in pages of a size. -/
structure Standing (id : α → String) (entry : α → Json) (size : Nat) (list : List α)
    (fetch : Nat → Option String → Reply) : Prop where
  pos : 0 < size
  bounded : size ≤ Page.maxLimit
  page : ∀ n cursor, (∀ last ∈ cursor, last ∈ list.map id) → fetch n cursor =
    .ofResult (Page.toJson id entry) ((Page.after id list cursor).map (Page.take · size))

/-- A client is shown the page that begins at a place. No place is further than all pages before
it reach, and only a client that was never sent back is there. -/
structure At (id : α → String) (entry : α → Json) (size : Nat) (list : List α)
    (fetch : Nat → Option String → Reply) (n place : Nat) : Prop where
  reply : walk fetch n = some (.ok (Page.toJson id entry (Page.take (list.drop place) size)))
  within : place ≤ list.length
  reach : place ≤ n * size
  regular : place = n * size ↔ ClosedUpTo (n * size) size (list.map id)
  count : (shown fetch n).length = n * size + min size (list.length - place)
  shown : place = n * size → shown fetch n = (list.take (place + size)).map entry

variable {id : α → String} {entry : α → Json} {size n place : Nat} {list : List α}
  {fetch : Nat → Option String → Reply}

theorem Standing.at_first (h : Standing id entry size list fetch) :
    At id entry size list fetch 0 0 := by
  have reply : fetch 0 none = .ok (Page.toJson id entry (Page.take list size)) :=
    h.page 0 none nofun
  have shown : Http.shown fetch 0 = (list.take size).map entry := by
    simp only [Http.shown, Nat.zero_add, List.range_one, List.flatMap_singleton, walk, reply,
      Option.map_some, Option.getD_some, entries_page, take_eq h.bounded]
  refine ⟨congrArg some reply, Nat.zero_le _, Nat.zero_le _, ?_, ?_, fun _ => ?_⟩
  · rw [Nat.zero_mul]
    exact ⟨fun _ before last after _ _ _ short => by omega, fun _ => rfl⟩
  · rw [shown, List.length_map, List.length_take, Nat.zero_mul, Nat.zero_add, Nat.sub_zero]
  · rw [shown, Nat.zero_add]

theorem ClosedUpTo.mono {bound bound' : Nat} {ids : List String} (le : bound ≤ bound')
    (h : ClosedUpTo bound' size ids) : ClosedUpTo bound size ids :=
  fun before last after whole more closes within =>
    h before last after whole more closes (Nat.le_trans within le)

/-- One page more. -/
theorem closedUpTo_succ {before after : List String} {last : String}
    (length : before.length + 1 = (n + 1) * size) (more : after ≠ []) :
    ClosedUpTo ((n + 1) * size) size (before ++ last :: after) ↔
      ClosedUpTo (n * size) size (before ++ last :: after) ∧ last ∉ before := by
  constructor
  · intro closed
    refine ⟨closed.mono (Nat.mul_le_mul_right size (Nat.le_succ n)), ?_⟩
    have closes : size ∣ before.length + 1 := ⟨n + 1, length.trans (Nat.mul_comm ..)⟩
    exact closed before last after rfl more closes (Nat.le_of_eq length)
  · rintro ⟨closed, first⟩ before' last' after' whole more' ⟨m, closes⟩ within
    by_cases early : before'.length + 1 ≤ n * size
    · exact closed before' last' after' whole more' ⟨m, closes⟩ early
    · have same : before.length = before'.length := by
        have above : n < m := by
          by_contra below
          have := Nat.mul_le_mul_left size (Nat.le_of_not_lt below)
          rw [Nat.mul_comm size n] at this
          omega
        have := Nat.mul_le_mul_left size above
        rw [Nat.mul_comm size (n + 1)] at this
        omega
      obtain ⟨rfl, rest⟩ := List.append_inj whole same
      cases rest
      exact first

/-- Where a page ends that is not the last. -/
theorem exists_closing (pos : 0 < size) (more : place + size < list.length) :
    ∃ before last rest, list = before ++ last :: rest ∧ before.length + 1 = place + size ∧
      rest ≠ [] ∧ ((list.drop place).take size).getLast? = some last := by
  have long : ((list.drop place).take size).length = size := by
    rw [List.length_take, List.length_drop]
    omega
  obtain ⟨last, isLast⟩ : ∃ last, ((list.drop place).take size).getLast? = some last := by
    rw [← Option.isSome_iff_exists, List.getLast?_isSome, ← List.length_pos_iff, long]
    exact pos
  obtain ⟨init, page⟩ := List.getLast?_eq_some_iff.1 isLast
  refine ⟨list.take place ++ init, last, (list.drop place).drop size, ?_, ?_, ?_, isLast⟩
  · rw [List.append_assoc, List.append_cons init, ← page, List.take_append_drop,
      List.take_append_drop]
  · rw [page, List.length_append, List.length_singleton] at long
    rw [List.length_append, List.length_take]
    omega
  · rw [ne_eq, List.drop_eq_nil_iff, List.length_drop]
    omega

/-- A client that is told of more is sent on behind the first entry of the id it was shown last. -/
theorem Standing.walk_next (h : Standing id entry size list fetch)
    (stands : At id entry size list fetch n place) (more : place + size < list.length)
    {early late : List α} {x last : α} (split : list = early ++ x :: late)
    (fresh : id x ∉ early.map id) (same : id x = id last)
    (closing : ((list.drop place).take size).getLast? = some last) :
    walk fetch (n + 1) =
      some (.ok (Page.toJson id entry (Page.take (list.drop (early.length + 1)) size))) := by
  have drop : list.drop (early.length + 1) = late := by
    rw [split, List.drop_length_add_append, List.drop_one, List.tail_cons]
  have cursor : Page.lastId id ⟨(list.drop place).take size, true⟩ = some (id last) :=
    congrArg (Option.map id) closing
  have known : ∀ other ∈ some (id last), other ∈ list.map id := by
    rintro _ ⟨⟩
    rw [← same, split]
    exact List.mem_map_of_mem (List.mem_append_right _ List.mem_cons_self)
  have page := h.page (n + 1) (some (id last)) known
  rw [← same, split, Page.after_first fresh, same] at page
  have told := stands.reply
  rw [take_eq h.bounded, List.length_drop, decide_eq_true (by omega)] at told
  simp only [walk, told, Option.bind_some, hasMore?_page, if_true, lastId?_page, cursor, page,
    drop]
  rfl

/-- It is never sent further than to where the page ends. -/
theorem Standing.at_next (h : Standing id entry size list fetch)
    (stands : At id entry size list fetch n place) (more : place + size < list.length) :
    ∃ place', At id entry size list fetch (n + 1) place' := by
  obtain ⟨before, last, rest, whole, length, left, closing⟩ := exists_closing h.pos more
  obtain ⟨early, x, late, again, same, fresh, short, first⟩ :=
    Page.exists_first id before rest last
  have split : list = early ++ x :: late := whole.trans again
  have reply := h.walk_next stands more split fresh same closing
  have page : ((walk fetch (n + 1)).map Reply.entries).getD [] =
      ((list.drop (early.length + 1)).take size).map entry := by
    rw [reply, Option.map_some, Option.getD_some, entries_page, take_eq h.bounded]
  -- Where the last of the page is the first of its id, and only there, nothing is shown again.
  have onward : early.length + 1 = (n + 1) * size ↔
      place = n * size ∧ id last ∉ before.map id := by
    have reach := stands.reach
    rw [← first, Nat.succ_mul]
    omega
  have closed (regular : place = n * size) : ClosedUpTo ((n + 1) * size) size (list.map id) ↔
      ClosedUpTo (n * size) size (list.map id) ∧ id last ∉ before.map id := by
    have long : (before.map id).length + 1 = (n + 1) * size := by
      rw [List.length_map, length, regular, Nat.succ_mul]
    rw [whole, List.map_append, List.map_cons]
    exact closedUpTo_succ long (mt List.map_eq_nil_iff.1 left)
  refine ⟨early.length + 1, reply, ?_, ?_, ⟨fun reached => ?_, fun all => ?_⟩, ?_, ?_⟩
  · rw [split, List.length_append, List.length_cons]
    omega
  · have reach := stands.reach
    rw [Nat.succ_mul]
    omega
  · obtain ⟨regular, first⟩ := onward.1 reached
    exact (closed regular).2 ⟨stands.regular.1 regular, first⟩
  · have regular := stands.regular.2 (all.mono (Nat.mul_le_mul_right size (Nat.le_succ n)))
    exact onward.2 ⟨regular, ((closed regular).1 all).2⟩
  · rw [shown_succ, page, List.length_append, stands.count, List.length_map, List.length_take,
      List.length_drop, Nat.succ_mul]
    omega
  · intro reached
    obtain ⟨regular, -⟩ := onward.1 reached
    have next : early.length + 1 = place + size := by
      rw [reached, regular, Nat.succ_mul]
    rw [shown_succ, page, stands.shown regular, next, ← List.map_append, ← List.take_add]

/-- The walk is over with the page that reaches the end of the list. -/
theorem At.over_iff (stands : At id entry size list fetch n place)
    (bounded : size ≤ Page.maxLimit) :
    walk fetch (n + 1) = none ↔ list.length ≤ place + size := by
  have within := stands.within
  simp only [walk, stands.reply, take_eq bounded, Option.bind_some, hasMore?_page, List.length_drop]
  by_cases more : size < list.length - place
  · simp [more]
    omega
  · simp [more]
    omega

theorem Standing.at_of_walk (h : Standing id entry size list fetch) (made : walk fetch n ≠ none) :
    ∃ place, At id entry size list fetch n place := by
  induction n with
  | zero => exact ⟨0, h.at_first⟩
  | succ n ih =>
    obtain ⟨place, stands⟩ := ih fun none => made (by rw [walk, none]; rfl)
    have more := mt (stands.over_iff h.bounded).2 made
    exact h.at_next stands (Nat.lt_of_not_le more)

theorem exists_last_page {fetch : Nat → Option String → Reply} {m : Nat}
    (ended : walk fetch m = none) : ∃ n, walk fetch n ≠ none ∧ walk fetch (n + 1) = none := by
  induction m with
  | zero => cases ended
  | succ m ih =>
    by_cases before : walk fetch m = none
    · exact ih before
    · exact ⟨m, before, ended⟩

/-- A walk that has shown the list, and not more than that, was never sent back. -/
theorem Standing.closedByFirst (h : Standing id entry size list fetch)
    (whole : WalksWhole fetch (list.map entry)) : ClosedByFirst size (list.map id) := by
  obtain ⟨n, made, ended, all⟩ := whole
  obtain ⟨place, stands⟩ := h.at_of_walk made
  have ends := (stands.over_iff h.bounded).1 ended
  have within := stands.within
  -- Full pages and a rest of the list are as long as the list only if none was shown twice.
  have regular : place = n * size := by
    have count := stands.count
    have pos := h.pos
    rw [all, List.length_map] at count
    omega
  intro before last after split more closes
  refine stands.regular.1 regular before last after split more closes ?_
  have length := congrArg List.length split
  rw [List.length_map, List.length_append, List.length_cons] at length
  have some := List.length_pos_iff.2 more
  obtain ⟨m, pages⟩ := closes
  have few : m ≤ n := by
    by_contra many
    have := Nat.mul_le_mul_left size (Nat.lt_of_not_le many)
    rw [Nat.mul_succ, Nat.mul_comm size n] at this
    omega
  have := Nat.mul_le_mul_left size few
  rw [Nat.mul_comm size n] at this
  omega

/-- A walk that is never sent back comes to the end of the list, and has shown all of it. -/
theorem Standing.walksWhole (h : Standing id entry size list fetch)
    (closed : ClosedByFirst size (list.map id)) : WalksWhole fetch (list.map entry) := by
  have regular {n place : Nat} (stands : At id entry size list fetch n place) :
      place = n * size :=
    stands.regular.2 fun before last after whole more closes _ =>
      closed before last after whole more closes
  have ended : walk fetch (list.length + 1) = none := by
    by_contra made
    obtain ⟨place, stands⟩ := h.at_of_walk made
    have within := stands.within
    rw [regular stands, Nat.succ_mul] at within
    have := Nat.mul_le_mul_left list.length h.pos
    have pos := h.pos
    omega
  obtain ⟨n, made, ended⟩ := exists_last_page ended
  obtain ⟨place, stands⟩ := h.at_of_walk made
  refine ⟨n, made, ended, ?_⟩
  rw [stands.shown (regular stands),
    List.take_of_length_le ((stands.over_iff h.bounded).1 ended)]

theorem ClosedByFirst.of_nodup {ids : List String} (once : ids.Nodup) : ClosedByFirst size ids := by
  rintro before last after rfl - -
  rw [List.nodup_append] at once
  exact fun mem => once.2.2 last mem last List.mem_cons_self rfl

end Http

end Responder
