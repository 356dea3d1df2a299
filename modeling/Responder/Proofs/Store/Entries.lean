import Mathlib.Data.List.Nodup
import Responder.Store

/-!
# The entries of a store

What a store holds by ids and what its queue says make one list of responses, the oldest
first, each id once. Main statement: a response that is stored comes to its end, and only
the oldest go.
-/

namespace Responder

namespace Indexed

variable {queue : List String} {held : List (String × Response)} {id : String} {r : Response}

theorem length_eq (h : Indexed queue held) : held.length = queue.length := by
  have same := h.keys.length_eq
  rwa [List.length_map] at same

theorem mem_of_found (h : Indexed queue held) (found : held.lookup id = some r) :
    id ∈ queue ∧ r.id = id := by
  obtain ⟨before, after, rfl, -⟩ := List.lookup_eq_some_iff.1 found
  constructor
  · apply h.keys.mem_iff.1
    simp
  · exact h.named (id, r) (by simp)

theorem found_of_mem (h : Indexed queue held) (mem : id ∈ queue) :
    ∃ r, held.lookup id = some r ∧ r.id = id := by
  cases found : held.lookup id with
  | none =>
    obtain ⟨entry, there, same⟩ := List.mem_map.1 (h.keys.mem_iff.2 mem)
    have differs := List.lookup_eq_none_iff.1 found entry there
    simp [same] at differs
  | some r => exact ⟨r, rfl, (h.mem_of_found found).2⟩

end Indexed

theorem lookup_filter_ne {held : List (String × Response)} {id oldest : String}
    (other : id ≠ oldest) : (held.filter (·.1 ≠ oldest)).lookup id = held.lookup id := by
  induction held with
  | nil => rfl
  | cons entry rest ih =>
    by_cases same : entry.1 = oldest
    · have differs : (id == entry.1) = false := by simpa [same] using other
      rw [List.filter_cons_of_neg (by simpa using same), ih, List.lookup_cons, differs]
    · rw [List.filter_cons_of_pos (by simpa using same), List.lookup_cons, List.lookup_cons, ih]

namespace Store

variable {s next : Store} {id : String} {r : Response}

/-- The last of a list of responses, as many as there is room for. -/
def latest (capacity : Option Nat) (responses : List Response) : List Response :=
  match capacity with
  | none => responses
  | some most => responses.drop (responses.length - most)

theorem latest_suffix (capacity : Option Nat) (responses : List Response) :
    latest capacity responses <:+ responses := by
  cases capacity with
  | none => exact List.suffix_rfl
  | some most => exact List.drop_suffix ..

theorem length_latest_le {capacity : Option Nat} {most : Nat} (bound : capacity = some most)
    (responses : List Response) : (latest capacity responses).length ≤ most := by
  subst bound
  unfold latest
  rw [List.length_drop]
  omega

/-- What is dropped once need not be kept to know what is left in the end. -/
theorem latest_append (capacity : Option Nat) (older newer : List Response) :
    latest capacity (latest capacity older ++ newer) = latest capacity (older ++ newer) := by
  cases capacity with
  | none => rfl
  | some most =>
    have front : older.drop (older.length - most) ++ newer =
        (older ++ newer).drop (older.length - most) :=
      (List.drop_append_of_le_length (Nat.sub_le ..)).symm
    have count : older.length - most + ((older ++ newer).length - (older.length - most) - most) =
        (older ++ newer).length - most := by
      rw [List.length_append]
      omega
    unfold latest
    dsimp only
    rw [front, List.length_drop, List.drop_drop, count]

theorem id_of_find? (found : s.find? id = some r) : r.id = id :=
  (s.indexed.mem_of_found found).2

theorem find?_eq_none_iff : s.find? id = none ↔ id ∉ s.queue := by
  constructor
  · intro lost mem
    obtain ⟨r, found, -⟩ := s.indexed.found_of_mem mem
    cases lost.symm.trans found
  · intro absent
    cases found : s.find? id with
    | none => rfl
    | some r => exact absurd (s.indexed.mem_of_found found).1 absent

theorem map_id_entries (s : Store) : s.entries.map Response.id = s.queue := by
  have ids (queue : List String) (sub : queue ⊆ s.queue) :
      (queue.filterMap s.find?).map Response.id = queue := by
    induction queue with
    | nil => rfl
    | cons id rest ih =>
      obtain ⟨r, found, same⟩ := s.indexed.found_of_mem (sub List.mem_cons_self)
      have stored : s.find? id = some r := found
      rw [List.filterMap_cons_some stored, List.map_cons, same,
        ih fun other mem => sub (List.mem_cons_of_mem _ mem)]
  exact ids s.queue fun _ mem => mem

theorem find?_eq_none (s : Store) (id : String) :
    s.find? id = none ↔ id ∉ s.entries.map Response.id := by
  rw [map_id_entries]
  exact find?_eq_none_iff

theorem nodup_entries (s : Store) : (s.entries.map Response.id).Nodup := by
  rw [map_id_entries]
  exact s.indexed.once

theorem size_eq (s : Store) : s.size = s.entries.length := by
  have length := congrArg List.length s.map_id_entries
  rw [List.length_map] at length
  rw [length]
  exact s.indexed.length_eq

theorem mem_entries : r ∈ s.entries ↔ s.find? r.id = some r := by
  constructor
  · intro mem
    obtain ⟨id, -, found⟩ := List.mem_filterMap.1 mem
    rwa [id_of_find? found]
  · intro found
    exact List.mem_filterMap.2 ⟨r.id, (s.indexed.mem_of_found found).1, found⟩

theorem mem_of_find? (found : s.find? id = some r) : r ∈ s.entries := by
  rw [mem_entries, id_of_find? found]
  exact found

theorem find?_eq_find?_entries (s : Store) (id : String) :
    s.find? id = s.entries.find? (·.id = id) := by
  cases found : s.entries.find? (·.id = id) with
  | none =>
    cases held : s.find? id with
    | none => rfl
    | some r =>
      have other := List.find?_eq_none.1 found r (mem_of_find? held)
      exact absurd (decide_eq_true (id_of_find? held)) other
  | some r =>
    have same : r.id = id := by simpa using List.find?_some found
    rw [← same]
    exact mem_entries.1 (List.mem_of_find?_eq_some found)

theorem entries_add (new : s.find? r.id = none) : (s.add r new).entries = s.entries ++ [r] := by
  have older : s.queue.filterMap (s.add r new).find? = s.queue.filterMap s.find? := by
    apply List.filterMap_congr
    intro id mem
    have differs : (id == r.id) = false := by
      rw [beq_eq_false_iff_ne]
      rintro rfl
      exact find?_eq_none_iff.1 new mem
    change ((r.id, r) :: s.held).lookup id = s.held.lookup id
    rw [List.lookup_cons, differs]
  have last : (s.add r new).find? r.id = some r := List.lookup_cons_self
  change (s.queue ++ [r.id]).filterMap (s.add r new).find? = _
  rw [List.filterMap_append, older, List.filterMap_cons_some last, List.filterMap_nil, entries]

/-- As the queue is popped the oldest responses go, and no others. -/
theorem filterMap_shed (most : Nat) {queue : List String} {held : List (String × Response)}
    (h : Indexed queue held) :
    (shed most queue held).1.filterMap (fun id => (shed most queue held).2.lookup id) =
      (queue.filterMap fun id => held.lookup id).drop (queue.length - most) := by
  induction queue generalizing held with
  | nil => simp [shed]
  | cons oldest queue ih =>
    have length := h.length_eq
    rw [List.length_cons] at length
    by_cases full : most < held.length
    · -- The map is counted and the queue is popped, but they have the same length.
      have popped : shed most (oldest :: queue) held =
          shed most queue (held.filter (·.1 ≠ oldest)) := if_pos full
      have rest : (queue.filterMap fun id => (held.filter (·.1 ≠ oldest)).lookup id) =
          queue.filterMap fun id => held.lookup id := by
        apply List.filterMap_congr
        intro id mem
        apply lookup_filter_ne
        rintro rfl
        exact (List.nodup_cons.1 h.once).1 mem
      have first : oldest ∈ oldest :: queue := List.mem_cons_self
      obtain ⟨r, found, -⟩ := h.found_of_mem first
      have front : ((oldest :: queue).filterMap fun id => held.lookup id) =
          r :: queue.filterMap fun id => held.lookup id := List.filterMap_cons_some found
      have more : (oldest :: queue).length - most = queue.length - most + 1 := by
        rw [List.length_cons]
        omega
      rw [popped, ih h.pop, rest, front, more, List.drop_succ_cons]
    · have kept : shed most (oldest :: queue) held = (oldest :: queue, held) := if_neg full
      have none : (oldest :: queue).length - most = 0 := by
        rw [List.length_cons]
        omega
      rw [kept, none, List.drop_zero]

theorem entries_evict (s : Store) : s.evict.entries = latest s.capacity s.entries := by
  have shorter (most : Nat) : s.entries.drop (s.entries.length - most) =
      (s.queue.filterMap fun id => s.held.lookup id).drop (s.queue.length - most) := by
    rw [← s.size_eq, size, s.indexed.length_eq]
    rfl
  unfold evict latest
  cases s.capacity with
  | none => rfl
  | some most =>
    dsimp only
    rw [shorter, ← filterMap_shed most s.indexed]
    rfl

@[simp] theorem capacity_evict (s : Store) : s.evict.capacity = s.capacity := by
  unfold evict
  split <;> rfl

@[simp] theorem closed_evict (s : Store) : s.evict.closed = s.closed := by
  unfold evict
  split <;> rfl

/-- All that a put comes to, in the order in which it is checked. -/
theorem put_cases (s : Store) (r : Response) :
    (r.status.isTerminal = false ∧ s.put r = .error (.notTerminal r.id)) ∨
    (r.status.isTerminal = true ∧ s.closed = true ∧ s.put r = .error .closed) ∨
    (r.status.isTerminal = true ∧ s.closed = false ∧ r.id ∈ s.entries.map Response.id ∧
      s.put r = .error (.conflict r.id)) ∨
    (r.status.isTerminal = true ∧ s.closed = false ∧ r.id ∉ s.entries.map Response.id ∧
      ∃ next, s.put r = .ok next ∧ next.capacity = s.capacity ∧ next.closed = false ∧
        next.entries = latest s.capacity (s.entries ++ [r])) := by
  unfold put
  cases terminal : r.status.isTerminal with
  | false => exact .inl ⟨rfl, rfl⟩
  | true =>
    cases closed : s.closed with
    | true => exact .inr (.inl ⟨rfl, rfl, rfl⟩)
    | false =>
      rw [Bool.not_true, if_neg Bool.false_ne_true, if_neg Bool.false_ne_true]
      split
      · next r' found =>
        have stored : r.id ∈ s.entries.map Response.id := by
          rw [← id_of_find? found]
          exact List.mem_map_of_mem (mem_of_find? found)
        exact .inr (.inr (.inl ⟨rfl, rfl, stored, rfl⟩))
      · next new =>
        have entries : (s.add r new).evict.entries = latest s.capacity (s.entries ++ [r]) := by
          rw [entries_evict, entries_add]
          rfl
        refine .inr (.inr (.inr ⟨rfl, rfl, (s.find?_eq_none r.id).1 new, _, rfl, ?_, ?_, entries⟩))
        · rw [capacity_evict]
          rfl
        · rw [closed_evict]
          exact closed

/-- What a put leaves is the end of the entries with the new one. -/
theorem entries_put (h : s.put r = .ok next) :
    next.entries = latest s.capacity (s.entries ++ [r]) := by
  obtain ⟨-, put⟩ | ⟨-, -, put⟩ | ⟨-, -, -, put⟩ | ⟨-, -, -, next', put, -, -, entries⟩ :=
    s.put_cases r
  · cases h.symm.trans put
  · cases h.symm.trans put
  · cases h.symm.trans put
  · cases h.symm.trans put
    exact entries

@[simp] theorem entries_close (s : Store) : s.close.entries = [] := rfl

end Store

end Responder
