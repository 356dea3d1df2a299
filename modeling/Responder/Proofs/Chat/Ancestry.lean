import Mathlib.Data.List.Chain
import Mathlib.Data.List.Nodup
import Mathlib.Data.List.Perm.Subperm
import Responder.Chat.Ancestry
import Responder.Proofs.Store.Entries

/-!
# Chains of ancestors

Following the links of a stored response leads to the whole chain of its stored ancestors, or
back to a response that is in the chain already. Each step finds another entry of the store, so
there is always room for it.
-/

open scoped List

namespace Responder.Ancestry

/-- The failure of a chain that leads back to an id. -/
def cycle (id : String) : Failure :=
  .invalid "previous_response_id" ("conversation chain contains a cycle at '" ++ id ++ "'")

/-- A chain of stored responses, the oldest first: each continues the one before it. -/
structure Chain (store : Store) (chain : List Response) : Prop where
  stored : ∀ r ∈ chain, store.find? r.id = some r
  once : (chain.map Response.id).Nodup
  linked : chain.IsChain fun r next => next.previous = some r.id

/-- The oldest response of a chain continues none that is stored. -/
def Begins (store : Store) (chain : List Response) : Prop :=
  ∀ first ∈ chain.head?, ∀ id ∈ first.previous, store.find? id = none

/-- The oldest response of a chain continues one of the chain. -/
def Returns (chain : List Response) (id : String) : Prop :=
  ∃ first ∈ chain.head?, first.previous = some id ∧ id ∈ chain.map Response.id

variable {store : Store} {chain : List Response} {r : Response} {id : String}

theorem seen_iff : chain.any (fun r => decide (r.id = id)) = true ↔
    id ∈ chain.map Response.id := by
  simp only [List.any_eq_true, decide_eq_true_eq, List.mem_map]

theorem Chain.sub (h : Chain store chain) : chain ⊆ store.entries :=
  fun r mem => Store.mem_entries.2 (h.stored r mem)

theorem Chain.length_le (h : Chain store chain) : chain.length ≤ store.size := by
  rw [store.size_eq]
  exact (List.subperm_of_subset (List.Nodup.of_map _ h.once) h.sub).length_le

theorem Chain.single (found : store.find? id = some r) : Chain store [r] := by
  refine ⟨?_, List.nodup_singleton _, List.isChain_singleton _⟩
  intro other mem
  rw [List.mem_singleton.1 mem, Store.id_of_find? found]
  exact found

theorem Chain.cons {first : Response} (h : Chain store (first :: chain))
    (found : store.find? id = some r) (link : first.previous = some id)
    (new : id ∉ (first :: chain).map Response.id) : Chain store (r :: first :: chain) := by
  have same := Store.id_of_find? found
  refine ⟨?_, ?_, ?_⟩
  · intro other mem
    rcases List.mem_cons.1 mem with rfl | mem
    · rw [same]
      exact found
    · exact h.stored other mem
  · rw [List.map_cons, List.nodup_cons, same]
    exact ⟨new, h.once⟩
  · rw [List.isChain_cons_cons, same]
    exact ⟨link, h.linked⟩

theorem begins_of_none {first : Response} (link : first.previous = none) :
    Begins store (first :: chain) := by
  intro other mem id same
  cases mem
  cases link.symm.trans same

theorem begins_of_lost {first : Response} (link : first.previous = some id)
    (lost : store.find? id = none) : Begins store (first :: chain) := by
  intro other mem id same
  cases mem
  cases link.symm.trans same
  exact lost

section walk

variable {steps : Nat}

theorem walk_of_seen (seen : id ∈ chain.map Response.id) :
    walk store steps chain id = .error (cycle id) := by
  unfold walk
  rw [if_pos (seen_iff.2 seen)]
  rfl

theorem walk_of_lost (new : id ∉ chain.map Response.id) (lost : store.find? id = none) :
    walk store steps chain id =
      if chain = [] then .error (.previousNotFound id) else .ok chain := by
  unfold walk
  rw [if_neg (mt seen_iff.1 new), lost]

theorem walk_of_found (new : id ∉ chain.map Response.id) (found : store.find? id = some r) :
    walk store (steps + 1) chain id = match r.previous with
      | none => .ok (r :: chain)
      | some previous => walk store steps (r :: chain) previous := by
  conv_lhs => unfold walk
  rw [if_neg (mt seen_iff.1 new)]
  cases previous : r.previous <;> simp only [found, previous]

/-- Following an id from a chain ends with a longer chain, or comes back to it. -/
def Ends (store : Store) (chain : List Response) (outcome : Except Failure (List Response)) :
    Prop :=
  (∃ result, outcome = .ok result ∧ Chain store result ∧ chain <:+ result ∧
    Begins store result) ∨
  ∃ result back, outcome = .error (cycle back) ∧ Chain store result ∧ chain <:+ result ∧
    Returns result back

theorem Ends.of_suffix {longer : List Response} {outcome : Except Failure (List Response)}
    (h : Ends store longer outcome) (suffix : chain <:+ longer) : Ends store chain outcome := by
  obtain ⟨result, walked, all, after, begins⟩ | ⟨result, back, walked, all, after, returns⟩ := h
  · exact .inl ⟨result, walked, all, suffix.trans after, begins⟩
  · exact .inr ⟨result, back, walked, all, suffix.trans after, returns⟩

variable {first : Response}

/-- Nothing new is found. -/
theorem walk_stops (h : Chain store (first :: chain)) (link : first.previous = some id)
    (stops : id ∈ (first :: chain).map Response.id ∨ store.find? id = none) :
    Ends store (first :: chain) (walk store steps (first :: chain) id) := by
  by_cases new : id ∈ (first :: chain).map Response.id
  · exact .inr ⟨_, id, walk_of_seen new, h, List.suffix_rfl, first, rfl, link, new⟩
  · have lost := stops.resolve_left new
    exact .inl ⟨_, walk_of_lost new lost, h, List.suffix_rfl, begins_of_lost link lost⟩

theorem walk_ends (h : Chain store (first :: chain)) (link : first.previous = some id)
    (room : store.size ≤ (first :: chain).length + steps) :
    Ends store (first :: chain) (walk store steps (first :: chain) id) := by
  induction steps generalizing first chain id with
  | zero =>
    by_cases new : id ∈ (first :: chain).map Response.id
    · exact walk_stops h link (.inl new)
    cases found : store.find? id with
    | none => exact walk_stops h link (.inr found)
    | some r =>
      -- There would be one entry more than the store has.
      have longer := (h.cons found link new).length_le
      simp only [List.length_cons] at longer room
      omega
  | succ steps ih =>
    by_cases new : id ∈ (first :: chain).map Response.id
    · exact walk_stops h link (.inl new)
    cases found : store.find? id with
    | none => exact walk_stops h link (.inr found)
    | some r =>
      rw [walk_of_found new found]
      have longer := h.cons found link new
      have suffix := List.suffix_cons r (first :: chain)
      cases previous : r.previous with
      | none => exact .inl ⟨_, rfl, longer, suffix, begins_of_none previous⟩
      | some before =>
        have room' : store.size ≤ (r :: first :: chain).length + steps := by
          simp only [List.length_cons] at room ⊢
          omega
        exact (ih longer previous room').of_suffix suffix

end walk

/-- What the chain of an id is: there is none if the id is not stored. -/
theorem resolve_cases (store : Store) (id : String) :
    (store.find? id = none ∧ resolve store id = .error (.previousNotFound id)) ∨
    ∃ r, store.find? id = some r ∧ Ends store [r] (resolve store id) := by
  have new : id ∉ ([] : List Response).map Response.id := List.not_mem_nil
  cases found : store.find? id with
  | none =>
    refine .inl ⟨rfl, ?_⟩
    unfold resolve
    rw [walk_of_lost new found, if_pos rfl]
  | some r =>
    refine .inr ⟨r, rfl, ?_⟩
    have single := Chain.single found
    obtain ⟨steps, size⟩ : ∃ n, store.size = n + 1 :=
      Nat.exists_eq_add_one.2 single.length_le
    unfold resolve
    rw [size, walk_of_found new found]
    cases previous : r.previous with
    | none => exact .inl ⟨_, rfl, single, List.suffix_rfl, begins_of_none previous⟩
    | some before =>
      have room : store.size ≤ [r].length + steps := by
        rw [size, List.length_singleton, Nat.add_comm]
      exact walk_ends single previous room

end Responder.Ancestry
