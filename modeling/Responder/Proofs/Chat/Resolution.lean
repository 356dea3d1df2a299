import Responder.Proofs.Chat.Ancestry

/-!
# What a chain of ancestors is found to be

From a start the links of stored responses are followed one by one. Main statement: if the start
is not stored that is told, if an id is visited again it is told which one, and else the chain of
all responses on the way is found.
-/

namespace Responder.Ancestry

/-- The id after so many links from a start, if there are as many. -/
def visit (store : Store) (start : String) : Nat → Option String
  | 0 => some start
  | n + 1 => (visit store start n).bind fun id => (store.find? id).bind Response.previous

/-- The first id that is visited again when the links are followed from a start. -/
def ComesBack (store : Store) (start id : String) : Prop :=
  ∃ n, visit store start n = some id ∧ (∃ m < n, visit store start m = some id) ∧
    ∀ k < n, ∀ m < k, visit store start m ≠ visit store start k

variable {store : Store} {chain : List Response} {r : Response} {start id : String}

theorem visit_earlier {n m : Nat} (visited : visit store start n = some id) (le : m ≤ n) :
    ∃ earlier, visit store start m = some earlier := by
  induction le generalizing id with
  | refl => exact ⟨id, visited⟩
  | step _ ih =>
    obtain ⟨before, there, -⟩ := Option.bind_eq_some_iff.1 visited
    exact ih there

theorem visit_next {n : Nat} (visited : visit store start n = some id)
    (found : store.find? id = some r) : visit store start (n + 1) = r.previous := by
  unfold visit
  rw [visited, Option.bind_some, found, Option.bind_some]

theorem ComesBack.unique {other : String} (h : ComesBack store start id)
    (h' : ComesBack store start other) : id = other := by
  obtain ⟨n, there, ⟨m, lt, again⟩, new⟩ := h
  obtain ⟨n', there', ⟨m', lt', again'⟩, new'⟩ := h'
  rcases Nat.lt_trichotomy n n' with before | rfl | after
  · exact absurd (again.trans there.symm) (new' n before m lt)
  · exact Option.some.inj (there.symm.trans there')
  · exact absurd (again'.trans there'.symm) (new n' after m' lt')

/-- Nothing is visited after a start that is not stored. -/
theorem not_comesBack_of_lost (lost : store.find? start = none) :
    ¬ ComesBack store start id := by
  rintro ⟨n, there, ⟨m, lt, -⟩, -⟩
  obtain ⟨next, visited⟩ := visit_earlier there (Nat.lt_of_le_of_lt (Nat.zero_le m) lt)
  simp [visit, lost] at visited

/-- A chain that ends with a response is visited from there, in the opposite direction. -/
theorem visit_back {front back : List Response} {x : Response}
    (h : Chain store (front ++ x :: back)) (last : (front ++ x :: back).getLast? = some r) :
    visit store r.id back.length = some x.id := by
  induction back generalizing front x with
  | nil =>
    rw [List.getLast?_concat] at last
    cases last
    rfl
  | cons y back ih =>
    have linked : y.previous = some x.id :=
      (List.isChain_cons_cons.1 h.linked.right_of_append).1
    have stored : store.find? y.id = some y := h.stored y (by simp)
    rw [List.append_cons] at h last
    exact (visit_next (ih h last) stored).trans linked

theorem visit_chain (h : Chain store chain) (last : chain.getLast? = some r) {n : Nat}
    (lt : n < chain.length) :
    visit store r.id n = (chain.map Response.id).reverse[n]? := by
  have inside : chain.length - 1 - n < chain.length := by omega
  generalize place : chain.length - 1 - n = j at inside
  have split : chain = chain.take j ++ chain[j] :: chain.drop (j + 1) := by
    rw [List.getElem_cons_drop, List.take_append_drop]
  have visited := visit_back (split ▸ h) (split ▸ last)
  have behind : (chain.drop (j + 1)).length = n := by
    rw [List.length_drop]
    omega
  rw [behind] at visited
  rw [visited, List.getElem?_reverse (by rwa [List.length_map]), List.length_map, place,
    List.getElem?_map, List.getElem?_eq_getElem inside, Option.map_some]

/-- What is visited on the way along a chain is visited once. -/
theorem visit_new (h : Chain store chain) (last : chain.getLast? = some r) {m k : Nat}
    (lt : m < k) (inside : k < chain.length) : visit store r.id m ≠ visit store r.id k := by
  rw [visit_chain h last (lt.trans inside), visit_chain h last inside]
  intro same
  have once : (chain.map Response.id).reverse.Nodup := List.nodup_reverse.2 h.once
  have bound : m < (chain.map Response.id).reverse.length := by
    rw [List.length_reverse, List.length_map]
    exact lt.trans inside
  exact lt.ne ((List.getElem?_inj bound once).1 same)

/-- An id that is visited along a chain is that of one of its responses. -/
theorem visit_mem (h : Chain store chain) (last : chain.getLast? = some r) {n : Nat}
    (inside : n < chain.length) (visited : visit store r.id n = some id) :
    id ∈ chain.map Response.id := by
  rw [visit_chain h last inside] at visited
  exact List.mem_reverse.1 (List.mem_of_getElem? visited)

theorem exists_visit (h : Chain store chain) (last : chain.getLast? = some r)
    (mem : id ∈ chain.map Response.id) : ∃ n < chain.length, visit store r.id n = some id := by
  obtain ⟨n, inside, there⟩ := List.mem_iff_getElem.1 (List.mem_reverse.2 mem)
  have inside' : n < chain.length := by simpa using inside
  exact ⟨n, inside', by rw [visit_chain h last inside', List.getElem?_eq_getElem inside, there]⟩

/-- After the whole chain the id that its oldest response continues is visited. -/
theorem visit_length {first : Response} (h : Chain store (first :: chain))
    (last : (first :: chain).getLast? = some r) :
    visit store r.id (first :: chain).length = first.previous :=
  visit_next (@visit_back store r [] chain first h last) (h.stored first List.mem_cons_self)

/-- A chain that returns to one of its responses comes back to it first. -/
theorem comesBack_of_returns (h : Chain store chain) (last : chain.getLast? = some r)
    (returns : Returns chain id) : ComesBack store r.id id := by
  obtain ⟨first, head, link, seen⟩ := returns
  obtain ⟨rest, rfl⟩ := List.head?_eq_some_iff.1 head
  exact ⟨_, (visit_length h last).trans link, exists_visit h last seen,
    fun k inside m lt => visit_new h last lt inside⟩

/-- A chain that nothing stored precedes does not come back. -/
theorem not_comesBack_of_begins (h : Chain store chain) (last : chain.getLast? = some r)
    (begins : Begins store chain) : ¬ ComesBack store r.id id := by
  rintro ⟨n, there, ⟨m, lt, again⟩, -⟩
  obtain ⟨first, rest, rfl⟩ : ∃ first rest, chain = first :: rest :=
    List.exists_cons_of_ne_nil (by rintro rfl; cases last)
  have beyond := visit_length h last
  rcases Nat.lt_trichotomy n (first :: rest).length with inside | rfl | outside
  · exact visit_new h last lt inside (again.trans there.symm)
  · have link : first.previous = some id := beyond.symm.trans there
    obtain ⟨x, mem, rfl⟩ := List.mem_map.1 (visit_mem h last lt again)
    have lost := begins first rfl x.id link
    rw [h.stored x mem] at lost
    cases lost
  · obtain ⟨next, visited⟩ := visit_earlier there outside
    obtain ⟨id, link, visited⟩ := Option.bind_eq_some_iff.1 visited
    have lost := begins first rfl id (beyond.symm.trans link)
    rw [lost] at visited
    cases visited

/-- Whatever a store holds, following the links from a start has one of three ends: the start is
not stored; an id is visited again; or the whole chain of the start is found, each response once
and behind the one that it continues, and nothing stored comes before it. -/
theorem resolve_exact (store : Store) (start : String) :
    (store.find? start = none → resolve store start = .error (.previousNotFound start)) ∧
    (∀ id, ComesBack store start id → resolve store start = .error (cycle id)) ∧
    ∀ r, store.find? start = some r → (∀ id, ¬ ComesBack store start id) →
      ∃ chain, resolve store start = .ok chain ∧ chain.getLast? = some r ∧
        Chain store chain ∧ Begins store chain := by
  obtain ⟨lost, failed⟩ | ⟨r, found, ends⟩ := resolve_cases store start
  · refine ⟨fun _ => failed, fun id back => ?_, fun r found => ?_⟩
    · exact absurd back (not_comesBack_of_lost lost)
    · cases lost.symm.trans found
  have same := Store.id_of_find? found
  subst same
  have last {chain : List Response} (suffix : [r] <:+ chain) : chain.getLast? = some r := by
    obtain ⟨front, rfl⟩ := suffix
    exact List.getLast?_concat
  rcases ends with ⟨chain, walked, all, suffix, begins⟩ |
    ⟨chain, back, walked, all, suffix, returns⟩
  · refine ⟨fun lost => ?_, fun id back => ?_, fun other stored _ => ?_⟩
    · cases found.symm.trans lost
    · exact absurd back (not_comesBack_of_begins all (last suffix) begins)
    · cases found.symm.trans stored
      exact ⟨chain, walked, last suffix, all, begins⟩
  · have comes := comesBack_of_returns all (last suffix) returns
    refine ⟨fun lost => ?_, fun id again => ?_, fun _ _ never => absurd comes (never back)⟩
    · cases found.symm.trans lost
    · rw [walked, comes.unique again]

/-- A response that continues another one, or none. -/
def reply (id : String) (previous : Option String) : Response where
  id := id
  previous := previous
  model := "small"
  input := []
  temperature := singleOne
  topP := singleOne

/-- A store of which two responses continue each other, while the oldest continues a lost one. -/
def tangled : Store where
  queue := ["one", "two", "back", "forth", "after"]
  held := [("one", reply "one" (some "lost")), ("two", reply "two" (some "one")),
    ("back", reply "back" (some "forth")), ("forth", reply "forth" (some "back")),
    ("after", reply "after" (some "back"))]
  indexed := ⟨by decide, by decide, by decide⟩

/-- All three ends in one store. -/
theorem tangled_resolved :
    (tangled.find? "lost" = none ∧ resolve tangled "lost" = .error (.previousNotFound "lost")) ∧
    (ComesBack tangled "after" "back" ∧ resolve tangled "after" = .error (cycle "back")) ∧
    (∀ id, ¬ ComesBack tangled "two" id) ∧
      ∃ chain, resolve tangled "two" = .ok chain ∧
        chain.getLast? = some (reply "two" (some "one")) ∧ Chain tangled chain ∧
        Begins tangled chain := by
  have lost : tangled.find? "lost" = none := by decide
  have back : ComesBack tangled "after" "back" := ⟨3, by decide, ⟨1, by decide⟩, by decide⟩
  have found : tangled.find? "two" = some (reply "two" (some "one")) := by decide
  have never (id : String) : ¬ ComesBack tangled "two" id := by
    rintro ⟨n, there, ⟨m, lt, again⟩, -⟩
    have new : ∀ n < 3, ∀ m < n, visit tangled "two" m ≠ visit tangled "two" n := by decide
    have ended : visit tangled "two" 3 = none := by decide
    rcases Nat.lt_or_ge n 3 with early | late
    · exact new n early m lt (again.trans there.symm)
    · obtain ⟨id, visited⟩ := visit_earlier there late
      cases ended.symm.trans visited
  exact ⟨⟨lost, (resolve_exact tangled "lost").1 lost⟩,
    ⟨back, (resolve_exact tangled "after").2.1 "back" back⟩,
    never, (resolve_exact tangled "two").2.2 _ found never⟩

end Responder.Ancestry
