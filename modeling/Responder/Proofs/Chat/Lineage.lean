import Mathlib.Logic.Relation
import Responder.Proofs.Chat.Ancestry

/-!
# Lineage

Responses are stored one after the other, and each continues one that was stored before it. So
the links of a log point backwards, and a store that keeps the end of a log has every response
between one that it keeps and that one's ancestors in it.
-/

open scoped List

namespace Responder

/-- A response of a collection is continued by another. -/
def Parent (among : List Response) (x y : Response) : Prop :=
  x ∈ among ∧ y.previous = some x.id

/-- Through responses of a collection, one is continued by another. -/
def Ancestor (among : List Response) : Response → Response → Prop :=
  Relation.TransGen (Parent among)

/-- A log of responses: each is new in it, and continues one of the log if it continues any. -/
inductive Grown : List Response → Prop
  | nil : Grown []
  | snoc {log : List Response} {r : Response} : Grown log → r.id ∉ log.map Response.id →
      (∀ id ∈ r.previous, id ∈ log.map Response.id) → Grown (log ++ [r])

variable {log older newer entries : List Response} {x y r : Response}

theorem Parent.mono (sub : entries ⊆ log) (h : Parent entries x y) : Parent log x y :=
  ⟨sub h.1, h.2⟩

theorem Ancestor.mono (sub : entries ⊆ log) (h : Ancestor entries x y) : Ancestor log x y :=
  Relation.TransGen.mono (fun _ _ => Parent.mono sub) _ _ h

theorem Ancestor.mem (h : Ancestor log x y) : x ∈ log := by
  induction h using Relation.TransGen.head_induction_on with
  | single link => exact link.1
  | head link _ _ => exact link.1

namespace Grown

theorem nodup (h : Grown log) : (log.map Response.id).Nodup := by
  induction h with
  | nil => exact List.nodup_nil
  | snoc _ new _ ih =>
    rw [List.map_append, List.map_cons, List.map_nil, ← List.concat_eq_append]
    exact ih.concat new

theorem eq_of_id (h : Grown log) (mx : x ∈ log) (my : y ∈ log) (same : x.id = y.id) : x = y :=
  List.inj_on_of_nodup_map h.nodup mx my same

theorem not_mem_older (h : Grown (older ++ r :: newer)) : r ∉ older := by
  intro mem
  have once := List.Nodup.of_map _ h.nodup
  exact (List.disjoint_of_nodup_append once) mem List.mem_cons_self

/-- What a response continues comes before it. -/
theorem previous_older (h : Grown (older ++ r :: newer)) :
    ∀ id ∈ r.previous, id ∈ older.map Response.id := by
  generalize whole : older ++ r :: newer = log at h
  induction h generalizing newer with
  | nil => cases List.append_eq_nil_iff.1 whole |>.2
  | @snoc before last _ _ continued ih =>
    obtain rfl | ⟨front, other, rfl⟩ := List.eq_nil_or_concat newer
    · obtain ⟨rfl, same⟩ := List.append_inj' whole rfl
      cases same
      exact continued
    · rw [List.concat_eq_append, ← List.cons_append, ← List.append_assoc] at whole
      exact ih (List.append_inj' whole rfl).1

theorem parent_older (h : Grown (older ++ r :: newer))
    (link : Parent (older ++ r :: newer) x r) : x ∈ older := by
  obtain ⟨y, mem, same⟩ := List.mem_map.1 (h.previous_older x.id link.2)
  rwa [← h.eq_of_id (List.mem_append_left _ mem) link.1 same]

/-- All ancestors of a response come before it. -/
theorem ancestor_older (h : Grown (older ++ r :: newer))
    (line : Ancestor (older ++ r :: newer) x r) : x ∈ older := by
  generalize whole : older ++ r :: newer = log at h line
  induction line generalizing older newer with
  | single link =>
    subst whole
    exact h.parent_older link
  | @tail y r _ link ih =>
    subst whole
    -- The ancestors of the parent come before it, and it comes before its child.
    have mem := h.parent_older link
    obtain ⟨before, between, rfl⟩ := List.append_of_mem mem
    have same : before ++ y :: (between ++ r :: newer) = before ++ y :: between ++ r :: newer := by
      simp
    exact List.mem_append_left _ (ih same)

theorem acyclic (h : Grown log) (r : Response) : ¬ Ancestor log r r := by
  intro line
  obtain ⟨older, newer, rfl⟩ := List.append_of_mem line.mem
  exact h.not_mem_older (h.ancestor_older line)

/-- The end of a log has no hole: where it has an ancestor, it has all that descend from it. -/
theorem descendant_kept (h : Grown log) (recent : entries <:+ log) (line : Ancestor log x y)
    (mem : y ∈ log) (kept : x ∈ entries) : y ∈ entries := by
  obtain ⟨gone, rfl⟩ := recent
  obtain lost | kept' := List.mem_append.1 mem
  · exfalso
    obtain ⟨older, newer, rfl⟩ := List.append_of_mem lost
    rw [List.append_assoc, List.cons_append] at h line
    have before := h.ancestor_older line
    have once := List.Nodup.of_map _ h.nodup
    apply List.disjoint_of_nodup_append once before
    exact List.mem_cons_of_mem _ (List.mem_append_right _ kept)
  · exact kept'

end Grown

namespace Ancestry

variable {store : Store} {chain : List Response} {id : String}

/-- Each response of a chain is an ancestor of all that follow it. -/
theorem Chain.pairwise (h : Chain store chain) : chain.Pairwise (Ancestor store.entries) := by
  have linked : chain.IsChain (Ancestor store.entries) :=
    h.linked.imp_of_mem_imp fun x y mem _ link => .single ⟨h.sub mem, link⟩
  have : Trans (Ancestor store.entries) (Ancestor store.entries) (Ancestor store.entries) :=
    ⟨Relation.TransGen.trans⟩
  exact linked.pairwise

/-- A chain that returns to itself has a response that is an ancestor of itself. -/
theorem not_returns (grown : Grown log) (recent : store.entries <:+ log)
    (h : Chain store chain) : ¬ Returns chain id := by
  rintro ⟨first, head, link, seen⟩
  obtain ⟨y, mem, rfl⟩ := List.mem_map.1 seen
  have parent : Ancestor store.entries y first := .single ⟨h.sub mem, link⟩
  obtain ⟨rest, rfl⟩ : ∃ rest, chain = first :: rest := List.head?_eq_some_iff.1 head
  apply grown.acyclic y
  obtain rfl | later := List.mem_cons.1 mem
  · exact parent.mono recent.subset
  · have line : Ancestor store.entries y y :=
      parent.trans (List.rel_of_pairwise_cons h.pairwise later)
    exact line.mono recent.subset

/-- A chain that nothing stored precedes has each stored ancestor of what it has. -/
theorem Chain.mem_of_ancestor (grown : Grown log) (recent : store.entries <:+ log)
    (h : Chain store chain) (begins : Begins store chain) (line : Ancestor log x y)
    (mem : y ∈ chain) (kept : x ∈ store.entries) : x ∈ chain := by
  have parent {x y : Response} (link : Parent log x y) (mem : y ∈ chain)
      (kept : x ∈ store.entries) : x ∈ chain := by
    obtain ⟨before, after, rfl⟩ := List.append_of_mem mem
    obtain rfl | ⟨front, z, rfl⟩ := List.eq_nil_or_concat before
    · have lost := begins y rfl x.id link.2
      rw [Store.mem_entries.1 kept] at lost
      cases lost
    · have linked := h.linked
      rw [List.concat_eq_append, List.append_assoc] at linked h ⊢
      have next : y.previous = some z.id :=
        (List.isChain_cons_cons.1 linked.right_of_append).1
      have there : z ∈ front ++ ([z] ++ y :: after) := by simp
      have same : x.id = z.id := Option.some.inj (link.2.symm.trans next)
      rwa [grown.eq_of_id (recent.subset kept) (recent.subset (h.sub there)) same]
  induction line using Relation.TransGen.head_induction_on with
  | single link => exact parent link mem kept
  | @head x z link line ih =>
    have inside := grown.descendant_kept recent (.single link) (Ancestor.mem line) kept
    exact parent link (ih inside) kept

/-- The end of a grown log resolves each of its responses to all ancestors that it has. -/
theorem resolve_of_grown (grown : Grown log) (recent : store.entries <:+ log)
    (mem : r ∈ store.entries) :
    ∃ chain, resolve store r.id = .ok chain ∧ Chain store chain ∧
      ∀ x, x ∈ chain ↔ x ∈ store.entries ∧ (x = r ∨ Ancestor log x r) := by
  have found := Store.mem_entries.1 mem
  obtain ⟨lost, -⟩ | ⟨other, stored, outcome⟩ := resolve_cases store r.id
  · rw [found] at lost
    cases lost
  cases found.symm.trans stored
  obtain ⟨chain, resolved, h, ⟨front, rfl⟩, begins⟩ | ⟨chain, back, -, h, -, returns⟩ := outcome
  · refine ⟨_, resolved, h, fun x => ⟨fun within => ⟨h.sub within, ?_⟩, fun ⟨kept, line⟩ => ?_⟩⟩
    · obtain before | last := List.mem_append.1 within
      · have line := (List.pairwise_append.1 h.pairwise).2.2 x before r List.mem_cons_self
        exact .inr (line.mono recent.subset)
      · exact .inl (List.mem_singleton.1 last)
    · have last : r ∈ front ++ [r] := List.mem_append_right _ List.mem_cons_self
      obtain rfl | line := line
      · exact last
      · exact h.mem_of_ancestor grown recent begins line last kept
  · exact absurd returns (not_returns grown recent h)

/-- In the end of a grown log no chain comes back to itself. -/
theorem resolve_ne_cycle (grown : Grown log) (recent : store.entries <:+ log)
    (id back : String) : resolve store id ≠ .error (cycle back) := by
  obtain ⟨-, failed⟩ | ⟨r, -, outcome⟩ := resolve_cases store id
  · rw [failed]
    exact nofun
  obtain ⟨chain, resolved, -⟩ | ⟨chain, other, -, h, -, returns⟩ := outcome
  · rw [resolved]
    exact nofun
  · exact absurd returns (not_returns grown recent h)

end Ancestry

end Responder
