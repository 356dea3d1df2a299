import Responder.Proofs.Server.Run
import Responder.Proofs.Store.Entries

/-!
# How a store grows

Responses are offered to a store one after the other, and it takes those that it can. Main
statement: as long as the store of a server is open, a run of the server does nothing to it but
offer it responses.
-/

open scoped List

namespace Responder

namespace Store

variable {s next : Store} {r : Response}

/-- A store after responses were offered to it; those that it refuses leave it as it is. -/
def offer (s : Store) (responses : List Response) : Store :=
  responses.foldl (fun s r => (s.put r).toOption.getD s) s

theorem offer_append (s : Store) (older newer : List Response) :
    s.offer (older ++ newer) = (s.offer older).offer newer :=
  List.foldl_append

theorem offer_cons (s : Store) (r : Response) (rest : List Response) :
    s.offer (r :: rest) = ((s.put r).toOption.getD s).offer rest := rfl

theorem offer_put (h : s.put r = .ok next) : s.offer [r] = next := by
  rw [offer_cons, h]
  rfl

theorem put_frame (h : s.put r = .ok next) :
    s.closed = false ∧ next.closed = false ∧ next.capacity = s.capacity := by
  obtain ⟨-, put⟩ | ⟨-, -, put⟩ | ⟨-, -, -, put⟩ | ⟨-, opened, -, other, put, same, closed, -⟩ :=
    s.put_cases r
  · cases h.symm.trans put
  · cases h.symm.trans put
  · cases h.symm.trans put
  · cases h.symm.trans put
    exact ⟨opened, closed, same⟩

theorem offer_frame (s : Store) (responses : List Response) :
    (s.offer responses).capacity = s.capacity ∧ (s.offer responses).closed = s.closed := by
  induction responses generalizing s with
  | nil => exact ⟨rfl, rfl⟩
  | cons r rest ih =>
    rw [offer_cons]
    cases put : s.put r with
    | error fault => exact ih s
    | ok next =>
      obtain ⟨opened, closed, capacity⟩ := put_frame put
      obtain ⟨capacity', closed'⟩ := ih next
      exact ⟨capacity'.trans capacity, closed'.trans (closed.trans opened.symm)⟩

/-- Without a bound what is offered comes to the end, as far as it is taken. -/
theorem entries_offer (unbounded : s.capacity = none) (responses : List Response) :
    ∃ taken, taken <+ responses ∧ (s.offer responses).entries = s.entries ++ taken := by
  induction responses generalizing s with
  | nil => exact ⟨[], .slnil, (List.append_nil _).symm⟩
  | cons r rest ih =>
    rw [offer_cons]
    cases put : s.put r with
    | error fault =>
      obtain ⟨taken, sub, entries⟩ := ih unbounded
      exact ⟨taken, sub.cons r, entries⟩
    | ok next =>
      have added : next.entries = s.entries ++ [r] := by
        rw [entries_put put, unbounded]
        rfl
      obtain ⟨taken, sub, entries⟩ := ih ((put_frame put).2.2.trans unbounded)
      refine ⟨r :: taken, sub.cons_cons r, ?_⟩
      change (next.offer rest).entries = _
      rw [entries, added, List.append_assoc, List.singleton_append]

end Store

namespace Server

variable {s next u : Server} {t : Turn} {log : List Response}

theorem store_modifyTurn (s : Server) (id : String) (change : Turn → Turn) :
    (s.modifyTurn id change).store = s.store := rfl

/-- A turn that is finished is all that a step can put into the store. -/
theorem store_advance (moved : s.advance t = some next) :
    next.store = s.store.offer (s.stored t) := by
  unfold advance at moved
  split at moved
  · next u stepped =>
    cases moved
    unfold stored
    split
    · next settling => simp [Turn.step, settling] at stepped
    · rfl
  split at moved
  · next asks =>
    cases moved
    rw [stored, asks]
    rfl
  · next asks =>
    cases moved
    rw [stored, asks]
    rfl
  · next a outcome settling =>
    cases moved
    have closing : (t.finish s.now).response? =
        some (a.finalize t.schema s.now outcome) := by
      rw [Turn.finish, settling]
      rfl
    simp only [finish, stored, settling, closing, keep, store_modifyTurn]
    cases (a.finalize t.schema s.now outcome).store with
    | false => rfl
    | true =>
      cases put : s.store.put (a.finalize t.schema s.now outcome) with
      | error fault => rfl
      | ok store => exact (Store.offer_put put).symm
  · cases moved

/-- Nothing opens a store again, and one that is open was only offered responses. -/
theorem Move.offers {stored : List Response} (m : Move s stored next)
    (opened : next.store.closed = false) : next.store = s.store.offer stored := by
  cases m with
  | accept _ started =>
    obtain ⟨admitted, -, started⟩ := bind_eq_ok.1 started
    cases started
    rfl
  | advance _ moved => exact store_advance moved
  | @hear t mem =>
    unfold Server.hear
    split <;> rfl
  | close => cases opened
  | signal id =>
    unfold Server.signal
    rfl
  | refuse | leave | receive | pass | date | consult => rfl

theorem Run.offers (run : Run s log u) (opened : u.store.closed = false) :
    u.store = s.store.offer log := by
  induction run with
  | start => rfl
  | @move log stored u next run m ih =>
    have offered := m.offers opened
    have before : u.store.closed = false := by
      rw [← (u.store.offer_frame stored).2, ← offered]
      exact opened
    rw [offered, ih before, Store.offer_append]

end Server

end Responder
