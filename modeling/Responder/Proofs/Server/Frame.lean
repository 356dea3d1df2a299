import Responder.Proofs.Server.Hearing

/-!
# What the steps of a turn leave alone

A server moves each of its turns on its own. Main statement: whatever it does with other turns, a
turn stands as it is, and so do the signals that it has yet to hear, the date and the clock.
-/

namespace Responder.Server

variable {s u next : Server} {t : Turn} {id own : String}

/-- A turn, and what it looks at of its server, is the same in both. -/
structure Apart (id : String) (s next : Server) : Prop where
  turn : next.turn? id = s.turn? id
  signals : next.signals = s.signals
  now : next.now = s.now
  clock : next.clock = s.clock

theorem Apart.refl (id : String) (s : Server) : Apart id s s := ⟨rfl, rfl, rfl, rfl⟩

theorem Apart.trans (h : Apart id s u) (k : Apart id u next) : Apart id s next :=
  ⟨k.turn.trans h.turn, k.signals.trans h.signals, k.now.trans h.now, k.clock.trans h.clock⟩

theorem hear_apart (other : t.id ≠ id) : Apart id s (s.hear t) := by
  by_cases waits : t.waits = true
  · rw [hear_eq waits]
    exact ⟨turn?_modifyTurn_other (fun _ _ => Turn.heard_id _) other, rfl, rfl, rfl⟩
  · rw [hear_still waits]
    exact .refl id s

theorem keep_frame (s : Server) (r : Response) : ∃ store, s.keep r = { s with store } := by
  unfold keep
  split
  · split
    · exact ⟨_, rfl⟩
    · exact ⟨s.store, rfl⟩
  · exact ⟨s.store, rfl⟩

/-- To finish a turn changes the store and the turn. -/
theorem finish_frame (s : Server) (t : Turn) :
    ∃ store, s.finish t = { s with store }.modifyTurn t.id fun _ => t.finish s.now := by
  unfold finish
  dsimp only
  split
  · next r _ =>
    obtain ⟨store, kept⟩ := s.keep_frame r
    exact ⟨store, by rw [kept]⟩
  · exact ⟨s.store, rfl⟩

theorem advance_apart (other : t.id ≠ id) (moved : s.advance t = some next) :
    Apart id s next := by
  obtain ⟨change, turns, named, -⟩ := turns_advance moved
  have turn : next.turn? id = s.turn? id := by
    rw [turn?_of_turns turns, turn?_modifyTurn_other named other]
  unfold advance at moved
  split at moved
  · cases moved
    exact ⟨turn, rfl, rfl, rfl⟩
  split at moved
  · cases moved
    exact ⟨turn, rfl, rfl, rfl⟩
  · cases moved
    exact ⟨turn, rfl, rfl, rfl⟩
  · cases moved
    obtain ⟨store, finished⟩ := s.finish_frame t
    rw [finished] at turn ⊢
    exact ⟨turn, rfl, rfl, rfl⟩
  · cases moved

theorem runFor_apart (other : own ≠ id) (steps : Nat) : Apart id s (s.runFor own steps) := by
  induction steps generalizing s with
  | zero => exact .refl id s
  | succ steps ih =>
    unfold runFor
    split
    · next next stepped =>
      obtain ⟨t, found, moved⟩ := Option.bind_eq_some_iff.1 stepped
      have away : t.id ≠ id := id_of_turn? found ▸ other
      exact (advance_apart away moved).trans ih
    · exact .refl id s

theorem run_apart (other : own ≠ id) : Apart id s (s.run own) := by
  have steps (u : Server) : Apart id u ((u.runFor own (u.budgetOf own)).runFor own
      ((u.runFor own (u.budgetOf own)).budgetOf own)) :=
    (runFor_apart other _).trans (runFor_apart other _)
  unfold run
  cases found : s.turn? own with
  | none => exact steps s
  | some t =>
    have away : t.id ≠ id := id_of_turn? found ▸ other
    exact (hear_apart away).trans (steps _)

/-- A server may run all other turns as far as they go. -/
theorem foldl_run_apart {ids : List String} (others : id ∉ ids) :
    Apart id s (ids.foldl run s) := by
  induction ids generalizing s with
  | nil => exact .refl id s
  | cons own rest ih =>
    obtain ⟨other, away⟩ := not_or.1 (List.mem_cons.not.1 others)
    exact (run_apart (Ne.symm other)).trans (ih away)

end Responder.Server
