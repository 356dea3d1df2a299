import Responder.Proofs.Server.Hearing

/-!
# Signals that are overrun

The signals are kept up to a bound, and a turn that does not listen in time misses those that are
gone. Main statement: a turn that waits hears its signal when it listens next exactly if fewer other
signals were sent after it than are kept; otherwise it goes on as if it had not been signalled.
-/

namespace Responder

namespace Signals

variable {s : Signals} {all older newer : List String} {id : String} {seen : Nat}

/-- A listener hears the ids that it has not seen and that are still kept. -/
theorem Records.listen_iff (h : s.Records all) :
    (s.listen seen id).1 = true ↔ id ∈ all.drop (max seen (all.length - capacity)) := by
  rw [← h.unseen]
  unfold listen
  dsimp only
  cases found : (s.unseen seen).findIdx? (· = id) with
  | some index =>
    obtain ⟨inside, there, -⟩ := List.findIdx?_eq_some_iff_getElem.1 found
    exact iff_of_true rfl (of_decide_eq_true there ▸ List.getElem_mem inside)
  | none =>
    have differs := List.findIdx?_eq_none_iff.1 found
    refine iff_of_false Bool.false_ne_true fun mem => ?_
    have same := differs id mem
    simp at same

/-- Of a signal and what was sent after it, a listener hears the signal unless it is overrun. -/
theorem Records.listen_pending_iff (h : s.Records (older ++ id :: newer))
    (new : seen ≤ older.length) (others : id ∉ newer) :
    (s.listen seen id).1 = true ↔ newer.length < capacity := by
  refine ⟨fun hears => ?_, h.hears new⟩
  by_contra far
  rw [h.listen_iff] at hears
  have gone : older.length + 1 ≤
      max seen ((older ++ id :: newer).length - capacity) := by
    simp only [List.length_append, List.length_cons]
    omega
  have rest : (older ++ id :: newer).drop (older.length + 1) = newer := by
    rw [List.drop_length_add_append, List.drop_one, List.tail_cons]
  have mem : id ∈ (older ++ id :: newer).drop (older.length + 1) :=
    List.drop_subset_drop_left _ gone hears
  exact others (rest ▸ mem)

end Signals

namespace Server

variable {s : Server} {t : Turn} {all older newer : List String} {id : String}

theorem Pending.signal (h : Pending s id older newer) (other : String) :
    Pending (s.signal other) id older (newer ++ [other]) := by
  refine ⟨?_, fun t found => h.unseen t ((turn?_signal ..).symm.trans found)⟩
  have whole := h.records.send other
  rw [List.append_assoc] at whole
  rw [signals_signal]
  exact whole

theorem Pending.signals (h : Pending s id older newer) (others : List String) :
    Pending (others.foldl Server.signal s) id older (newer ++ others) := by
  induction others generalizing s newer with
  | nil =>
    rw [List.append_nil]
    exact h
  | cons other rest ih =>
    rw [List.foldl_cons, List.append_cons]
    exact ih (h.signal other)

theorem turn?_signals (s : Server) (others : List String) (id : String) :
    (others.foldl Server.signal s).turn? id = s.turn? id := by
  induction others generalizing s with
  | nil => rfl
  | cons other rest ih => rw [List.foldl_cons, ih, turn?_signal]

/-- A turn that works waits and is signalled, and then others are, before it listens. When it does
it settles as cancelled, unless its signal was overrun: then it goes on as it was. -/
theorem Attends.overrun {a : Accumulator} {actions : List Action} (h : Attends s all)
    (found : s.turn? t.id = some t) (works : t.stage = .working a actions)
    (waits : t.waits = true) (others : ∀ other ∈ newer, other ≠ t.id) :
    ∃ u, ((newer.foldl Server.signal (s.signal t.id)).hear t).turn? t.id = some u ∧
      u.stage =
        if newer.length < Signals.capacity then .settling a .cancelled else .working a actions := by
  have pending := (h.pending t.id).signals newer
  have there : (newer.foldl Server.signal (s.signal t.id)).turn? t.id = some t := by
    rw [turn?_signals, turn?_signal, found]
  have new : t.seen ≤ all.length := h.seen t (mem_of_turn? found)
  have hears := pending.records.listen_pending_iff new fun mem => others _ mem rfl
  rw [List.nil_append] at hears
  refine ⟨_, turn?_hear there waits, ?_⟩
  unfold Turn.heard
  by_cases near : newer.length < Signals.capacity
  · rw [if_pos (hears.2 near), if_pos near]
    simp only [Turn.interrupt, works]
  · rw [if_neg fun signalled => near (hears.1 signalled), if_neg near]
    exact works

end Server

end Responder
