import Responder.Proofs.Server.Settlement

/-!
# Delivery of signals

A turn that waits hears the signal that it is sent, settles, and is finished. Main statement: from
every scene in which a turn waits there is a run that goes on for ever and in which all of this
happens.
-/

namespace Responder

theorem Turn.works_of_waits {t : Turn} (waits : t.waits = true) : t.Works := by
  unfold Turn.waits at waits
  split at waits
  · next a action rest stage => exact ⟨a, action :: rest, stage⟩
  · cases waits

namespace Scene

variable {s next : Scene} {w : Nat → Scene} {t : Turn} {a : Accumulator} {outcome : Outcome}
  {log stored : List Response} {id : String} {r : Response} {k : Nat}

def signal (s : Scene) (id : String) : Scene := { s with server := s.server.signal id }

theorem server_signal (s : Scene) (id : String) :
    (s.signal id).server = s.server.signal id := by
  simp only [signal]

theorem ending_signal (s : Scene) (id : String) : (s.signal id).ending = s.ending := by
  simp only [signal]

theorem signal_step (s : Scene) (id : String) : Step s [] (s.signal id) := by
  unfold signal
  refine .move (.signal id) fun other unanswered => ?_
  rw [Server.answer?, Server.turn?_signal]
  exact unanswered

/-- Nothing need happen. -/
theorem still_step (s : Scene) : Step s [] s :=
  .move (.date s.server.now) fun _ unanswered => unanswered

/-- A run goes on for ever if nothing more happens. -/
theorem Run.endless (run : Run s log next) :
    ∃ w k, w 0 = s ∧ Endless w ∧ ∀ m, k ≤ m → w m = next := by
  induction run with
  | start => exact ⟨fun _ => s, 0, rfl, fun _ => ⟨[], still_step s⟩, fun _ _ => rfl⟩
  | @step log stored u next _ step ih =>
    obtain ⟨w, k, first, endless, final⟩ := ih
    refine ⟨fun n => if n ≤ k then w n else next, k + 1, ?_, fun n => ?_, fun m later => ?_⟩
    · exact (if_pos (Nat.zero_le k)).trans first
    · dsimp only
      obtain early | rfl | late := Nat.lt_trichotomy n k
      · rw [if_pos early.le, if_pos (Nat.succ_le_of_lt early)]
        exact endless n
      · rw [if_pos (Nat.le_refl n), if_neg (Nat.not_succ_le_self n), final n (Nat.le_refl n)]
        exact ⟨_, step⟩
      · rw [if_neg (Nat.not_le.2 late), if_neg (Nat.not_le.2 (Nat.lt_succ_of_lt late))]
        exact ⟨[], still_step next⟩
    · exact if_neg (Nat.not_le.2 later)

/-- A turn is finished, and nothing of it is left to be done. -/
structure Finished (s : Scene) (id : String) : Prop where
  answered : ∃ r, s.server.answer? id = some r
  ending : s.ending id = none

theorem Finished.not_works (h : Finished s id) (found : s.server.turn? id = some t) :
    ¬ t.Works := by
  rintro ⟨a, actions, stage⟩
  obtain ⟨r, answered⟩ := h.answered
  rw [Server.answer?, found, Option.bind_some, Turn.response?, stage] at answered
  cases answered

theorem Finished.not_finishes (h : Finished s id) : ¬ Finishes s id stored next := by
  intro finishes
  cases finishes with
  | freeze found settling =>
    obtain ⟨r, answered⟩ := h.answered
    rw [Server.answer?, found, Option.bind_some, Turn.response?, settling] at answered
    cases answered
  | persist pending => cases h.ending.symm.trans pending
  | release kept => cases h.ending.symm.trans kept

/-- A turn that has settled can be finished. -/
theorem exists_finished (found : s.server.turn? id = some t)
    (settling : t.stage = .settling a outcome) (pending : s.ending id = none) :
    ∃ log next, Run s log next ∧ Finished next id ∧ next.server.signals = s.server.signals := by
  obtain ⟨first, second, third⟩ := finishes_in_turn found settling pending rfl
  generalize a.finalize t.schema s.server.now outcome = r at first second third
  have run : Run s _ _ :=
    ((Run.start.step (.finish first)).step (.finish second)).step (.finish third)
  refine ⟨_, _, run, ⟨⟨r, ?_⟩, ending_release ..⟩, Server.signals_keep ..⟩
  have named : t.id = id := Server.id_of_turn? found
  have kept : ((s.freeze id r).persist id r).server.turn? id = some t :=
    (Server.turn?_keep ..).trans found
  have there : (((s.freeze id r).persist id r).release id r).server.turn? id =
      some { t with stage := .closing r } :=
    Server.turn?_modifyTurn kept named
  rw [Server.answer?, there]
  rfl

/-- Who listens is not finished by it. -/
theorem hear_step (found : s.server.turn? id = some t) :
    Step s [] { s with server := s.server.hear t } := by
  refine .move (.hear (Server.mem_of_turn? found)) fun other unanswered => ?_
  by_cases waits : t.waits = true
  · by_cases same : id = other
    · subst same
      rw [Server.answer?, found] at unanswered
      rw [Server.answer?, Server.turn?_hear found waits]
      exact Turn.heard_response? _ unanswered
    · have named : t.id ≠ other := Server.id_of_turn? found ▸ same
      rw [Server.hear_eq waits, Server.answer?,
        Server.turn?_modifyTurn_other (fun _ _ => Turn.heard_id _) named]
      exact unanswered
  · rw [Server.hear_still waits]
    exact unanswered

theorem Sound.ending_of_works (h : Sound s log) (found : s.server.turn? id = some t)
    (works : t.Works) : s.ending id = none := by
  cases ending : s.ending id with
  | none => rfl
  | some e =>
    obtain ⟨a, actions, stage⟩ := works
    obtain ⟨u, b, outcome, now, there, settling, -⟩ := h.frozen id e ending
    cases found.symm.trans there
    cases stage.symm.trans settling

/-- A turn that waits hears the signal that it is sent, and is finished. -/
theorem Sound.finishes_of_signal (h : Sound s log) (found : s.server.turn? id = some t)
    (waits : t.waits = true) : ∃ log next, Run (s.signal id) log next ∧
      Finished next id ∧ next.server.signals = s.server.signals.send id := by
  have works := Turn.works_of_waits waits
  obtain ⟨all, attends⟩ := h.attends
  have sent := attends.pending id
  rw [← server_signal] at sent
  have there : (s.signal id).server.turn? id = some t := by
    rw [server_signal, Server.turn?_signal]
    exact found
  have near : ([] : List String).length < Signals.capacity := by decide
  have signalled := sent.hears near there works
  have pending : (s.signal id).ending id = none := by
    rw [ending_signal]
    exact h.ending_of_works found works
  have signals : (s.signal id).server.signals = s.server.signals.send id := by
    rw [server_signal, Server.signals_signal]
  generalize s.signal id = u at there signalled pending signals ⊢
  obtain ⟨a, actions, stage⟩ := works
  have settling : (t.heard u.server.signals).stage = .settling a .cancelled := by
    obtain rfl : t.id = id := Server.id_of_turn? there
    simp only [Turn.heard, signalled, if_true, Turn.interrupt, stage]
  have heard := Server.turn?_hear there waits
  obtain ⟨log, next, run, finished, same⟩ :=
    exists_finished (s := { u with server := u.server.hear t }) heard settling pending
  refine ⟨_, next, (Run.start.step (hear_step there)).trans run, finished, ?_⟩
  rw [same, Server.hear_eq waits]
  exact signals

/-- A turn that waits can be cancelled. -/
theorem Sound.exists_delivery (h : Sound s log) (found : s.server.turn? id = some t)
    (waits : t.waits = true) : ∃ w : Nat → Scene, w 0 = s ∧
      w 1 = s.signal id ∧ Endless w ∧ Server.Hears (fun n => (w n).server) id ∧ Settles w id := by
  obtain ⟨log', next, run, finished, signals⟩ := h.finishes_of_signal found waits
  obtain ⟨w, k, first, endless, final⟩ := run.endless
  let v (n : Nat) : Scene := n.casesOn s w
  have endless' : Endless v := by
    intro n
    cases n with
    | zero =>
      refine ⟨[], ?_⟩
      change Step s [] (w 0)
      rw [first]
      exact signal_step s id
    | succ n => exact endless n
  have last (n : Nat) : v (n + k + 1) = next := final (n + k) (Nat.le_add_left k n)
  refine ⟨v, rfl, first, endless', fun n _ => ⟨n + k + 1, by omega, ?_, ?_⟩, fun n =>
    ⟨n + k + 1, by omega, ?_⟩⟩
  · have early : s.server.signals.count ≤ (v (n + 1)).server.signals.count :=
      (endless'.flow h).count_le (Nat.zero_le (n + 1))
    have room : 1 < Signals.capacity := by decide
    simp only [last, signals, Signals.send]
    omega
  · intro u there works
    dsimp only at there
    rw [last] at there
    exact absurd works (finished.not_works there)
  · intro stored after finishes
    rw [last] at finishes
    exact absurd finishes finished.not_finishes

end Scene

end Responder
