import Responder.Proofs.Server.Turns

/-!
# Signals that are heard

The signals that were sent are a history of which a server keeps the end, and each turn has seen
a beginning of it. Main statement: a signal stays to be heard by its turn until too many others
were sent after it, and a turn that hears it works no more.
-/

namespace Responder

namespace Signals

variable {s : Signals} {all older newer : List String} {id : String} {seen : Nat}

/-- All signals that were sent, the oldest first, of which the latest are kept. -/
structure Records (s : Signals) (all : List String) : Prop where
  recent : s.recent = all.drop (all.length - capacity)
  count : s.count = all.length

theorem Records.empty : Records {} [] := ⟨rfl, rfl⟩

theorem Records.send (h : s.Records all) (id : String) : (s.send id).Records (all ++ [id]) := by
  have kept : s.recent ++ [id] = (all ++ [id]).drop (all.length - capacity) := by
    rw [h.recent, List.drop_append_of_le_length (Nat.sub_le ..)]
  refine ⟨?_, ?_⟩
  · have lost : all.length - capacity + (all.length + 1 - (all.length - capacity) - capacity) =
        all.length + 1 - capacity := by
      omega
    simp only [Signals.send, kept, List.length_drop, List.length_append, List.length_singleton,
      List.drop_drop, lost]
  · simp only [Signals.send, h.count, List.length_append, List.length_singleton]

theorem Records.unseen (h : s.Records all) (seen : Nat) :
    s.unseen seen = all.drop (max seen (all.length - capacity)) := by
  unfold Signals.unseen
  have lost : all.length - capacity +
      (seen - (all.length - (all.length - (all.length - capacity)))) =
        max seen (all.length - capacity) := by
    omega
  rw [h.count, h.recent, List.length_drop, List.drop_drop, lost]

/-- A listener hears a signal that it has not seen, unless too many were sent after it. -/
theorem Records.hears (h : s.Records (older ++ id :: newer)) (new : seen ≤ older.length)
    (near : newer.length < capacity) : (s.listen seen id).1 = true := by
  have bound : max seen ((older ++ id :: newer).length - capacity) ≤ older.length := by
    simp only [List.length_append, List.length_cons]
    omega
  have there : id ∈ s.unseen seen := by
    rw [h.unseen, List.drop_append_of_le_length bound]
    exact List.mem_append_right _ List.mem_cons_self
  unfold listen
  dsimp only
  cases found : (s.unseen seen).findIdx? (· = id) with
  | some index => rfl
  | none =>
    have differs := List.findIdx?_eq_none_iff.1 found id there
    simp at differs

theorem Records.seen_le (h : s.Records all) (seen : Nat) (id : String) :
    (s.listen seen id).2 ≤ all.length := by
  unfold listen
  dsimp only
  split
  · next index found =>
    have inside := (List.findIdx?_eq_some_iff_findIdx_eq.1 found).1
    have short : (s.unseen seen).length ≤ all.length := by
      rw [h.unseen, List.length_drop]
      exact Nat.sub_le ..
    rw [h.count]
    dsimp only
    omega
  · exact h.count.le

/-- Who has seen all signals sees the next one, and hears it if it is its own. -/
theorem Records.listen_send (h : s.Records all) (other id : String) :
    (s.send other).listen all.length id = (decide (other = id), all.length + 1) := by
  have sent := h.send other
  have few : all.length + 1 - capacity ≤ all.length :=
    Nat.sub_le_of_le_add (Nat.add_le_add_left (by decide) _)
  have next : (s.send other).unseen all.length = [other] := by
    rw [sent.unseen, List.length_append, List.length_singleton, Nat.max_eq_left few,
      List.drop_left]
  have count : (s.send other).count = all.length + 1 := by
    rw [sent.count, List.length_append, List.length_singleton]
  simp only [listen, next, count, List.findIdx?_singleton]
  by_cases own : other = id
  · simp [own]
  · simp [own]

/-- Who hears its id finds it among the signals that are kept. -/
theorem mem_of_listen (hears : (s.listen seen id).1 = true) : id ∈ s.recent := by
  unfold listen at hears
  dsimp only at hears
  split at hears
  · next index found =>
    obtain ⟨inside, there, -⟩ := List.findIdx?_eq_some_iff_getElem.1 found
    exact List.mem_of_mem_drop (of_decide_eq_true there ▸ List.getElem_mem inside)
  · cases hears

theorem recent_send (s : Signals) (id : String) : (s.send id).recent ⊆ s.recent ++ [id] := by
  simp only [send]
  exact List.drop_subset _ _

end Signals

namespace Turn

variable {t next : Turn}

/-- A turn that still works for its response. -/
def Works (t : Turn) : Prop := ∃ a actions, t.stage = .working a actions

theorem Step.works (step : t.Step next) (works : next.Works) : t.Works := by
  obtain ⟨a, actions, stage⟩ := works
  cases step with
  | move m =>
    obtain ⟨events, shifted⟩ | ⟨-, same, -⟩ := m.cases_shifted
    · exact shifted.shift.working stage
    · exact ⟨a, actions, same.symm.trans stage⟩
  | receive taken => exact ⟨a, actions, (receive_spec taken).2.1.symm.trans stage⟩

theorem Leads.works (leads : t.Leads next) (works : next.Works) : t.Works := by
  induction leads with
  | refl => exact works
  | tail _ step ih => exact ih (step.works works)

theorem await_seen (clock : Duration) (a : Accumulator) (w : Wait Arrival) :
    (t.await clock a w).seen = t.seen := by
  cases w <;> rfl

theorem finish_seen (now : Int) : (t.finish now).seen = t.seen := by
  unfold finish
  split <;> rfl

theorem interrupt_seen : t.interrupt.seen = t.seen := by
  unfold interrupt
  split <;> rfl

theorem interrupt_id : t.interrupt.id = t.id := by
  unfold interrupt
  split <;> rfl

theorem interrupt_not_works : ¬ t.interrupt.Works := by
  rintro ⟨a, actions, stage⟩
  unfold interrupt at stage
  split at stage
  · cases stage
  · next idle => exact idle _ _ stage

/-- A turn after it has listened. -/
def heard (t : Turn) (signals : Signals) : Turn :=
  if (signals.listen t.seen t.id).1 = true then
    { t with seen := (signals.listen t.seen t.id).2 }.interrupt
  else { t with seen := (signals.listen t.seen t.id).2 }

theorem heard_id (signals : Signals) : (t.heard signals).id = t.id := by
  unfold heard
  split
  · exact interrupt_id
  · rfl

theorem heard_seen (signals : Signals) :
    (t.heard signals).seen = (signals.listen t.seen t.id).2 := by
  unfold heard
  split
  · exact interrupt_seen
  · rfl

theorem heard_not_works {signals : Signals}
    (signalled : (signals.listen t.seen t.id).1 = true) : ¬ (t.heard signals).Works := by
  unfold heard
  rw [if_pos signalled]
  exact interrupt_not_works

theorem perform_seen {clock : Duration} {a : Accumulator} {rest : List Action} {action : Action}
    (performed : t.perform clock a rest action = some next) : next.seen = t.seen := by
  cases action with
  | ask | askStream | idle => cases performed
  | read source =>
    obtain ⟨_ | ⟨result, results⟩⟩ := source
    · cases performed
      rfl
    · cases performed
      exact await_seen ..
  | settle outcome =>
    cases performed
    rfl
  | emit event =>
    simp only [perform] at performed
    split at performed
    · split at performed <;> cases performed
      rfl
    · cases performed
      rfl
  | take | append | call =>
    simp only [perform] at performed
    split at performed <;> cases performed <;> rfl

/-- Only by listening a turn sees signals. -/
theorem step_seen {clock : Duration} (stepped : t.step clock = some next) :
    next.seen = t.seen := by
  unfold step at stepped
  split at stepped
  · split at stepped
    · cases stepped
      exact interrupt_seen
    · exact perform_seen stepped
  · split at stepped
    · split at stepped
      · cases stepped
        rfl
      · split at stepped <;> cases stepped
        rfl
    · cases stepped
      rfl
  all_goals cases stepped

theorem receive_seen {event : Sequenced} (taken : t.receive? = some (event, next)) :
    next.seen = t.seen := by
  unfold receive? at taken
  split at taken
  · cases taken
  · obtain ⟨_, -, after⟩ := Option.map_eq_some_iff.1 taken
    cases after
    rfl

end Turn

namespace Server

variable {s u next : Server} {t : Turn} {stored : List Response} {id : String}
  {all older newer : List String}

theorem turn?_signal (s : Server) (other id : String) :
    (s.signal other).turn? id = s.turn? id := by
  simp only [Server.signal, Server.turn?]

theorem signals_signal (s : Server) (other : String) :
    (s.signal other).signals = s.signals.send other := by
  simp only [Server.signal]

theorem hear_eq (waits : t.waits = true) :
    s.hear t = s.modifyTurn t.id fun _ => t.heard s.signals :=
  if_pos waits

theorem hear_still (busy : ¬ t.waits = true) : s.hear t = s := if_neg busy

theorem turn?_hear (found : s.turn? id = some t) (waits : t.waits = true) :
    (s.hear t).turn? id = some (t.heard s.signals) := by
  obtain rfl : t.id = id := id_of_turn? found
  rw [hear_eq waits]
  exact turn?_modifyTurn found (Turn.heard_id _)

theorem signals_keep (s : Server) (r : Response) : (s.keep r).signals = s.signals := by
  unfold keep
  split
  · split <;> rfl
  · rfl

theorem signals_hear (s : Server) (t : Turn) : (s.hear t).signals = s.signals := by
  unfold Server.hear
  split <;> rfl

theorem Move.signals (m : Move s stored next) :
    next.signals = s.signals ∨ ∃ id, next = s.signal id := by
  cases m with
  | signal id => exact .inr ⟨id, rfl⟩
  | accept fresh started =>
    obtain ⟨_, -, started⟩ := bind_eq_ok.1 started
    cases started
    exact .inl rfl
  | advance mem moved =>
    left
    unfold Server.advance at moved
    split at moved
    · cases moved
      rfl
    split at moved
    · cases moved
      rfl
    · cases moved
      rfl
    · cases moved
      unfold finish
      dsimp only
      split
      · exact signals_keep ..
      · rfl
    · cases moved
  | hear mem => exact .inl (signals_hear ..)
  | refuse | leave | receive | pass | date | consult | close => exact .inl rfl

/-- What a step of a turn does to the turns of a server. -/
theorem turns_advance (moved : s.advance t = some next) :
    ∃ change, next.turns = (s.modifyTurn t.id change).turns ∧
      (∀ u, u.id = t.id → (change u).id = t.id) ∧ (change t).seen = t.seen := by
  unfold advance at moved
  split at moved
  · next u stepped =>
    cases moved
    obtain ⟨events, shifted⟩ := Turn.step_shifted (p := .never) stepped
    exact ⟨fun _ => u, rfl, fun _ _ => shifted.kept.id, Turn.step_seen stepped⟩
  split at moved
  · cases moved
    exact ⟨_, rfl, fun u same => (Turn.await_kept ..).id.trans same, Turn.await_seen ..⟩
  · cases moved
    exact ⟨_, rfl, fun u same => (Turn.await_kept ..).id.trans same, Turn.await_seen ..⟩
  · cases moved
    have kept : Turn.Kept t (t.finish s.now) := (Turn.Own.finish (p := .never) s.now).leads.kept
    exact ⟨fun _ => t.finish s.now, turns_finish s t, fun _ _ => kept.id, Turn.finish_seen s.now⟩
  · cases moved

theorem turn?_of_turns {u : Server} {other : String} {change : Turn → Turn}
    (turns : u.turns = (s.modifyTurn other change).turns) :
    u.turn? id = (s.modifyTurn other change).turn? id := by
  unfold Server.turn?
  rw [turns]

/-- A move is that of a turn, or the turn listens by it, or neither its stage nor what it has seen
is changed. -/
theorem Move.turn?_cases (ids : (s.turns.map Turn.id).Nodup) (m : Move s stored next)
    (found : s.turn? id = some t) :
    (s.advance t = some next ∧ stored = s.stored t) ∨ next = s.hear t ∨
      ∃ u, next.turn? id = some u ∧ u.stage = t.stage ∧ u.seen = t.seen := by
  have own : t.id = id := id_of_turn? found
  have same {v : Turn} (mem : v ∈ s.turns) (here : v.id = id) : v = t :=
    List.inj_on_of_nodup_map ids mem (mem_of_turn? found) (here.trans own.symm)
  have still {turns : List Turn} (more : next.turns = s.turns ++ turns) :
      ∃ u, next.turn? id = some u ∧ u.stage = t.stage ∧ u.seen = t.seen := by
    refine ⟨t, ?_, rfl, rfl⟩
    unfold Server.turn? at found ⊢
    rw [more, List.find?_append, found]
    rfl
  -- It is another turn that changes.
  have other {own : String} {change : Turn → Turn}
      (turns : next.turns = (s.modifyTurn own change).turns)
      (named : ∀ u, u.id = own → (change u).id = own) (here : own ≠ id) :
      ∃ u, next.turn? id = some u ∧ u.stage = t.stage ∧ u.seen = t.seen := by
    rw [turn?_of_turns turns, turn?_modifyTurn_other named here]
    exact ⟨t, found, rfl, rfl⟩
  cases m with
  | accept fresh started =>
    obtain ⟨_, -, started⟩ := bind_eq_ok.1 started
    cases started
    exact .inr (.inr (still rfl))
  | @advance _ v mem moved =>
    by_cases here : v.id = id
    · rw [same mem here] at moved ⊢
      exact .inl ⟨moved, rfl⟩
    · obtain ⟨change, turns, named, -⟩ := turns_advance moved
      exact .inr (.inr (other turns named here))
  | @hear v mem =>
    by_cases here : v.id = id
    · exact .inr (.inl (congrArg s.hear (same mem here)))
    · by_cases waits : v.waits = true
      · exact .inr (.inr (other (congrArg Server.turns (hear_eq waits))
          (fun _ _ => Turn.heard_id _) here))
      · rw [hear_still waits]
        exact .inr (.inr ⟨t, found, rfl, rfl⟩)
  | leave left =>
    by_cases here : left = id
    · subst here
      exact .inr (.inr ⟨_, turn?_modifyTurn found own, rfl, rfl⟩)
    · exact .inr (.inr (other rfl (fun _ named => named) here))
  | @receive v after reader event found' taken =>
    have spec := Turn.receive_spec taken
    have named : after.id = reader := spec.1.id.trans (id_of_turn? found')
    by_cases here : reader = id
    · subst here
      cases found.symm.trans found'
      exact .inr (.inr ⟨_, turn?_modifyTurn found named, spec.2.1, Turn.receive_seen taken⟩)
    · exact .inr (.inr (other rfl (fun _ _ => named) here))
  | signal sent =>
    rw [turn?_signal]
    exact .inr (.inr ⟨t, found, rfl, rfl⟩)
  | refuse | pass | date | consult | close =>
    exact .inr (.inr (still (List.append_nil _).symm))

/-- A turn sees no more signals by a move, unless it listens. -/
theorem Move.turn?_seen (ids : (s.turns.map Turn.id).Nodup) (m : Move s stored next)
    (found : s.turn? id = some t) :
    next = s.hear t ∨ ∃ u, next.turn? id = some u ∧ u.seen = t.seen := by
  obtain ⟨moved, -⟩ | hears | ⟨u, there, -, sees⟩ := m.turn?_cases ids found
  · obtain rfl : t.id = id := id_of_turn? found
    obtain ⟨change, turns, named, sees⟩ := turns_advance moved
    refine .inr ⟨change t, ?_, sees⟩
    rw [turn?_of_turns turns]
    exact turn?_modifyTurn found (named t rfl)
  · exact .inl hears
  · exact .inr ⟨u, there, sees⟩

/-- What a server does to its turns and to the signals. -/
structure Passage (s next : Server) : Prop where
  proceeds : Proceeds s next
  signals : next.signals = s.signals ∨ ∃ id, next = s.signal id
  /-- A turn sees signals only if it listens. -/
  seen : ∀ {id t}, s.turn? id = some t →
    next = s.hear t ∨ ∃ u, next.turn? id = some u ∧ u.seen = t.seen

theorem Passage.still (turns : next.turns = s.turns) (signals : next.signals = s.signals) :
    Passage s next := by
  refine ⟨.lead (.still turns), .inl signals, fun found => .inr ⟨_, ?_, rfl⟩⟩
  unfold Server.turn? at found ⊢
  rw [turns]
  exact found

theorem Move.passage (ids : (s.turns.map Turn.id).Nodup) (m : Move s stored next) :
    Passage s next :=
  ⟨m.turns ids, m.signals, m.turn?_seen ids⟩

/-- No turn has seen more signals than were sent. -/
structure Attends (s : Server) (all : List String) : Prop where
  records : s.signals.Records all
  seen : ∀ t ∈ s.turns, t.seen ≤ all.length

theorem Attends.signal (h : Attends s all) (other : String) :
    Attends (s.signal other) (all ++ [other]) := by
  refine ⟨?_, fun t mem => ?_⟩
  · rw [signals_signal]
    exact h.records.send other
  · unfold Server.signal at mem
    rw [List.length_append]
    exact (h.seen t mem).trans (Nat.le_add_right ..)

theorem Passage.attends (p : Passage s next) (ids : (s.turns.map Turn.id).Nodup)
    (h : Attends s all) : ∃ all, Attends next all := by
  obtain same | ⟨other, rfl⟩ := p.signals
  · refine ⟨all, same ▸ h.records, fun u mem => ?_⟩
    have there := turn?_of_mem (p.proceeds.ids ids) mem
    cases found : s.turn? u.id with
    | none => exact (p.proceeds.admitted found there).2.trans h.records.count.le
    | some t =>
      obtain rfl | ⟨v, found', sees⟩ := p.seen found
      · by_cases waits : t.waits = true
        · rw [turn?_hear found waits] at there
          cases there
          rw [Turn.heard_seen]
          exact h.records.seen_le ..
        · rw [hear_still waits] at mem
          exact h.seen u mem
      · cases found'.symm.trans there
        exact sees.le.trans (h.seen t (mem_of_turn? found))
  · exact ⟨_, h.signal other⟩

theorem New.attends (new : s.New) (silent : s.signals = {}) : Attends s [] := by
  refine ⟨silent ▸ .empty, ?_⟩
  rw [new.turns]
  exact fun _ mem => absurd mem List.not_mem_nil

theorem Run.attends {log : List Response} (reached : s.Reached) (run : Run s log u)
    (h : Attends s all) : ∃ all, Attends u all := by
  induction run with
  | start => exact ⟨all, h⟩
  | move run m ih =>
    obtain ⟨all, h⟩ := ih
    have ids := (reached.run run).ids
    exact (m.passage ids).attends ids h

/-- A signal was sent to a turn, which has not seen it, or works no more. -/
structure Pending (s : Server) (id : String) (older newer : List String) : Prop where
  records : s.signals.Records (older ++ id :: newer)
  unseen : ∀ t, s.turn? id = some t → t.Works → t.seen ≤ older.length

/-- A turn that was just sent a signal has not seen it. -/
theorem Attends.pending (h : Attends s all) (id : String) :
    Pending (s.signal id) id all [] := by
  refine ⟨?_, fun t found _ => ?_⟩
  · rw [signals_signal]
    exact h.records.send id
  · rw [turn?_signal] at found
    exact h.seen t (mem_of_turn? found)

theorem Pending.hears (h : Pending s id older newer) (near : newer.length < Signals.capacity)
    (found : s.turn? id = some t) (works : t.Works) :
    (s.signals.listen t.seen id).1 = true :=
  h.records.hears (h.unseen t found works) near

theorem Passage.pending (p : Passage s next) (h : Pending s id older newer)
    (found : s.turn? id = some t) (near : newer.length < Signals.capacity) :
    ∃ more, Pending next id older (newer ++ more) := by
  obtain same | ⟨other, rfl⟩ := p.signals
  · refine ⟨[], ?_, fun u there works => ?_⟩
    · rw [List.append_nil, same]
      exact h.records
    obtain ⟨v, found', leads⟩ := p.proceeds.turn? found
    cases found'.symm.trans there
    have worked : t.Works := leads.works works
    obtain rfl | ⟨v, found', sees⟩ := p.seen found
    · by_cases waits : t.waits = true
      · rw [turn?_hear found waits] at there
        cases there
        refine absurd works (Turn.heard_not_works ?_)
        rw [id_of_turn? found]
        exact h.hears near found worked
      · rw [hear_still waits, found] at there
        cases there
        exact h.unseen t found worked
    · cases found'.symm.trans there
      exact sees.le.trans (h.unseen t found worked)
  · refine ⟨[other], ?_, ?_⟩
    · have whole := h.records.send other
      rw [List.append_assoc] at whole
      rw [signals_signal]
      exact whole
    · intro u there
      rw [turn?_signal] at there
      exact h.unseen u there

end Server

end Responder
