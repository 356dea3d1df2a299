import Responder.Proofs.Turn.Rank

/-!
# Requests to the backend

Each request that reaches the backend is that of a turn. Main statement: no turn asks the backend
twice, whatever else the server does meanwhile.
-/

namespace Responder

namespace Turn

variable {p : Prepared} {t : Turn} {stage after : Stage} {events : List Event}

/-- Whatever comes of asking the backend, it is not asked again. -/
theorem Shift.asks_eq_zero (h : Shift p t stage events after) (asking : Asking stage) :
    after.asks = 0 := by
  cases h with
  | ask | askStream => exact Stage.asks_awaiting ..
  | interrupt => rfl
  | finish | tell | lose => exact asking.elim
  | _ => cases asking

end Turn

namespace Server

variable {s next start u : Server} {t : Turn} {log stored : List Response} {ids : List String}
  {id : String}

/-- What a turn does by its step, and whether it asks the backend by it. -/
structure Advances (s : Server) (t : Turn) (next : Server) : Prop where
  shifts : ∃ u p events, next.turn? t.id = some u ∧ Turn.Shifted p t events u
  asked : next.asked = s.asked ∨ (Turn.Asking t.stage ∧ next.asked = s.asked ++ [t.request])

theorem asked_finish (s : Server) (t : Turn) : (s.finish t).asked = s.asked := by
  unfold finish keep
  dsimp only
  split
  · split
    · split <;> rfl
    · rfl
  · rfl

theorem advances (found : s.turn? id = some t) (moved : s.advance t = some next) :
    Advances s t next := by
  have own : t.id = id := id_of_turn? found
  rw [← own] at found
  unfold advance at moved
  split at moved
  · next u stepped =>
    cases moved
    obtain ⟨events, shifted⟩ := Turn.step_shifted (p := .never) stepped
    exact ⟨⟨u, _, events, turn?_modifyTurn found shifted.kept.id, shifted⟩, .inl rfl⟩
  split at moved
  · next a rest asks =>
    cases moved
    let answer := (s.backend.complete t.lane t.request).2
    have shifted : Turn.Shifted ⟨answer, .forever⟩ t [] (t.await s.clock a (answer.map .answer)) :=
      .await (asks ▸ .ask s.clock a rest)
    refine ⟨⟨_, _, [], ?_, shifted⟩, .inr ⟨?_, rfl⟩⟩
    · exact turn?_modifyTurn (s := { s with backend := _, asked := _ }) found shifted.kept.id
    · rw [asks]
      rfl
  · next a rest asks =>
    cases moved
    let opening := (s.backend.stream t.lane t.request).2
    have shifted :
        Turn.Shifted ⟨.forever, opening⟩ t [] (t.await s.clock a (opening.map .opening)) :=
      .await (asks ▸ .askStream s.clock a rest)
    refine ⟨⟨_, _, [], ?_, shifted⟩, .inr ⟨?_, rfl⟩⟩
    · exact turn?_modifyTurn (s := { s with backend := _, asked := _ }) found shifted.kept.id
    · rw [asks]
      rfl
  · next a outcome settling =>
    cases moved
    have finish : t.finish s.now =
        { t with stage := .closing (a.finalize t.schema s.now outcome) } := by
      simp only [Turn.finish, settling]
    have shifted : Turn.Shifted .never t [] (t.finish s.now) := by
      rw [finish]
      exact .silent (settling ▸ .finish s.now a outcome)
    exact ⟨⟨_, _, [], turn?_finish found, shifted⟩, .inl (asked_finish s t)⟩
  · cases moved

/-- A run with the ids of the turns that asked the backend on the way. -/
inductive Called (start : Server) : List String → Server → Prop
  | start : Called start [] start
  | call {ids : List String} {s next : Server} {t : Turn} : Called start ids s → t ∈ s.turns →
      s.advance t = some next → next.asked = s.asked ++ [t.request] →
      Called start (ids ++ [t.id]) next
  | quiet {ids : List String} {s next : Server} {stored : List Response} : Called start ids s →
      Move s stored next → next.asked = s.asked → Called start ids next

theorem Called.run (called : Called start ids s) : ∃ log, Run start log s := by
  induction called with
  | start => exact ⟨[], .start⟩
  | call _ mem moved _ ih =>
    obtain ⟨log, run⟩ := ih
    exact ⟨_, run.move (.advance mem moved)⟩
  | quiet _ m _ ih =>
    obtain ⟨log, run⟩ := ih
    exact ⟨_, run.move m⟩

/-- Every run has its calls. -/
theorem Run.called (reached : start.Reached) (run : Run start log s) :
    ∃ ids, Called start ids s := by
  induction run with
  | start => exact ⟨[], .start⟩
  | @move log stored s next run m ih =>
    obtain ⟨ids, called⟩ := ih
    cases m with
    | advance mem moved =>
      have found := turn?_of_mem (reached.run run).ids mem
      obtain same | ⟨-, more⟩ := (advances found moved).asked
      · exact ⟨ids, called.quiet (.advance mem moved) same⟩
      · exact ⟨_, called.call mem moved more⟩
    | accept fresh started =>
      refine ⟨ids, called.quiet (.accept fresh started) ?_⟩
      obtain ⟨admitted, -, started⟩ := bind_eq_ok.1 started
      cases started
      rfl
    | refuse refused => exact ⟨ids, called.quiet (.refuse refused) rfl⟩
    | @hear t mem =>
      refine ⟨ids, called.quiet (.hear mem) ?_⟩
      unfold Server.hear
      split <;> rfl
    | signal id =>
      refine ⟨ids, called.quiet (.signal id) ?_⟩
      unfold Server.signal
      rfl
    | leave id => exact ⟨ids, called.quiet (.leave id) rfl⟩
    | receive found taken => exact ⟨ids, called.quiet (.receive found taken) rfl⟩
    | pass clock => exact ⟨ids, called.quiet (.pass clock) rfl⟩
    | date now => exact ⟨ids, called.quiet (.date now) rfl⟩
    | consult => exact ⟨ids, called.quiet .consult rfl⟩
    | close => exact ⟨ids, called.quiet .close rfl⟩

/-- What the calls so far and those to come add up to. -/
structure Counted (ids : List String) (s : Server) : Prop where
  known : ids ⊆ s.turns.map Turn.id
  once : ∀ t ∈ s.turns, ids.count t.id + t.stage.asks ≤ 1

theorem Counted.lead (h : Counted ids s) (leads : TurnsLead s next) : Counted ids next := by
  obtain ⟨change, turns, leads⟩ := leads
  refine ⟨?_, ?_⟩
  · intro id mem
    obtain ⟨t, there, same⟩ := List.mem_map.1 (h.known mem)
    rw [turns]
    exact List.mem_map.2
      ⟨change t, List.mem_map_of_mem there, (leads t there).kept.id.trans same⟩
  · rw [turns, List.forall_mem_map]
    intro t mem
    have before := h.once t mem
    have less := (leads t mem).asks_le
    rw [(leads t mem).kept.id]
    omega

theorem Counted.move (h : Counted ids s) (reached : s.Reached) (m : Move s stored next) :
    Counted ids next := by
  cases m.turns reached.ids with
  | lead leads => exact h.lead leads
  | @join setting r admitted seen streamed _ fresh _ turns =>
    refine ⟨?_, ?_⟩
    · rw [turns, List.map_append]
      exact fun id mem => List.mem_append_left _ (h.known mem)
    · rw [turns, List.forall_mem_append, List.forall_mem_singleton]
      refine ⟨h.once, ?_⟩
      have new : (admitted.turn setting seen streamed).id ∉ ids := by
        intro mem
        obtain ⟨t, there, same⟩ := List.mem_map.1 (h.known mem)
        exact fresh t there same
      rw [List.count_eq_zero_of_not_mem new, Turn.asks_admitted]

theorem Counted.call (h : Counted ids s) (reached : s.Reached) (mem : t ∈ s.turns)
    (moved : s.advance t = some next) (asked : next.asked = s.asked ++ [t.request]) :
    Counted (ids ++ [t.id]) next := by
  have step : Move s (s.stored t) next := .advance mem moved
  have after := h.move reached step
  obtain ⟨⟨u, p, events, found, shifted⟩, same | ⟨asking, -⟩⟩ :=
    advances (turn?_of_mem reached.ids mem) moved
  · rw [asked] at same
    simp at same
  refine ⟨?_, ?_⟩
  · refine List.append_subset.2 ⟨after.known, List.cons_subset.2 ⟨?_, List.nil_subset _⟩⟩
    exact List.mem_map.2 ⟨u, mem_of_turn? found, shifted.kept.id⟩
  · intro v there
    rw [List.count_append, List.count_singleton]
    by_cases other : t.id = v.id
    · -- The turn that asks had not asked before, and does not ask again.
      have found' := turn?_of_mem (reached.move step).ids there
      rw [← other, found] at found'
      cases found'
      have before := h.once t mem
      have pos := Turn.asks_pos_of_asking asking
      rw [shifted.shift.asks_eq_zero asking, other, beq_self_eq_true, if_pos rfl]
      rw [other] at before
      omega
    · have before := after.once v there
      rw [beq_eq_false_iff_ne.2 other, if_neg Bool.false_ne_true]
      omega

/-- No turn asks the backend twice. -/
theorem Called.counted (reached : start.Reached) (called : Called start ids s) :
    Counted ids s := by
  have reach {ids : List String} {s : Server} (called : Called start ids s) : s.Reached := by
    obtain ⟨log, run⟩ := called.run
    exact reached.run run
  induction called with
  | start =>
    obtain ⟨first, log, new, run⟩ := reached
    have asks := run.turns (P := fun t => t.stage.asks ≤ 1)
      (fun _ seen streamed => (Turn.asks_admitted ..).le)
      (fun step h => step.leads.asks_le.trans h) new
    exact ⟨List.nil_subset _, fun t mem => by simpa using asks t mem⟩
  | call before mem moved asked ih => exact ih.call (reach before) mem moved asked
  | quiet before m _ ih => exact ih.move (reach before) m

end Server

end Responder
