import Responder.Proofs.Server.Scene

/-!
# What is decided of a turn

Once a response was offered to the store it is the response of its turn. Main statement: whatever
happens between the steps by which turns are finished, each turn has one response at most, which
is never changed, and one that is to be stored is stored unless the store was closed.
-/

namespace Responder

namespace Turn

variable {t next : Turn} {a : Accumulator} {outcome : Outcome}

/-- A turn that has settled can only be finished. -/
theorem Step.of_settling (step : t.Step next) (settling : t.stage = .settling a outcome) :
    next.stage = .settling a outcome ∨
      ∃ now, next.stage = .closing (a.finalize t.schema now outcome) := by
  obtain ⟨p, events, shifted⟩ | still := step.cases_shifted
  · have shift := shifted.shift
    rw [settling] at shift
    generalize next.stage = after at shift ⊢
    cases shift with
    | finish now a outcome => exact .inr ⟨now, rfl⟩
  · exact .inl (still.stage.trans settling)

theorem Step.of_working (step : t.Step next) (works : t.Works) : next.response? = none := by
  obtain ⟨a, actions, stage⟩ := works
  obtain ⟨p, events, shifted⟩ | still := step.cases_shifted
  · have flies : { next with stage := next.stage }.isInFlight = true :=
      shifted.shift.isInFlight stage
    exact isInFlight_iff.1 flies
  · rw [Turn.response?, still.stage, stage]

theorem Leads.settling (leads : t.Leads next) (settling : t.stage = .settling a outcome)
    (unfinished : next.response? = none) : next.stage = .settling a outcome := by
  induction leads with
  | refl => exact settling
  | @tail u next _ step ih =>
    have before : u.response? = none := by
      cases finished : u.response? with
      | none => rfl
      | some r => cases unfinished.symm.trans (step.response? finished)
    obtain same | ⟨now, closing⟩ := step.of_settling (ih before)
    · exact same
    · rw [Turn.response?, closing] at unfinished
      cases unfinished

/-- What holds of a turn at all times. -/
structure Proper (t : Turn) : Prop where
  named : t.stage.response.id = t.id
  led : t.stage.Led
  announces : t.Announces
  terminal : ∀ r, t.response? = some r → r.status.isTerminal = true

theorem Step.proper (step : t.Step next) (h : t.Proper) : next.Proper := by
  have named := congrArg Response.id step.continues.asked
  refine ⟨named.trans (h.named.trans step.continues.id.symm), step.led h.led,
    step.announces h.announces, ?_⟩
  intro r finished
  have old {other : Response} (before : t.response? = some other) : r.status.isTerminal = true := by
    cases (step.response? before).symm.trans finished
    exact h.terminal r before
  cases stage : t.stage with
  | working a actions => cases (step.of_working ⟨a, actions, stage⟩).symm.trans finished
  | settling a outcome =>
    rw [Turn.response?] at finished
    obtain same | ⟨now, closing⟩ := step.of_settling stage
    · rw [same] at finished
      cases finished
    · rw [closing] at finished
      cases finished
      exact a.finalize_isTerminal t.schema now outcome
  | closing other => exact old (by rw [Turn.response?, stage])
  | ended other => exact old (by rw [Turn.response?, stage])

theorem proper_admitted (admitted : Admission.Admitted) (s : Admission.Setting) (seen : Nat)
    (streamed : Bool) : (admitted.turn s seen streamed).Proper :=
  ⟨rfl, led_admitted .., announces_admitted ..,
    fun r finished => absurd finished (Option.some_ne_none r).symm⟩

end Turn

namespace Server

variable {s next : Server} {stored : List Response} {id : String} {r : Response}

/-- A response is what came of a turn that has settled. -/
def Froze (s : Server) (id : String) (r : Response) : Prop :=
  ∃ t a outcome now, s.turn? id = some t ∧ t.stage = .settling a outcome ∧
    r = a.finalize t.schema now outcome

theorem Froze.unanswered (h : s.Froze id r) : s.answer? id = none := by
  obtain ⟨t, a, outcome, now, found, settling, -⟩ := h
  rw [answer?, found, Option.bind_some, Turn.response?, settling]

/-- What a turn asked for is in its response, and the response is finished. -/
theorem Froze.spec (h : s.Froze id r) : ∃ t, s.turn? id = some t ∧
    r.asked = t.stage.response.asked ∧ r.status.isTerminal = true := by
  obtain ⟨t, a, outcome, now, found, settling, rfl⟩ := h
  refine ⟨t, found, ?_, a.finalize_isTerminal t.schema now outcome⟩
  rw [settling]
  exact a.asked_finalize t.schema now outcome

theorem Froze.proceeds (h : s.Froze id r) (proceeds : Proceeds s next)
    (unanswered : next.answer? id = none) : next.Froze id r := by
  obtain ⟨t, a, outcome, now, found, settling, same⟩ := h
  obtain ⟨u, there, leads⟩ := proceeds.turn? found
  rw [answer?, there, Option.bind_some] at unanswered
  have schema : u.schema = t.schema := by
    unfold Turn.schema
    rw [leads.kept.request]
  exact ⟨u, a, outcome, now, there, leads.settling settling unanswered, schema ▸ same⟩

theorem turn?_keep (s : Server) (r : Response) (id : String) :
    (s.keep r).turn? id = s.turn? id := by
  unfold Server.turn?
  rw [turns_keep]

theorem answer?_keep (s : Server) (r : Response) (id : String) :
    (s.keep r).answer? id = s.answer? id := by
  unfold answer?
  rw [turn?_keep]

/-- A move that finishes no turn stores nothing. -/
theorem Move.store_still (ids : (s.turns.map Turn.id).Nodup) (m : Move s stored next)
    (silent : ∀ id, s.answer? id = none → next.answer? id = none) :
    stored = [] ∧ (next.store = s.store ∨ next.store = s.store.close) := by
  cases m with
  | accept fresh started =>
    obtain ⟨_, -, started⟩ := bind_eq_ok.1 started
    cases started
    exact ⟨rfl, .inl rfl⟩
  | @advance _ t mem moved =>
    have still : s.stored t = [] := by
      unfold Server.stored
      split
      · next a outcome settling =>
        exfalso
        have found := turn?_of_mem ids mem
        cases (advance_settling settling).symm.trans moved
        have before : s.answer? t.id = none := by
          rw [answer?, found, Option.bind_some, Turn.response?, settling]
        have after := silent t.id before
        rw [answer?, turn?_finish found, Option.bind_some, Turn.finish, settling] at after
        cases after
      · rfl
    refine ⟨still, .inl ?_⟩
    rw [store_advance moved, still]
    rfl
  | @hear t mem =>
    refine ⟨rfl, .inl ?_⟩
    unfold Server.hear
    split <;> rfl
  | signal id =>
    unfold Server.signal
    exact ⟨rfl, .inl rfl⟩
  | close => exact ⟨rfl, .inr rfl⟩
  | refuse | leave | receive | pass | date | consult => exact ⟨rfl, .inl rfl⟩

end Server

namespace Scene

variable {s next : Scene} {log log' stored : List Response} {id own : String} {r r' : Response}

/-- What a step does by which no turn is finished. -/
structure Aside (s : Scene) (stored : List Response) (next : Scene) : Prop where
  passage : s.server.Passage next.server
  silent : ∀ id, s.server.answer? id = none → next.server.answer? id = none
  ending : next.ending = s.ending
  stored : stored = []
  store : next.server.store = s.server.store ∨ next.server.store = s.server.store.close

theorem register_aside {setting : Admission.Setting} {request : Request}
    {admitted : Admission.Admitted} {seen : Nat} {streamed : Bool}
    (accepted : Admission.accept setting request = .ok admitted)
    (fresh : ∀ t ∈ s.server.turns, t.id ≠ admitted.response.id)
    (listens : seen ≤ s.server.signals.count) :
    Aside s [] (s.register (admitted.turn setting seen streamed)) := by
  have proceeds : s.server.Proceeds (s.register (admitted.turn setting seen streamed)).server :=
    .join accepted fresh listens rfl
  have there {id : String} {t : Turn} (found : s.server.turn? id = some t) :
      (s.register (admitted.turn setting seen streamed)).server.turn? id = some t := by
    unfold Server.turn? at found ⊢
    rw [register, List.find?_append, found]
    rfl
  refine ⟨⟨proceeds, .inl rfl, fun found => .inr ⟨_, there found, rfl⟩⟩, ?_, rfl, rfl, .inl rfl⟩
  intro id unanswered
  cases found : s.server.turn? id with
  | none => exact proceeds.unanswered found
  | some t =>
    rw [Server.answer?, found] at unanswered
    rw [Server.answer?, there found]
    exact unanswered

theorem Step.cases_aside (ids : (s.server.turns.map Turn.id).Nodup) (step : Step s stored next) :
    Aside s stored next ∨ ∃ id, Finishes s id stored next := by
  cases step with
  | move m silent =>
    obtain ⟨nothing, store⟩ := m.store_still ids silent
    exact .inl ⟨m.passage ids, silent, rfl, nothing, store⟩
  | register accepted fresh listens => exact .inl (register_aside accepted fresh listens)
  | finish finishes => exact .inr ⟨_, finishes⟩

/-- To finish one turn does nothing to the others. -/
theorem Finishes.others (finishes : Finishes s own stored next) (other : own ≠ id) :
    next.server.turn? id = s.server.turn? id ∧ next.ending id = s.ending id := by
  have away : id ≠ own := Ne.symm other
  cases finishes with
  | freeze => exact ⟨rfl, Function.update_of_ne away ..⟩
  | persist => exact ⟨Server.turn?_keep .., Function.update_of_ne away ..⟩
  | release =>
    exact ⟨Server.turn?_modifyTurn_other (fun _ named => named) other,
      Function.update_of_ne away ..⟩

/-- The response of a turn is decided: it was offered to the store at least. -/
def Decides (s : Scene) (id : String) (r : Response) : Prop :=
  s.server.answer? id = some r ∨ s.ending id = some ⟨r, true⟩

theorem Finishes.decides_other (finishes : Finishes s own stored next) (other : own ≠ id) :
    next.Decides id r ↔ s.Decides id r := by
  obtain ⟨turn, ending⟩ := finishes.others other
  unfold Decides Server.answer?
  rw [turn, ending]

/-- What holds of a scene and of all responses that were stored. -/
structure Sound (s : Scene) (log : List Response) : Prop where
  ids : (s.server.turns.map Turn.id).Nodup
  proper : ∀ t ∈ s.server.turns, t.Proper
  attends : ∃ all, s.server.Attends all
  frozen : ∀ id e, s.ending id = some e → s.server.Froze id e.response
  decided : ∀ r ∈ log, s.Decides r.id r
  once : (log.map Response.id).Nodup
  recent : s.server.store.entries =
    if s.server.store.closed then [] else Store.latest s.server.store.capacity log
  kept : ∀ id r, s.Decides id r → r.store = true → s.server.store.closed = false → r ∈ log

theorem Sound.unanswered (h : Sound s log) {e : Ending} (ending : s.ending id = some e) :
    s.server.answer? id = none :=
  (h.frozen id e ending).unanswered

/-- A turn has one response at most. -/
theorem Sound.unique (h : Sound s log) (d : s.Decides id r) (d' : s.Decides id r') : r = r' := by
  obtain answered | ending := d
  · obtain answered' | ending' := d'
    · exact Option.some.inj (answered.symm.trans answered')
    · cases (h.unanswered ending').symm.trans answered
  · obtain answered' | ending' := d'
    · cases (h.unanswered ending).symm.trans answered'
    · cases ending.symm.trans ending'
      rfl

theorem Sound.decides_spec (h : Sound s log) (d : s.Decides id r) :
    ∃ t, s.server.turn? id = some t ∧ r.asked = t.stage.response.asked ∧
      r.status.isTerminal = true := by
  obtain answered | ending := d
  · obtain ⟨t, found, finished⟩ := Option.bind_eq_some_iff.1 answered
    refine ⟨t, found, ?_, (h.proper t (Server.mem_of_turn? found)).terminal r finished⟩
    rw [Server.response_of_response? finished]
  · exact (h.frozen id _ ending).spec

theorem Sound.id_of_asked (h : Sound s log) {t : Turn} (found : s.server.turn? id = some t)
    (asked : r.asked = t.stage.response.asked) : r.id = id := by
  have same := congrArg Response.id asked
  have named := (h.proper t (Server.mem_of_turn? found)).named
  exact same.trans (named.trans (Server.id_of_turn? found))

theorem Sound.id_of_ending (h : Sound s log) {e : Ending} (ending : s.ending id = some e) :
    e.response.id = id := by
  obtain ⟨t, found, asked, -⟩ := (h.frozen id e ending).spec
  exact h.id_of_asked found asked

theorem Sound.passage (h : Sound s log) (step : Step s stored next) :
    s.server.Passage next.server := by
  obtain aside | ⟨id, finishes⟩ := step.cases_aside h.ids
  · exact aside.passage
  cases finishes with
  | freeze => exact .still rfl rfl
  | persist => exact .still (Server.turns_keep ..) (Server.signals_keep ..)
  | @release r ending =>
    obtain ⟨t, a, outcome, now, found, settling, same⟩ := h.frozen id _ ending
    obtain rfl : t.id = id := Server.id_of_turn? found
    have finish : t.finish now = { t with stage := .closing r } := by
      simp only [Turn.finish, settling]
      rw [← same]
    have leads : t.Leads { t with stage := .closing r } :=
      finish ▸ (Turn.Own.finish (p := .never) now).leads
    refine ⟨.lead (Server.turnsLead_modify h.ids (Server.mem_of_turn? found) _ leads),
      .inl rfl, fun {other u} there => .inr ?_⟩
    by_cases same : t.id = other
    · subst same
      cases found.symm.trans there
      exact ⟨_, Server.turn?_modifyTurn found rfl, rfl⟩
    · refine ⟨u, Eq.trans ?_ there, rfl⟩
      exact Server.turn?_modifyTurn_other (fun _ named => named) same

theorem Sound.answer?_step (h : Sound s log) (step : Step s stored next)
    (answered : s.server.answer? id = some r) : next.server.answer? id = some r := by
  obtain ⟨t, found, finished⟩ := Option.bind_eq_some_iff.1 answered
  obtain ⟨u, there, leads⟩ := (h.passage step).proceeds.turn? found
  rw [Server.answer?, there]
  exact leads.holds (fun step => step.response?) finished

theorem Sound.answer?_release (h : Sound s log) {e : Ending} (ending : s.ending id = some e)
    (r : Response) : (s.release id r).server.answer? id = some r := by
  obtain ⟨t, a, outcome, now, found, -⟩ := h.frozen id e ending
  have named : t.id = id := Server.id_of_turn? found
  have there : (s.release id r).server.turn? id = some { t with stage := .closing r } :=
    Server.turn?_modifyTurn found named
  rw [Server.answer?, there]
  rfl

/-- What is decided stays so. -/
theorem Sound.decides_step (h : Sound s log) (step : Step s stored next) (d : s.Decides id r) :
    next.Decides id r := by
  obtain answered | ending := d
  · exact .inl (h.answer?_step step answered)
  obtain aside | ⟨own, finishes⟩ := step.cases_aside h.ids
  · exact .inr (aside.ending ▸ ending)
  by_cases same : own = id
  · subst same
    cases finishes with
    | freeze _ _ pending => cases pending.symm.trans ending
    | persist pending => cases pending.symm.trans ending
    | release kept =>
      cases kept.symm.trans ending
      exact .inl (h.answer?_release ending r)
  · exact (finishes.decides_other same).2 (.inr ending)

theorem Sound.frozen_step (h : Sound s log) (step : Step s stored next) {e : Ending}
    (ending : next.ending id = some e) : next.server.Froze id e.response := by
  have froze {other : Ending} (before : s.ending id = some other)
      (unanswered : next.server.answer? id = none) : next.server.Froze id other.response :=
    (h.frozen id other before).proceeds (h.passage step).proceeds unanswered
  obtain aside | ⟨own, finishes⟩ := step.cases_aside h.ids
  · rw [aside.ending] at ending
    exact froze ending (aside.silent id (h.unanswered ending))
  by_cases same : own = id
  · subst same
    cases finishes with
    | @freeze t a outcome found settling pending =>
      cases (ending_freeze ..).symm.trans ending
      exact ⟨t, a, outcome, s.server.now, found, settling, rfl⟩
    | @persist r pending =>
      cases (ending_persist ..).symm.trans ending
      have same := froze pending ((Server.answer?_keep ..).trans (h.unanswered pending))
      exact same
    | release => cases (ending_release ..).symm.trans ending
  · obtain ⟨turn, before⟩ := finishes.others same
    rw [before] at ending
    refine froze ending (Eq.trans ?_ (h.unanswered ending))
    unfold Server.answer?
    rw [turn]

/-- What is decided after a step was decided before, unless it is offered to the store by it. -/
theorem Sound.decides_cases (h : Sound s log) (step : Step s stored next)
    (d : next.Decides id r) : s.Decides id r ∨
      (s.ending id = some ⟨r, false⟩ ∧ next = s.persist id r ∧ stored = s.taken r) := by
  obtain aside | ⟨own, finishes⟩ := step.cases_aside h.ids
  · left
    obtain answered | ending := d
    · cases before : s.server.answer? id with
      | none => cases (aside.silent id before).symm.trans answered
      | some other =>
        cases (h.answer?_step step before).symm.trans answered
        exact .inl before
    · exact .inr (aside.ending ▸ ending)
  by_cases same : own = id
  · subst same
    cases finishes with
    | freeze =>
      obtain answered | ending := d
      · exact .inl (.inl answered)
      · cases (ending_freeze ..).symm.trans ending
    | persist pending =>
      obtain answered | ending := d
      · cases (h.unanswered pending).symm.trans ((Server.answer?_keep ..).symm.trans answered)
      · cases (ending_persist ..).symm.trans ending
        exact .inr ⟨pending, rfl, rfl⟩
    | @release r' kept =>
      obtain answered | ending := d
      · cases (h.answer?_release kept r').symm.trans answered
        exact .inl (.inr kept)
      · cases (ending_release ..).symm.trans ending
  · exact .inl ((finishes.decides_other same).1 d)

theorem Sound.mem_log (h : Sound s log) (mem : r ∈ s.server.store.entries) : r ∈ log := by
  rw [h.recent] at mem
  split at mem
  · cases mem
  · exact (Store.latest_suffix ..).subset mem

/-- Nothing that was stored has the id of a response that was not. -/
theorem Sound.not_stored (h : Sound s log) (pending : s.ending id = some ⟨r, false⟩) :
    id ∉ log.map Response.id := by
  intro there
  obtain ⟨other, mem, rfl⟩ := List.mem_map.1 there
  obtain answered | kept := h.decided other mem
  · cases (h.unanswered pending).symm.trans answered
  · cases pending.symm.trans kept

/-- What comes of a response that is offered to the store. -/
theorem Sound.persist_cases (h : Sound s log) (pending : s.ending id = some ⟨r, false⟩) :
    (s.taken r = [r] ∧ s.server.store.put r = .ok (s.persist id r).server.store) ∨
      ((r.store = false ∨ s.server.store.closed = true) ∧ s.taken r = [] ∧
        (s.persist id r).server.store = s.server.store) := by
  obtain rfl : r.id = id := h.id_of_ending pending
  obtain ⟨-, -, -, terminal⟩ := (h.frozen _ _ pending).spec
  have new : r.id ∉ s.server.store.entries.map Response.id :=
    fun there => h.not_stored pending (List.map_subset _ (fun _ => h.mem_log) there)
  obtain ⟨kept, -, put⟩ | ⟨refused, lost, keep⟩ := s.server.keep_cases terminal new
  · exact .inl ⟨if_pos ⟨kept, by rw [put]; rfl⟩, put⟩
  · exact .inr ⟨refused, if_neg lost, congrArg Server.store keep⟩

/-- What a step does to the store, and what is stored by it. -/
theorem Sound.store_cases (h : Sound s log) (step : Step s stored next) :
    (stored = [] ∧ (next.server.store = s.server.store ∨
      next.server.store = s.server.store.close)) ∨
    ∃ r, stored = [r] ∧ s.ending r.id = some ⟨r, false⟩ ∧ next = s.persist r.id r ∧
      s.server.store.put r = .ok next.server.store := by
  obtain aside | ⟨id, finishes⟩ := step.cases_aside h.ids
  · exact .inl ⟨aside.stored, aside.store⟩
  cases finishes with
  | freeze => exact .inl ⟨rfl, .inl rfl⟩
  | release => exact .inl ⟨rfl, .inl rfl⟩
  | @persist r pending =>
    obtain ⟨taken, put⟩ | ⟨-, nothing, same⟩ := h.persist_cases pending
    · obtain rfl : r.id = id := h.id_of_ending pending
      exact .inr ⟨r, taken, pending, rfl, put⟩
    · exact .inl ⟨nothing, .inl same⟩

/-- A store that was closed stays closed. -/
theorem Sound.open_of_step (h : Sound s log) (step : Step s stored next)
    (opened : next.server.store.closed = false) : s.server.store.closed = false := by
  obtain ⟨-, same | closed⟩ | ⟨r, -, -, -, put⟩ := h.store_cases step
  · rw [← same]
    exact opened
  · rw [closed] at opened
    cases opened
  · exact (Store.put_frame put).1

theorem Sound.recent_step (h : Sound s log) (step : Step s stored next) :
    next.server.store.entries = if next.server.store.closed then [] else
      Store.latest next.server.store.capacity (log ++ stored) := by
  obtain ⟨rfl, same | closed⟩ | ⟨r, rfl, -, -, put⟩ := h.store_cases step
  · rw [same, List.append_nil]
    exact h.recent
  · rw [closed]
    rfl
  · obtain ⟨before, after, capacity⟩ := Store.put_frame put
    have recent := h.recent
    rw [before, if_neg Bool.false_ne_true] at recent
    rw [after, if_neg Bool.false_ne_true, Store.entries_put put, recent, capacity,
      Store.latest_append]

theorem Sound.step (h : Sound s log) (step : Step s stored next) :
    Sound next (log ++ stored) where
  ids := (h.passage step).proceeds.ids h.ids
  proper := (h.passage step).proceeds.all (fun _ => Turn.proper_admitted _ _) Turn.Step.proper
    h.proper
  attends := by
    obtain ⟨all, attends⟩ := h.attends
    exact (h.passage step).attends h.ids attends
  frozen _ _ := h.frozen_step step
  decided r mem := by
    obtain old | new := List.mem_append.1 mem
    · exact h.decides_step step (h.decided r old)
    · obtain ⟨rfl, -⟩ | ⟨r', rfl, -, rfl, -⟩ := h.store_cases step
      · cases new
      · obtain rfl := List.mem_singleton.1 new
        exact .inr (ending_persist ..)
  once := by
    obtain ⟨rfl, -⟩ | ⟨r, rfl, pending, -⟩ := h.store_cases step
    · rw [List.append_nil]
      exact h.once
    · rw [List.map_append, List.map_singleton, ← List.concat_eq_append]
      exact h.once.concat (h.not_stored pending)
  recent := h.recent_step step
  kept id r d keeps opened := by
    have opened' := h.open_of_step step opened
    obtain before | ⟨pending, rfl, rfl⟩ := h.decides_cases step d
    · exact List.mem_append_left _ (h.kept id r before keeps opened')
    · obtain ⟨taken, -⟩ | ⟨refused, -⟩ := h.persist_cases pending
      · rw [taken]
        exact List.mem_append_right _ List.mem_cons_self
      · obtain unkept | closed := refused
        · cases keeps.symm.trans unkept
        · cases opened'.symm.trans closed

/-- A scene in which nothing has happened yet. -/
theorem sound_new {start : Server} (new : start.New) (silent : start.signals = {}) :
    Sound ⟨start, fun _ => none⟩ [] where
  ids := new.sound.ids
  attends := ⟨[], new.attends silent⟩
  proper t mem := absurd (new.turns ▸ mem) List.not_mem_nil
  frozen _ _ ending := absurd ending.symm (Option.some_ne_none _)
  decided _ mem := absurd mem List.not_mem_nil
  once := List.nodup_nil
  recent := by
    rw [new.entries]
    split
    · rfl
    · exact (List.suffix_nil.1 (Store.latest_suffix ..)).symm
  kept id r d := by
    have absent : start.turn? id = none := by
      rw [Server.turn?, new.turns]
      rfl
    obtain answered | ending := d
    · rw [Server.answer?, absent] at answered
      cases answered
    · cases ending

/-- What holds of one scene holds of all later ones. -/
theorem Sound.run (h : Sound s log) (run : Run s log' next) : Sound next (log ++ log') := by
  induction run with
  | start =>
    rw [List.append_nil]
    exact h
  | step _ step ih =>
    rw [← List.append_assoc]
    exact ih.step step

theorem Run.sound {start : Server} (new : start.New) (silent : start.signals = {})
    (run : Run ⟨start, fun _ => none⟩ log s) : Sound s log :=
  (sound_new new silent).run run

theorem Sound.turn?_run (h : Sound s log) (run : Run s log' next) {t : Turn}
    (found : s.server.turn? id = some t) :
    ∃ u, next.server.turn? id = some u ∧ t.Leads u := by
  induction run with
  | start => exact ⟨t, found, .refl⟩
  | step run step ih =>
    obtain ⟨u, there, leads⟩ := ih
    obtain ⟨v, found', last⟩ := ((h.run run).passage step).proceeds.turn? there
    exact ⟨v, found', leads.trans last⟩

theorem Sound.answer?_run (h : Sound s log) (run : Run s log' next)
    (answered : s.server.answer? id = some r) : next.server.answer? id = some r := by
  induction run with
  | start => exact answered
  | step run step ih => exact (h.run run).answer?_step step ih

theorem Sound.decides_run (h : Sound s log) (run : Run s log' next) (d : s.Decides id r) :
    next.Decides id r := by
  induction run with
  | start => exact d
  | step run step ih => exact (h.run run).decides_step step ih

end Scene

end Responder
