import Responder.Proofs.Server.Lineage
import Responder.Proofs.Store.Log

/-!
# Turns in a run of a server

Whatever a server does, each of its turns takes a few steps of its own or none. So what holds of
a turn on its admission and survives its steps holds of all turns at all times. Main statement:
a stored response is that of a turn, which keeps it for ever.
-/

namespace Responder

namespace Turn

variable {t next : Turn} {r : Response}

/-- What a turn does, or what is done with it. -/
inductive Step (t : Turn) : Turn → Prop
  | move {p : Prepared} {next : Turn} : Move p t next → Step t next
  | receive {event : Sequenced} {next : Turn} : t.receive? = some (event, next) → Step t next

/-- A turn goes on, by as many steps as there may be. -/
def Leads : Turn → Turn → Prop := Relation.ReflTransGen Step

theorem Step.leads (step : Step t next) : Leads t next := .single step

theorem Own.leads {p : Prepared} (own : Own p t next) : Leads t next := .single (.move (.own own))

theorem Step.kept (step : Step t next) : Kept t next := by
  cases step with
  | move m => exact m.kept
  | receive taken => exact (receive_spec taken).1

theorem Step.response? (step : Step t next) (finished : t.response? = some r) :
    next.response? = some r := by
  cases step with
  | move m =>
    obtain ⟨events, shifted⟩ | ⟨-, stage, -⟩ := m.cases_shifted
    · have ended := shifted.shift.finished (response?_cases finished)
      rw [Turn.response?, ended]
    · rw [Turn.response?, stage]
      exact finished
  | receive taken =>
    rw [Turn.response?, (receive_spec taken).2.1]
    exact finished

theorem Leads.holds {P : Turn → Prop} (step : ∀ {t next : Turn}, Step t next → P t → P next)
    (leads : Leads t next) (h : P t) : P next := by
  induction leads with
  | refl => exact h
  | tail _ last ih => exact step last ih

theorem Step.continues (step : Step t next) : Continues t next := by
  cases step with
  | move m => exact m.continues
  | receive taken => exact receive_continues taken

theorem Leads.continues (leads : Leads t next) : Continues t next := by
  induction leads with
  | refl => exact .refl t
  | tail _ step ih => exact ih.trans step.continues

theorem Leads.kept (leads : Leads t next) : Kept t next := by
  induction leads with
  | refl => exact .frame ..
  | tail _ step ih => exact ih.trans step.kept

end Turn

namespace Server

variable {s next start : Server} {t u : Turn} {log stored : List Response} {r : Response}

theorem turns_keep (s : Server) (r : Response) : (s.keep r).turns = s.turns := by
  unfold keep
  split
  · split <;> rfl
  · rfl

theorem turns_finish (s : Server) (t : Turn) :
    (s.finish t).turns = (s.modifyTurn t.id fun _ => t.finish s.now).turns := by
  unfold finish modifyTurn
  dsimp only
  split
  · rw [turns_keep]
  · rfl

/-- All turns of a server go on, and none is lost. -/
def TurnsLead (s next : Server) : Prop :=
  ∃ change, next.turns = s.turns.map change ∧ ∀ t ∈ s.turns, t.Leads (change t)

theorem TurnsLead.still (same : next.turns = s.turns) : TurnsLead s next :=
  ⟨fun t => t, by rw [same, List.map_id'], fun _ _ => .refl⟩

theorem turnsLead_modifyTurn {id : String} {change : Turn → Turn}
    (leads : ∀ t ∈ s.turns, t.id = id → t.Leads (change t)) :
    TurnsLead s (s.modifyTurn id change) := by
  refine ⟨_, rfl, fun t mem => ?_⟩
  split
  · next same => exact leads t mem same
  · exact .refl

/-- One turn goes on. -/
theorem turnsLead_modify (ids : (s.turns.map Turn.id).Nodup) (mem : t ∈ s.turns)
    (change : Turn → Turn) (leads : t.Leads (change t)) :
    TurnsLead s (s.modifyTurn t.id change) := by
  apply turnsLead_modifyTurn
  intro u there same
  rw [List.inj_on_of_nodup_map ids there mem same]
  exact leads

theorem turnsLead_hear (ids : (s.turns.map Turn.id).Nodup) (mem : t ∈ s.turns) :
    TurnsLead s (s.hear t) := by
  unfold hear
  split
  · next waits =>
    have hears (seen : Nat) : t.Leads { t with seen } := (Turn.Own.hear (p := .never) seen).leads
    have stops (seen : Nat) : t.Leads { t with seen }.interrupt := by
      have cancelled : Turn.Move .never { t with seen } { t with seen }.interrupt := .cancel waits
      exact (hears seen).tail (.move cancelled)
    refine turnsLead_modify ids mem _ ?_
    split
    · exact stops _
    · exact hears _
  · exact .still rfl

theorem turnsLead_advance (ids : (s.turns.map Turn.id).Nodup) (mem : t ∈ s.turns)
    (moved : s.advance t = some next) : TurnsLead s next := by
  unfold advance at moved
  split at moved
  · next u stepped =>
    cases moved
    have leads : t.Leads u := (Turn.Own.step (p := .never) s.clock stepped).leads
    exact turnsLead_modify ids mem (fun _ => u) leads
  · split at moved
    · next a rest asks =>
      cases moved
      have leads (answer : Answer) : t.Leads (t.await s.clock a (answer.map .answer)) :=
        (Turn.Own.ask (p := ⟨answer, .forever⟩) s.clock asks).leads
      exact turnsLead_modify ids mem (·.await s.clock a _) (leads _)
    · next a rest asks =>
      cases moved
      have leads (opening : Opening) : t.Leads (t.await s.clock a (opening.map .opening)) :=
        (Turn.Own.askStream (p := ⟨.forever, opening⟩) s.clock asks).leads
      exact turnsLead_modify ids mem (·.await s.clock a _) (leads _)
    · next a outcome settling =>
      cases moved
      have leads : t.Leads (t.finish s.now) := (Turn.Own.finish (p := .never) s.now).leads
      obtain ⟨change, turns, all⟩ :=
        turnsLead_modify ids mem (fun _ => t.finish s.now) leads
      exact ⟨change, (turns_finish s t).trans turns, all⟩
    · cases moved

/-- The turns of a server before a move lead to those after it, or one more is admitted. -/
inductive Proceeds (s next : Server) : Prop
  | lead : TurnsLead s next → Proceeds s next
  | join {setting : Admission.Setting} {r : Request} {admitted : Admission.Admitted} {seen : Nat}
      {streamed : Bool} : Admission.accept setting r = .ok admitted →
      (∀ t ∈ s.turns, t.id ≠ admitted.response.id) → seen ≤ s.signals.count →
      next.turns = s.turns ++ [admitted.turn setting seen streamed] → Proceeds s next

theorem Move.turns (ids : (s.turns.map Turn.id).Nodup) (m : Move s stored next) :
    Proceeds s next := by
  cases m with
  | accept fresh started =>
    obtain ⟨admitted, accepted, started⟩ := bind_eq_ok.1 started
    cases started
    refine .join accepted (fun t mem same => ?_) (le_refl _) rfl
    exact fresh t mem (same.trans (Admission.accept_spec accepted).id)
  | advance mem moved => exact .lead (turnsLead_advance ids mem moved)
  | hear mem => exact .lead (turnsLead_hear ids mem)
  | leave id =>
    refine .lead (turnsLead_modifyTurn fun t _ _ => ?_)
    exact .single (.move (p := .never) .leave)
  | receive found taken =>
    rw [← id_of_turn? found]
    have leads : Turn.Leads _ _ := (Turn.Step.receive taken).leads
    exact .lead (turnsLead_modify ids (mem_of_turn? found) _ leads)
  | signal id =>
    unfold Server.signal
    exact .lead (.still rfl)
  | refuse | pass | date | consult | close => exact .lead (.still rfl)

/-- A server that can come about. -/
def Reached (s : Server) : Prop := ∃ start log, New start ∧ Run start log s

theorem Run.reached (new : start.New) (run : Run start log s) : s.Reached := ⟨start, log, new, run⟩

theorem Reached.move (h : s.Reached) (m : Move s stored next) : next.Reached := by
  obtain ⟨start, log, new, run⟩ := h
  exact ⟨start, log ++ stored, new, run.move m⟩

theorem Reached.run (h : s.Reached) (run : Run s log next) : next.Reached := by
  obtain ⟨start, before, new, first⟩ := h
  exact ⟨start, before ++ log, new, first.trans run⟩

theorem Reached.ids (h : s.Reached) : (s.turns.map Turn.id).Nodup := by
  obtain ⟨start, log, new, run⟩ := h
  exact (run.sound new).ids

theorem turn?_of_mem (once : (s.turns.map Turn.id).Nodup) (mem : t ∈ s.turns) :
    s.turn? t.id = some t := by
  cases found : s.turn? t.id with
  | none =>
    have differs := List.find?_eq_none.1 found t mem
    exact absurd (decide_eq_true rfl) differs
  | some u =>
    have same : u.id = t.id := id_of_turn? found
    rw [List.inj_on_of_nodup_map once (mem_of_turn? found) mem same]

theorem TurnsLead.turn? {id : String} (leads : TurnsLead s next) (found : s.turn? id = some t) :
    ∃ u, next.turn? id = some u ∧ t.Leads u := by
  obtain ⟨change, turns, leads⟩ := leads
  obtain ⟨same, before, after, whole, others⟩ := List.find?_eq_some_iff_append.1 found
  have named (u : Turn) (mem : u ∈ s.turns) : (change u).id = u.id := (leads u mem).kept.id
  have mem : t ∈ s.turns := mem_of_turn? found
  refine ⟨change t, ?_, leads t mem⟩
  unfold Server.turn?
  rw [turns, whole, List.map_append, List.map_cons, List.find?_eq_some_iff_append]
  refine ⟨?_, before.map change, after.map change, rfl, ?_⟩
  · rw [named t mem]
    exact same
  · rw [List.forall_mem_map]
    intro u early
    rw [named u (whole ▸ List.mem_append_left _ early)]
    exact others u early

theorem Proceeds.turn? {id : String} (h : Proceeds s next) (found : s.turn? id = some t) :
    ∃ u, next.turn? id = some u ∧ t.Leads u := by
  cases h with
  | lead leads => exact leads.turn? found
  | join _ _ _ turns =>
    refine ⟨t, ?_, .refl⟩
    unfold Server.turn? at found ⊢
    rw [turns, List.find?_append, found]
    rfl

theorem Proceeds.ids (h : Proceeds s next) (ids : (s.turns.map Turn.id).Nodup) :
    (next.turns.map Turn.id).Nodup := by
  cases h with
  | lead leads =>
    obtain ⟨change, turns, leads⟩ := leads
    have same : s.turns.map (Turn.id ∘ change) = s.turns.map Turn.id :=
      List.map_congr_left fun t mem => (leads t mem).kept.id
    rw [turns, List.map_map, same]
    exact ids
  | join _ fresh _ turns =>
    rw [turns, List.map_append, List.map_singleton, ← List.concat_eq_append]
    refine ids.concat fun there => ?_
    obtain ⟨t, mem, same⟩ := List.mem_map.1 there
    exact fresh t mem same

theorem Run.ids (ids : (s.turns.map Turn.id).Nodup) (run : Run s log next) :
    (next.turns.map Turn.id).Nodup := by
  induction run with
  | start => exact ids
  | move _ m ih => exact (m.turns ih).ids ih

/-- A turn that was not there before was admitted, and has done nothing yet. -/
theorem Proceeds.admitted {id : String} (h : Proceeds s next) (absent : s.turn? id = none)
    (found : next.turn? id = some u) :
    u.response? = none ∧ u.seen ≤ s.signals.count := by
  have others (t : Turn) (mem : t ∈ s.turns) : t.id ≠ id := by
    have differs := List.find?_eq_none.1 absent t mem
    exact of_decide_eq_false (Bool.eq_false_iff.2 differs)
  have named : u.id = id := id_of_turn? found
  have mem := mem_of_turn? found
  cases h with
  | lead leads =>
    obtain ⟨change, turns, leads⟩ := leads
    rw [turns] at mem
    obtain ⟨t, there, rfl⟩ := List.mem_map.1 mem
    exact absurd ((leads t there).kept.id.symm.trans named) (others t there)
  | join _ _ seen turns =>
    rw [turns] at mem
    obtain there | new := List.mem_append.1 mem
    · exact absurd named (others u there)
    · rw [List.mem_singleton.1 new]
      exact ⟨rfl, seen⟩

/-- A turn is never lost. -/
theorem Run.turn? (reached : s.Reached) (run : Run s log next) {id : String}
    (found : s.turn? id = some t) : ∃ u, next.turn? id = some u ∧ t.Leads u := by
  induction run with
  | start => exact ⟨t, found, .refl⟩
  | move run m ih =>
    obtain ⟨u, found, leads⟩ := ih
    obtain ⟨v, found, last⟩ := (m.turns (reached.run run).ids).turn? found
    exact ⟨v, found, leads.trans last⟩

theorem turn?_modifyTurn {id : String} {change : Turn → Turn} (found : s.turn? id = some t)
    (named : (change t).id = id) : (s.modifyTurn id change).turn? id = some (change t) := by
  obtain ⟨same, before, after, whole, others⟩ := List.find?_eq_some_iff_append.1 found
  have own : t.id = id := id_of_turn? found
  unfold Server.turn? modifyTurn
  rw [whole, List.map_append, List.map_cons, List.find?_eq_some_iff_append, if_pos own]
  refine ⟨decide_eq_true named, _, _, rfl, ?_⟩
  rw [List.forall_mem_map]
  intro u early
  have differs : ¬ u.id = id := by simpa using others u early
  rw [if_neg differs]
  exact others u early

theorem turn?_finish (found : s.turn? t.id = some t) :
    (s.finish t).turn? t.id = some (t.finish s.now) := by
  have kept : Turn.Kept t (t.finish s.now) := (Turn.Own.finish (p := .never) s.now).leads.kept
  have there : (s.modifyTurn t.id fun _ => t.finish s.now).turn? t.id = some (t.finish s.now) :=
    turn?_modifyTurn found kept.id
  unfold Server.turn? at there ⊢
  rw [turns_finish]
  exact there

theorem turn?_modifyTurn_other {own id : String} {change : Turn → Turn}
    (named : ∀ u, u.id = own → (change u).id = own) (other : own ≠ id) :
    (s.modifyTurn own change).turn? id = s.turn? id := by
  unfold Server.turn? modifyTurn
  induction s.turns with
  | nil => rfl
  | cons t rest ih =>
    rw [List.map_cons, List.find?_cons, List.find?_cons, ih]
    by_cases here : t.id = own
    · have before : ¬ t.id = id := here.trans_ne other
      have after : ¬ (change t).id = id := (named t here).trans_ne other
      simp only [if_pos here, before, after, decide_false]
    · rw [if_neg here]

section
variable {P : Turn → Prop}
  (admitted : ∀ {s : Admission.Setting} {r : Request} {admitted : Admission.Admitted},
    Admission.accept s r = .ok admitted → ∀ seen streamed, P (admitted.turn s seen streamed))
  (step : ∀ {t next : Turn}, t.Step next → P t → P next)
include admitted step

/-- What holds of every turn on its admission and survives all that a turn does holds of all
turns after a move. -/
theorem Proceeds.all (h : Proceeds s next) (all : ∀ t ∈ s.turns, P t) :
    ∀ t ∈ next.turns, P t := by
  cases h with
  | lead leads =>
    obtain ⟨change, turns, leads⟩ := leads
    rw [turns, List.forall_mem_map]
    exact fun t mem => (leads t mem).holds step (all t mem)
  | join accepted _ _ turns =>
    rw [turns, List.forall_mem_append, List.forall_mem_singleton]
    exact ⟨all, admitted accepted _ _⟩

theorem Run.turns (new : start.New) (run : Run start log s) : ∀ t ∈ s.turns, P t := by
  induction run with
  | start =>
    rw [new.turns]
    exact fun _ mem => absurd mem List.not_mem_nil
  | move run m ih => exact (m.turns (run.sound new).ids).all admitted step ih

end

theorem advance_settling {a : Accumulator} {outcome : Outcome}
    (settling : t.stage = .settling a outcome) : s.advance t = some (s.finish t) := by
  simp only [advance, Turn.step, settling]

/-- What a turn stores is its response, from then on. -/
theorem stored_advance (mem : t ∈ s.turns) (moved : s.advance t = some next)
    (stores : r ∈ s.stored t) : ∃ u ∈ next.turns, u.response? = some r := by
  unfold Server.stored at stores
  split at stores
  · next a outcome settling =>
    cases (advance_settling settling).symm.trans moved
    dsimp only at stores
    split at stores
    · rw [List.mem_singleton.1 stores]
      have closing : (t.finish s.now).response? = some (a.finalize t.schema s.now outcome) := by
        rw [Turn.finish, settling]
        rfl
      refine ⟨t.finish s.now, ?_, closing⟩
      rw [turns_finish]
      exact mem_modifyTurn mem _
    · cases stores
  · cases stores

/-- Every response that was stored is that of a turn. -/
theorem Run.turn_of_stored (new : start.New) (run : Run start log s) :
    ∀ r ∈ log, ∃ t ∈ s.turns, t.response? = some r := by
  induction run with
  | start => exact fun _ mem => absurd mem List.not_mem_nil
  | @move log stored s next run m ih =>
    intro r mem
    obtain old | fresh := List.mem_append.1 mem
    · obtain ⟨t, there, finished⟩ := ih r old
      have ids := (run.sound new).ids
      obtain ⟨u, found, leads⟩ := (m.turns ids).turn? (turn?_of_mem ids there)
      exact ⟨u, mem_of_turn? found, leads.holds (fun step => step.response?) finished⟩
    · cases m with
      | advance there moved => exact stored_advance there moved fresh
      | _ => cases fresh

theorem get_eq_ok {id : String} : s.get id = .ok r ↔ r ∈ s.store.entries ∧ r.id = id := by
  rw [← Store.get_eq_ok]
  unfold Server.get Store.get
  cases s.store.find? id <;> simp

/-- What is stored under the id of a turn says what the turn was asked. -/
theorem Run.asked_of_get (reached : s.Reached) (found : s.turn? t.id = some t)
    (run : Run s log next) (kept : next.get t.id = .ok r) :
    r.asked = t.stage.response.asked := by
  obtain ⟨start, before, new, first⟩ := reached
  have whole := first.trans run
  have sound := whole.sound new
  obtain ⟨stored, named⟩ := get_eq_ok.1 kept
  obtain ⟨u, mem, finished⟩ := whole.turn_of_stored new r (sound.recent.subset stored)
  have stage := Turn.response?_cases finished
  have own : u.stage.response = r := by
    obtain stage | stage := stage <;> rw [stage] <;> rfl
  have id : u.id = t.id := by rw [← sound.named u mem, own, named]
  obtain ⟨v, later, leads⟩ := run.turn? ⟨start, before, new, first⟩ found
  have there := turn?_of_mem sound.ids mem
  rw [id, later] at there
  cases there
  rw [← own, leads.continues.asked]

end Server

end Responder
