import Responder.Proofs.Chat.Lineage
import Responder.Proofs.Server.Refusal
import Responder.Proofs.Server.Run

/-!
# Lineage of stored responses

Turns overlap, end in any order and outlive the responses that they continue, yet what a turn
continues was stored before it was admitted. So each response is stored after the one it
continues, and the store keeps the end of a grown log.
-/

open scoped List

namespace Responder

namespace Server

/-- What holds of a server and of all responses that it has stored. -/
structure Sound (s : Server) (log : List Response) : Prop where
  ids : (s.turns.map Turn.id).Nodup
  named : ∀ t ∈ s.turns, t.stage.response.id = t.id
  continued : ∀ t ∈ s.turns, ∀ id ∈ t.stage.response.previous, id ∈ log.map Response.id
  /-- What was stored comes from a turn that is over. -/
  ended : ∀ r ∈ log, ∃ t ∈ s.turns, t.id = r.id ∧ t.isInFlight = false
  grown : Grown log
  recent : s.store.entries <:+ log

variable {s next : Server} {t u : Turn} {log : List Response} {r : Response}

theorem Sound.eq_of_id (h : Sound s log) (mt : t ∈ s.turns) (mu : u ∈ s.turns)
    (same : t.id = u.id) : t = u :=
  List.inj_on_of_nodup_map h.ids mt mu same

/-- What the turns keep is enough, as long as the store drops old entries at most. -/
theorem Sound.frame (h : Sound s log) {change : Turn → Turn}
    (turns : next.turns = s.turns.map change) (kept : ∀ t ∈ s.turns, t.Continues (change t))
    (recent : next.store.entries <:+ s.store.entries) : Sound next log := by
  refine ⟨?_, ?_, ?_, ?_, h.grown, recent.trans h.recent⟩
  · have same : s.turns.map (Turn.id ∘ change) = s.turns.map Turn.id :=
      List.map_congr_left fun t mem => (kept t mem).id
    rw [turns, List.map_map, same]
    exact h.ids
  · rw [turns, List.forall_mem_map]
    intro t mem
    have same : (change t).stage.response.asked.id = t.stage.response.asked.id := by
      rw [(kept t mem).asked]
    exact same.trans ((h.named t mem).trans (kept t mem).id.symm)
  · rw [turns, List.forall_mem_map]
    intro t mem id link
    have same : (change t).stage.response.asked.previous = t.stage.response.asked.previous := by
      rw [(kept t mem).asked]
    exact h.continued t mem id (same.symm.trans link)
  · intro r mem
    obtain ⟨t, there, same, ended⟩ := h.ended r mem
    refine ⟨change t, ?_, (kept t there).id.trans same, (kept t there).finished ended⟩
    rw [turns]
    exact List.mem_map_of_mem there

/-- The turns of a server do not move. -/
theorem Sound.still (h : Sound s log) (turns : next.turns = s.turns)
    (recent : next.store.entries <:+ s.store.entries) : Sound next log :=
  h.frame (turns.trans (List.map_id _).symm) (fun t _ => .refl t) recent

/-- The turns of an id go on. -/
theorem Sound.modifyTurn (h : Sound s log) {id : String} {change : Turn → Turn}
    (kept : ∀ t ∈ s.turns, t.id = id → t.Continues (change t)) :
    Sound (s.modifyTurn id change) log := by
  refine h.frame rfl (fun t mem => ?_) List.suffix_rfl
  split
  · next same => exact kept t mem same
  · exact .refl t

/-- One turn of a server goes on. -/
theorem Sound.modify (h : Sound s log) (mem : t ∈ s.turns) {change : Turn → Turn}
    (kept : t.Continues (change t)) : Sound (s.modifyTurn t.id change) log := by
  apply h.modifyTurn
  intro u there same
  rw [h.eq_of_id there mem same]
  exact kept

/-- The response of a turn that is over enters the log. -/
theorem Sound.record (h : Sound s log) {store : Store} (mem : t ∈ s.turns)
    (ended : t.isInFlight = false) (own : t.stage.response = r)
    (new : r.id ∉ log.map Response.id) (recent : store.entries <:+ s.store.entries ++ [r]) :
    Sound { s with store } (log ++ [r]) := by
  refine ⟨h.ids, h.named, ?_, ?_, ?_, ?_⟩
  · intro u there id link
    rw [List.map_append]
    exact List.mem_append_left _ (h.continued u there id link)
  · intro other there
    obtain there | there := List.mem_append.1 there
    · exact h.ended other there
    · rw [List.mem_singleton.1 there]
      exact ⟨t, mem, own ▸ (h.named t mem).symm, ended⟩
  · exact h.grown.snoc new (own ▸ h.continued t mem)
  · obtain ⟨gone, rfl⟩ := h.recent
    rw [List.append_assoc]
    exact recent.trans (List.suffix_append ..)

/-- A turn in flight has stored nothing. -/
theorem Sound.not_stored (h : Sound s log) (mem : t ∈ s.turns) (flies : t.isInFlight = true) :
    t.id ∉ log.map Response.id := by
  intro there
  obtain ⟨r, stored, same⟩ := List.mem_map.1 there
  obtain ⟨u, mu, named, ended⟩ := h.ended r stored
  rw [h.eq_of_id mu mem (named.trans same), flies] at ended
  cases ended

theorem mem_modifyTurn (mem : t ∈ s.turns) (change : Turn → Turn) :
    change t ∈ (s.modifyTurn t.id change).turns := by
  have there := List.mem_map_of_mem (f := fun u => if u.id = t.id then change u else u) mem
  rwa [if_pos rfl] at there

/-- A finished response enters the log if it is stored. -/
theorem Sound.finish (h : Sound s log) (mem : t ∈ s.turns) {a : Accumulator} {outcome : Outcome}
    (settling : t.stage = .settling a outcome) :
    Sound (s.finish t) (log ++ s.stored t) := by
  have flies : t.isInFlight = true := by rw [Turn.isInFlight, settling]
  have finish : t.Continues (t.finish s.now) :=
    (Turn.Move.own (p := .never) (.finish s.now)).continues
  have went : Sound (s.modifyTurn t.id fun _ => t.finish s.now) log := h.modify mem finish
  have there := mem_modifyTurn mem fun _ => t.finish s.now
  have closing : (t.finish s.now).stage = .closing (a.finalize t.schema s.now outcome) := by
    rw [Turn.finish, settling]
  have ended : (t.finish s.now).isInFlight = false := Turn.isInFlight_eq_false.2 ⟨_, .inl closing⟩
  have own : (t.finish s.now).stage.response = a.finalize t.schema s.now outcome := by
    rw [closing]
    rfl
  have new : (a.finalize t.schema s.now outcome).id ∉ log.map Response.id := by
    rw [← own, went.named _ there, finish.id]
    exact h.not_stored mem flies
  simp only [Server.finish, stored, settling, Turn.response?, closing, keep]
  cases kept : (a.finalize t.schema s.now outcome).store with
  | false => simpa using went
  | true =>
    cases put : s.store.put (a.finalize t.schema s.now outcome) with
    | error fault => simpa [put, Except.isOk, Except.toBool] using went
    | ok store =>
      have recent := Store.entries_put put ▸ Store.latest_suffix ..
      have recorded := went.record there ended own new recent
      simp only [Except.isOk, Except.toBool, and_self, if_true]
      exact recorded

/-- A turn that asks the backend goes on. -/
theorem Sound.ask (h : Sound s log) (mem : t ∈ s.turns) {a : Accumulator} {actions : List Action}
    (works : t.stage = .working a actions) {change : Turn → Turn} (kept : t.Continues (change t))
    (backend : Backend) (asked : List ChatRequest) :
    Sound ({ s with backend, asked }.modifyTurn t.id change) (log ++ s.stored t) := by
  have silent : s.stored t = [] := by rw [stored, works]
  have still : Sound { s with backend, asked } log := h.still rfl List.suffix_rfl
  rw [silent, List.append_nil]
  exact still.modify mem kept

theorem Sound.advance (h : Sound s log) (mem : t ∈ s.turns) (moved : s.advance t = some next) :
    Sound next (log ++ s.stored t) := by
  unfold Server.advance at moved
  split at moved
  · next u stepped =>
    cases moved
    have silent : s.stored t = [] := by
      unfold stored
      split
      · next settling => simp [Turn.step, settling] at stepped
      · rfl
    rw [silent, List.append_nil]
    have step : t.Continues u :=
      (Turn.Move.own (p := .never) (.step s.clock stepped)).continues
    exact h.modify mem step
  · split at moved
    · next a rest asks =>
      cases moved
      have waits (answer : Answer) : t.Continues (t.await s.clock a (answer.map .answer)) :=
        (Turn.Move.own (p := ⟨answer, .forever⟩) (.ask s.clock asks)).continues
      exact h.ask mem asks (waits _) ..
    · next a rest asks =>
      cases moved
      have waits (opening : Opening) : t.Continues (t.await s.clock a (opening.map .opening)) :=
        (Turn.Move.own (p := ⟨.forever, opening⟩) (.askStream s.clock asks)).continues
      exact h.ask mem asks (waits _) ..
    · next a outcome settling =>
      cases moved
      exact h.finish mem settling
    · cases moved

theorem Sound.accept (h : Sound s log) (fresh : s.FreshId) {r : Request} {streamed : Bool}
    {id : String} (started : s.start r streamed = .ok (next, id)) : Sound next log := by
  unfold start at started
  obtain ⟨admitted, accepted, started⟩ := bind_eq_ok.1 started
  cases started
  have spec := Admission.accept_spec accepted
  have asked (setting : Admission.Setting) (seen : Nat) :
      (admitted.turn setting seen streamed).stage.response = admitted.response := rfl
  -- What is continued was in the store, and so it is in the log.
  have parent : ∀ id ∈ admitted.response.previous, id ∈ log.map Response.id := by
    intro id link
    obtain ⟨chain, resolved⟩ := spec.resolved
    rw [← spec.previous, link] at resolved
    obtain ⟨-, failed⟩ | ⟨r, found, -⟩ := Ancestry.resolve_cases s.store id
    · cases resolved.symm.trans failed
    · rw [← Store.id_of_find? found]
      exact List.mem_map_of_mem (h.recent.subset (Store.mem_of_find? found))
  refine ⟨?_, ?_, ?_, ?_, h.grown, h.recent⟩
  · rw [List.map_append, List.map_cons, List.map_nil, ← List.concat_eq_append]
    refine h.ids.concat ?_
    intro there
    obtain ⟨t, mem, same⟩ := List.mem_map.1 there
    exact fresh t mem (same.trans spec.id)
  · intro t mem
    obtain mem | mem := List.mem_append.1 mem
    · exact h.named t mem
    · rw [List.mem_singleton.1 mem]
      rfl
  · intro t mem
    obtain mem | mem := List.mem_append.1 mem
    · exact h.continued t mem
    · rw [List.mem_singleton.1 mem, asked]
      exact parent
  · intro r mem
    obtain ⟨t, there, ended⟩ := h.ended r mem
    exact ⟨t, List.mem_append_left _ there, ended⟩

theorem Sound.hear (h : Sound s log) (mem : t ∈ s.turns) : Sound (s.hear t) log := by
  unfold Server.hear
  split
  · next waits =>
    have hears (seen : Nat) : t.Continues { t with seen } :=
      (Turn.Move.own (p := .never) (.hear seen)).continues
    have stops (seen : Nat) : t.Continues { t with seen }.interrupt :=
      (hears seen).trans
        (Turn.Move.cancel (p := .never) (t := { t with seen }) waits).continues
    dsimp only
    refine h.modify mem ?_
    split
    · exact stops _
    · exact hears _
  · exact h

/-- Every move keeps a server sound. -/
theorem Sound.move {stored : List Response} (h : Sound s log) (m : Move s stored next) :
    Sound next (log ++ stored) := by
  have silent {u : Server} (h : Sound u log) : Sound u (log ++ []) := by
    rw [List.append_nil]
    exact h
  cases m with
  | accept fresh started => exact silent (h.accept fresh started)
  | refuse => exact silent (h.still rfl List.suffix_rfl)
  | advance mem moved => exact h.advance mem moved
  | hear mem => exact silent (h.hear mem)
  | signal id =>
    unfold Server.signal
    exact silent (h.still rfl List.suffix_rfl)
  | leave id =>
    have leaves (t : Turn) : t.Continues { t with clientGone := true } :=
      (Turn.Move.leave (p := .never)).continues
    exact silent (h.modifyTurn fun t _ _ => leaves t)
  | @receive t u id event found taken =>
    have named : t.id = id := id_of_turn? found
    rw [← named]
    exact silent (h.modify (mem_of_turn? found) (Turn.receive_continues taken))
  | pass clock => exact silent (h.still rfl List.suffix_rfl)
  | date now => exact silent (h.still rfl List.suffix_rfl)
  | consult => exact silent (h.still rfl List.suffix_rfl)
  | close => exact silent (h.still rfl List.nil_suffix)

/-- Nothing has happened in a server yet. -/
structure New (s : Server) : Prop where
  entries : s.store.entries = []
  turns : s.turns = []

theorem New.sound (h : New s) : Sound s [] where
  ids := by
    rw [List.map_eq_nil_iff.2 h.turns]
    exact List.nodup_nil
  named t mem := absurd (h.turns ▸ mem) List.not_mem_nil
  continued t mem := absurd (h.turns ▸ mem) List.not_mem_nil
  ended _ mem := absurd mem List.not_mem_nil
  grown := .nil
  recent := List.suffix_nil.2 h.entries

theorem Run.sound {start : Server} (new : start.New) (run : Run start log s) : Sound s log := by
  induction run with
  | start => exact new.sound
  | move _ m ih => exact ih.move m

theorem not_blames_cycle {name : String} (mem : name ∈ Admission.checkedMembers) (id : String) :
    ¬ (Ancestry.cycle id).Blames name := by
  rintro ⟨rest, message, same⟩
  have member : name ++ rest = "previous_response_id" :=
    (Option.some.inj (Failure.validation.inj same).1).symm
  have initial : (name ++ rest).toList.head? = some 'p' := by
    rw [member]
    rfl
  have other : ∀ name ∈ Admission.checkedMembers,
      name.toList ≠ [] ∧ name.toList.head? ≠ some 'p' := by
    decide
  rw [String.toList_append, List.head?_append_of_ne_nil _ (other name mem).1] at initial
  exact (other name mem).2 initial

/-- A request is never refused because of a cycle. -/
theorem Sound.start_ne_cycle (h : Sound s log) (r : Request) (streamed : Bool) (id : String) :
    s.start r streamed ≠ .error (Ancestry.cycle id) := by
  intro refused
  unfold start at refused
  obtain refused | ⟨_, -, refused⟩ := bind_eq_error.1 refused
  · obtain ⟨name, mem, blamed⟩ | discontinued := Admission.accept_error refused
    · exact not_blames_cycle mem id blamed
    · generalize same : Ancestry.cycle id = failure at discontinued
      cases discontinued with
      | unstored =>
        have member := Option.some.inj (Failure.validation.inj same).1
        exact absurd member (by decide)
      | misnamed other =>
        have message := congrArg (fun text => text.toList.head?) (Failure.validation.inj same).2
        simp at message
      | unresolved _ resolved =>
        subst same
        exact Ancestry.resolve_ne_cycle h.grown h.recent _ id resolved
  · cases refused

/-- What the lineage of stored responses is like. -/
structure Coherent (s : Server) (log : List Response) : Prop where
  /-- The store has the last of all responses that were stored. -/
  recent : s.store.entries <:+ log
  ordered : ∀ older child newer, s.store.entries = older ++ child :: newer →
    ∀ parent ∈ s.store.entries, child.previous = some parent.id → parent ∈ older
  acyclic : ∀ r, ¬ Ancestor s.store.entries r r
  admits : ∀ r streamed id, s.start r streamed ≠ .error (Ancestry.cycle id)
  resolves : ∀ r ∈ s.store.entries, ∃ chain, Ancestry.resolve s.store r.id = .ok chain ∧
    Ancestry.Chain s.store chain ∧
    ∀ x, x ∈ chain ↔ x ∈ s.store.entries ∧ (x = r ∨ Ancestor log x r)
  /-- No ancestor beyond one that is missing is stored. -/
  whole : ∀ x y, Ancestor log x y → y ∈ log → y ∉ s.store.entries → x ∉ s.store.entries

theorem Sound.coherent (h : Sound s log) : Coherent s log where
  recent := h.recent
  ordered older child newer whole parent stored link := by
    obtain ⟨gone, same⟩ := h.recent
    have grown := h.grown
    have inside : parent ∈ log := h.recent.subset stored
    rw [whole] at same stored
    rw [← same, ← List.append_assoc] at grown inside
    obtain lost | before := List.mem_append.1 (grown.parent_older ⟨inside, link⟩)
    · rw [List.append_assoc] at grown
      have once := List.Nodup.of_map _ grown.nodup
      exact absurd stored (List.disjoint_of_nodup_append once lost)
    · exact before
  acyclic r line := h.grown.acyclic r (line.mono h.recent.subset)
  admits r streamed id := h.start_ne_cycle r streamed id
  resolves r mem := Ancestry.resolve_of_grown h.grown h.recent mem
  whole x y line mem lost kept := lost (h.grown.descendant_kept h.recent line mem kept)

/-- In every run of a new server, a response that continues a stored one comes after it, no
request meets a cycle, and each stored response resolves to all ancestors that are left; of
these, what is dropped takes all that it continues with it. -/
theorem run_coherent {start : Server} (new : start.New) (run : Run start log s) :
    Coherent s log :=
  (run.sound new).coherent

section
open Admission (greeting)

/-- A server that keeps a single response. -/
def forgetful : Server where
  limits := {}
  count := Context.estimate
  store := { capacity := some 1 }
  backend := .script { answers := [⟨.now (.ok ⟨some "hello", [], .stop, none⟩), .forever⟩] }

/-- After a greeting and its continuation. -/
def continued : Server :=
  ((forgetful.create greeting false).1.create
    { greeting with previous := some (forgetful.lane.id .response .response) } false).1

/-- The continuation is stored and its parent was dropped. -/
theorem continued_coherent : forgetful.New ∧ ∃ log, Run forgetful log continued ∧
    continued.store.entries.map Response.previous =
      [some (forgetful.lane.id .response .response)] ∧ Coherent continued log := by
  have new : forgetful.New := ⟨rfl, rfl⟩
  have fresh : forgetful.FreshId := fun t mem => absurd mem List.not_mem_nil
  have fresh' : (forgetful.create greeting false).1.FreshId := by
    unfold FreshId
    decide
  obtain ⟨log, run⟩ := (create_goes fresh greeting false).trans (create_goes fresh' _ false)
  exact ⟨new, log, run, by decide, run_coherent new run⟩

end

end Server

end Responder
