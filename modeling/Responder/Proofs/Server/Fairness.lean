import Responder.Proofs.Server.Asking
import Responder.Proofs.Server.Hearing

/-!
# Turns come to an end

In a server that goes on for ever a turn is one of many. Main statement: if it is not passed over
for ever, time passes and a signal that it is sent is delivered, then it ends, unless it waits for
ever, for its backend or for a client that stays and reads no more, and nobody cancels it. Up to
its last steps this is proved of whatever passes on turns and signals as the moves of a server do.
-/

namespace Responder

namespace Turn

/-- The next action of a turn waits for something that never comes. -/
def Idle (t : Turn) : Prop := ∃ a rest, t.stage = .working a (.idle :: rest)

/-- The next action of a turn waits for its client to read. -/
def Stalled (t : Turn) : Prop :=
  (∃ a event rest, t.stage = .working a (.emit event :: rest)) ∧ ¬ t.HasRoom

def isStalled (t : Turn) : Bool :=
  match t.stage, t.client with
  | .working _ (.emit _ :: _), .reading channel => !channel.hasRoom
  | _, _ => false

theorem isStalled_iff {t : Turn} : t.isStalled = true ↔ t.Stalled := by
  unfold isStalled
  constructor
  · intro h
    split at h
    · next a event rest channel stage client =>
      refine ⟨⟨a, event, rest, stage⟩, fun room => ?_⟩
      rw [room channel client] at h
      cases h
    · cases h
  · rintro ⟨⟨a, event, rest, stage⟩, full⟩
    cases client : t.client with
    | waiting =>
      refine absurd (fun channel reading => ?_) full
      cases client.symm.trans reading
    | reading channel =>
      simp only [stage, Bool.not_eq_true', Bool.eq_false_iff]
      refine fun room => full fun other reading => ?_
      cases client.symm.trans reading
      exact room

instance (t : Turn) : Decidable t.Stalled := decidable_of_iff _ isStalled_iff

/-- A turn waits for nobody, or need not wait because its client is gone. -/
def Free (t : Turn) : Prop := t.clientGone = true ∨ ¬ t.Idle ∧ ¬ t.Stalled

theorem free_or_waits (t : Turn) :
    t.Free ∨ (t.clientGone = false ∧ (t.Idle ∨ t.Stalled)) := by
  cases gone : t.clientGone with
  | true => exact .inl (.inl gone)
  | false =>
    by_cases waits : t.Idle ∨ t.Stalled
    · exact .inr ⟨rfl, waits⟩
    · exact .inl (.inr (not_or.1 waits))

section
variable {t next : Turn} (still : Still t next)
include still

theorem Still.works (works : t.Works) : next.Works := by
  unfold Works
  rw [still.stage]
  exact works

theorem Still.idle (idle : t.Idle) : next.Idle := by
  unfold Idle
  rw [still.stage]
  exact idle

theorem Still.resumes? : next.resumes? = t.resumes? := by
  unfold Turn.resumes?
  rw [still.stage]

/-- A turn that waits for nobody does not begin to wait where it stands. -/
theorem Still.free (free : t.Free) : next.Free := by
  obtain gone | ⟨busy, room⟩ := free
  · exact .inl (still.gone gone)
  · refine .inr ⟨fun idle => busy ?_, ?_⟩
    · unfold Idle at idle ⊢
      rw [← still.stage]
      exact idle
    · rintro ⟨emits, full⟩
      rw [still.stage] at emits
      exact room ⟨emits, fun room => full (still.room room)⟩

end

end Turn

namespace Server

variable {s : Server} {t u : Turn} {w : Nat → Server} {id : String} {n m : Nat}

/-- A turn that works can do its next step if the time has come and it waits neither for its
backend nor for its client. -/
theorem exists_advance (led : t.stage.Led) (works : t.Works)
    (time : ∀ time ∈ t.resumes?, time ≤ s.clock)
    (free : t.Free) : ∃ next, s.advance t = some next := by
  have steps {next : Turn} (stepped : t.step s.clock = some next) :
      ∃ next, s.advance t = some next := by
    unfold advance
    rw [stepped]
    exact ⟨_, rfl⟩
  obtain ⟨a, actions, stage⟩ := works
  rw [stage] at led
  cases actions with
  | nil =>
    obtain ⟨before, last, same, -⟩ := led
    cases before <;> cases same
  | cons action rest =>
    by_cases stops : (t.clientGone && action.waits) = true
    · apply steps
      simp only [Turn.step, stage]
      exact if_pos stops
    · have step : t.step s.clock = t.perform s.clock a rest action := by
        simp only [Turn.step, stage]
        exact if_neg stops
      have present (waits : action.waits = true) : ¬ t.clientGone = true :=
        fun gone => stops (by rw [gone, waits]; rfl)
      cases action with
      | emit event =>
        have room : t.HasRoom :=
          not_not.1 fun full => (free.resolve_left (present rfl)).2 ⟨⟨a, event, rest, stage⟩, full⟩
        cases client : t.client with
        | waiting =>
          simp only [Turn.perform, client] at step
          exact steps step
        | reading channel =>
          simp only [Turn.perform, client, room channel client, if_true] at step
          exact steps step
      | ask =>
        unfold advance
        rw [step]
        simp only [Turn.perform, stage]
        exact ⟨_, rfl⟩
      | askStream =>
        unfold advance
        rw [step]
        simp only [Turn.perform, stage]
        exact ⟨_, rfl⟩
      | idle => exact absurd ⟨a, rest, stage⟩ (free.resolve_left (present rfl)).1
      | take due arrival =>
        have resumes : t.resumes? = some due := by
          simp only [Turn.resumes?, stage]
        exact steps (step.trans (if_pos (time due resumes)))
      | read source =>
        obtain ⟨_ | ⟨result, results⟩⟩ := source
        · exact steps step
        · exact steps step
      | append delta =>
        simp only [Turn.perform] at step
        split at step
        · exact steps step
        · exact steps step
      | call call =>
        simp only [Turn.perform] at step
        split at step
        · exact steps step
        · exact steps step
      | settle outcome => exact steps step

/-- A turn that waits for its client does nothing else. -/
theorem advance_stalled (present : t.clientGone = false) (stalled : t.Stalled) :
    s.advance t = none := by
  obtain ⟨⟨a, event, rest, stage⟩, full⟩ := stalled
  have step : t.step s.clock = none := by
    simp only [Turn.step, stage, present, Bool.false_and, Bool.false_eq_true, if_false,
      Turn.perform]
    split
    · next channel client =>
      refine if_neg fun room => full fun other reading => ?_
      cases client.symm.trans reading
      exact room
    · next client =>
      refine absurd (fun channel reading => ?_) full
      cases client.symm.trans reading
  simp only [advance, step, stage]

/-- What goes on for ever, and passes on turns and signals as the moves of a server do. -/
structure Flow (w : Nat → Server) : Prop where
  ids : ∀ n, ((w n).turns.map Turn.id).Nodup
  passage : ∀ n, Passage (w n) (w (n + 1))

/-- A run that goes on for ever. -/
def Endless (w : Nat → Server) : Prop := ∀ n, ∃ stored, Move (w n) stored (w (n + 1))

theorem Endless.run (endless : Endless w) (n : Nat) : ∃ log, Run (w 0) log (w n) := by
  induction n with
  | zero => exact ⟨[], .start⟩
  | succ n ih =>
    obtain ⟨log, run⟩ := ih
    obtain ⟨stored, moved⟩ := endless n
    exact ⟨_, run.move moved⟩

theorem Endless.flow (endless : Endless w) (first : (w 0).Reached) : Flow w := by
  have ids (n : Nat) : ((w n).turns.map Turn.id).Nodup := by
    obtain ⟨log, run⟩ := endless.run n
    exact (first.run run).ids
  refine ⟨ids, fun n => ?_⟩
  obtain ⟨stored, moved⟩ := endless n
  exact moved.passage (ids n)

/-- A signal that is sent to a turn is delivered, of which the server itself takes no care: as long
as the turn works, it listens where it waits before too many other signals are sent. -/
def Hears (w : Nat → Server) (id : String) : Prop :=
  ∀ n, w (n + 1) = (w n).signal id → ∃ m, n + 1 ≤ m ∧
    (w m).signals.count < (w (n + 1)).signals.count + Signals.capacity ∧
    ∀ t, (w m).turn? id = some t → t.Works → t.waits = true ∧ w (m + 1) = (w m).hear t

/-- What a turn needs to come to an end. If nobody cancels it, nothing is asked of the signals. -/
structure Fair (w : Nat → Server) (id : String) : Prop where
  /-- A turn that can do a step is not passed over for ever. -/
  scheduled : ∀ n, ∃ m, n ≤ m ∧ ∀ t next, (w m).turn? id = some t →
    (w m).advance t = some next → w (m + 1) = next
  passes : ∀ time, ∃ n, ∀ m, n ≤ m → time ≤ (w m).clock
  hears : Hears w id

/-- What a turn needs as long as it works. -/
structure Served (w : Nat → Server) (id : String) : Prop where
  scheduled : ∀ n, ∃ m, n ≤ m ∧ ∀ t next, (w m).turn? id = some t → t.Works →
    (w m).advance t = some next → w (m + 1) = next
  passes : ∀ time, ∃ n, ∀ m, n ≤ m → time ≤ (w m).clock
  hears : Hears w id

theorem Fair.served (fair : Fair w id) : Served w id := by
  refine ⟨fun n => ?_, fair.passes, fair.hears⟩
  obtain ⟨m, later, scheduled⟩ := fair.scheduled n
  exact ⟨m, later, fun t next found _ => scheduled t next found⟩

/-- From some time on, something holds of a turn whose client stays. -/
def Stays (w : Nat → Server) (id : String) (n : Nat) (P : Turn → Prop) : Prop :=
  ∀ m, n ≤ m → ∃ t, (w m).turn? id = some t ∧ t.clientGone = false ∧ P t

/-- A turn waits for ever, for its backend or for its client, and nobody cancels it. -/
structure Forsaken (w : Nat → Server) (id : String) (n : Nat) : Prop where
  waits : ∃ m, n ≤ m ∧ (Stays w id m Turn.Idle ∨ Stays w id m Turn.Stalled)
  uncancelled : ∀ m, n ≤ m → w (m + 1) ≠ (w m).signal id

section
variable (flow : Flow w)
include flow

theorem Flow.turn? (later : n ≤ m) (found : (w n).turn? id = some t) :
    ∃ u, (w m).turn? id = some u ∧ t.Leads u := by
  induction m, later using Nat.le_induction with
  | base => exact ⟨t, found, .refl⟩
  | succ m _ ih =>
    obtain ⟨u, there, leads⟩ := ih
    obtain ⟨v, found', last⟩ := (flow.passage m).proceeds.turn? there
    exact ⟨v, found', leads.trans last⟩

theorem Flow.attends {all : List String} (later : n ≤ m) (h : Attends (w n) all) :
    ∃ all, Attends (w m) all := by
  induction m, later using Nat.le_induction with
  | base => exact ⟨all, h⟩
  | succ m _ ih =>
    obtain ⟨all, h⟩ := ih
    exact (flow.passage m).attends (flow.ids m) h

theorem Flow.count_le (later : n ≤ m) : (w n).signals.count ≤ (w m).signals.count := by
  induction m, later using Nat.le_induction with
  | base => exact Nat.le_refl _
  | succ m later ih =>
    obtain same | ⟨other, sent⟩ := (flow.passage m).signals
    · rw [same]
      exact ih
    · rw [sent, signals_signal]
      exact ih.trans (Nat.le_succ _)

theorem Flow.pending {older newer : List String} (found : (w n).turn? id = some t)
    (h : Pending (w n) id older newer) (later : n ≤ m)
    (near : (w m).signals.count ≤ older.length + Signals.capacity) :
    ∃ newer, Pending (w m) id older newer := by
  induction m, later using Nat.le_induction with
  | base => exact ⟨newer, h⟩
  | succ m later ih =>
    have before := (flow.count_le (Nat.le_succ m)).trans near
    obtain ⟨newer, h⟩ := ih before
    obtain ⟨u, there, -⟩ := flow.turn? later found
    have count := h.records.count
    simp only [List.length_append, List.length_cons] at count
    obtain ⟨more, pending⟩ := (flow.passage m).pending h there (by omega)
    exact ⟨newer ++ more, pending⟩

/-- A turn that is cancelled works no more. -/
theorem stops_of_signal (hears : Hears w id) {all : List String} (found : (w n).turn? id = some t)
    (h : Attends (w n) all) (later : n ≤ m) (cancelled : w (m + 1) = (w m).signal id) :
    ∃ k u, n ≤ k ∧ (w k).turn? id = some u ∧ ¬ u.Works := by
  obtain ⟨u, there, -⟩ := flow.turn? later found
  obtain ⟨all, attends⟩ := flow.attends later h
  have sent : Pending (w (m + 1)) id all [] := cancelled ▸ attends.pending id
  have there : (w (m + 1)).turn? id = some u := by
    rw [cancelled, turn?_signal]
    exact there
  obtain ⟨k, after, near, listens⟩ := hears m cancelled
  have count := sent.records.count
  simp only [List.length_append, List.length_cons, List.length_nil] at count
  obtain ⟨newer, pending⟩ := flow.pending there sent after (by omega)
  obtain ⟨v, found', -⟩ := flow.turn? after there
  by_cases works : v.Works
  · obtain ⟨waits, heard⟩ := listens v found' works
    have total := pending.records.count
    simp only [List.length_append, List.length_cons] at total
    refine ⟨k + 1, v.heard (w k).signals, by omega, ?_, Turn.heard_not_works ?_⟩
    · rw [heard]
      exact turn?_hear found' waits
    · rw [id_of_turn? found']
      exact pending.hears (by omega) found' works
  · exact ⟨k, v, by omega, found', works⟩

variable (served : Served w id)
include served

section
variable (found : (w n).turn? id = some t)
  (stands : ∀ m u, n ≤ m → (w m).turn? id = some u → ¬ u.stage.rank < t.stage.rank)
include found stands

/-- A turn that never makes less of its work waits, at any time. -/
theorem waits_of_stands (led : t.stage.Led) (works : t.Works) (later : n ≤ m) :
    ∃ u, (w m).turn? id = some u ∧ Turn.Still t u ∧ u.clientGone = false ∧
      (u.Idle ∨ u.Stalled) := by
  obtain ⟨u, there, leads⟩ := flow.turn? later found
  have same : Turn.Still t u := leads.rank_lt_or_still.resolve_left (stands m u later there)
  obtain free | waits := u.free_or_waits
  · exfalso
    -- At some time the time of the turn has come, and it is scheduled.
    obtain ⟨due, come⟩ := served.passes (u.resumes?.getD .zero)
    obtain ⟨k, latest, scheduled⟩ := served.scheduled (max m due)
    have after : m ≤ k := le_trans (le_max_left m due) latest
    obtain ⟨v, there', leads⟩ := flow.turn? after there
    have last : Turn.Still u v := by
      refine leads.rank_lt_or_still.resolve_left fun less => ?_
      rw [same.stage] at less
      exact stands k v (later.trans after) there' less
    have all : Turn.Still t v := same.trans last
    have time : ∀ time ∈ v.resumes?, time ≤ (w k).clock := by
      intro time waits
      have bound := come k (le_trans (le_max_right m due) latest)
      rw [← last.resumes?, waits] at bound
      exact bound
    obtain ⟨next, moved⟩ :=
      exists_advance (s := w k) (all.stage ▸ led) (all.works works) time (last.free free)
    obtain ⟨x, p, events, found', shifted⟩ := (advances there' moved).shifts
    rw [id_of_turn? there', ← scheduled v next there' (all.works works) moved] at found'
    refine stands (k + 1) x (by omega) found' ?_
    rw [← all.stage]
    exact shifted.shift.rank_lt
  · exact ⟨u, there, same, waits⟩

/-- It waits for the same at all times. -/
theorem stays_of_stands (led : t.stage.Led) (works : t.Works) :
    Stays w id n Turn.Idle ∨ Stays w id n Turn.Stalled := by
  have waits {m : Nat} (later : n ≤ m) := waits_of_stands flow served found stands led works later
  by_cases idle : t.Idle
  · left
    intro m later
    obtain ⟨v, there, same, present, -⟩ := waits later
    exact ⟨v, there, present, same.idle idle⟩
  · right
    intro m later
    obtain ⟨v, there, same, present, idle' | stalled⟩ := waits later
    · unfold Turn.Idle at idle idle'
      rw [same.stage] at idle'
      exact absurd idle' idle
    · exact ⟨v, there, present, stalled⟩

end

/-- A turn that is served works no more at some time, or it waits for ever. -/
theorem stops_or_waits (found : (w n).turn? id = some t) (led : t.stage.Led) :
    (∃ m u, n ≤ m ∧ (w m).turn? id = some u ∧ ¬ u.Works) ∨
      ∃ m, n ≤ m ∧ (Stays w id m Turn.Idle ∨ Stays w id m Turn.Stalled) := by
  induction rank : t.stage.rank using WellFoundedLT.induction generalizing n t with
  | ind rank ih =>
    subst rank
    by_cases works : t.Works
    · by_cases less : ∃ m u, n ≤ m ∧ (w m).turn? id = some u ∧ u.stage.rank < t.stage.rank
      · obtain ⟨m, u, later, there, less⟩ := less
        obtain ⟨v, there', leads⟩ := flow.turn? later found
        cases there.symm.trans there'
        have led : u.stage.Led := leads.holds (fun step h => step.led h) led
        obtain ⟨k, v, after, stops⟩ | ⟨k, after, waits⟩ := ih _ less there led rfl
        · exact .inl ⟨k, v, later.trans after, stops⟩
        · exact .inr ⟨k, later.trans after, waits⟩
      · refine .inr ⟨n, Nat.le_refl n, stays_of_stands flow served found ?_ led works⟩
        exact fun m u later there less' => less ⟨m, u, later, there, less'⟩
    · exact .inl ⟨n, t, Nat.le_refl n, found, works⟩

/-- A turn that waits for ever was not cancelled. -/
theorem stops_or_forsaken {all : List String} (found : (w n).turn? id = some t)
    (led : t.stage.Led) (attends : Attends (w n) all) :
    (∃ m u, n ≤ m ∧ (w m).turn? id = some u ∧ ¬ u.Works) ∨ Forsaken w id n := by
  refine (stops_or_waits flow served found led).imp_right fun ⟨k, after, waits⟩ => ?_
  refine ⟨⟨k, after, waits⟩, fun m later cancelled => ?_⟩
  obtain ⟨j, u, -, there, stopped⟩ :=
    stops_of_signal flow served.hears found attends later cancelled
  obtain ⟨v, found', leads⟩ := flow.turn? (le_max_left j k) there
  -- It would still work, where it waits.
  have works : v.Works := by
    obtain idle | stalled := waits
    · obtain ⟨x, same, -, a, rest, stage⟩ := idle _ (le_max_right j k)
      cases same.symm.trans found'
      exact ⟨a, _, stage⟩
    · obtain ⟨x, same, -, ⟨a, event, rest, stage⟩, -⟩ := stalled _ (le_max_right j k)
      cases same.symm.trans found'
      exact ⟨a, _, stage⟩
  exact stopped (leads.works works)

end

theorem Reached.led (h : s.Reached) (mem : t ∈ s.turns) : t.stage.Led := by
  obtain ⟨start, log, new, run⟩ := h
  exact run.turns (fun _ seen streamed => Turn.led_admitted ..) (fun step h => step.led h) new t mem

/-- In an endless run that is fair to it a turn is finished at some time, or it waits for ever and
nobody cancels it. -/
theorem finishes_or_forsaken {all : List String} (first : (w 0).Reached) (endless : Endless w)
    (fair : Fair w id) (found : (w 0).turn? id = some t) (attends : Attends (w 0) all) :
    (∃ n u r, (w n).turn? id = some u ∧ u.response? = some r) ∨ Forsaken w id 0 := by
  have flow := endless.flow first
  have led := first.led (mem_of_turn? found)
  refine (stops_or_forsaken flow fair.served found led attends).imp_left ?_
  rintro ⟨n, u, -, there, stopped⟩
  obtain ⟨m, later, scheduled⟩ := fair.scheduled n
  obtain ⟨v, there', leads⟩ := flow.turn? later there
  cases stage : v.stage with
  | working a actions => exact absurd (leads.works ⟨a, actions, stage⟩) stopped
  | settling a outcome =>
    obtain rfl : v.id = id := id_of_turn? there'
    have finishes := scheduled v _ there' (advance_settling stage)
    refine ⟨m + 1, v.finish (w m).now, a.finalize v.schema (w m).now outcome, ?_, ?_⟩
    · rw [finishes]
      exact turn?_finish there'
    · rw [Turn.finish, stage]
      rfl
  | closing r => exact ⟨m, v, r, there', by rw [Turn.response?, stage]⟩
  | ended r => exact ⟨m, v, r, there', by rw [Turn.response?, stage]⟩

/-- A client that stays and does not read can keep its turn waiting for ever. -/
theorem exists_stalled (only : s.turns = [t]) (stalled : t.Stalled)
    (present : t.clientGone = false) (silent : s.signals = {}) :
    ∃ w, w 0 = s ∧ Endless w ∧ Fair w t.id ∧
      ∀ n, (w n).turn? t.id = some t ∧ (w n).signals = {} := by
  let w (n : Nat) : Server := { s with clock := ⟨s.clock.millis + n⟩ }
  have found (n : Nat) : (w n).turn? t.id = some t := by
    simp only [Server.turn?, w, only]
    exact List.find?_cons_of_pos (decide_eq_true rfl)
  have endless : Endless w := fun n => ⟨[], .pass (s := w n) _⟩
  refine ⟨w, rfl, endless, ⟨?_, ?_, ?_⟩, fun n => ⟨found n, silent⟩⟩
  · intro n
    refine ⟨n, Nat.le_refl n, fun u next there moved => ?_⟩
    cases (found n).symm.trans there
    cases (advance_stalled present stalled).symm.trans moved
  · intro time
    refine ⟨time.millis, fun m later => ?_⟩
    have come : time.millis ≤ s.clock.millis + m := by omega
    exact come
  · -- Nobody sends a signal.
    intro n cancelled
    have more := congrArg (·.signals.count) cancelled
    simp only [signals_signal, Signals.send, w] at more
    omega

end Server

end Responder
