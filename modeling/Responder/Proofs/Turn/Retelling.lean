import Responder.Proofs.Turn.Sameness
import Responder.Proofs.Turn.Story

/-!
# The same story twice

Two turns of one request that differ in their ids and in time go the same way as long as the same
comes to them. Main statement: if the same comes to both, and what interrupts them does so after as
many of their events, then they tell the same events as far as both have come, and answer the same.
-/

namespace Responder

/-- Arrivals that differ in generated ids only, what a stream has yet to bring left out. -/
inductive SameArrival (lane lane' : Lane) : Arrival → Arrival → Prop
  | answer {x y : Except BackendFault Completion} : SameResult (SameCompletion lane lane') x y →
      SameArrival lane lane' (.answer x) (.answer y)
  | opening {x y : Except BackendFault ChunkStream} : SameResult (fun _ _ => True) x y →
      SameArrival lane lane' (.opening x) (.opening y)
  | result {x y : Except BackendFault Chunk} (rest rest' : ChunkStream) :
      SameResult (SameChunk lane lane') x y →
      SameArrival lane lane' (.result x rest) (.result y rest')

/-- What comes to a turn in order, each time with the number of events that it has sent before. -/
def comings (sent : Nat) : List Happening → List (Nat × Happening)
  | [] => []
  | .sent :: told => comings (sent + 1) told
  | h :: told => (sent, h) :: comings sent told

/-- The same comes to two turns. An interruption comes after as many events. -/
inductive SameComing (lane lane' : Lane) : Nat × Happening → Nat × Happening → Prop
  | arrived {x y : Arrival} (n m : Nat) : SameArrival lane lane' x y →
      SameComing lane lane' (n, .arrived x) (m, .arrived y)
  | exhausted (n m : Nat) : SameComing lane lane' (n, .exhausted) (m, .exhausted)
  | signalled (n : Nat) : SameComing lane lane' (n, .signalled) (n, .signalled)
  | left (n : Nat) : SameComing lane lane' (n, .left) (n, .left)

/-- Whether something of the backend is waited for. -/
def Action.expects : Action → Bool
  | ask | askStream | idle | take .. | read _ => true
  | emit _ | append _ | call _ | settle _ => false

/-- Actions that differ in generated ids, in times and in what the backend has in store. -/
inductive SameAction (lane lane' : Lane) : Action → Action → Prop
  | emit {x y : Event} : SameEvent lane lane' x y → SameAction lane lane' (.emit x) (.emit y)
  | append (delta : String) : SameAction lane lane' (.append delta) (.append delta)
  | call {x y : ToolCall} : SameCall lane lane' x y → SameAction lane lane' (.call x) (.call y)
  | settle (outcome : Outcome) : SameAction lane lane' (.settle outcome) (.settle outcome)
  | expect {x y : Action} : x.expects = true → y.expects = true → SameAction lane lane' x y

/-- Places of two turns that have come to the same. -/
inductive SamePlace (lane lane' : Lane) : Place → Place → Prop
  | telling {a b : Accumulator} {x y : Event} {rest rest' : List Action} :
      SameAccumulator lane lane' a b → SameEvent lane lane' x y →
      List.Forall₂ (SameAction lane lane') rest rest' →
      SamePlace lane lane' (.telling a x rest) (.telling b y rest')
  | waiting {a b : Accumulator} : SameAccumulator lane lane' a b →
      SamePlace lane lane' (.waiting a) (.waiting b)
  | decided {a b : Accumulator} (outcome : Outcome) : SameAccumulator lane lane' a b →
      SamePlace lane lane' (.decided a outcome) (.decided b outcome)
  | quiet {a b : Accumulator} (outcome : Outcome) : SameAccumulator lane lane' a b →
      SamePlace lane lane' (.quiet a outcome) (.quiet b outcome)

namespace Turn

/-- Two turns of one request. -/
structure Twins (t t' : Turn) : Prop where
  registry : t'.registry = t.registry
  schema : t'.schema = t.schema

variable {t t' : Turn} {a b : Accumulator} {p q p' q' : Place} {told told' : List Happening}
  {events events' : List Event} {actions actions' : List Action}

theorem ready_expects {action : Action} (expects : action.expects = true) (t : Turn)
    (a : Accumulator) (rest : List Action) : t.ready a (action :: rest) = .waiting a := by
  cases action with
  | ask | askStream | idle | take | read => rfl
  | emit | append | call | settle => cases expects

theorem closingEvents_same {lane lane' : Lane} (h : SameAccumulator lane lane' a b) :
    List.Forall₂ (SameAction lane lane') (closingEvents a) (closingEvents b) := by
  have opened := h.openItem?
  unfold closingEvents
  generalize a.openItem? = x at opened
  generalize b.openItem? = y at opened
  cases opened with
  | none => exact .nil
  | @some x y same =>
    obtain ⟨index, item⟩ := x
    obtain ⟨_, item'⟩ := y
    obtain ⟨rfl, same⟩ := same
    have closed := same.closeMessage
    simp only [Option.map_some, closed.text]
    exact .cons (.emit (.textDone index _ closed.id))
      (.cons (.emit (.partDone index _ closed.id)) (.cons (.emit (.itemDone index closed)) .nil))

theorem callEvents_same {lane lane' : Lane} {item item' : OutputItem} (index : Nat)
    (h : SameItem lane lane' item item') :
    List.Forall₂ (SameAction lane lane') (callEvents index item) (callEvents index item') := by
  cases h with
  | message => exact .nil
  | functionCall status name arguments id callId =>
    refine .cons (.emit (.itemAdded index ?_)) (.cons (.emit (.argumentsDone index arguments id))
      (.cons (.emit (.itemDone index ?_)) .nil))
    · exact .functionCall .inProgress name "" id callId
    · exact .functionCall status name arguments id callId

section twins
variable (twins : Twins t t')
include twins

/-- From the same place two turns come to the same by themselves. -/
theorem ready_same (h : SameAccumulator t.lane t'.lane a b)
    (same : List.Forall₂ (SameAction t.lane t'.lane) actions actions') :
    SamePlace t.lane t'.lane (t.ready a actions) (t'.ready b actions') := by
  induction same generalizing a b with
  | nil => exact .waiting h
  | cons action rest ih =>
    cases action with
    | emit event => exact .telling h event rest
    | append delta =>
      have pushed := h.pushText delta
      have opened := pushed.openItem?
      simp only [ready]
      generalize (a.pushText delta).openItem? = x at opened
      generalize (b.pushText delta).openItem? = y at opened
      cases opened with
      | none => exact ih pushed
      | some same => exact .telling pushed (same.1 ▸ .textDelta _ delta same.2.id) rest
    | call called =>
      simp only [ready, twins.registry, ← h.nextIndex]
      obtain ⟨item, item', shaped, shaped', alike⟩ | ⟨failure, refused, refused'⟩ :=
        shape_alike t.registry called a.nextIndex
      · have pushed := h.pushItem alike
        have told := callEvents_same a.nextIndex alike
        rw [shaped, shaped']
        cases alike with
        | message => exact ih pushed
        | functionCall =>
          obtain ⟨event, more⟩ := List.forall₂_cons.1 told
          cases event with
          | emit event => exact .telling pushed event (List.rel_append more rest)
          | expect expects => cases expects
      · rw [refused, refused']
        exact .decided _ h
    | settle outcome => exact .decided outcome h
    | expect expects expects' =>
      rw [ready_expects expects, ready_expects expects']
      exact .waiting h

theorem takeResult_same (h : SameAccumulator t.lane t'.lane a b) {x y : Except BackendFault Chunk}
    (same : SameResult (SameChunk t.lane t'.lane) x y) (rest rest' : ChunkStream) :
    SamePlace t.lane t'.lane (t.place (t.takeResult a rest x))
      (t'.place (t'.takeResult b rest' y)) := by
  have reads : SameAction t.lane t'.lane (.read rest) (.read rest') := .expect rfl rfl
  cases same with
  | fault fault => exact .decided _ h
  | ok chunk =>
    cases chunk with
    | text delta =>
      simp only [takeResult, takeText, h.openText, h.nextIndex]
      split
      · exact ready_same twins h (.cons reads .nil)
      · split
        · exact ready_same twins h (.cons (.append delta) (.cons reads .nil))
        · have id : SameId t.lane t'.lane (t.lane.id .message (.output b.nextIndex))
              (t'.lane.id .message (.output b.nextIndex)) := .generated ..
          exact ready_same twins (h.openMessage id)
            (.cons (.emit (.itemAdded _ (.message .inProgress [] id)))
              (.cons (.emit (.partAdded _ _ id)) (.cons (.append delta) (.cons reads .nil))))
    | call called =>
      exact ready_same twins h.closeText
        (List.rel_append (closingEvents_same h) (.cons (.call called) (.cons reads .nil)))
    | usage usage => exact ready_same twins (h.recordUsage usage) (.cons reads .nil)
    | finished reason =>
      have recorded := h.recordFinish reason
      exact ready_same twins recorded.closeText
        (List.rel_append (closingEvents_same recorded) (.cons (.settle .finished) .nil))

theorem takeArrival_same (h : SameAccumulator t.lane t'.lane a b) {x y : Arrival}
    (same : SameArrival t.lane t'.lane x y) :
    SamePlace t.lane t'.lane (t.place (t.takeArrival a x)) (t'.place (t'.takeArrival b y)) := by
  cases same with
  | answer same =>
    cases same with
    | fault fault => exact .decided _ h
    | ok same =>
      obtain ⟨installed, outcome⟩ := h.install t.registry same
      simp only [takeArrival, twins.registry, place, outcome]
      exact .decided _ installed
  | opening same =>
    cases same with
    | fault fault => exact .decided _ h
    | ok => exact .waiting h
  | result rest rest' same => exact takeResult_same twins h same rest rest'

theorem sent_same (same : SamePlace t.lane t'.lane p p') :
    SamePlace t.lane t'.lane (t.meet p .sent) (t'.meet p' .sent) := by
  cases same with
  | telling h event rest => exact ready_same twins h rest
  | waiting h => exact .waiting h
  | decided outcome h | quiet outcome h => exact .quiet outcome h

theorem meet_same {n m : Nat} {h h' : Happening} (same : SamePlace t.lane t'.lane p p')
    (coming : SameComing t.lane t'.lane (n, h) (m, h')) :
    SamePlace t.lane t'.lane (t.meet p h) (t'.meet p' h') := by
  cases coming with
  | arrived n m arrival =>
    cases same with
    | waiting h => exact takeArrival_same twins h arrival
    | telling h event rest => exact .telling h event rest
    | decided outcome h => exact .decided outcome h
    | quiet outcome h => exact .quiet outcome h
  | exhausted n m =>
    cases same with
    | waiting h =>
      exact ready_same twins h.closeText
        (List.rel_append (closingEvents_same h) (.cons (.settle .finished) .nil))
    | telling h event rest => exact .telling h event rest
    | decided outcome h => exact .decided outcome h
    | quiet outcome h => exact .quiet outcome h
  | signalled n =>
    cases same with
    | telling h event rest => exact .decided .cancelled h
    | waiting h => exact .decided .cancelled h
    | decided outcome h => exact .decided outcome h
    | quiet outcome h => exact .quiet outcome h
  | left n =>
    cases same with
    | telling h event rest => exact .quiet .cancelled h
    | waiting h => exact .quiet .cancelled h
    | decided outcome h | quiet outcome h => exact .quiet outcome h

theorem tells_same {x y : Event} (same : SamePlace t.lane t'.lane p p') (tells : t.Tells x p)
    (tells' : t'.Tells y p') : SameEvent t.lane t'.lane x y := by
  cases same with
  | telling h event rest =>
    obtain rfl := tells
    obtain rfl := tells'
    exact event
  | decided outcome h =>
    obtain ⟨now, rfl⟩ := tells
    obtain ⟨now', rfl⟩ := tells'
    rw [twins.schema]
    exact .terminal (h.finalize t.schema now now' outcome)
  | waiting | quiet => exact tells.elim

end twins

/-- What is decided of two turns is the same. -/
def SameVerdict (lane lane' : Lane) (v w : Accumulator × Outcome) : Prop :=
  SameAccumulator lane lane' v.1 w.1 ∧ v.2 = w.2

theorem verdict_same {lane lane' : Lane} (same : SamePlace lane lane' p p') :
    Option.Rel (SameVerdict lane lane') p.verdict? p'.verdict? := by
  cases same with
  | telling | waiting => exact .none
  | decided outcome h | quiet outcome h => exact .some ⟨h, rfl⟩

/-- What is decided stays so. -/
theorem Tale.verdict? {v : Accumulator × Outcome} (tale : Tale t p told events q)
    (decided : p.verdict? = some v) : q.verdict? = some v := by
  have meets {p : Place} (h : Happening) (decided : p.verdict? = some v) :
      (t.meet p h).verdict? = some v := by
    cases p with
    | telling | waiting => cases decided
    | decided a outcome | quiet a outcome => cases h <;> exact decided
  induction tale with
  | nil => exact decided
  | sent _ _ ih | met _ _ ih => exact ih (meets _ decided)

/-- If one of two turns at the same place is decided, both come to the same. -/
theorem sameVerdict_of_tales {v w : Accumulator × Outcome} (same : SamePlace t.lane t'.lane p p')
    (tale : Tale t p told events q) (tale' : Tale t' p' told' events' q')
    (decided : p.verdict? = some v ∨ p'.verdict? = some w) (left : q.verdict? = some v)
    (right : q'.verdict? = some w) : SameVerdict t.lane t'.lane v w := by
  have verdicts := verdict_same same
  generalize first : p.verdict? = x at verdicts
  generalize second : p'.verdict? = y at verdicts
  cases verdicts with
  | none =>
    rw [first, second] at decided
    obtain decided | decided := decided <;> cases decided
  | some agree =>
    cases (tale.verdict? first).symm.trans left
    cases (tale'.verdict? second).symm.trans right
    exact agree

theorem le_of_mem_comings {n m : Nat} {h : Happening} (mem : (m, h) ∈ comings n told) :
    n ≤ m := by
  induction told generalizing n with
  | nil => exact absurd mem List.not_mem_nil
  | cons first rest ih =>
    cases first with
    | sent => exact (Nat.le_succ n).trans (ih mem)
    | arrived | exhausted | signalled | left =>
      obtain same | later := List.mem_cons.1 mem
      · cases same
        exact le_refl _
      · exact ih later

theorem comings_met {n : Nat} {h : Happening} (allows : p.Allows h) (told : List Happening) :
    comings n (h :: told) = (n, h) :: comings n told := by
  cases h with
  | sent => cases p <;> exact allows.elim
  | arrived | exhausted | signalled | left => rfl

/-- Two turns agree as far as both have come. -/
structure Abreast (lane lane' : Lane) (events : List Event) (p : Place) (events' : List Event)
    (p' : Place) : Prop where
  told : ∀ {i : Nat} {x y : Event}, events[i]? = some x → events'[i]? = some y →
    SameEvent lane lane' x y
  verdict : ∀ {v w}, p.verdict? = some v → p'.verdict? = some w → SameVerdict lane lane' v w
  whole : ∀ {a b o o'}, p = .quiet a o → p' = .quiet b o' → events.length = events'.length

/-- Where one of two turns sends an event next, nothing comes to the other before it does so. -/
theorem sends_next {lane lane' : Lane} {n m : Nat} {h g : Happening} {x : Event}
    (tells : t.Tells x p) (same : SamePlace lane lane' p p' ∨ SamePlace lane lane' p' p)
    (allows : p'.Allows h) (mem : (m, g) ∈ comings (n + 1) told)
    (coming : SameComing lane lane' (m, g) (n, h) ∨ SameComing lane lane' (n, h) (m, g)) :
    False := by
  have later : n + 1 ≤ m := le_of_mem_comings mem
  have expects (waits : ∃ a, p' = .waiting a) : False := by
    obtain ⟨a, rfl⟩ := waits
    obtain same | same := same <;> cases same <;> exact tells
  have waiting (arrives : (∃ arrival, h = .arrived arrival) ∨ h = .exhausted) :
      ∃ a, p' = .waiting a := by
    cases p' with
    | waiting a => exact ⟨a, rfl⟩
    | telling | decided | quiet => obtain ⟨_, rfl⟩ | rfl := arrives <;> exact allows.elim
  obtain coming | coming := coming <;> cases coming with
  | arrived => exact expects (waiting (.inl ⟨_, rfl⟩))
  | exhausted => exact expects (waiting (.inr rfl))
  | signalled | left => omega

/-- If the same comes to two turns they agree as far as both have come. -/
theorem Tale.abreast (twins : Twins t t') (tale : Tale t p told events q)
    (tale' : Tale t' p' told' events' q') (same : SamePlace t.lane t'.lane p p') {n : Nat}
    (comes : List.Forall₂ (SameComing t.lane t'.lane) (comings n told) (comings n told')) :
    Abreast t.lane t'.lane events q events' q' := by
  induction tale generalizing p' told' events' q' n with
  | nil p =>
    have verdict {v w : Accumulator × Outcome} (left : p.verdict? = some v)
        (right : q'.verdict? = some w) : SameVerdict t.lane t'.lane v w :=
      sameVerdict_of_tales same (.nil p) tale' (.inl left) left right
    cases tale' with
    | nil => exact ⟨fun there => (Option.some_ne_none _ there.symm).elim, verdict, fun _ _ => rfl⟩
    | sent tells' =>
      refine ⟨fun there => (Option.some_ne_none _ there.symm).elim, verdict, fun quiet _ => ?_⟩
      subst quiet
      cases same
      exact tells'.elim
    | met allows' =>
      rw [comings_met allows'] at comes
      cases comes
  | @sent p q told event events tells rest ih =>
    cases tale' with
    | nil =>
      refine ⟨fun _ there => (Option.some_ne_none _ there.symm).elim, fun {v w} left right => ?_,
        fun _ quiet => ?_⟩
      · exact sameVerdict_of_tales same (.sent tells rest) (.nil _) (.inr right) left right
      · subst quiet
        cases same
        exact tells.elim
    | sent tells' rest' =>
      have agree := ih rest' (sent_same twins same) (n := n + 1) comes
      refine ⟨fun {i x y} left right => ?_, agree.verdict, fun quiet quiet' => ?_⟩
      · cases i with
        | zero =>
          cases left
          cases right
          exact tells_same twins same tells tells'
        | succ i => exact agree.told left right
      · exact congrArg (· + 1) (agree.whole quiet quiet')
    | met allows' =>
      rw [comings_met allows'] at comes
      obtain ⟨⟨m, g⟩, more, coming, -, split⟩ := List.forall₂_cons_right_iff.1 comes
      have mem : (m, g) ∈ comings (n + 1) told := split ▸ List.mem_cons_self
      exact (sends_next tells (.inl same) allows' mem (.inl coming)).elim
  | @met p q h told events allows rest ih =>
    rw [comings_met allows] at comes
    cases tale' with
    | nil => cases comes
    | sent tells' =>
      obtain ⟨⟨m, g⟩, more, coming, -, split⟩ := List.forall₂_cons_left_iff.1 comes
      have mem : (m, g) ∈ comings (n + 1) _ := split ▸ List.mem_cons_self
      exact (sends_next tells' (.inr same) allows mem (.inr coming)).elim
    | met allows' rest' =>
      rw [comings_met allows'] at comes
      obtain ⟨coming, more⟩ := List.forall₂_cons.1 comes
      exact ih rest' (meet_same twins same coming) more

/-- Two turns agree, but for ids and times, on each event that both have sent and on what they
have answered, and on all of their events once both have ended. -/
structure Concur (lane lane' : Lane) (read : List Sequenced) (t : Turn) (read' : List Sequenced)
    (t' : Turn) : Prop where
  events : ∀ {i : Nat} {x y : Sequenced}, (sent read t)[i]? = some x →
    (sent read' t')[i]? = some y → SameSequenced lane lane' x y
  response : ∀ {x y : Response}, t.response? = some x → t'.response? = some y →
    SameResponse lane lane' x y
  whole : ∀ {x y : Response}, t.stage = .ended x → t'.stage = .ended y →
    List.Forall₂ (SameSequenced lane lane') (sent read t) (sent read' t')

section
variable {first second u v : Turn} {read read' : List Sequenced} {streamed : Bool}

theorem Carried.getElem? {i : Nat} {x : Sequenced} (h : Carried streamed events read t)
    (there : (sent read t)[i]? = some x) : events[i]? = some x.event ∧ x.number = i := by
  cases h with
  | reading reading told numbers =>
    have number := congrArg (·[i]?) numbers
    simp only [List.getElem?_map, there, Option.map_some] at number
    refine ⟨by rw [← told, List.getElem?_map, there]; rfl, ?_⟩
    obtain ⟨_, same⟩ := List.getElem?_eq_some_iff.1 number.symm
    rw [List.getElem_range] at same
    exact same.symm
  | waiting _ waiting =>
    rw [sent, queue, channel?, waiting] at there
    cases there

/-- If the same has come to two turns of one request they agree. -/
theorem Recounted.concur (twins : Twins first second)
    (same : SamePlace first.lane second.lane p p')
    (h : Recounted first p streamed told read u) (h' : Recounted second p' streamed told' read' v)
    (comes : List.Forall₂ (SameComing first.lane second.lane) (comings 0 told)
      (comings 0 told')) :
    Concur first.lane second.lane read u read' v := by
  obtain ⟨events, q, tale, stands, -, carried⟩ := h
  obtain ⟨events', q', tale', stands', -, carried'⟩ := h'
  have abreast := tale.abreast twins tale' same comes
  have each {i : Nat} {x y : Sequenced} (left : (sent read u)[i]? = some x)
      (right : (sent read' v)[i]? = some y) : SameSequenced first.lane second.lane x y := by
    obtain ⟨event, number⟩ := carried.getElem? left
    obtain ⟨event', number'⟩ := carried'.getElem? right
    exact ⟨abreast.told event event', number.trans number'.symm⟩
  refine ⟨each, fun answered answered' => ?_, fun ended ended' => ?_⟩
  · obtain ⟨a, outcome, now, decided, rfl⟩ := stands.response answered
    obtain ⟨b, outcome', now', decided', rfl⟩ := stands'.response answered'
    obtain ⟨alike, outcomes⟩ := abreast.verdict decided decided'
    obtain rfl : outcome = outcome' := outcomes
    rw [twins.schema]
    exact alike.finalize first.schema now now' outcome
  · obtain ⟨a, outcome, quiet⟩ := stands.ended ended
    obtain ⟨b, outcome', quiet'⟩ := stands'.ended ended'
    have count := abreast.whole quiet quiet'
    have length : (sent read u).length = (sent read' v).length := by
      cases carried with
      | reading _ told =>
        cases carried' with
        | reading _ told' =>
          rw [← told, ← told', List.length_map, List.length_map] at count
          exact count
      | waiting _ waiting =>
        cases carried' with
        | waiting _ waiting' => simp only [sent, queue, channel?, waiting, waiting']
    rw [List.forall₂_iff_get]
    refine ⟨length, fun i left right => ?_⟩
    exact each (List.getElem?_eq_getElem left) (List.getElem?_eq_getElem right)

end

end Turn

end Responder
