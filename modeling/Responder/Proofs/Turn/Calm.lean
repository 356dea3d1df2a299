import Responder.Proofs.Turn.Progress

/-!
# Calm runs

A run is calm if nobody cancels the turn and its client stays. No calm run is cut off: a
turn settles as cancelled only when it is interrupted.
-/

namespace Responder

/-- A turn at this stage was not interrupted, and has nothing left to do that looks so. -/
def Stage.Quiet : Stage → Prop
  | working _ actions => .settle .cancelled ∉ actions
  | settling _ outcome => outcome ≠ .cancelled
  | closing _ | ended _ => True

namespace Turn

variable {p : Prepared} {start t next : Turn} {read : List Sequenced} {ending : Option Outcome}
  {a : Accumulator} {rest : List Action}

/-- A run in which the turn is not cancelled and its client stays. -/
inductive Calm (p : Prepared) (start : Turn) : List Sequenced → Option Outcome → Turn → Prop
  | start : start.clientGone = false → Calm p start [] start.stage.outcome? start
  | own {read : List Sequenced} {ending : Option Outcome} {t next : Turn} :
      Calm p start read ending t → Own p t next →
      Calm p start read (next.stage.outcome? <|> ending) next
  | read {read : List Sequenced} {ending : Option Outcome} {t next : Turn} {event : Sequenced} :
      Calm p start read ending t → t.receive? = some (event, next) →
      Calm p start (read ++ [event]) ending next

theorem Calm.goes : Goes p (Calm p start) := ⟨.own, .read⟩

theorem Calm.run (calm : Calm p start read ending t) : Run p start read ending t := by
  induction calm with
  | start => exact .start
  | own _ m ih => exact ih.move (.own m)
  | read _ h ih => exact ih.read h

theorem Calm.present (calm : Calm p start read ending t) : t.clientGone = false := by
  induction calm with
  | start present => exact present
  | own _ m ih =>
    obtain ⟨events, shifted⟩ | ⟨-, -, -, gone⟩ := m.cases_shifted
    · exact shifted.gone.trans ih
    · exact gone.trans ih
  | read _ h ih => exact (receive_spec h).2.2.1.trans ih

theorem quiet_emits (events : List Event) (h : (Stage.working a rest).Quiet) :
    (Stage.working a (events.map .emit ++ rest)).Quiet := by
  intro mem
  rcases List.mem_append.1 mem with mem | mem
  · obtain ⟨event, -, same⟩ := List.mem_map.1 mem
    cases same
  · exact h mem

theorem quiet_tail {b : Accumulator} {action : Action}
    (h : (Stage.working a (action :: rest)).Quiet) : (Stage.working b rest).Quiet :=
  fun mem => h (List.mem_cons_of_mem _ mem)

theorem quiet_awaiting (clock : Duration) (w : Wait Arrival) :
    (Stage.awaiting clock a w).Quiet := by
  cases w <;> simp [Stage.awaiting, Stage.Quiet]

theorem takeResult_quiet (a : Accumulator) (rest : ChunkStream)
    (result : Except BackendFault Chunk) : (t.takeResult a rest result).Quiet := by
  cases result with
  | error fault => simp [takeResult, Stage.Quiet]
  | ok chunk =>
    cases chunk with
    | text delta =>
      simp only [takeResult, takeText]
      split
      · simp [Stage.Quiet]
      · split <;> simp [Stage.Quiet]
    | call call =>
      obtain ⟨events, -, closing⟩ := closingEvents_emits a
      simp only [takeResult, closing]
      exact quiet_emits events (by simp [Stage.Quiet])
    | usage usage => simp [takeResult, Stage.Quiet]
    | finished reason =>
      obtain ⟨events, -, closing⟩ := closingEvents_emits (a.recordFinish reason)
      simp only [takeResult, closing]
      exact quiet_emits events (by simp [Stage.Quiet])

theorem install_outcome (registry : Registry) (lane : Lane) (a : Accumulator) (c : Completion) :
    (a.install registry lane c).2 ≠ .cancelled := by
  unfold Accumulator.install
  dsimp only
  split <;> nofun

theorem takeArrival_quiet (a : Accumulator) (arrival : Arrival) :
    (t.takeArrival a arrival).Quiet := by
  cases arrival with
  | answer outcome =>
    cases outcome with
    | error fault => simp [takeArrival, Stage.Quiet]
    | ok completion => exact install_outcome t.registry t.lane a completion
  | opening outcome => cases outcome <;> simp [takeArrival, Stage.Quiet]
  | result result rest => exact takeResult_quiet a rest result

theorem perform_quiet {clock : Duration} {action : Action}
    (quiet : (Stage.working a (action :: rest)).Quiet)
    (h : t.perform clock a rest action = some next) : next.stage.Quiet := by
  cases action with
  | emit event =>
    simp only [perform] at h
    split at h
    · split at h
      · cases h
        exact quiet_tail quiet
      · cases h
    · cases h
      exact quiet_tail quiet
  | ask => cases h
  | askStream => cases h
  | idle => cases h
  | take time arrival =>
    simp only [perform] at h
    split at h
    · cases h
      exact takeArrival_quiet a arrival
    · cases h
  | read source =>
    obtain ⟨_ | ⟨result, results⟩⟩ := source
    · cases h
      obtain ⟨events, -, closing⟩ := closingEvents_emits a
      simp only [closing]
      exact quiet_emits events (by simp [Stage.Quiet])
    · cases h
      rw [await_stage]
      exact quiet_awaiting clock _
  | append delta =>
    simp only [perform] at h
    split at h
    · cases h
      exact quiet_emits [_] (quiet_tail quiet)
    · cases h
      exact quiet_tail quiet
  | call call =>
    simp only [perform] at h
    split at h
    · next item shaped =>
      cases h
      obtain ⟨events, -, told⟩ := callEvents_emits a.nextIndex item
      simp only [told]
      exact quiet_emits events (quiet_tail quiet)
    · cases h
      simp [Stage.Quiet]
  | settle outcome =>
    cases h
    rintro rfl
    exact quiet (List.mem_cons_self ..)

/-- What a turn does on its own does not cancel it, as long as its client is there. -/
theorem Own.quiet (m : Own p t next) (present : t.clientGone = false) (quiet : t.stage.Quiet) :
    next.stage.Quiet := by
  cases m with
  | step clock h =>
    unfold Turn.step at h
    split at h
    · next a action rest hs =>
      rw [hs] at quiet
      simp only [present, Bool.false_and, Bool.false_eq_true, if_false] at h
      exact perform_quiet quiet h
    · simp only [present, Bool.false_eq_true, if_false] at h
      split at h
      · split at h
        · cases h
          trivial
        · cases h
      · cases h
        trivial
    all_goals cases h
  | ask clock h =>
    rw [await_stage]
    exact quiet_awaiting clock _
  | askStream clock h =>
    rw [await_stage]
    exact quiet_awaiting clock _
  | hear => exact quiet
  | finish now =>
    unfold Turn.finish
    split
    · trivial
    · exact quiet

theorem quiet_outcome {stage : Stage} (h : stage.Quiet) :
    stage.outcome? ≠ some .cancelled := by
  cases stage with
  | settling a outcome => exact fun same => h (Option.some.inj same)
  | working | closing | ended => nofun

/-- A calm run is not cut off. -/
theorem Calm.uncut (calm : Calm p start read ending t) (quiet : start.stage.Quiet) :
    ending ≠ some .cancelled := by
  have both : t.stage.Quiet ∧ ending ≠ some .cancelled := by
    induction calm with
    | start => exact ⟨quiet, quiet_outcome quiet⟩
    | @own _ _ _ next calm m ih =>
      have still := m.quiet calm.present ih.1
      refine ⟨still, ?_⟩
      cases h : next.stage.outcome? with
      | none => exact ih.2
      | some outcome =>
        have other := quiet_outcome still
        rw [h] at other
        exact other
    | read _ h ih =>
      rw [(receive_spec h).2.1]
      exact ih
  exact both.2

/-- A turn can finish without being cut off. -/
def Finishes (p : Prepared) (start : Turn) (r : Response) : Prop :=
  ∃ read ending t, Run p start read ending t ∧ t.response? = some r ∧ ending ≠ some .cancelled

theorem Calm.finishes {r : Response} (calm : Calm p start read ending t)
    (quiet : start.stage.Quiet) (finished : t.response? = some r) : Finishes p start r :=
  ⟨read, ending, t, calm.run, finished, calm.uncut quiet⟩

/-- A turn that is lively can finish, if it is left alone and its client reads. -/
theorem exists_finishes (lively : start.stage.Lively p) (quiet : start.stage.Quiet)
    (roomy : start.Roomy) (present : start.clientGone = false) : ∃ r, Finishes p start r := by
  obtain ⟨more, ending, last, r, calm, ended, -⟩ :=
    Calm.goes.completes (.start present) lively roomy present
  exact ⟨r, calm.finishes quiet (by simp only [response?, ended])⟩

theorem turn_quiet (admitted : Admission.Admitted) (s : Admission.Setting) (seen : Nat)
    (streamed : Bool) : (admitted.turn s seen streamed).stage.Quiet := by
  cases streamed <;> simp [Admission.Admitted.turn, Stage.Quiet, Turn.opening]

end Turn

end Responder
