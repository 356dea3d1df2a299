import Responder.Proofs.Server.Decision

/-!
# Turns that have settled

When a turn has settled three steps are left by which it is finished. Main statement: in a run that
goes on for ever and puts none of them off for ever the turn is finished at some time, unless it is
forsaken before it settles.
-/

namespace Responder.Scene

variable {s next : Scene} {w : Nat → Scene} {t : Turn} {a : Accumulator} {outcome : Outcome}
  {log stored : List Response} {id : String} {n m : Nat}

/-- How many steps are left by which a turn is finished that has settled. -/
def stepsLeft : Option Ending → Nat
  | none => 3
  | some ⟨_, false⟩ => 2
  | some ⟨_, true⟩ => 1

theorem exists_finishes (found : s.server.turn? id = some t)
    (settling : t.stage = .settling a outcome) : ∃ stored next, Finishes s id stored next := by
  cases ending : s.ending id with
  | none => exact ⟨_, _, .freeze found settling ending⟩
  | some e =>
    obtain ⟨r, kept⟩ := e
    cases kept with
    | false => exact ⟨_, _, .persist ending⟩
    | true => exact ⟨_, _, .release ending⟩

/-- Each of these steps leaves one less, and the last one answers. -/
theorem Sound.finishes_less (h : Sound s log) (finishes : Finishes s id stored next) :
    (∃ r, next.server.answer? id = some r) ∨
      stepsLeft (next.ending id) < stepsLeft (s.ending id) := by
  cases finishes with
  | freeze found settling pending =>
    right
    rw [pending, ending_freeze]
    exact Nat.lt_succ_self 2
  | persist pending =>
    right
    rw [pending, ending_persist]
    exact Nat.lt_succ_self 1
  | release kept => exact .inl ⟨_, h.answer?_release kept _⟩

/-- No other step changes how far the turn is finished. -/
theorem Sound.ending_step (h : Sound s log) (step : Step s stored next)
    (unanswered : s.server.answer? id = none) :
    (∃ stored, Finishes s id stored next) ∨
      (next.ending id = s.ending id ∧ next.server.answer? id = none) := by
  obtain aside | ⟨own, finishes⟩ := step.cases_aside h.ids
  · exact .inr ⟨congrFun aside.ending id, aside.silent id unanswered⟩
  by_cases same : own = id
  · subst same
    exact .inl ⟨_, finishes⟩
  · obtain ⟨turn, ending⟩ := finishes.others same
    refine .inr ⟨ending, ?_⟩
    rw [Server.answer?, turn]
    exact unanswered

/-- A run that goes on for ever. -/
def Endless (w : Nat → Scene) : Prop := ∀ n, ∃ stored, Step (w n) stored (w (n + 1))

/-- A step that finishes a turn is not put off for ever. -/
def Settles (w : Nat → Scene) (id : String) : Prop :=
  ∀ n, ∃ m, n ≤ m ∧ ∀ stored next, Finishes (w m) id stored next → w (m + 1) = next

/-- What a turn needs to come to an end. -/
structure Fair (w : Nat → Scene) (id : String) : Prop where
  served : Server.Served (fun n => (w n).server) id
  settles : Settles w id

theorem Endless.run (endless : Endless w) (later : n ≤ m) : ∃ log, Run (w n) log (w m) := by
  induction m, later using Nat.le_induction with
  | base => exact ⟨[], .start⟩
  | succ m _ ih =>
    obtain ⟨log, run⟩ := ih
    obtain ⟨stored, step⟩ := endless m
    exact ⟨_, run.step step⟩

section
variable (first : Sound (w 0) log) (endless : Endless w)
include first endless

theorem Endless.sound (n : Nat) : ∃ log, Sound (w n) log := by
  obtain ⟨log', run⟩ := endless.run (Nat.zero_le n)
  exact ⟨_, first.run run⟩

theorem Endless.flow : Server.Flow fun n => (w n).server := by
  refine ⟨fun n => ?_, fun n => ?_⟩
  · obtain ⟨log, sound⟩ := endless.sound first n
    exact sound.ids
  · obtain ⟨log, sound⟩ := endless.sound first n
    obtain ⟨stored, step⟩ := endless n
    exact sound.passage step

/-- A turn that has settled stays as it is up to the next of the steps by which it is finished. -/
theorem Endless.finishes (settles : Settles w id) (found : (w n).server.turn? id = some t)
    (settling : t.stage = .settling a outcome) : ∃ m stored, n ≤ m ∧
      Finishes (w m) id stored (w (m + 1)) ∧ (w m).ending id = (w n).ending id := by
  obtain ⟨m, later, finished⟩ := settles n
  by_contra never
  have stays (k : Nat) (after : n ≤ k) :
      (w k).ending id = (w n).ending id ∧ (w k).server.answer? id = none := by
    induction k, after using Nat.le_induction with
    | base =>
      refine ⟨rfl, ?_⟩
      rw [Server.answer?, found, Option.bind_some, Turn.response?, settling]
    | succ k after ih =>
      obtain ⟨ending, unanswered⟩ := ih
      obtain ⟨log, sound⟩ := endless.sound first k
      obtain ⟨stored, step⟩ := endless k
      obtain ⟨stored, finishes⟩ | ⟨same, still⟩ := sound.ending_step step unanswered
      · exact absurd ⟨k, stored, after, finishes, ending⟩ never
      · exact ⟨same.trans ending, still⟩
  obtain ⟨ending, unanswered⟩ := stays m later
  obtain ⟨u, there, leads⟩ := (endless.flow first).turn? later found
  rw [Server.answer?, there, Option.bind_some] at unanswered
  obtain ⟨log, sound⟩ := endless.sound first m
  obtain ⟨stored, next, finishes⟩ :=
    exists_finishes there (leads.settling settling unanswered)
  refine never ⟨m, stored, later, ?_, ending⟩
  rw [finished stored next finishes]
  exact finishes

/-- A turn that has settled is answered at some time. -/
theorem Endless.answers (settles : Settles w id) (found : (w n).server.turn? id = some t)
    (stopped : ¬ t.Works) : ∃ m r, (w m).server.answer? id = some r := by
  induction left : stepsLeft ((w n).ending id) using Nat.strong_induction_on generalizing n t with
  | h left ih =>
    subst left
    cases finished : t.response? with
    | some r => exact ⟨n, r, by rw [Server.answer?, found]; exact finished⟩
    | none =>
      obtain ⟨a, outcome, settling⟩ : ∃ a outcome, t.stage = .settling a outcome := by
        cases stage : t.stage with
        | working a actions => exact absurd ⟨a, actions, stage⟩ stopped
        | settling a outcome => exact ⟨a, outcome, rfl⟩
        | closing r | ended r => simp only [Turn.response?, stage, reduceCtorEq] at finished
      obtain ⟨m, stored, later, finishes, ending⟩ :=
        endless.finishes first settles found settling
      obtain ⟨log, sound'⟩ := endless.sound first m
      obtain ⟨r, answered⟩ | less := sound'.finishes_less finishes
      · exact ⟨m + 1, r, answered⟩
      · obtain ⟨u, there, leads⟩ :=
          (endless.flow first).turn? (later.trans (Nat.le_succ m)) found
        rw [ending] at less
        exact ih _ less there (fun works => stopped (leads.works works)) rfl

/-- In an endless run that is fair to it a turn is answered at some time, or it waits for ever and
nobody cancels it. -/
theorem answers_or_forsaken (fair : Fair w id) (found : (w 0).server.turn? id = some t) :
    (∃ n r, (w n).server.answer? id = some r) ∨
      Server.Forsaken (fun n => (w n).server) id 0 := by
  have led := (first.proper t (Server.mem_of_turn? found)).led
  obtain ⟨all, attends⟩ := first.attends
  refine (Server.stops_or_forsaken (endless.flow first) fair.served found led attends).imp_left ?_
  rintro ⟨n, u, -, there, stopped⟩
  exact endless.answers first fair.settles there stopped

end

end Responder.Scene
