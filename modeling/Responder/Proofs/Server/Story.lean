import Responder.Proofs.Server.Delivery
import Responder.Proofs.Server.Frame
import Responder.Proofs.Turn.Story

/-!
# What concerns a turn

The turns of a server share its store, its backend and the signals. The story of a turn tells of all
steps of a server only what happens to the turn itself: what it does, that it hears a signal of its
own id, that its own client leaves or reads. Main statement: each run has a story of each turn.
-/

namespace Responder

namespace Server

variable {s next : Server} {t : Turn} {told : List Happening} {got : List Sequenced}
  {sent : List String}

/-- What a server does with one of its turns, when these signals were sent: what happens to the turn
then, and what its client reads. -/
inductive Concerns (sent : List String) (s : Server) (t : Turn) :
    List Happening → List Sequenced → Server → Prop
  | advance {next : Server} : s.advance t = some next → Concerns sent s t t.happening [] next
  /-- The turn listens, and one of the signals is its own. -/
  | signalled {seen : Nat} : t.waits = true → t.id ∈ sent →
      (s.hear t).turn? t.id = some { t with seen }.interrupt →
      Concerns sent s t [.signalled] [] (s.hear t)
  /-- The turn listens, and goes on as it was. -/
  | unheeded {seen : Nat} : (s.hear t).turn? t.id = some { t with seen } →
      Concerns sent s t [] [] (s.hear t)
  | leave : Concerns sent s t (if t.clientGone then [] else [.left]) []
      (s.modifyTurn t.id fun t => { t with clientGone := true })
  | receive {event : Sequenced} {after : Turn} : t.receive? = some (event, after) →
      Concerns sent s t [] [event] (s.modifyTurn t.id fun _ => after)
  | release {a : Accumulator} {outcome : Outcome} (now : Int) : t.stage = .settling a outcome →
      Concerns sent s t [] [] (s.modifyTurn t.id fun u =>
        { u with stage := .closing (a.finalize t.schema now outcome) })

/-- Seen from the turn alone, it is moved as by itself. -/
theorem Concerns.does (found : s.turn? t.id = some t) (concerns : Concerns sent s t told got next) :
    ∃ u, next.turn? t.id = some u ∧ t.Does told got u := by
  cases concerns with
  | advance moved =>
    unfold Server.advance at moved
    split at moved
    · next u stepped =>
      cases moved
      obtain ⟨events, shifted⟩ := Turn.step_shifted (p := .never) stepped
      exact ⟨u, turn?_modifyTurn found shifted.kept.id, .step s.clock stepped⟩
    split at moved
    · next a rest asks =>
      cases moved
      have silent : t.happening = [] := by simp [Turn.happening, asks, Action.happening]
      rw [silent]
      exact ⟨_, turn?_modifyTurn found (Turn.await_kept ..).id, .ask s.clock _ asks⟩
    · next a rest asks =>
      cases moved
      have silent : t.happening = [] := by simp [Turn.happening, asks, Action.happening]
      rw [silent]
      exact ⟨_, turn?_modifyTurn found (Turn.await_kept ..).id, .askStream s.clock _ asks⟩
    · next a outcome settling =>
      cases moved
      have silent : t.happening = [] := by simp only [Turn.happening, settling]
      rw [silent]
      exact ⟨_, turn?_finish found, .finish s.now⟩
    · cases moved
  | signalled waits own heard => exact ⟨_, heard, .signal _ waits⟩
  | unheeded heard => exact ⟨_, heard, .hear _⟩
  | leave => exact ⟨_, turn?_modifyTurn found rfl, .leave⟩
  | receive taken =>
    exact ⟨_, turn?_modifyTurn found (Turn.receive_spec taken).1.id, .receive taken⟩
  | @release a outcome now settling =>
    have finish : t.finish now =
        { t with stage := .closing (a.finalize t.schema now outcome) } := by
      simp only [Turn.finish, settling]
    exact ⟨_, turn?_modifyTurn found rfl, finish ▸ .finish now⟩

/-- A turn listens, and is interrupted only if its id is among the signals that are kept. -/
theorem hear_concerns (found : s.turn? t.id = some t) (waits : t.waits = true)
    (known : s.signals.recent ⊆ sent) : ∃ told, Concerns sent s t told [] (s.hear t) := by
  have heard := turn?_hear found waits
  unfold Turn.heard at heard
  split at heard
  · next own => exact ⟨_, .signalled waits (known (Signals.mem_of_listen own)) heard⟩
  · exact ⟨_, .unheeded heard⟩

/-- After a step a turn is what it was, or the step concerned it. -/
def Touches (sent : List String) (s next : Server) (t : Turn) : Prop :=
  next.turn? t.id = s.turn? t.id ∨ ∃ told got, Concerns sent s t told got next

theorem Move.touches {stored : List Response} (ids : (s.turns.map Turn.id).Nodup)
    (m : Move s stored next) (found : s.turn? t.id = some t) (known : s.signals.recent ⊆ sent) :
    Touches sent s next t := by
  have same {v : Turn} (mem : v ∈ s.turns) (here : v.id = t.id) : v = t :=
    List.inj_on_of_nodup_map ids mem (mem_of_turn? found) here
  cases m with
  | accept fresh started =>
    obtain ⟨_, -, started⟩ := bind_eq_ok.1 started
    cases started
    left
    unfold Server.turn? at found ⊢
    rw [List.find?_append, found]
    rfl
  | @advance _ v mem moved =>
    by_cases here : v.id = t.id
    · rw [same mem here] at moved
      exact .inr ⟨_, _, .advance moved⟩
    · exact .inl (advance_apart here moved).turn
  | @hear v mem =>
    by_cases here : v.id = t.id
    · rw [same mem here]
      by_cases waits : t.waits = true
      · obtain ⟨told, concerns⟩ := hear_concerns found waits known
        exact .inr ⟨told, [], concerns⟩
      · rw [hear_still waits]
        exact .inl rfl
    · exact .inl (hear_apart here).turn
  | leave left =>
    by_cases here : left = t.id
    · subst here
      exact .inr ⟨_, _, .leave⟩
    · exact .inl (turn?_modifyTurn_other (fun _ named => named) here)
  | @receive v after reader event found' taken =>
    have named : after.id = reader :=
      (Turn.receive_spec taken).1.id.trans (id_of_turn? found')
    by_cases here : reader = t.id
    · subst here
      cases found.symm.trans found'
      exact .inr ⟨_, _, .receive taken⟩
    · exact .inl (turn?_modifyTurn_other (fun _ _ => named) here)
  | signal other => exact .inl (turn?_signal ..)
  | refuse | pass | date | consult | close => exact .inl rfl

end Server

namespace Scene

variable {start s next : Scene} {t : Turn} {log stored : List Response} {sent : List String}
  {told : List Happening} {read : List Sequenced} {id : String}

theorem Sound.touches (h : Sound s log) (step : Step s stored next)
    (found : s.server.turn? t.id = some t) (known : s.server.signals.recent ⊆ sent) :
    Server.Touches sent s.server next.server t := by
  cases step with
  | move m silent => exact m.touches h.ids found known
  | register accepted fresh listens =>
    left
    unfold Server.turn? at found ⊢
    rw [register, List.find?_append, found]
    rfl
  | @finish _ _ own finishes =>
    by_cases here : own = t.id
    · subst here
      cases finishes with
      | freeze => exact .inl rfl
      | persist => exact .inl (Server.turn?_keep ..)
      | @release r kept =>
        obtain ⟨u, a, outcome, now, there, settling, rfl⟩ := h.frozen _ _ kept
        cases found.symm.trans there
        exact .inr ⟨_, _, .release now settling⟩
    · exact .inl (finishes.others here).1

/-- The story of a turn in a run: the signals that it may have heard, what has happened to it, in
order among the events that it has sent, and what its client has read. Of steps that leave the turn
as it is nothing is told. -/
inductive Story (id : String) (start : Scene) :
    List String → List Happening → List Sequenced → Scene → Prop
  | start : Story id start start.server.signals.recent [] [] start
  | signal {sent : List String} {told : List Happening} {read : List Sequenced}
      {stored : List Response} {s next : Scene} {called : String} :
      Story id start sent told read s → Step s stored next →
      next.server = s.server.signal called → Story id start (sent ++ [called]) told read next
  | other {sent : List String} {told : List Happening} {read : List Sequenced}
      {stored : List Response} {s next : Scene} : Story id start sent told read s →
      Step s stored next → next.server.signals = s.server.signals →
      next.server.turn? id = s.server.turn? id → Story id start sent told read next
  | own {sent : List String} {told happened : List Happening} {read got : List Sequenced}
      {stored : List Response} {s next : Scene} {t : Turn} : Story id start sent told read s →
      Step s stored next → next.server.signals = s.server.signals → s.server.turn? id = some t →
      s.server.Concerns sent t happened got next.server →
      Story id start sent (told ++ happened) (read ++ got) next

/-- Each run has a story of each turn. -/
theorem Run.story (sound : Sound start log) (run : Run start stored s)
    (found : start.server.turn? id = some t) : ∃ sent told read,
      Story id start sent told read s ∧ s.server.signals.recent ⊆ sent := by
  induction run with
  | start => exact ⟨_, [], [], .start, List.Subset.refl _⟩
  | @step _ _ s next run step ih =>
    obtain ⟨sent, told, read, story, known⟩ := ih
    obtain ⟨u, there, -⟩ := sound.turn?_run run found
    have now := sound.run run
    obtain same | ⟨called, signals⟩ := (now.passage step).signals
    · have known' : next.server.signals.recent ⊆ sent := same ▸ known
      obtain rfl : u.id = id := Server.id_of_turn? there
      obtain still | ⟨happened, got, concerns⟩ := now.touches step there known
      · exact ⟨sent, told, read, story.other step same still, known'⟩
      · exact ⟨sent, _, _, story.own step same there concerns, known'⟩
    · refine ⟨sent ++ [called], told, read, story.signal step signals, ?_⟩
      rw [signals, Server.signals_signal]
      exact List.Subset.trans (Signals.recent_send ..) (List.append_subset.2
        ⟨List.Subset.trans known (List.subset_append_left ..), List.subset_append_right ..⟩)

end Scene

end Responder
