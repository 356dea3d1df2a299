import Responder.Proofs.Server.Story
import Responder.Proofs.Turn.Retelling

/-!
# Turns that run at the same time

The turns of a server share its store, its backend and the signals, and each has a story of its own.
Main statement: what a turn tells and answers is decided by its request and its story alone, in
which other turns do not appear.
-/

namespace Responder

namespace Scene

variable {start s next : Scene} {t : Turn} {log stored : List Response} {id : String}
  {sent : List String} {told : List Happening} {read : List Sequenced}

/-- A run of a server has just admitted a turn. -/
structure Admits (setting : Admission.Setting) (r : Request) (streamed : Bool) (id : String)
    (s : Scene) : Prop where
  reached : ∃ first log, first.New ∧ first.signals = {} ∧ Run ⟨first, fun _ => none⟩ log s
  admitted : ∃ admitted seen, Admission.accept setting r = .ok admitted ∧
    s.server.turn? id = some (admitted.turn setting seen streamed)

section recounts
variable {x y : Admission.Admitted} {streamed : Bool}

/-- The signals that were sent do not come to a turn, and other steps of the server neither. -/
theorem Story.recounted {first : Turn} {p : Place} (story : Story id start sent told read s)
    (began : start.server.turn? id = some first)
    (begins : Turn.Recounted first p streamed [] [] first)
    (found : s.server.turn? id = some t) : Turn.Recounted first p streamed told read t := by
  induction story generalizing t with
  | start =>
    cases began.symm.trans found
    exact begins
  | signal _ _ signals ih =>
    rw [signals, Server.turn?_signal] at found
    exact ih found
  | other _ _ _ same ih => exact ih (same ▸ found)
  | @own _ _ _ _ _ _ _ _ u _ _ _ before concerns ih =>
    obtain rfl : u.id = id := Server.id_of_turn? before
    obtain ⟨v, after, does⟩ := concerns.does before
    cases after.symm.trans found
    exact (ih before).does does

/-- The place at which a turn begins. -/
def outset (admitted : Admission.Admitted) (streamed : Bool) : Place :=
  if streamed then
    .telling { response := admitted.response } (.created admitted.response)
      [.emit (.inProgress admitted.response), .askStream]
  else .waiting { response := admitted.response }

theorem recounted_admitted (admitted : Admission.Admitted) (setting : Admission.Setting)
    (seen : Nat) (streamed : Bool) :
    Turn.Recounted (admitted.turn setting seen streamed) (outset admitted streamed) streamed [] []
      (admitted.turn setting seen streamed) := by
  refine ⟨[], _, .nil _, ⟨_, ?_, rfl⟩, .frame .., ?_⟩
  · cases streamed <;> rfl
  · cases streamed with
    | true => exact .reading rfl rfl rfl
    | false => exact .waiting [] rfl

theorem outset_same {lane lane' : Lane} (same : SameResponse lane lane' x.response y.response)
    (fresh : x.response.status = .inProgress) (streamed : Bool) :
    SamePlace lane lane' (outset x streamed) (outset y streamed) := by
  have empty : SameAccumulator lane lane' { response := x.response } { response := y.response } :=
    ⟨same, fresh, rfl, rfl, rfl⟩
  cases streamed with
  | true =>
    exact .telling empty (.created same) (.cons (.emit (.inProgress same))
      (.cons (.expect rfl rfl) .nil))
  | false => exact .waiting empty

end recounts

/-- Whatever other turns do, and whatever is done to them: the events and the response of a turn
depend, up to ids and times, on its request and its own story alone. Two turns of one request agree
on them if their backends bring the same, and if the signals of their own ids and the leaving of
their own clients come in the same order, each after as many events. What the clients read makes
room, and nothing else. -/
theorem independent_of_others {setting setting' : Admission.Setting} {r : Request}
    {streamed : Bool} {id id' : String} {start start' : Scene}
    (limits : setting'.limits = setting.limits) (admits : Admits setting r streamed id start)
    (admits' : Admits setting' r streamed id' start') :
    (∀ {log s}, Run start log s → ∃ sent told read, Story id start sent told read s) ∧
    ∀ {sent sent' told told' read read' s s' t t'}, Story id start sent told read s →
      Story id' start' sent' told' read' s' → s.server.turn? id = some t →
      s'.server.turn? id' = some t' →
      List.Forall₂ (SameComing setting.lane setting'.lane) (comings 0 told) (comings 0 told') →
      Turn.Concur setting.lane setting'.lane read t read' t' := by
  obtain ⟨⟨first, log, new, silent, run⟩, x, seen, accepted, began⟩ := admits
  obtain ⟨-, y, seen', accepted', began'⟩ := admits'
  refine ⟨fun later => ?_, ?_⟩
  · obtain ⟨sent, told, read, story, -⟩ := later.story (run.sound new silent) began
    exact ⟨sent, told, read, story⟩
  intro sent sent' told told' read read' s s' t t' story story' found found' comes
  obtain ⟨same, registry, schema⟩ := Admission.accept_same limits accepted accepted'
  have fresh := (Admission.accept_spec accepted).status
  have twins : Turn.Twins (x.turn setting seen streamed) (y.turn setting' seen' streamed) :=
    ⟨registry, congrArg (Option.map OutputSchema.schema) schema⟩
  have recounted := story.recounted began (recounted_admitted x setting seen streamed) found
  have recounted' := story'.recounted began' (recounted_admitted y setting' seen' streamed) found'
  exact recounted.concur twins (outset_same same fresh streamed) recounted' comes

section
open Admission (greeting)
open Server (forgetful)

variable {u : Turn} {a : Accumulator} {outcome : Outcome} {seen : Nat}

/-- No turn has finished. -/
def Busy (s : Scene) : Prop := ∀ t ∈ s.server.turns, t.response? = none

theorem Busy.unanswered (busy : s.Busy) (id : String) : s.server.answer? id = none := by
  unfold Server.answer?
  cases found : s.server.turn? id with
  | none => rfl
  | some t => exact busy t (Server.mem_of_turn? found)

theorem Busy.modifyTurn (busy : s.Busy) {change : Turn → Turn}
    (keeps : ∀ t, t.response? = none → (change t).response? = none) (id : String) :
    Busy { s with server := s.server.modifyTurn id change } := by
  unfold Busy Server.modifyTurn
  rw [List.forall_mem_map]
  intro t mem
  split
  · exact keeps t (busy t mem)
  · exact busy t mem

theorem Story.step (story : Story id start sent told read s) (busy : s.Busy)
    (found : s.server.turn? id = some t) (stepped : t.step s.server.clock = some u)
    (kept : t.Kept u) (works : u.response? = none) :
    let next : Scene := { s with server := s.server.modifyTurn t.id fun _ => u }
    Story id start sent (told ++ t.happening) read next ∧ next.server.turn? id = some u := by
  obtain rfl : t.id = id := Server.id_of_turn? found
  have advanced : s.server.advance t = some (s.server.modifyTurn t.id fun _ => u) := by
    simp only [Server.advance, stepped]
  have after := busy.modifyTurn (fun _ _ => works) t.id
  have moves : Step s _ _ :=
    .move (.advance (Server.mem_of_turn? found) advanced) fun id _ => after.unanswered id
  have grown := story.own moves rfl found (.advance advanced)
  rw [List.append_nil] at grown
  exact ⟨grown, Server.turn?_modifyTurn found kept.id⟩

/-- A turn that listens and hears others only goes on as it was. -/
theorem Story.unheeded (story : Story id start sent told read s)
    (found : s.server.turn? id = some t) (waits : t.waits = true)
    (listens : s.server.signals.listen t.seen id = (false, seen)) :
    let next : Scene := { s with server := s.server.hear t }
    Story id start sent told read next ∧ next.server.turn? id = some { t with seen } := by
  obtain rfl : t.id = id := Server.id_of_turn? found
  have heard := Server.turn?_hear found waits
  simp only [Turn.heard, listens, Bool.false_eq_true, if_false] at heard
  have grown := story.own (hear_step found) (Server.signals_hear ..) found (.unheeded heard)
  rw [List.append_nil, List.append_nil] at grown
  exact ⟨grown, heard⟩

/-- A turn that listens and hears itself is interrupted. -/
theorem Story.signalled (story : Story id start sent told read s)
    (found : s.server.turn? id = some t) (waits : t.waits = true) (own : id ∈ sent)
    (listens : s.server.signals.listen t.seen id = (true, seen)) :
    let next : Scene := { s with server := s.server.hear t }
    Story id start sent (told ++ [.signalled]) read next ∧
      next.server.turn? id = some { t with seen }.interrupt := by
  obtain rfl : t.id = id := Server.id_of_turn? found
  have heard := Server.turn?_hear found waits
  simp only [Turn.heard, listens, if_true] at heard
  have grown := story.own (hear_step found) (Server.signals_hear ..) found
    (.signalled waits own heard)
  rw [List.append_nil] at grown
  exact ⟨grown, heard⟩

/-- A turn that has settled is finished, of which nothing is told. -/
theorem Story.finished (story : Story id start sent told read s)
    (found : s.server.turn? id = some t) (settling : t.stage = .settling a outcome)
    (pending : s.ending id = none) : ∃ next r, Story id start sent told read next ∧
      next.server.turn? id = some { t with stage := .closing r } := by
  obtain rfl : t.id = id := Server.id_of_turn? found
  let now := s.server.now
  let r := a.finalize t.schema now outcome
  obtain ⟨first, second, third⟩ := finishes_in_turn found settling pending rfl
  have kept : ((s.freeze t.id r).persist t.id r).server.turn? t.id = some t :=
    (Server.turn?_keep ..).trans found
  have grown := ((story.other (.finish first) rfl rfl).other (.finish second)
    (Server.signals_keep ..) (Server.turn?_keep ..)).own (.finish third) rfl kept
    (.release now settling)
  rw [List.append_nil, List.append_nil] at grown
  exact ⟨_, r, grown, Server.turn?_modifyTurn kept rfl⟩

/-- A turn that waits is cancelled, and finished. -/
theorem Story.cancelled (story : Story id start sent told read s)
    (found : s.server.turn? id = some t) (waits : t.waits = true) (pending : s.ending id = none)
    (listens : (s.server.signals.send id).listen t.seen id = (true, seen)) :
    ∃ next u r, Story id start (sent ++ [id]) (told ++ [.signalled]) read next ∧
      next.server.turn? id = some u ∧ u.response? = some r ∧ u.seen = seen := by
  have called := story.signal (signal_step s id) (server_signal s id)
  have there : (s.signal id).server.turn? id = some t := by
    rw [server_signal, Server.turn?_signal]
    exact found
  have own : id ∈ sent ++ [id] := List.mem_append_right _ (List.mem_singleton_self _)
  rw [← Server.signals_signal, ← server_signal] at listens
  obtain ⟨heard, settles⟩ := called.signalled there waits own listens
  obtain ⟨a, actions, stage⟩ := Turn.works_of_waits waits
  have settled : ({ t with seen }.interrupt : Turn) =
      { t with seen, stage := .settling a .cancelled } := by
    simp only [Turn.interrupt, stage]
  rw [settled] at settles
  obtain ⟨next, r, told, found⟩ := heard.finished settles rfl pending
  exact ⟨next, _, r, told, found, rfl, rfl⟩

/-- What a server checks the next request against. -/
def setting (s : Server) : Admission.Setting := ⟨s.limits, s.store, s.count, s.lane, s.now⟩

/-- A server with one more guest, whose turn has just begun. -/
def greeted (s : Server) : Server :=
  match s.start greeting true with
  | .ok (next, _) => next
  | .error _ => s

/-- A server in which no turn is just being finished. -/
def ofServer (s : Server) : Scene := ⟨s, fun _ => none⟩

section greeted
variable {first server : Server} {admitted : Admission.Admitted} {log : List Response}
  (accepted : Admission.accept (setting server) greeting = .ok admitted)
include accepted

theorem start_greeted : server.start greeting true = .ok (greeted server, admitted.response.id) ∧
    greeted server = { server with
      turns := server.turns ++ [admitted.turn (setting server) server.signals.count true]
      lane := server.lane.next } := by
  have started : server.start greeting true = .ok ({ server with
      turns := server.turns ++ [admitted.turn (setting server) server.signals.count true]
      lane := server.lane.next }, admitted.response.id) := by
    unfold setting at accepted
    simp only [Server.start, accepted]
    rfl
  unfold greeted
  rw [started]
  exact ⟨rfl, rfl⟩

theorem run_greeted (run : Server.Run first log server) (fresh : server.FreshId) :
    Server.Run first (log ++ []) (greeted server) :=
  run.move (.accept fresh (start_greeted accepted).1)

theorem turn?_greeted (new : first.New) (run : Server.Run first log server)
    (fresh : server.FreshId) : (greeted server).turn? admitted.response.id =
      some (admitted.turn (setting server) server.signals.count true) := by
  have reached := (run_greeted accepted run fresh).reached new
  have mem : admitted.turn (setting server) server.signals.count true ∈ (greeted server).turns := by
    rw [(start_greeted accepted).2]
    exact List.mem_append_right _ (List.mem_singleton_self _)
  exact Server.turn?_of_mem reached.ids mem

theorem admits_greeted (new : first.New) (silent : first.signals = {})
    (run : Server.Run first log server) (fresh : server.FreshId) :
    Admits (setting server) greeting true admitted.response.id (ofServer (greeted server)) :=
  ⟨⟨first, _, new, silent,
    run_of_run new.sound.ids (run_greeted accepted run fresh)⟩,
    admitted, server.signals.count, accepted, turn?_greeted accepted new run fresh⟩

theorem busy_greeted (busy : (ofServer server).Busy) : (ofServer (greeted server)).Busy := by
  unfold Busy ofServer
  rw [(start_greeted accepted).2, List.forall_mem_append, List.forall_mem_singleton]
  exact ⟨busy, rfl⟩

end greeted

/-- A turn that has just begun tells that it was created. -/
theorem Story.begun {setting : Admission.Setting} {admitted : Admission.Admitted}
    (story : Story id start sent [] [] s) (busy : s.Busy)
    (found : s.server.turn? id = some (admitted.turn setting seen true)) :
    ∃ next t, Story id start sent [.sent] [] next ∧ next.server.turn? id = some t ∧
      t.waits = true ∧ t.seen = seen ∧ next.server.signals = s.server.signals ∧
      next.ending = s.ending := by
  let channel : Channel := { capacity := max 1 setting.limits.eventBuffer }
  let rest : List Action := [.emit (.inProgress admitted.response), .askStream]
  have room : channel.hasRoom = true :=
    decide_eq_true (Nat.lt_of_lt_of_le Nat.zero_lt_one (Nat.le_max_left ..))
  have stepped : (admitted.turn setting seen true).step s.server.clock =
      some ((admitted.turn setting seen true).withEvent channel (.created admitted.response)
        (.working { response := admitted.response } rest)) :=
    if_pos room
  obtain ⟨told, found⟩ := story.step busy found stepped (.frame ..) rfl
  exact ⟨_, _, told, found, rfl, rfl, rfl, rfl⟩

/-- A server with one guest. -/
def guest : Server := greeted forgetful

/-- A server with two guests. -/
def guests : Server := greeted guest

/-- A guest comes alone and is cancelled, or comes after another one and hears that the other is
cancelled before it is cancelled itself. -/
theorem guests_independent : ∃ id id' s s' t t' r r', id ≠ id' ∧
    Admits (setting forgetful) greeting true id (ofServer guest) ∧
    Admits (setting guest) greeting true id' (ofServer guests) ∧
    Story id (ofServer guest) [id] [.sent, .signalled] [] s ∧
    s.server.turn? id = some t ∧ t.seen = 1 ∧ t.response? = some r ∧
    Story id' (ofServer guests) [id, id'] [.sent, .signalled] [] s' ∧
    s'.server.turn? id' = some t' ∧ t'.seen = 2 ∧ t'.response? = some r' ∧
    Turn.Concur (setting forgetful).lane (setting guest).lane [] t [] t' := by
  have new : forgetful.New := ⟨rfl, rfl⟩
  have fresh : forgetful.FreshId := fun t mem => absurd mem List.not_mem_nil
  have fresh' : guest.FreshId := by
    unfold Server.FreshId
    decide +kernel
  have alone : (ofServer forgetful).Busy := fun t mem => absurd mem List.not_mem_nil
  obtain ⟨x, accepted⟩ : ∃ x, Admission.accept (setting forgetful) greeting = .ok x := ⟨_, rfl⟩
  obtain ⟨y, accepted'⟩ : ∃ y, Admission.accept (setting guest) greeting = .ok y := ⟨_, rfl⟩
  have run := run_greeted accepted .start fresh
  have admits := admits_greeted accepted new rfl .start fresh
  have admits' := admits_greeted accepted' new rfl run fresh'
  have busy := busy_greeted accepted alone
  have busy' := busy_greeted accepted' busy
  have silent : guest.signals = {} := by
    rw [guest, (start_greeted accepted).2]
    rfl
  have silent' : guests.signals = {} := by
    rw [guests, (start_greeted accepted').2]
    exact silent
  have apart : x.response.id ≠ y.response.id := by
    have named := (Admission.accept_spec accepted).id
    have named' := (Admission.accept_spec accepted').id
    rw [named, named']
    decide +kernel
  have begins : Story x.response.id (ofServer guest) guest.signals.recent [] [] _ := .start
  have begins' : Story y.response.id (ofServer guests) guests.signals.recent [] [] _ := .start
  rw [silent] at begins
  rw [silent'] at begins'
  obtain ⟨u, t, story, found, waits, seen, signals, ending⟩ :=
    begins.begun busy (turn?_greeted accepted new .start fresh)
  obtain ⟨u', t', story', found', waits', seen', signals', ending'⟩ :=
    begins'.begun busy' (turn?_greeted accepted' new run fresh')
  replace signals : u.server.signals = {} := signals.trans silent
  replace signals' : u'.server.signals = {} := signals'.trans silent'
  replace seen' : t'.seen = 0 := seen'.trans (congrArg Signals.count silent)
  -- The guest who came first is alone, and hears the only signal.
  have hears : (u.server.signals.send x.response.id).listen t.seen x.response.id = (true, 1) := by
    rw [signals, seen]
    exact (Signals.Records.empty.listen_send ..).trans (by rw [decide_eq_true rfl]; rfl)
  obtain ⟨s, v, r, story, found, answered, seen⟩ :=
    story.cancelled found waits (congrFun ending _) hears
  -- The other one hears this signal too, and goes on.
  have called := story'.signal (signal_step u' x.response.id) (server_signal ..)
  have there : (u'.signal x.response.id).server.turn? y.response.id = some t' :=
    (Server.turn?_signal ..).trans found'
  have sent : (u'.signal x.response.id).server.signals = ({} : Signals).send x.response.id := by
    rw [server_signal, Server.signals_signal, signals']
  have passes : (u'.signal x.response.id).server.signals.listen t'.seen y.response.id =
      (false, 1) := by
    rw [sent, seen']
    exact (Signals.Records.empty.listen_send ..).trans (by rw [decide_eq_false apart]; rfl)
  obtain ⟨unheeded, there⟩ := called.unheeded there waits' passes
  have hears' : ((((u'.signal x.response.id).server.hear t').signals.send y.response.id).listen 1
      y.response.id) = (true, 2) := by
    rw [Server.signals_hear, sent]
    exact ((Signals.Records.empty.send _).listen_send ..).trans (by rw [decide_eq_true rfl]; rfl)
  obtain ⟨s', v', r', story', found', answered', seen'⟩ :=
    unheeded.cancelled there waits' (congrFun ending' _) hears'
  have comes : List.Forall₂ (SameComing (setting forgetful).lane (setting guest).lane)
      (comings 0 [.sent, .signalled]) (comings 0 [.sent, .signalled]) := .cons (.signalled 1) .nil
  have limits : (setting guest).limits = (setting forgetful).limits := by
    rw [guest, (start_greeted accepted).2]
    rfl
  have concur := (independent_of_others limits admits admits').2 story story' found found' comes
  exact ⟨_, _, s, s', v, v', r, r', apart, admits, admits', story, found, seen, answered, story',
    found', seen', answered', concur⟩

end

end Scene

end Responder
