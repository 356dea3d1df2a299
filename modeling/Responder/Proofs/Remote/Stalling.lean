import Responder.Remote.Client
import Responder.Response

/-!
# What stalls a client

A client limits its waits for the head of a reply, for the body of an answer and for each piece of a
stream, but neither for the body of a reply without success nor for that of a list of models. Main
statement: these two bodies are all that it can wait for without an end.
-/

namespace Responder

namespace Wait

variable {α β : Type} {w : Wait α}

theorem delayed_eq_forever {lag : Duration} : w.delayed lag = .forever ↔ w = .forever := by
  cases w <;> simp [delayed]

theorem map_eq_forever {f : α → β} : w.map f = .forever ↔ w = .forever := by
  cases w <;> simp [map]

theorem bind_eq_forever {next : α → Wait β} : w.bind next = .forever ↔
    w = .forever ∨ ∃ after value, w = .done after value ∧ next value = .forever := by
  cases w with
  | forever => exact iff_of_true rfl (.inl rfl)
  | done after value =>
    refine delayed_eq_forever.trans ⟨fun stalls => .inr ⟨after, value, rfl, stalls⟩, ?_⟩
    rintro (never | ⟨_, _, held, stalls⟩)
    · cases never
    · cases held
      exact stalls

theorem within_ne_forever (limit : Duration) (otherwise : α) (w : Wait α) :
    w.within limit otherwise ≠ .forever := by
  cases w with
  | forever => nofun
  | done after value =>
    rw [within]
    split <;> nofun

end Wait

namespace Remote

namespace Network

/-- The network after so many requests. -/
def after (n : Network) : Nat → Network
  | 0 => n
  | count + 1 => n.send.2.after count

/-- What meets a request after so many others. -/
def met (n : Network) (count : Nat) : Wait (Except String Reply) := (n.after count).send.1

end Network

/-- A reply without success that begins in time, and has no end. -/
def HalfSent (limit : Duration) (met : Wait (Except String Reply)) : Prop :=
  ∃ after reply, met = .done after (.ok reply) ∧ after ≤ limit ∧
    reply.isSuccess = false ∧ reply.ending = .stalled

/-- What a client takes for a fault that may pass: nothing comes in time, the network fails, or the
server does. -/
def Passes (limit : Duration) (met : Wait (Except String Reply)) : Prop :=
  ∀ after outcome, met = .done after outcome → after ≤ limit →
    ∀ reply, outcome = .ok reply → 500 ≤ reply.status ∧ reply.ending ≠ .stalled

theorem isSuccess_of_fault {reply : Reply} (fault : 500 ≤ reply.status) :
    reply.isSuccess = false := by
  simp only [Reply.isSuccess, Bool.and_eq_false_iff, decide_eq_false_iff_not]
  omega

namespace Client

variable {c : Client} {limit : Duration} {met : Wait (Except String Reply)} {body : String}

/-- The head of a reply, or why there is none. -/
def headed (limit : Duration) (met : Wait (Except String Reply)) :
    Wait (Except BackendFault Reply) :=
  (met.map fun outcome => outcome.mapError .request).within limit (.error (.timeout limit))

/-- A head is there in time, or the wait for it is given up. -/
theorem headed_cases (limit : Duration) (met : Wait (Except String Reply)) :
    (∃ after outcome, met = .done after outcome ∧ after ≤ limit ∧
      headed limit met = .done after (outcome.mapError .request)) ∨
    (∀ after outcome, met = .done after outcome → ¬ after ≤ limit) ∧
      headed limit met = .done limit (.error (.timeout limit)) := by
  cases met with
  | forever => exact .inr ⟨nofun, rfl⟩
  | done after outcome =>
    by_cases early : after ≤ limit
    · exact .inl ⟨after, outcome, rfl, early, if_pos early⟩
    · refine .inr ⟨fun other held same => ?_, if_neg early⟩
      cases same
      exact early

/-- Only what a client does with a reply can hold it up. -/
theorem bind_headed_eq_forever {α : Type} {next : Except BackendFault Reply → Wait α}
    (moves : ∀ fault, next (.error fault) ≠ .forever) :
    (headed limit met).bind next = .forever ↔ ∃ after reply,
      met = .done after (.ok reply) ∧ after ≤ limit ∧ next (.ok reply) = .forever := by
  obtain ⟨after, outcome, rfl, early, head⟩ | ⟨late, head⟩ := headed_cases limit met
  · rw [head, Wait.bind, Wait.delayed_eq_forever]
    cases outcome with
    | error message =>
      refine iff_of_false (moves _) ?_
      rintro ⟨_, _, held, -⟩
      cases held
    | ok reply =>
      refine ⟨fun stalls => ⟨after, reply, rfl, early, stalls⟩, ?_⟩
      rintro ⟨_, _, held, -, stalls⟩
      cases held
      exact stalls
  · rw [head, Wait.bind, Wait.delayed_eq_forever]
    refine iff_of_false (moves _) ?_
    rintro ⟨after, reply, held, early, -⟩
    exact late after _ held early

theorem body_eq_forever {reply : Reply} : reply.body = .forever ↔ reply.ending = .stalled := by
  unfold Reply.body
  cases reply.ending <;> simp [Wait.now]

theorem body_done {reply : Reply} (ends : reply.ending ≠ .stalled) :
    ∃ held, reply.body = .now held := by
  unfold Reply.body
  cases ending : reply.ending with
  | complete => exact ⟨_, rfl⟩
  | aborted message => exact ⟨_, rfl⟩
  | stalled => exact absurd ending ends

/-- The end of an attempt hangs on a body that is no answer. -/
theorem succeeded_eq_forever {reply : Reply} : succeeded (.ok reply) = .forever ↔
    reply.isSuccess = false ∧ reply.ending = .stalled := by
  unfold succeeded statusFault
  dsimp only
  cases reply.isSuccess with
  | true => exact iff_of_false nofun nofun
  | false =>
    rw [if_neg Bool.false_ne_true, Wait.map_eq_forever, Wait.map_eq_forever, body_eq_forever]
    exact (and_iff_right rfl).symm

/-- An attempt that is made again. -/
def Again (w : Wait (Except BackendFault Reply)) : Prop :=
  ∃ after fault, w = .done after (.error fault) ∧ fault.isRetryable = true

theorem again_delayed {lag : Duration} {w : Wait (Except BackendFault Reply)} :
    Again (w.delayed lag) ↔ Again w := by
  cases w with
  | forever => exact Iff.rfl
  | done after value =>
    constructor
    · rintro ⟨_, fault, same, passes⟩
      cases same
      exact ⟨_, fault, rfl, passes⟩
    · rintro ⟨_, fault, same, passes⟩
      cases same
      exact ⟨_, fault, rfl, passes⟩

theorem again_succeeded {reply : Reply} : Again (succeeded (.ok reply)) ↔
    500 ≤ reply.status ∧ reply.ending ≠ .stalled := by
  constructor
  · rintro ⟨after, fault, same, again⟩
    have ends : reply.ending ≠ .stalled := by
      intro stalled
      cases success : reply.isSuccess with
      | true =>
        rw [succeeded, success] at same
        cases same
      | false =>
        rw [succeeded_eq_forever.2 ⟨success, stalled⟩] at same
        cases same
    obtain ⟨held, ended⟩ := body_done ends
    rw [succeeded, statusFault, ended] at same
    split at same
    · cases same
    · cases same
      exact ⟨of_decide_eq_true again, ends⟩
  · rintro ⟨server, ends⟩
    obtain ⟨held, ended⟩ := body_done ends
    rw [succeeded, statusFault, ended, isSuccess_of_fault server]
    exact ⟨_, _, rfl, decide_eq_true server⟩

theorem bind_succeeded_eq_forever :
    (headed limit met).bind succeeded = .forever ↔ HalfSent limit met := by
  refine (bind_headed_eq_forever fun fault => ?_).trans ?_
  · nofun
  · simp only [succeeded_eq_forever]
    rfl

theorem again_bind_succeeded :
    Again ((headed limit met).bind succeeded) ↔ Passes limit met := by
  obtain ⟨after, outcome, rfl, early, head⟩ | ⟨late, head⟩ := headed_cases limit met
  · rw [head, Wait.bind, again_delayed]
    cases outcome with
    | error message =>
      refine iff_of_true ⟨_, _, rfl, rfl⟩ fun _ _ held _ reply ok => ?_
      cases held
      cases ok
    | ok reply =>
      refine again_succeeded.trans ⟨fun fault _ _ held _ other ok => ?_,
        fun passes => passes after _ rfl early reply rfl⟩
      cases held
      cases ok
      exact fault
  · rw [head]
    exact iff_of_true ⟨_, _, rfl, rfl⟩ fun after outcome held early => absurd early (late _ _ held)

/-- A request does not depend on what was sent before. -/
theorem request_later (c : Client) (network : Network) (sent : List Sent)
    (method path body : String) :
    ({ c with network, sent } : Client).request method path body = c.request method path body := by
  have base : ({ c with network, sent } : Client).base = c.base := rfl
  have key : ({ c with network, sent } : Client).key = c.key := rfl
  rw [request, request, base, key]

theorem send_sent {method path : String} {sent : Sent}
    (made : c.request method path body = .ok sent) :
    c.send method path body = ({ c with network := c.network.send.2, sent := c.sent ++ [sent] },
      headed c.timeout c.network.send.1) := by
  rw [send, made]
  rfl

theorem post_sent {sent : Sent} (made : c.request "POST" "/chat/completions" body = .ok sent) :
    c.post body = ({ c with network := c.network.send.2, sent := c.sent ++ [sent] },
      (headed c.timeout c.network.send.1).bind succeeded) := by
  rw [post, send_sent made]

theorem post_unsent {reason : String}
    (made : c.request "POST" "/chat/completions" body = .error reason) :
    c.post body = (c, .now (.error (.request ("failed to build request: " ++ reason)))) := by
  rw [post, send, made]
  rfl

/-- More attempts hang if the first one does, or if they are made and hang. -/
theorem attempt_succ_eq_forever {again : Nat} : (c.attempt body (again + 1)).2 = .forever ↔
    (c.post body).2 = .forever ∨
      Again (c.post body).2 ∧ ((c.post body).1.attempt body again).2 = .forever := by
  conv =>
    lhs
    unfold attempt
  rcases c.post body with ⟨next, ⟨after, fault | reply⟩ | _⟩
  · cases passes : fault.isRetryable with
    | true =>
      have made : Again (.done after (.error fault)) := ⟨after, fault, rfl, passes⟩
      simp [made, passes, Wait.delayed_eq_forever]
    | false => simp [Again, passes]
  · simp [Again]
  · simp

theorem attempt_unsent {reason : String}
    (made : c.request "POST" "/chat/completions" body = .error reason) (again : Nat) :
    (c.attempt body again).2 ≠ .forever := by
  induction again with
  | zero =>
    unfold attempt
    rw [post_unsent made]
    nofun
  | succ again ih =>
    rw [Ne, attempt_succ_eq_forever, post_unsent made]
    exact not_or.2 ⟨nofun, fun ⟨_, stalls⟩ => ih stalls⟩

/-- Attempts hang with the first that hangs, if all before it are made again. -/
theorem attempt_sent {sent : Sent} (made : c.request "POST" "/chat/completions" body = .ok sent)
    (again : Nat) : (c.attempt body again).2 = .forever ↔ ∃ count ≤ again,
      HalfSent c.timeout (c.network.met count) ∧
        ∀ earlier < count, Passes c.timeout (c.network.met earlier) := by
  induction again generalizing c with
  | zero =>
    unfold attempt
    rw [post_sent made, bind_succeeded_eq_forever]
    refine ⟨fun hangs => ⟨0, Nat.le_refl 0, hangs, nofun⟩, ?_⟩
    rintro ⟨count, first, hangs, -⟩
    obtain rfl := Nat.le_zero.1 first
    exact hangs
  | succ again ih =>
    -- The next client makes the same request, of a network that is one request further.
    have later := ih ((request_later c c.network.send.2 (c.sent ++ [sent]) ..).trans made)
    rw [attempt_succ_eq_forever, post_sent made, bind_succeeded_eq_forever, again_bind_succeeded,
      later]
    constructor
    · rintro (hangs | ⟨passes, count, within, hangs, others⟩)
      · exact ⟨0, Nat.zero_le _, hangs, nofun⟩
      · refine ⟨count + 1, Nat.succ_le_succ within, hangs, fun earlier before => ?_⟩
        cases earlier with
        | zero => exact passes
        | succ earlier => exact others earlier (Nat.lt_of_succ_lt_succ before)
    · rintro ⟨count, within, hangs, others⟩
      cases count with
      | zero => exact .inl hangs
      | succ count =>
        exact .inr ⟨others 0 count.succ_pos, count, Nat.le_of_succ_le_succ within, hangs,
          fun earlier before => others (earlier + 1) (Nat.succ_lt_succ before)⟩

/-- An attempt meets a reply without success that has no end, and each one before it is made
again. -/
def Stuck (c : Client) (body : String) : Prop :=
  (c.request "POST" "/chat/completions" body).isOk = true ∧ ∃ count ≤ maxAttempts - 1,
    HalfSent c.timeout (c.network.met count) ∧
      ∀ earlier < count, Passes c.timeout (c.network.met earlier)

theorem attempt_eq_forever : (c.attempt body (maxAttempts - 1)).2 = .forever ↔ c.Stuck body := by
  unfold Stuck
  cases made : c.request "POST" "/chat/completions" body with
  | error reason => exact iff_of_false (attempt_unsent made _) nofun
  | ok sent => exact (attempt_sent made _).trans (and_iff_right rfl).symm

theorem post_timeout (c : Client) (body : String) : (c.post body).1.timeout = c.timeout := by
  cases made : c.request "POST" "/chat/completions" body with
  | error reason => rw [post_unsent made]
  | ok sent => rw [post_sent made]

theorem attempt_timeout (c : Client) (body : String) (again : Nat) :
    (c.attempt body again).1.timeout = c.timeout := by
  induction again generalizing c with
  | zero =>
    unfold attempt
    exact post_timeout c body
  | succ again ih =>
    have same := post_timeout c body
    unfold attempt
    generalize c.post body = posted at same
    obtain ⟨next, outcome⟩ := posted
    split
    · next held =>
      cases held
      split
      · exact (ih _).trans same
      · exact same
    · exact same

/-- An answer ends in time. -/
theorem answerOf_ne_forever (fresh : Nat → String) (limit : Duration) (reply : Reply) :
    answerOf fresh limit reply ≠ .forever := by
  rw [answerOf, Ne, Wait.map_eq_forever]
  exact Wait.within_ne_forever _ _ _

/-- Each read of a stream has its result at once, or is given up. -/
theorem streamOf_ends (fresh : Nat → String) (limit : Duration) (ending : BodyEnd) (d : Decoder)
    (pieces : List (List UInt8)) : ∀ wait ∈ streamOf fresh limit ending d pieces,
      (∃ result, wait = .now result) ∨ wait = .done limit (.error (.timeout limit)) := by
  have told (chunks : List Chunk) : ∀ wait ∈ chunks.map fun chunk =>
      (Wait.now (.ok chunk) : Wait (Except BackendFault Chunk)),
      (∃ result, wait = .now result) ∨ wait = .done limit (.error (.timeout limit)) := by
    intro wait mem
    obtain ⟨chunk, -, rfl⟩ := List.mem_map.1 mem
    exact .inl ⟨_, rfl⟩
  induction pieces generalizing d with
  | nil =>
    unfold streamOf
    cases ending with
    | complete => exact told _
    | stalled => exact List.forall_mem_singleton.2 (.inr rfl)
    | aborted message => exact List.forall_mem_singleton.2 (.inl ⟨_, rfl⟩)
  | cons piece rest ih =>
    rw [streamOf]
    rcases d.feed fresh piece with ⟨next, fault | chunks⟩
    · exact List.forall_mem_singleton.2 (.inl ⟨_, rfl⟩)
    · refine List.forall_mem_append.2 ⟨told chunks, ?_⟩
      split
      · nofun
      · exact ih next

variable {fresh : Nat → String} {r : ChatRequest}

theorem complete_eq_forever :
    (c.complete fresh r).2 = .forever ↔ c.Stuck (bodyJson r false).text := by
  refine Iff.trans ?_ attempt_eq_forever
  rw [complete]
  generalize c.attempt (bodyJson r false).text (maxAttempts - 1) = attempted
  obtain ⟨next, reply⟩ := attempted
  dsimp only
  rw [Wait.bind_eq_forever]
  refine or_iff_left ?_
  rintro ⟨after, fault | reply, rfl, stalls⟩
  · cases stalls
  · exact answerOf_ne_forever fresh next.timeout reply stalls

theorem stream_eq_forever :
    (c.stream fresh r).2 = .forever ↔ c.Stuck (bodyJson r true).text := by
  refine Iff.trans ?_ attempt_eq_forever
  rw [stream]
  generalize c.attempt (bodyJson r true).text (maxAttempts - 1) = attempted
  exact Wait.map_eq_forever

theorem modelsOf_eq_forever {reply : Reply} :
    modelsOf reply = .forever ↔ reply.ending = .stalled :=
  Wait.map_eq_forever.trans body_eq_forever

theorem models_eq_forever : c.models.2 = .forever ↔
    (c.request "GET" "/models" "").isOk = true ∧ ∃ after reply,
      c.network.send.1 = .done after (.ok reply) ∧ after ≤ c.timeout ∧
        reply.ending = .stalled := by
  cases made : c.request "GET" "/models" "" with
  | error reason =>
    rw [models, send, made]
    exact iff_of_false nofun nofun
  | ok sent =>
    rw [models, send_sent made]
    refine Iff.trans ?_ (and_iff_right rfl).symm
    dsimp only
    refine (bind_headed_eq_forever fun fault => ?_).trans ?_
    · nofun
    · simp only [modelsOf_eq_forever]

/-- A client waits without an end for the body of a reply without success, and for that of a list of
models, and for nothing else: what stalls elsewhere comes to a timeout. -/
theorem stalls_iff (fresh : Nat → String) (c : Client) (r : ChatRequest) :
    ((c.complete fresh r).2 = .forever ↔ c.Stuck (bodyJson r false).text) ∧
      (∀ after reply, (c.attempt (bodyJson r false).text (maxAttempts - 1)).2 =
          .done after (.ok reply) → reply.ending = .stalled →
        (c.complete fresh r).2 = .done (after + c.timeout) (.error (.timeout c.timeout))) ∧
      ((c.stream fresh r).2 = .forever ↔ c.Stuck (bodyJson r true).text) ∧
      (∀ after s, (c.stream fresh r).2 = .done after (.ok s) → ∀ wait ∈ s.results,
        (∃ result, wait = .now result) ∨ wait = .done c.timeout (.error (.timeout c.timeout))) ∧
      (c.models.2 = .forever ↔ (c.request "GET" "/models" "").isOk = true ∧ ∃ after reply,
        c.network.send.1 = .done after (.ok reply) ∧ after ≤ c.timeout ∧
          reply.ending = .stalled) := by
  refine ⟨complete_eq_forever, fun after reply replied stalled => ?_, stream_eq_forever,
    fun after s opened => ?_, models_eq_forever⟩
  · have same := attempt_timeout c (bodyJson r false).text (maxAttempts - 1)
    rw [complete]
    generalize c.attempt (bodyJson r false).text (maxAttempts - 1) = attempted at same replied
    obtain ⟨next, answered⟩ := attempted
    cases replied
    dsimp only [Wait.bind] at same ⊢
    rw [answerOf, body_eq_forever.2 stalled, same]
    rfl
  · have same := attempt_timeout c (bodyJson r true).text (maxAttempts - 1)
    rw [stream] at opened
    generalize c.attempt (bodyJson r true).text (maxAttempts - 1) = attempted at same opened
    obtain ⟨next, ⟨waited, fault | reply⟩ | _⟩ := attempted
    · cases opened
    · cases opened
      dsimp only at same
      rw [← same]
      exact streamOf_ends _ _ _ _ _
    · cases opened

/-- A client at a local server, without a key. -/
def atLocalhost (next : List (Wait Reply)) : Client where
  baseUrl := "http://localhost:8000"
  timeout := .ofSeconds 2
  network := .replies next

theorem request_atLocalhost (next : List (Wait Reply)) {path : String}
    (addressed : (Url.ofText .ascii ((atLocalhost []).base ++ path)).isOk = true)
    (method body : String) : ((atLocalhost next).request method path body).isOk = true := by
  have base : (atLocalhost next).base = (atLocalhost []).base := rfl
  unfold request
  rw [base]
  cases url : Url.ofText .ascii ((atLocalhost []).base ++ path) with
  | error fault =>
    rw [url] at addressed
    cases addressed
  | ok parsed =>
    dsimp only
    rw [url]
    rfl

def hello : ChatRequest where
  model := "small"
  messages := [.ofText .user "hello"]
  tools := []
  toolChoice := .mode "auto"
  outputSchema := none
  temperature := singleOne
  topP := singleOne
  maxOutputTokens := none
  parallelToolCalls := true

/-- The first attempt comes to a timeout; the second hangs. -/
theorem second_attempt_hangs :
    let c := atLocalhost [.forever, .now { status := 404, ending := .stalled }]
    c.Stuck (bodyJson hello false).text ∧ (c.complete toString hello).2 = .forever := by
  intro c
  have stuck : c.Stuck (bodyJson hello false).text :=
    ⟨request_atLocalhost _ (by decide +kernel) "POST" _, 1, by decide,
      ⟨.zero, _, rfl, by decide, rfl, rfl⟩, fun earlier first => by
        obtain rfl := Nat.lt_one_iff.1 first
        exact nofun⟩
  exact ⟨stuck, (stalls_iff toString c hello).1.2 stuck⟩

/-- A reply without success that is half sent hangs a completion and a stream, and a half-sent list
of models hangs whoever asks for it. -/
theorem half_sent_hangs :
    let fault := atLocalhost [.now { status := 500, ending := .stalled }]
    let listing := atLocalhost [.now { ending := .stalled }]
    (fault.complete toString hello).2 = .forever ∧ (fault.stream toString hello).2 = .forever ∧
      listing.models.2 = .forever := by
  intro fault listing
  have stuck (body : String) : fault.Stuck body :=
    ⟨request_atLocalhost _ (by decide +kernel) "POST" body, 0, by decide,
      ⟨.zero, _, rfl, by decide, rfl, rfl⟩, nofun⟩
  refine ⟨complete_eq_forever.2 (stuck _), stream_eq_forever.2 (stuck _), models_eq_forever.2 ?_⟩
  exact ⟨request_atLocalhost _ (by decide +kernel) "GET" _, .zero, _, rfl, by decide, rfl⟩

end Client

end Remote

end Responder
