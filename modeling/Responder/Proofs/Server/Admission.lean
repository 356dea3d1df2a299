import Responder.Server.Admission

/-!
# What is admitted

A turn starts from a response to which nothing has happened yet. The tools it may call and
the schema of its output come from the request alone, whatever the request was checked
against.
-/

namespace Responder

theorem bind_eq_ok {ε α β : Type} {x : Except ε α} {f : α → Except ε β} {b : β} :
    (x >>= f) = .ok b ↔ ∃ a, x = .ok a ∧ f a = .ok b := by
  cases x with
  | error e => exact ⟨nofun, nofun⟩
  | ok a => exact ⟨fun h => ⟨a, rfl, h⟩, fun ⟨_, h, k⟩ => by cases h; exact k⟩

theorem exists_ok {ε α : Type} {x : Except ε α} (h : x.isOk) : ∃ a, x = .ok a := by
  cases x with
  | error e => cases h
  | ok a => exact ⟨a, rfl⟩

theorem Registry.ofRequest_eq {maxTools : Nat} {tools : List Tool} {choice : ToolChoice}
    {registry : Registry} (h : ofRequest maxTools tools choice = .ok registry) :
    registry = ⟨tools, choice⟩ := by
  unfold ofRequest at h
  split at h
  · cases h
  · obtain ⟨_, -, h⟩ := bind_eq_ok.1 h
    obtain ⟨_, -, h⟩ := bind_eq_ok.1 h
    cases h
    rfl

namespace Admission

/-- What a request that was accepted starts from. -/
structure Accepted (s : Setting) (r : Request) (admitted : Admitted) : Prop where
  id : admitted.response.id = s.lane.id .response .response
  previous : admitted.response.previous = r.previous
  resolved : ∃ chain, ancestry s.store r.previous = .ok chain
  output : admitted.response.output = []
  status : admitted.response.status = .inProgress
  registry : admitted.registry = ⟨r.tools, r.toolChoice.getD .auto⟩
  checked : Registry.ofRequest s.limits.maxTools r.tools (r.toolChoice.getD .auto) =
    .ok admitted.registry
  schema : outputSchema (r.format.getD .text) = .ok admitted.request.outputSchema

/-- All that admission finds out about a request that it accepts. -/
theorem accept_cases {s : Setting} {r : Request} {admitted : Admitted}
    (h : accept s r = .ok admitted) : Accepted s r admitted ∧
      admitted.response.store = r.store.getD true ∧
      ∃ items, rawItems s.limits r.input = .ok items ∧
        InputItem.listOfJson s.lane 0 items = .ok admitted.response.input := by
  unfold accept at h
  obtain ⟨model, -, h⟩ := bind_eq_ok.1 h
  obtain ⟨items, raw, h⟩ := bind_eq_ok.1 h
  obtain ⟨input, read, h⟩ := bind_eq_ok.1 h
  obtain ⟨temperature, -, h⟩ := bind_eq_ok.1 h
  obtain ⟨topP, -, h⟩ := bind_eq_ok.1 h
  obtain ⟨maxOutputTokens, -, h⟩ := bind_eq_ok.1 h
  obtain ⟨truncation, -, h⟩ := bind_eq_ok.1 h
  obtain ⟨_, -, h⟩ := bind_eq_ok.1 h
  obtain ⟨registry, hr, h⟩ := bind_eq_ok.1 h
  obtain ⟨schema, hs, h⟩ := bind_eq_ok.1 h
  obtain ⟨ancestry, resolved, h⟩ := bind_eq_ok.1 h
  obtain ⟨messages, -, h⟩ := bind_eq_ok.1 h
  cases h
  refine ⟨?_, rfl, items, raw, read⟩
  exact ⟨rfl, rfl, ⟨ancestry, resolved⟩, rfl, rfl, Registry.ofRequest_eq hr, hr, hs⟩

theorem accept_spec {s : Setting} {r : Request} {admitted : Admitted}
    (h : accept s r = .ok admitted) : Accepted s r admitted :=
  (accept_cases h).1

theorem rawItems_eq_ok {limits : Limits} {input : Json} {items : List Json}
    (h : rawItems limits input = .ok items) : input = .array items := by
  unfold rawItems at h
  split at h
  · cases h
  · split at h <;> cases h
    rfl
  all_goals cases h

/-- The input of an accepted request is an array, and what is kept of it is read from this. -/
theorem accept_read {s : Setting} {r : Request} {admitted : Admitted}
    (h : accept s r = .ok admitted) : ∃ items, r.input = .array items ∧
      InputItem.listOfJson s.lane 0 items = .ok admitted.response.input := by
  obtain ⟨-, -, items, raw, read⟩ := accept_cases h
  exact ⟨items, rawItems_eq_ok raw, read⟩

/-- A request that any setting with room for it accepts. -/
def greeting : Request where
  model := some "small"
  input := .array [.ofMembers [("type", .string "message"), ("role", .string "user"),
    ("content", .string "hello")]]

/-- An empty store and the usual limits, at the beginning of time. -/
def startup : Setting where
  limits := {}
  store := {}
  count := Context.estimate
  lane := {}
  now := 0

theorem accept_greeting : ∃ admitted, accept startup greeting = .ok admitted := ⟨_, rfl⟩

end Admission

end Responder
