import Responder.Proofs.Tool.Contract
import Responder.Proofs.Turn.Cancellation

/-!
# The same but for ids and times

Two turns of one request in two lanes have other ids, and run at other times. What they hold is
the same otherwise, and stays so while the same is done to both: this is proved here of each thing
that a turn does to its accumulator, and of the events that it has to send.
-/

namespace Responder

/-- Input items that differ in generated ids only. -/
inductive SameInput (lane lane' : Lane) : InputItem → InputItem → Prop
  | message {id id' : String} (role : Role) (content : List InputPart) : SameId lane lane' id id' →
      SameInput lane lane' (.message id role content) (.message id' role content)
  | functionCall {id id' : String} (callId name arguments : String) : SameId lane lane' id id' →
      SameInput lane lane' (.functionCall id callId name arguments)
        (.functionCall id' callId name arguments)
  | functionCallOutput {id id' : String} (callId output : String) : SameId lane lane' id id' →
      SameInput lane lane' (.functionCallOutput id callId output)
        (.functionCallOutput id' callId output)

/-- A response without its id, its items and its times. -/
def Response.nameless (r : Response) : Response :=
  { r with id := "", createdAt := 0, completedAt := none, input := [], output := [] }

/-- Responses that differ in generated ids and in times only. -/
structure SameResponse (lane lane' : Lane) (x y : Response) : Prop where
  id : SameId lane lane' x.id y.id
  input : List.Forall₂ (SameInput lane lane') x.input y.input
  output : List.Forall₂ (SameItem lane lane') x.output y.output
  completed : x.completedAt.isSome = y.completedAt.isSome
  nameless : x.nameless = y.nameless

/-- Events that differ in generated ids and in times only. -/
inductive SameEvent (lane lane' : Lane) : Event → Event → Prop
  | created {x y : Response} : SameResponse lane lane' x y →
      SameEvent lane lane' (.created x) (.created y)
  | inProgress {x y : Response} : SameResponse lane lane' x y →
      SameEvent lane lane' (.inProgress x) (.inProgress y)
  | itemAdded (index : Nat) {item item' : OutputItem} : SameItem lane lane' item item' →
      SameEvent lane lane' (.itemAdded index item) (.itemAdded index item')
  | partAdded {id id' : String} (index : Nat) (part : OutputPart) : SameId lane lane' id id' →
      SameEvent lane lane' (.partAdded id index part) (.partAdded id' index part)
  | textDelta {id id' : String} (index : Nat) (delta : String) : SameId lane lane' id id' →
      SameEvent lane lane' (.textDelta id index delta) (.textDelta id' index delta)
  | textDone {id id' : String} (index : Nat) (text : String) : SameId lane lane' id id' →
      SameEvent lane lane' (.textDone id index text) (.textDone id' index text)
  | partDone {id id' : String} (index : Nat) (part : OutputPart) : SameId lane lane' id id' →
      SameEvent lane lane' (.partDone id index part) (.partDone id' index part)
  | argumentsDone {id id' : String} (index : Nat) (arguments : String) :
      SameId lane lane' id id' →
      SameEvent lane lane' (.argumentsDone id index arguments) (.argumentsDone id' index arguments)
  | itemDone (index : Nat) {item item' : OutputItem} : SameItem lane lane' item item' →
      SameEvent lane lane' (.itemDone index item) (.itemDone index item')
  | completed {x y : Response} : SameResponse lane lane' x y →
      SameEvent lane lane' (.completed x) (.completed y)
  | failed {x y : Response} : SameResponse lane lane' x y →
      SameEvent lane lane' (.failed x) (.failed y)
  | incomplete {x y : Response} : SameResponse lane lane' x y →
      SameEvent lane lane' (.incomplete x) (.incomplete y)

/-- Events at the same place of two streams that differ in generated ids and in times only. -/
structure SameSequenced (lane lane' : Lane) (x y : Sequenced) : Prop where
  event : SameEvent lane lane' x.event y.event
  number : x.number = y.number

/-- Calls that differ in generated ids only. -/
structure SameCall (lane lane' : Lane) (x y : ToolCall) : Prop where
  id : SameId lane lane' x.id y.id
  name : x.name = y.name
  arguments : x.arguments = y.arguments

structure SameCompletion (lane lane' : Lane) (x y : Completion) : Prop where
  text : x.text = y.text
  calls : List.Forall₂ (SameCall lane lane') x.calls y.calls
  finish : x.finish = y.finish
  usage : x.usage = y.usage

inductive SameChunk (lane lane' : Lane) : Chunk → Chunk → Prop
  | text (delta : String) : SameChunk lane lane' (.text delta) (.text delta)
  | call {x y : ToolCall} : SameCall lane lane' x y → SameChunk lane lane' (.call x) (.call y)
  | usage (usage : TokenUsage) : SameChunk lane lane' (.usage usage) (.usage usage)
  | finished (reason : FinishReason) : SameChunk lane lane' (.finished reason) (.finished reason)

/-- The same fault, or what is alike. -/
inductive SameResult {α : Type} (same : α → α → Prop) :
    Except BackendFault α → Except BackendFault α → Prop
  | fault (fault : BackendFault) : SameResult same (.error fault) (.error fault)
  | ok {x y : α} : same x y → SameResult same (.ok x) (.ok y)

/-- Accumulators of turns that are in progress and have come to the same. -/
structure SameAccumulator (lane lane' : Lane) (a b : Accumulator) : Prop where
  response : SameResponse lane lane' a.response b.response
  fresh : a.response.status = .inProgress
  openText : a.openText = b.openText
  usage : a.usage = b.usage
  finish : a.finish = b.finish

section
variable {lane lane' : Lane} {x y : Response} {item item' : OutputItem}
  {output output' : List OutputItem}

theorem SameId.eq_empty_iff {id id' : String} (h : SameId lane lane' id id') :
    id = "" ↔ id' = "" := by
  cases h with
  | given id => exact Iff.rfl
  | generated kind slot =>
    exact iff_of_false (lane.id_ne_empty kind slot) (lane'.id_ne_empty kind slot)

theorem SameResponse.status (h : SameResponse lane lane' x y) : x.status = y.status := by
  have same := congrArg Response.status h.nameless
  exact same

theorem SameResponse.withOutput (h : SameResponse lane lane' x y)
    (same : List.Forall₂ (SameItem lane lane') output output') :
    SameResponse lane lane' { x with output } { y with output := output' } :=
  ⟨h.id, h.input, same, h.completed, h.nameless⟩

theorem SameEvent.terminal (h : SameResponse lane lane' x y) :
    SameEvent lane lane' (.terminal x) (.terminal y) := by
  unfold Event.terminal
  rw [h.status]
  cases y.status with
  | completed => exact .completed h
  | incomplete => exact .incomplete h
  | failed | inProgress => exact .failed h

theorem SameItem.id (h : SameItem lane lane' item item') : SameId lane lane' item.id item'.id := by
  cases h <;> assumption

theorem SameItem.extendText (h : SameItem lane lane' item item') (delta : String) :
    SameItem lane lane' (Accumulator.extendText delta item)
      (Accumulator.extendText delta item') := by
  cases h with
  | message status content id =>
    obtain _ | ⟨_ | _, _⟩ := content <;> exact .message _ _ id
  | functionCall status name arguments id callId =>
    exact .functionCall status name arguments id callId

theorem SameItem.closeMessage (h : SameItem lane lane' item item') :
    SameItem lane lane' (Accumulator.closeMessage item) (Accumulator.closeMessage item') := by
  cases h with
  | message status content id => cases content <;> exact .message _ _ id
  | functionCall status name arguments id callId =>
    exact .functionCall status name arguments id callId

theorem SameItem.modify (h : List.Forall₂ (SameItem lane lane') output output') (index : Nat)
    {change : OutputItem → OutputItem}
    (keeps : ∀ item item', SameItem lane lane' item item' →
      SameItem lane lane' (change item) (change item')) :
    List.Forall₂ (SameItem lane lane') (output.modify index change)
      (output'.modify index change) := by
  induction h generalizing index with
  | nil => cases index <;> exact .nil
  | cons same rest ih =>
    cases index with
    | zero => exact .cons (keeps _ _ same) rest
    | succ index => exact .cons same (ih index)

theorem SameItem.getElem? (h : List.Forall₂ (SameItem lane lane') output output')
    (index : Nat) : Option.Rel (SameItem lane lane') output[index]? output'[index]? := by
  induction h generalizing index with
  | nil => exact .none
  | cons same rest ih =>
    cases index with
    | zero => exact .some same
    | succ index => simpa using ih index

theorem shape_alike (registry : Registry) {made made' : ToolCall}
    (h : SameCall lane lane' made made') (index : Nat) :
    (∃ item item', registry.shape lane index made = .ok item ∧
      registry.shape lane' index made' = .ok item' ∧ SameItem lane lane' item item') ∨
    ∃ failure, registry.shape lane index made = .error failure ∧
      registry.shape lane' index made' = .error failure := by
  have fault : registry.callFault made = registry.callFault made' := by
    simp only [Registry.callFault, h.name, h.arguments]
  simp only [Registry.shape, fault, h.name, h.arguments]
  cases registry.callFault made' with
  | some message => exact .inr ⟨_, rfl, rfl⟩
  | none =>
    refine .inl ⟨_, _, rfl, rfl, .functionCall _ _ _ (.generated ..) ?_⟩
    by_cases empty : made.id = ""
    · rw [if_pos empty, if_pos (h.id.eq_empty_iff.1 empty)]
      exact .generated ..
    · rw [if_neg empty, if_neg fun empty' => empty (h.id.eq_empty_iff.2 empty')]
      exact h.id

end

namespace SameAccumulator

variable {lane lane' : Lane} {a b : Accumulator}

theorem nextIndex (h : SameAccumulator lane lane' a b) : a.nextIndex = b.nextIndex :=
  h.response.output.length_eq

theorem pushItem (h : SameAccumulator lane lane' a b) {item item' : OutputItem}
    (same : SameItem lane lane' item item') :
    SameAccumulator lane lane' (a.pushItem item) (b.pushItem item') :=
  ⟨h.response.withOutput (SameItem.snoc h.response.output same), h.fresh, h.openText, h.usage,
    h.finish⟩

theorem openMessage (h : SameAccumulator lane lane' a b) {id id' : String}
    (same : SameId lane lane' id id') :
    SameAccumulator lane lane' (a.openMessage id) (b.openMessage id') :=
  ⟨(h.pushItem (.message .inProgress [] same)).response, h.fresh, congrArg some h.nextIndex,
    h.usage, h.finish⟩

theorem modifyItem (h : SameAccumulator lane lane' a b) (index : Nat)
    {change : OutputItem → OutputItem}
    (keeps : ∀ item item', SameItem lane lane' item item' →
      SameItem lane lane' (change item) (change item')) :
    SameAccumulator lane lane' (a.modifyItem index change) (b.modifyItem index change) :=
  ⟨h.response.withOutput (SameItem.modify h.response.output index keeps), h.fresh, h.openText,
    h.usage, h.finish⟩

theorem pushText (h : SameAccumulator lane lane' a b) (delta : String) :
    SameAccumulator lane lane' (a.pushText delta) (b.pushText delta) := by
  unfold Accumulator.pushText
  rw [h.openText]
  split
  · exact h.modifyItem _ fun _ _ same => same.extendText delta
  · exact h

theorem closeText (h : SameAccumulator lane lane' a b) :
    SameAccumulator lane lane' a.closeText b.closeText := by
  unfold Accumulator.closeText
  rw [h.openText]
  split
  · next index _ =>
    have closed := h.modifyItem index fun _ _ same => same.closeMessage
    exact ⟨closed.response, closed.fresh, rfl, closed.usage, closed.finish⟩
  · exact h

theorem recordUsage (h : SameAccumulator lane lane' a b) (usage : TokenUsage) :
    SameAccumulator lane lane' (a.recordUsage usage) (b.recordUsage usage) :=
  ⟨h.response, h.fresh, h.openText, rfl, h.finish⟩

theorem recordFinish (h : SameAccumulator lane lane' a b) (reason : FinishReason) :
    SameAccumulator lane lane' (a.recordFinish reason) (b.recordFinish reason) :=
  ⟨h.response, h.fresh, h.openText, h.usage, rfl⟩

theorem openItem? (h : SameAccumulator lane lane' a b) :
    Option.Rel (fun x y => x.1 = y.1 ∧ SameItem lane lane' x.2 y.2) a.openItem? b.openItem? := by
  unfold Accumulator.openItem?
  rw [h.openText]
  cases b.openText with
  | none => exact .none
  | some index =>
    have there := SameItem.getElem? h.response.output index
    simp only [Option.bind_some]
    cases held : a.response.output[index]? <;> cases held' : b.response.output[index]? <;>
      rw [held, held'] at there <;> cases there
    · exact .none
    · next same => exact .some ⟨rfl, same⟩

theorem pushCalls (h : SameAccumulator lane lane' a b) (registry : Registry)
    {calls calls' : List ToolCall}
    (same : List.Forall₂ (SameCall lane lane') calls calls') :
    SameAccumulator lane lane' (Accumulator.pushCalls registry lane a calls).1
        (Accumulator.pushCalls registry lane' b calls').1 ∧
      (Accumulator.pushCalls registry lane a calls).2 =
        (Accumulator.pushCalls registry lane' b calls').2 := by
  induction same generalizing a b with
  | nil => exact ⟨h, rfl⟩
  | cons made rest ih =>
    simp only [Accumulator.pushCalls]
    rw [← h.nextIndex]
    obtain ⟨item, item', shaped, shaped', alike⟩ | ⟨failure, refused, refused'⟩ :=
      shape_alike registry made a.nextIndex
    · rw [shaped, shaped']
      exact ih (h.pushItem alike)
    · rw [refused, refused']
      exact ⟨h, rfl⟩

theorem say (h : SameAccumulator lane lane' a b) {c c' : Completion}
    (same : SameCompletion lane lane' c c') :
    SameAccumulator lane lane' (a.say lane c) (b.say lane' c') := by
  have tallied : SameAccumulator lane lane' (a.tally c.usage c.finish)
      (b.tally c'.usage c'.finish) := by
    rw [same.usage, same.finish]
    unfold Accumulator.tally
    cases c'.usage with
    | none => exact h.recordFinish _
    | some usage => exact (h.recordUsage usage).recordFinish _
  unfold Accumulator.say
  rw [same.text, h.nextIndex]
  cases c'.text with
  | none => exact tallied
  | some text => exact tallied.pushItem (.message _ _ (.generated ..))

theorem install (h : SameAccumulator lane lane' a b) (registry : Registry) {c c' : Completion}
    (same : SameCompletion lane lane' c c') :
    SameAccumulator lane lane' (a.install registry lane c).1 (b.install registry lane' c').1 ∧
      (a.install registry lane c).2 = (b.install registry lane' c').2 := by
  obtain ⟨added, refused⟩ := (h.say same).pushCalls registry same.calls
  rw [Accumulator.install_eq, Accumulator.install_eq]
  generalize Accumulator.pushCalls registry lane (a.say lane c) c.calls = left at added refused ⊢
  generalize Accumulator.pushCalls registry lane' (b.say lane' c') c'.calls = right
    at added refused ⊢
  obtain ⟨a', failure⟩ := left
  obtain ⟨b', failure'⟩ := right
  cases refused
  cases failure <;> exact ⟨added, rfl⟩

theorem finalize (h : SameAccumulator lane lane' a b) (schema : Option Json) (now now' : Int)
    (outcome : Outcome) : SameResponse lane lane' (a.finalize schema now outcome)
      (b.finalize schema now' outcome) := by
  have fresh' : b.response.status = .inProgress := h.response.status.symm.trans h.fresh
  have output := h.response.output
  have verdict : a.settle schema outcome = b.settle schema outcome := by
    cases outcome with
    | finished => exact Accumulator.settleFinished_congr output h.finish
    | failed failure => rfl
    | cancelled => rfl
  rw [Accumulator.finalize_eq h.fresh, Accumulator.finalize_eq fresh', verdict]
  generalize b.settle schema outcome = verdict
  refine ⟨h.response.id, h.response.input, ?_, ?_, ?_⟩
  · dsimp only
    rw [List.forall₂_map_left_iff, List.forall₂_map_right_iff]
    exact output.imp fun _ _ same => same.closeItem _
  · dsimp only
    split <;> rfl
  · have rest := h.response.nameless
    unfold Response.nameless at rest ⊢
    simp only [Response.mk.injEq, true_and] at rest ⊢
    simp only [SameItem.textOf output, h.usage, rest, and_self]

end SameAccumulator

section admission
variable {lane lane' : Lane}

namespace InputItem

theorem normalize_same {index : Nat} {raw : RawItem} {x y : InputItem}
    (h : normalize lane index raw = .ok x) (h' : normalize lane' index raw = .ok y) :
    SameInput lane lane' x y := by
  have id (kind : IdKind) : SameId lane lane' (raw.id.getD (lane.id kind (.input index)))
      (raw.id.getD (lane'.id kind (.input index))) := by
    cases raw.id with
    | none => exact .generated ..
    | some id => exact .given id
  unfold normalize at h h'
  dsimp only at h h'
  split at h
  · next kind =>
    simp only [kind] at h'
    split at h
    · next role written =>
      simp only [written] at h'
      obtain ⟨role, named, h⟩ := bind_eq_ok.1 h
      obtain ⟨_, named', h'⟩ := bind_eq_ok.1 h'
      cases named.symm.trans named'
      split at h
      · next content written =>
        simp only [written] at h'
        obtain ⟨content, kept, h⟩ := bind_eq_ok.1 h
        obtain ⟨_, kept', h'⟩ := bind_eq_ok.1 h'
        cases kept.symm.trans kept'
        split at h
        · cases h
        · next full =>
          rw [if_neg full] at h'
          cases h
          cases h'
          exact .message role content (id .message)
      · cases h
    · cases h
  · next kind =>
    simp only [kind] at h'
    obtain ⟨callId, called, h⟩ := bind_eq_ok.1 h
    obtain ⟨_, called', h'⟩ := bind_eq_ok.1 h'
    cases called.symm.trans called'
    obtain ⟨name, named, h⟩ := bind_eq_ok.1 h
    obtain ⟨_, named', h'⟩ := bind_eq_ok.1 h'
    cases named.symm.trans named'
    cases h
    cases h'
    exact .functionCall callId name _ (id .functionCall)
  · next kind =>
    simp only [kind] at h'
    obtain ⟨callId, called, h⟩ := bind_eq_ok.1 h
    obtain ⟨_, called', h'⟩ := bind_eq_ok.1 h'
    cases called.symm.trans called'
    split at h
    · next written =>
      simp only [written] at h'
      cases h
      cases h'
      exact .functionCallOutput callId _ (id .message)
    · next written =>
      simp only [written] at h'
      cases h
      cases h'
      exact .functionCallOutput callId _ (id .message)
    · cases h
  · cases h

theorem listOfJson_same {index : Nat} {items : List Json} {input input' : List InputItem}
    (h : listOfJson lane index items = .ok input)
    (h' : listOfJson lane' index items = .ok input') :
    List.Forall₂ (SameInput lane lane') input input' := by
  induction items generalizing index input input' with
  | nil =>
    cases h
    cases h'
    exact .nil
  | cons value rest ih =>
    unfold listOfJson at h h'
    obtain ⟨item, made, h⟩ := bind_eq_ok.1 h
    obtain ⟨item', made', h'⟩ := bind_eq_ok.1 h'
    obtain ⟨others, later, h⟩ := bind_eq_ok.1 h
    obtain ⟨others', later', h'⟩ := bind_eq_ok.1 h'
    cases h
    cases h'
    obtain ⟨raw, read, made⟩ := bind_eq_ok.1 made
    obtain ⟨raw', read', made'⟩ := bind_eq_ok.1 made'
    cases read.symm.trans read'
    exact .cons (normalize_same made made') (ih later later')

end InputItem

/-- What a request starts from is the same whenever it is admitted, whatever the store holds. -/
theorem Admission.accept_same {s s' : Setting} {r : Request} {x y : Admitted}
    (limits : s'.limits = s.limits) (h : accept s r = .ok x) (h' : accept s' r = .ok y) :
    SameResponse s.lane s'.lane x.response y.response ∧ y.registry = x.registry ∧
      y.request.outputSchema = x.request.outputSchema := by
  unfold accept at h h'
  rw [limits] at h'
  obtain ⟨model, named, h⟩ := bind_eq_ok.1 h
  obtain ⟨_, named', h'⟩ := bind_eq_ok.1 h'
  cases named.symm.trans named'
  obtain ⟨items, raw, h⟩ := bind_eq_ok.1 h
  obtain ⟨_, raw', h'⟩ := bind_eq_ok.1 h'
  cases raw.symm.trans raw'
  obtain ⟨input, read, h⟩ := bind_eq_ok.1 h
  obtain ⟨input', read', h'⟩ := bind_eq_ok.1 h'
  obtain ⟨temperature, warm, h⟩ := bind_eq_ok.1 h
  obtain ⟨_, warm', h'⟩ := bind_eq_ok.1 h'
  cases warm.symm.trans warm'
  obtain ⟨topP, top, h⟩ := bind_eq_ok.1 h
  obtain ⟨_, top', h'⟩ := bind_eq_ok.1 h'
  cases top.symm.trans top'
  obtain ⟨maxOutputTokens, most, h⟩ := bind_eq_ok.1 h
  obtain ⟨_, most', h'⟩ := bind_eq_ok.1 h'
  cases most.symm.trans most'
  obtain ⟨truncation, cut, h⟩ := bind_eq_ok.1 h
  obtain ⟨_, cut', h'⟩ := bind_eq_ok.1 h'
  cases cut.symm.trans cut'
  obtain ⟨_, -, h⟩ := bind_eq_ok.1 h
  obtain ⟨_, -, h'⟩ := bind_eq_ok.1 h'
  obtain ⟨registry, checked, h⟩ := bind_eq_ok.1 h
  obtain ⟨_, checked', h'⟩ := bind_eq_ok.1 h'
  cases checked.symm.trans checked'
  obtain ⟨schema, shaped, h⟩ := bind_eq_ok.1 h
  obtain ⟨_, shaped', h'⟩ := bind_eq_ok.1 h'
  cases shaped.symm.trans shaped'
  -- The ancestors reach the backend, and nothing else of the turn.
  obtain ⟨_, -, h⟩ := bind_eq_ok.1 h
  obtain ⟨_, -, h'⟩ := bind_eq_ok.1 h'
  obtain ⟨_, -, h⟩ := bind_eq_ok.1 h
  obtain ⟨_, -, h'⟩ := bind_eq_ok.1 h'
  cases h
  cases h'
  refine ⟨⟨.generated .., InputItem.listOfJson_same read read', .nil, rfl, ?_⟩, rfl, rfl⟩
  simp only [Response.nameless]

end admission

end Responder
