import Responder.Turn.Action
import Responder.Turn.Channel

/-!
# Turns

A turn runs from its admission to its finished response. It does its actions one by one
and can be interrupted where it waits, by a cancellation or because its client is gone.
Then it settles as cancelled, with all it has accumulated. What it waits for from its
backend arrives at a time of a clock. Asking the backend and finishing are left to the
server.
-/

namespace Responder

/-- How far a turn is. -/
inductive Stage where
  | working (a : Accumulator) (actions : List Action)
  /-- The outcome is decided, and the response not finished. -/
  | settling (a : Accumulator) (outcome : Outcome)
  /-- The response is finished, and the last event not on the channel. -/
  | closing (response : Response)
  | ended (response : Response)

/-- How a client takes the response: waiting for the whole, or reading events. -/
inductive Reception where
  | waiting
  | reading (channel : Channel)
  deriving DecidableEq, Repr

/-- An admitted request and what has come of it. -/
structure Turn where
  id : String
  lane : Lane
  request : ChatRequest
  registry : Registry
  client : Reception
  clientGone : Bool := false
  /-- How many cancellation signals were seen. -/
  seen : Nat
  stage : Stage

namespace Turn

def schema (t : Turn) : Option Json := t.request.outputSchema.map (·.schema)

/-- Whether the response is not finished yet. -/
def isInFlight (t : Turn) : Bool :=
  match t.stage with
  | .working .. | .settling .. => true
  | .closing _ | .ended _ => false

def response? (t : Turn) : Option Response :=
  match t.stage with
  | .working .. | .settling .. => none
  | .closing response | .ended response => some response

def channel? (t : Turn) : Option Channel :=
  match t.client with
  | .waiting => none
  | .reading channel => some channel

/-- What a streamed turn begins with. -/
def opening (response : Response) : List Action :=
  [.emit (.created response), .emit (.inProgress response), .askStream]

/-- The events that close the open message. -/
def closingEvents (a : Accumulator) : List Action :=
  match a.openItem?.map fun (index, item) => (index, Accumulator.closeMessage item) with
  | some (index, item) =>
    [.emit (.textDone item.id index item.text),
      .emit (.partDone item.id index (.outputText item.text)),
      .emit (.itemDone index item)]
  | none => []

/-- The events that tell of a call. -/
def callEvents (index : Nat) : OutputItem → List Action
  | .functionCall id status callId name arguments =>
    [.emit (.itemAdded index (.functionCall id .inProgress callId name "")),
      .emit (.argumentsDone id index arguments),
      .emit (.itemDone index (.functionCall id status callId name arguments))]
  | .message .. => []

/-- Takes a piece of text: a message is opened for it if none is open. -/
def takeText (t : Turn) (a : Accumulator) (delta : String) : Accumulator × List Action :=
  if delta = "" then (a, [])
  else if a.openText.isSome then (a, [.append delta])
  else
    let id := t.lane.id .message (.output a.nextIndex)
    (a.openMessage id,
      [.emit (.itemAdded a.nextIndex (.message id .inProgress [])),
        .emit (.partAdded id a.nextIndex (.outputText "")),
        .append delta])

def takeResult (t : Turn) (a : Accumulator) (rest : ChunkStream) :
    Except BackendFault Chunk → Stage
  | .ok (.text delta) =>
    let (a, actions) := t.takeText a delta
    .working a (actions ++ [.read rest])
  | .ok (.call call) =>
    .working a.closeText (closingEvents a ++ [.call call, .read rest])
  | .ok (.usage usage) => .working (a.recordUsage usage) [.read rest]
  | .ok (.finished reason) =>
    let a := a.recordFinish reason
    .working a.closeText (closingEvents a ++ [.settle .finished])
  | .error fault => .settling a (.failed (.backend fault.message))

def takeArrival (t : Turn) (a : Accumulator) : Arrival → Stage
  | .answer (.error fault) | .opening (.error fault) =>
    .settling a (.failed (.backend fault.message))
  | .answer (.ok completion) =>
    let (a, outcome) := a.install t.registry t.lane completion
    .settling a outcome
  | .opening (.ok source) => .working a [.read source]
  | .result result rest => t.takeResult a rest result

/-- Begins to wait for an arrival, at a time of the clock. -/
def await (t : Turn) (clock : Duration) (a : Accumulator) : Wait Arrival → Turn
  | .forever => { t with stage := .working a [.idle] }
  | .done after arrival => { t with stage := .working a [.take (clock + after) arrival] }

/-- The time at which a turn that waits for an arrival goes on. -/
def resumes? (t : Turn) : Option Duration :=
  match t.stage with
  | .working _ (.take time _ :: _) => some time
  | _ => none

def waits (t : Turn) : Bool :=
  match t.stage with
  | .working _ (action :: _) => action.waits
  | _ => false

/-- Interrupts a turn: what it has accumulated is settled as cancelled. -/
def interrupt (t : Turn) : Turn :=
  match t.stage with
  | .working a _ => { t with stage := .settling a .cancelled }
  | _ => t

def withEvent (t : Turn) (channel : Channel) (event : Event) (stage : Stage) : Turn :=
  { t with client := .reading (channel.push event), stage }

/-- Does an action that needs no waiting. -/
def perform (t : Turn) (clock : Duration) (a : Accumulator) (rest : List Action) :
    Action → Option Turn
  | .emit event =>
    match t.client with
    | .reading channel =>
      if channel.hasRoom then some (t.withEvent channel event (.working a rest)) else none
    | .waiting => some { t with stage := .working a rest }
  | .ask | .askStream | .idle => none
  | .take time arrival =>
    if time ≤ clock then some { t with stage := t.takeArrival a arrival } else none
  | .read source =>
    match source.results with
    | result :: results =>
      some (t.await clock a (result.map fun result => .result result ⟨results⟩))
    | [] => some { t with
        stage := .working a.closeText (closingEvents a ++ [.settle .finished]) }
  | .append delta =>
    let a := a.pushText delta
    match a.openItem? with
    | some (index, item) =>
      some { t with stage := .working a (.emit (.textDelta item.id index delta) :: rest) }
    | none => some { t with stage := .working a rest }
  | .call call =>
    match t.registry.shape t.lane a.nextIndex call with
    | .ok item =>
      some { t with stage := .working (a.pushItem item) (callEvents a.nextIndex item ++ rest) }
    | .error failure => some { t with stage := .settling a (.failed failure) }
  | .settle outcome => some { t with stage := .settling a outcome }

/-- One step, if the turn need not wait. The last event is sent even to a turn that was
cancelled, and is lost only with the client. -/
def step (clock : Duration) (t : Turn) : Option Turn :=
  match t.stage with
  | .working a (action :: rest) =>
    if t.clientGone && action.waits then some t.interrupt else t.perform clock a rest action
  | .closing response =>
    match t.client with
    | .reading channel =>
      if t.clientGone then some { t with stage := .ended response }
      else if channel.hasRoom then
        some (t.withEvent channel (.terminal response) (.ended response))
      else none
    | .waiting => some { t with stage := .ended response }
  | .working _ [] | .settling .. | .ended _ => none

def finish (t : Turn) (now : Int) : Turn :=
  match t.stage with
  | .settling a outcome => { t with stage := .closing (a.finalize t.schema now outcome) }
  | _ => t

/-- A bound on the steps that are left, the asking of the backend aside. -/
def budget (t : Turn) : Nat :=
  match t.stage with
  | .working _ actions => actions.foldr (fun action n => action.budget + n) 3
  | .settling .. => 2
  | .closing _ => 1
  | .ended _ => 0

/-- The oldest event that was not read, and the turn after it is read. -/
def receive? (t : Turn) : Option (Sequenced × Turn) :=
  match t.client with
  | .waiting => none
  | .reading channel =>
    channel.take?.map fun (event, channel) => (event, { t with client := .reading channel })

def isOver (t : Turn) : Bool :=
  match t.stage, t.client with
  | .ended _, .reading channel => channel.queue.isEmpty
  | .ended _, .waiting => true
  | _, _ => false

end Turn

end Responder
