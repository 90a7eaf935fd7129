import PiRust.ProtocolEvents
import PiRust.ReconnectCursor

/- The RPC loop while an operation runs: product events that the operation's task forwards to
a queue, and those that a reconnect replays, go to one adapter. -/
namespace PiRust.Rpc

open EventService Protocol

abbrev Event := EventService.ProductEvent CodingAgentProductEventKind

inductive RpcQueuedProductEvent where
  | event (event : Event)
  | overflow (skipped : Nat)

def rpcProductEventQueueCapacity : Nat := 128

/-- What the loop writes: protocol events, the `event_stream` error of a lag, and the answers
to `prompt` commands with a cursor. -/
inductive RpcOutput where
  | protocol (event : ProtocolEvent)
  | lag (skipped : Nat)
  | success
  | gap (requestedAfter oldestAvailable : Nat)

def RpcOutput.isLag : RpcOutput → Bool
  | .lag _ => true
  | _ => false

/-- `pushed` is not in the source: it is all that the adapter was given. -/
structure CodingRunningPrompt where
  adapter : CodingProtocolEventAdapter
  adapterAppliedSequence : Nat := 0
  eventsClosed : Bool := false
  pushed : List Event := []

/-- `push_live_product_event`, and the body of the loop over the events of a replay: an event
that is not after the applied sequence is passed over. -/
def pushProductEvent (serde : Serde) (running : CodingRunningPrompt) (event : Event) :
    CodingRunningPrompt × List ProtocolEvent :=
  if event.sequence ≤ running.adapterAppliedSequence then (running, [])
  else
    let (adapter, protocolEvents) := running.adapter.pushTyped serde event.event
    ({ running with
        adapter := adapter
        adapterAppliedSequence := max running.adapterAppliedSequence event.sequence
        pushed := running.pushed ++ [event] },
      protocolEvents)

def pushRetained (serde : Serde) : List Event → CodingRunningPrompt →
    CodingRunningPrompt × List ProtocolEvent
  | [], running => (running, [])
  | event :: rest, running =>
    let first := pushProductEvent serde running event
    let more := pushRetained serde rest first.1
    (more.1, first.2 ++ more.2)

/-- The loop of `finish_coding_running_prompt` over what the queue still holds; an overflow
ends it. -/
def drainQueue (serde : Serde) : List RpcQueuedProductEvent → CodingRunningPrompt →
    CodingRunningPrompt × List RpcOutput
  | [], running => (running, [])
  | .overflow skipped :: _, running =>
    ({ running with eventsClosed := true }, [.lag skipped])
  | .event event :: rest, running =>
    let first := pushProductEvent serde running event
    let more := drainQueue serde rest first.1
    (more.1, first.2.map .protocol ++ more.2)

/-- The session, the task of the operation, and the loop. The task has received, or skipped,
the first `received` of the emitted events; `ended` once the outcome of the operation has
come, `reported` once it is sent to the loop. `finished` is the prompt as the loop left it,
and `stopped` the loop that has returned an error. The last three fields are not in the
source: whether the client has reconnected after an overflow, the events that came later, and
those of them that no reconnect has brought yet. -/
structure World where
  service : SnapshotState CodingAgentProductEventKind := {}
  emitted : List Event := []
  received : Nat := 0
  forwarding : Bool := true
  ended : Bool := false
  reported : Bool := false
  queue : List RpcQueuedProductEvent := []
  running : Option CodingRunningPrompt := none
  finished : Option CodingRunningPrompt := none
  stopped : Bool := false
  written : List RpcOutput := []
  recovered : Bool := false
  later : List Event := []
  uncovered : List Event := []

namespace World

def lagged (world : World) : Bool := world.written.any RpcOutput.isLag

/-- The running prompt, or the prompt as the loop left it. -/
def current (world : World) : Option CodingRunningPrompt := world.running.or world.finished

/-- All that the adapter of the operation was given. -/
def pushed (world : World) : List Event :=
  (world.current.map CodingRunningPrompt.pushed).getD []

def evicted (retainedCapacity : Nat) (world : World) : Nat :=
  world.emitted.length - retainedCapacity

def room (world : World) : Bool := world.queue.length < rpcProductEventQueueCapacity

end World

inductive Received where
  | event (event : Event)
  | lagged (skipped : Nat)
  | empty

/-- A receive from the broadcast channel, which holds the last `capacity` events; a receiver
that is behind them goes on with the oldest one. -/
def recv (capacity : Nat) (world : World) : Received × Nat :=
  if world.received + capacity < world.emitted.length then
    (.lagged (world.emitted.length - capacity - world.received), world.emitted.length - capacity)
  else
    match world.emitted[world.received]? with
    | some event => (.event event, world.received + 1)
    | none => (.empty, world.received)

/-- Whether there is a client connection, and what it answers: `reconnect` may be rejected, and
`acknowledge` after a replay. -/
inductive Connection where
  | absent
  | rejected
  | acknowledged
  | unacknowledged
  deriving DecidableEq

/-- What can happen next. Numbering and broadcast of an event are one step. -/
inductive Label where
  | emit (event : CodingAgentProductEventKind)
  | forward
  | close
  | outcome
  | drain
  | receive
  | reconnect (cursor : Nat) (connection : Connection)
  | done

def emit (retainedCapacity : Nat) (event : CodingAgentProductEventKind) (world : World) :
    World :=
  if world.ended then world
  else
    let locked := emitLocked retainedCapacity event world.service
    let noted (events : List Event) := if world.recovered then events ++ [locked.1] else events
    { world with
      service := locked.2
      emitted := world.emitted ++ [locked.1]
      later := noted world.later
      uncovered := noted world.uncovered }

def forward (capacity : Nat) (world : World) : World :=
  if world.forwarding && world.room then
    match recv capacity world with
    | (.event event, received) =>
      { world with received := received, queue := world.queue ++ [.event event] }
    | (.lagged skipped, received) =>
      { world with
        received := received, queue := world.queue ++ [.overflow skipped]
        forwarding := false }
    | (.empty, _) => world
  else world

/-- One step of `drain_product_events_to_rpc_queue`, after which the outcome is reported once
the channel is empty or has lagged. -/
def drain (capacity : Nat) (world : World) : World :=
  if world.ended && !world.reported && world.room then
    match recv capacity world with
    | (.event event, received) =>
      { world with received := received, queue := world.queue ++ [.event event] }
    | (.lagged skipped, received) =>
      { world with
        received := received, queue := world.queue ++ [.overflow skipped]
        reported := true }
    | (.empty, _) => { world with reported := true }
  else world

def receive (serde : Serde) (world : World) : World :=
  match world.running with
  | none => world
  | some running =>
    if world.stopped || running.eventsClosed then world
    else
      match world.queue with
      | .event event :: rest =>
        let (running, protocolEvents) := pushProductEvent serde running event
        { world with
          queue := rest, running := some running
          written := world.written ++ protocolEvents.map .protocol }
      | .overflow skipped :: rest =>
        { world with
          queue := rest, running := some { running with eventsClosed := true }
          written := world.written ++ [.lag skipped] }
      | [] =>
        if world.reported then
          { world with running := some { running with eventsClosed := true } }
        else world

/-- A `prompt` command with a cursor while an operation runs: `handle_streaming_prompt` with
`reconnect_running_prompt_after`, which takes the running prompt out and puts it back. -/
def reconnect (serde : Serde) (retainedCapacity cursor : Nat) (connection : Connection)
    (world : World) : World :=
  match world.running with
  | none => world
  | some running =>
    if world.stopped then world
    else
      match connection with
      | .absent => { world with written := world.written ++ [.success] }
      | .rejected => { world with stopped := true }
      | connection =>
        match recoveryBoundaryFromState world.service cursor with
        | .retainedGap requestedAfter oldestAvailable =>
          { world with written := world.written ++ [.gap requestedAfter oldestAvailable] }
        | .ready boundary =>
          let replayed := pushRetained serde boundary.replay running
          -- `connection.acknowledge(through)?` returns before the prompt is put back.
          if connection = .unacknowledged then
            { world with running := none, stopped := true }
          else
            { world with
              running := some replayed.1
              written := world.written ++ .success :: replayed.2.map .protocol
              recovered := world.recovered || world.lagged
              uncovered := world.uncovered.filter fun event =>
                event.sequence ≤ max (max cursor (world.evicted retainedCapacity))
                  running.adapterAppliedSequence }

/-- The loop learns the outcome: `finish_coding_running_prompt`. -/
def done (serde : Serde) (world : World) : World :=
  match world.running with
  | none => world
  | some running =>
    if world.stopped || !world.reported then world
    else
      let (running, outputs) := drainQueue serde world.queue running
      { world with
        queue := [], running := none, finished := some running
        written := world.written ++ outputs }

def step (serde : Serde) (capacity retainedCapacity : Nat) : Label → World → World
  | .emit event => emit retainedCapacity event
  | .forward => forward capacity
  | .close => fun world => { world with forwarding := false }
  | .outcome => fun world => { world with forwarding := false, ended := true }
  | .drain => drain capacity
  | .receive => receive serde
  | .reconnect cursor connection => reconnect serde retainedCapacity cursor connection
  | .done => done serde

/-- A session with `earlier` events in which an operation starts. -/
def start (retainedCapacity : Nat) (earlier : List CodingAgentProductEventKind)
    (adapter : CodingProtocolEventAdapter) : World :=
  let emitted := emitAll retainedCapacity earlier
  { service := emitted.2, emitted := emitted.1, received := emitted.1.length
    running := some { adapter := adapter } }

end PiRust.Rpc
