import PiRust.AgentTurn
import PiRust.Flow
import PiRust.Transition

/- `agent_turn_flow/runtime.rs` and `agent.rs`: the agent as a transition system.
A step is one lock acquisition or one stretch of a node between two of them. -/
namespace PiRust

/-- `AGENT_TURN_NODE_IDS` -/
inductive NodeId where
  | startTurn
  | drainQueuedInput
  | maybeCompactRuntimeContext
  | prepareProviderRequest
  | applyBeforeProviderRequestHook
  | providerStream
  | decideAfterAssistant
  | maybePrepareNextTurn
  | executeTools
  deriving DecidableEq, Repr

/-- A node is told apart by its identifier; `AgentRun.runNode` says what it does. -/
abbrev TurnFlow := Flow NodeId NodeId Action

def agentTurnFlow : TurnFlow where
  start := .startTurn
  nodes :=
    [(.executeTools, .executeTools), (.maybePrepareNextTurn, .maybePrepareNextTurn),
      (.decideAfterAssistant, .decideAfterAssistant), (.providerStream, .providerStream),
      (.applyBeforeProviderRequestHook, .applyBeforeProviderRequestHook),
      (.prepareProviderRequest, .prepareProviderRequest),
      (.maybeCompactRuntimeContext, .maybeCompactRuntimeContext),
      (.drainQueuedInput, .drainQueuedInput), (.startTurn, .startTurn)]
  transitions :=
    [((.executeTools, .continueTurn), .maybePrepareNextTurn),
      ((.decideAfterAssistant, .continueTurn), .maybePrepareNextTurn),
      ((.decideAfterAssistant, .tools), .executeTools),
      ((.providerStream, .default), .decideAfterAssistant),
      ((.applyBeforeProviderRequestHook, .default), .providerStream),
      ((.prepareProviderRequest, .default), .applyBeforeProviderRequestHook),
      ((.maybeCompactRuntimeContext, .default), .prepareProviderRequest),
      ((.drainQueuedInput, .default), .maybeCompactRuntimeContext),
      ((.startTurn, .default), .drainQueuedInput)]

@[simp] theorem agentTurnFlow_node? (id : NodeId) : agentTurnFlow.node? id = some id := by
  cases id <;> rfl

def NodeId.depth : NodeId → Nat
  | .startTurn => 0
  | .drainQueuedInput => 1
  | .maybeCompactRuntimeContext => 2
  | .prepareProviderRequest => 3
  | .applyBeforeProviderRequestHook => 4
  | .providerStream => 5
  | .decideAfterAssistant => 6
  | .executeTools => 7
  | .maybePrepareNextTurn => 8

theorem agentTurnFlow_deepens {id next : NodeId} {action : Action}
    (found : agentTurnFlow.next? id action = some next) : id.depth < next.depth := by
  have edges : ∀ edge ∈ agentTurnFlow.transitions, edge.1.1.depth < edge.2.depth := by decide
  exact edges _ (Flow.next?_mem found)

theorem agentTurnFlow_tools {id : NodeId} {action : Action}
    (found : agentTurnFlow.next? id action = some .executeTools) :
    id = .decideAfterAssistant ∧ action = .tools := by
  have edges : ∀ edge ∈ agentTurnFlow.transitions, edge.2 = .executeTools →
      edge.1 = (.decideAfterAssistant, .tools) := by decide
  exact Prod.mk.inj (edges _ (Flow.next?_mem found) rfl)

/-- Where `run_state` stands: not running, before the snapshot of a turn, before
a node's cancellation check, inside a node, or past the last node. -/
inductive Phase where
  | idle
  | turnStart (turn : UInt32)
  | between (ctx : AgentTurnContext) (cursor : Cursor NodeId)
  | inside (ctx : AgentTurnContext) (cursor : Cursor NodeId)
  | finished (ctx : AgentTurnContext)
      (outcome : Except (FlowError NodeId Action) (FlowOutcome NodeId Action))

/-- The private context of the running turn. -/
def Phase.context? : Phase → Option AgentTurnContext
  | .idle | .turnStart _ => none
  | .between ctx _ | .inside ctx _ | .finished ctx _ => some ctx

structure World where
  state : AgentState
  phase : Phase

/-- Calls on the agent from any task, then the steps of the run itself. The number
in a queued message's identifier is a queue length read under an earlier lock. -/
inductive Label where
  | prompt (text : String)
  | run
  | steer (count : Nat) (text : String)
  | followUp (count : Nat) (text : String)
  | drainSteeringQueue
  | drainFollowUpQueue
  | abort
  | snapshot
  | enter
  | runNode (answers : Answers)
  | apply

namespace AgentRun

open AgentTurn AgentTurnContext

variable (serde : Serde)

/-- `run_with_options` of `AgentTurnFlow` turns strict transitions off. -/
def runOptions : FlowRunOptions := { strictMissingTransition := false }

/-- The `sync_live_queues` at the head of the two nodes that have one; the second
first looks for its assistant message. -/
def syncsQueues (node : NodeId) (ctx : AgentTurnContext) : Bool :=
  match node with
  | .drainQueuedInput => true
  | .maybePrepareNextTurn => ctx.assistantMessage.isSome
  | _ => false

def nodeHead (node : NodeId) (ctx : AgentTurnContext) (state : AgentState) :
    AgentTurnContext × AgentState :=
  if syncsQueues node ctx then ctx.syncLiveQueues state else (ctx, state)

def runNode (node : NodeId) (answers : Answers) (ctx : AgentTurnContext) (state : AgentState) :
    NodeResult × AgentState :=
  match node with
  | .startTurn => (startTurn state.cancelled ctx, state)
  | .drainQueuedInput => (drainQueuedInput ctx, state)
  | .maybeCompactRuntimeContext =>
    let result := Compaction.maybeCompactRuntimeContext serde answers.summary ctx
    ((result.1.map fun _ => .default, result.2), state)
  | .prepareProviderRequest => prepareProviderRequest answers ctx state
  | .applyBeforeProviderRequestHook => (applyBeforeProviderRequestHook answers ctx, state)
  | .providerStream => (streamProvider answers ctx, state)
  | .decideAfterAssistant => (decideAfterAssistant ctx, state)
  | .maybePrepareNextTurn => (maybePrepareNextTurn answers ctx, state)
  | .executeTools => (executeTools answers ctx, state)

def startRun (state : AgentState) (messages : List AgentMessage) : World :=
  ⟨{ state with messages := messages, cancelled := false }, .turnStart 0⟩

/-- `prompt` panics while a run is going. -/
def prompt (text : String) (world : World) : Option World :=
  match world.phase with
  | .idle =>
    some (startRun world.state (world.state.messages ++
      [.userText ("user_" ++ toString world.state.messages.length) text]))
  | _ => none

def isAssistant : AgentMessage → Bool
  | .assistant .. => true
  | _ => false

/-- `run` refuses an empty conversation and one that ends with the assistant. -/
def run (world : World) : Option World :=
  match world.phase, world.state.messages.getLast? with
  | .idle, some last =>
    if isAssistant last then none else some (startRun world.state world.state.messages)
  | _, _ => none

/-- The head of the loop in `run_state` and the first check of the flow. -/
def snapshot (world : World) : Option World :=
  match world.phase with
  | .turnStart turn =>
    let taken := fromState world.state turn
    match agentTurnFlow.begin taken.2.cancelled with
    | .ok cursor => some ⟨taken.2, .between taken.1 cursor⟩
    | .error error => some ⟨taken.2, .finished taken.1 (.error error)⟩
  | _ => none

def enter (world : World) : Option World :=
  match world.phase with
  | .between ctx cursor =>
    match agentTurnFlow.enter runOptions world.state.cancelled cursor with
    | .ok node =>
      let headed := nodeHead node ctx world.state
      some ⟨headed.2, .inside headed.1 cursor⟩
    | .error error => some ⟨world.state, .finished ctx (.error error)⟩
  | _ => none

def finishNode (answers : Answers) (world : World) : Option World :=
  match world.phase with
  | .inside ctx cursor =>
    let ran := runNode serde cursor.current answers ctx world.state
    match agentTurnFlow.leave runOptions cursor ran.1.1 with
    | .inl next => some ⟨ran.2, .between ran.1.2 next⟩
    | .inr outcome => some ⟨ran.2, .finished ran.1.2 outcome⟩
  | _ => none

/-- The end of the loop in `run_state`: another turn after a continue action. -/
def apply (world : World) : Option World :=
  match world.phase with
  | .finished ctx outcome =>
    let state := ctx.applyToState world.state
    match outcome with
    | .error _ => some ⟨state, .idle⟩
    | .ok outcome =>
      if outcome.lastAction = .continueTurn ∨ outcome.lastAction = .continueProvider then
        some ⟨state, .turnStart ctx.turn⟩
      else some ⟨state, .idle⟩
  | _ => none

def withMailbox (world : World) (mailbox : Mailbox AgentMessage) : World :=
  { world with state := { world.state with toMailbox := mailbox } }

def step : Label → World → Option World
  | .prompt text, world => prompt text world
  | .run, world => run world
  | .steer count text, world =>
    some (withMailbox world
      (world.state.toMailbox.steer (.userText ("steer_" ++ toString count) text)))
  | .followUp count text, world =>
    some (withMailbox world
      (world.state.toMailbox.followUp (.userText ("followup_" ++ toString count) text)))
  | .drainSteeringQueue, world => some (withMailbox world world.state.toMailbox.drainSteeringQueue.2)
  | .drainFollowUpQueue, world => some (withMailbox world world.state.toMailbox.drainFollowUpQueue.2)
  | .abort, world => some { world with state := { world.state with cancelled := true } }
  | .snapshot, world => snapshot world
  | .enter, world => enter world
  | .runNode answers, world => finishNode serde answers world
  | .apply, world => apply world

end AgentRun

end PiRust
