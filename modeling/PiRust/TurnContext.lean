import PiRust.Convert
import PiRust.Mailbox

/- `agent_turn_flow/context.rs`, `AgentState` and the types of `types.rs` that
they use. -/
namespace PiRust

/-- The actions of the turn flow, `ACTION_DEFAULT` to `ACTION_ABORTED`. -/
inductive Action where
  | default
  | continueTurn
  | continueProvider
  | tools
  | done
  | error
  | aborted
  deriving DecidableEq, Repr

structure AgentToolOutput where
  content : List ContentBlock

structure AgentToolResult where
  content : List ContentBlock
  isError : Bool
  terminate : Bool

def AgentToolResult.fromOutput (output : AgentToolOutput) : AgentToolResult :=
  ⟨output.content, false, false⟩

def AgentToolResult.error (message : String) : AgentToolResult :=
  ⟨[.text message none], true, false⟩

structure PendingToolCall where
  index : Nat
  id : String
  name : String
  arguments : Value

structure ToolCallExecution where
  index : Nat
  toolCallId : String
  toolName : String
  result : AgentToolResult

structure ProviderRequestSnapshot where
  model : Model
  context : Context

inductive AgentEvent where
  | turnStart (turn : UInt32)
  | beforeProviderRequest (request : ProviderRequestSnapshot)
  | llmEvent (event : AssistantMessageEvent)
  | toolCallStart (toolCallId toolName : String) (arguments : Value)
  | toolCallUpdate (toolCallId toolName : String) (update : AgentToolOutput)
  | toolCallEnd (toolCallId toolName : String) (result : AgentToolResult)
  | agentDone (message : AssistantMessage)
  | agentError (error : String)
  | sessionCompacted (summary firstKeptMessageId : String) (tokensBefore : UInt32)

structure AgentConfig where
  model : Model
  systemPrompt : Option String := none
  maxTurns : Option UInt32 := none
  toolExecution : ToolExecutionMode := .parallel
  steeringMode : QueueMode := .all
  followUpMode : QueueMode := .all
  skills : List Skill := []
  compaction : Option CompactionConfig := none

structure RuntimeCompactionState where
  summary : Option String := none
  firstKeptMessageId : Option String := none
  tokensBefore : Option UInt32 := none

/-- What the agent shares with its running turn. `cancelled` is the state of the
cancellation token, which the turn holds too. -/
structure AgentState extends Mailbox AgentMessage where
  tools : List AgentTool
  config : AgentConfig
  cancelled : Bool
  providerRequestOverride : Option Context

structure AgentTurnContext extends Mailbox AgentMessage where
  config : AgentConfig
  tools : List AgentTool
  turn : UInt32 := 0
  providerRequest : Option ProviderRequestSnapshot := none
  assistantMessage : Option AssistantMessage := none
  pendingToolCalls : List PendingToolCall := []
  toolResults : List AgentToolResult := []
  toolResultsAllTerminate : Bool := false
  runtimeCompaction : RuntimeCompactionState := {}
  maxTurnsExceeded : Option UInt32 := none
  shouldFinish : Bool := false
  hasMoreQueuedInput : Bool := false
  events : List AgentEvent := []

namespace AgentTurnContext

/-- `from_state`, with the clearing of the shared queues that `run_state` does
under the same lock. -/
def fromState (state : AgentState) (turn : UInt32) : AgentTurnContext × AgentState :=
  let split := state.toMailbox.snapshot
  ({ toMailbox := split.1, config := state.config, tools := state.tools, turn := turn },
    { state with toMailbox := split.2 })

def emit (event : AgentEvent) (ctx : AgentTurnContext) : AgentTurnContext :=
  { ctx with events := ctx.events ++ [event] }

def emitAll (events : List AgentEvent) (ctx : AgentTurnContext) : AgentTurnContext :=
  { ctx with events := ctx.events ++ events }

def syncLiveQueues (ctx : AgentTurnContext) (state : AgentState) : AgentTurnContext × AgentState :=
  let synced := ctx.toMailbox.syncLiveQueues state.toMailbox
  ({ ctx with toMailbox := synced.1 }, { state with toMailbox := synced.2 })

/-- `take_provider_request_override` with a live state attached. -/
def takeProviderRequestOverride (state : AgentState) : Option Context × AgentState :=
  (state.providerRequestOverride, { state with providerRequestOverride := none })

def applyToState (ctx : AgentTurnContext) (state : AgentState) : AgentState :=
  { state with
    toMailbox := ctx.toMailbox.applyToState state.toMailbox
    config := { state.config with model := ctx.config.model } }

end AgentTurnContext

end PiRust
