import Mathlib.Data.List.Sort
import PiRust.RuntimeCompaction

/- `agent_turn_flow/nodes.rs` and `loop_runtime/tools.rs`. A node returns its
action or its error message, and the context it leaves behind. -/
namespace PiRust

structure BeforeProviderRequestResult where
  context : Option Context

structure BeforeToolCallResult where
  block : Bool
  reason : Option String

structure AfterToolCallResult where
  content : Option (List ContentBlock)
  isError : Option Bool
  terminate : Option Bool

structure AgentLoopTurnUpdate where
  messages : Option (List AgentMessage)
  model : Option Model

/-- What a node is told by what it awaits: the hooks (none where no hook is
configured), the provider and the tools. Tool calls that run in parallel finish in
any order. -/
structure Answers where
  transformContext : Option (Except String (List AgentMessage)) := none
  convertToLlm : Option (Except String (List Message)) := none
  beforeProviderRequest : Option (Except String (Option BeforeProviderRequestResult)) := none
  summary : Except String String := .ok ""
  llmEvents : List AssistantMessageEvent := []
  beforeToolCall : PendingToolCall → Option (Except String (Option BeforeToolCallResult)) :=
    fun _ => none
  toolUpdates : PendingToolCall → List AgentToolOutput := fun _ => []
  toolOutput : PendingToolCall → Except String AgentToolOutput := fun _ => .ok ⟨[]⟩
  afterToolCall : PendingToolCall → Option (Except String (Option AfterToolCallResult)) :=
    fun _ => none
  finishOrder : List ToolCallExecution → List ToolCallExecution := id
  finishOrder_perm : ∀ executions, (finishOrder executions).Perm executions := by
    intro executions
    exact List.Perm.refl executions
  shouldStopAfterTurn : Option (Except String Bool) := none
  prepareNextTurn : Option (Except String (Option AgentLoopTurnUpdate)) := none

abbrev NodeResult := Except String Action × AgentTurnContext

namespace AgentTurn

open AgentTurnContext

def startTurn (cancelled : Bool) (ctx : AgentTurnContext) : NodeResult :=
  if cancelled then
    (.ok .aborted, { ctx with shouldFinish := true }.emit (.agentError "aborted"))
  else
    let ctx := { ctx with turn := ctx.turn + 1 }
    match ctx.config.maxTurns.filter (· < ctx.turn) with
    | some maxTurns =>
      (.ok .error, { ctx with maxTurnsExceeded := some maxTurns, shouldFinish := true }.emit
        (.agentError ("max turns (" ++ toString maxTurns ++ ") exceeded")))
    | none => (.ok .default, ctx.emit (.turnStart ctx.turn))

variable (answers : Answers) (ctx : AgentTurnContext) (call : PendingToolCall)

def queuedInput : Bool :=
  !ctx.steeringQueue.isEmpty || !ctx.followUpQueue.isEmpty

/-- `drain_queued_input` after its call of `sync_live_queues`. -/
def drainQueuedInput : NodeResult :=
  let ctx := { ctx with toMailbox := ctx.toMailbox.deliverSteering ctx.config.steeringMode }
  (.ok .default, { ctx with hasMoreQueuedInput := queuedInput ctx })

def contextFor (transformed : Option (List AgentMessage)) (llmMessages : Option (List Message)) :
    Context :=
  let messagesForContext := transformed.getD ctx.messages
  let assemble := fun messages =>
    assembleContext ctx.config.systemPrompt messagesForContext messages ctx.tools ctx.config.skills
  match llmMessages with
  | some messages => assemble messages
  | none =>
    if transformed.isSome then assemble (defaultConvertToLlm messagesForContext)
    else convertToContext ctx.config.systemPrompt ctx.messages ctx.tools ctx.config.skills

def prepareProviderRequest (state : AgentState) : NodeResult × AgentState :=
  match answers.transformContext, answers.convertToLlm with
  | some (.error error), _ => ((.ok .error, ctx.emit (.agentError error)), state)
  | _, some (.error error) => ((.ok .error, ctx.emit (.agentError error)), state)
  | transformed, converted =>
    let context := contextFor ctx (transformed.bind Except.toOption)
      (converted.bind Except.toOption)
    let taken := takeProviderRequestOverride state
    let request : ProviderRequestSnapshot := ⟨ctx.config.model, taken.1.getD context⟩
    ((.ok .default, { ctx with providerRequest := some request }), taken.2)

def applyBeforeProviderRequestHook : NodeResult :=
  match ctx.providerRequest with
  | none => (.ok .error, ctx.emit (.agentError "provider request is not prepared"))
  | some request =>
    match answers.beforeProviderRequest with
    | some (.error error) => (.ok .error, ctx.emit (.agentError error))
    | outcome =>
      let update := (outcome.bind Except.toOption).join
      let context := (update.bind BeforeProviderRequestResult.context).getD request.context
      let request := { request with context := context }
      (.ok .default, { ctx with providerRequest := some request }.emit
        (.beforeProviderRequest request))

/-- The events up to the first terminal one, the message of a `Done` and the text
of an `Error`. -/
def readStream : List AssistantMessageEvent →
    List AssistantMessageEvent × Option AssistantMessage × Option String
  | [] => ([], none, none)
  | .done reason message :: _ => ([.done reason message], some message, none)
  | .error reason message :: _ =>
    ([.error reason message], none, some (message.errorMessage.getD "LLM error"))
  | event :: rest =>
    let read := readStream rest
    (event :: read.1, read.2)

def streamProvider : NodeResult :=
  match ctx.providerRequest with
  | none => (.error "provider request is not prepared", ctx)
  | some _ =>
    let read := readStream answers.llmEvents
    let ctx := ctx.emitAll (read.1.map .llmEvent)
    match read.2.1 with
    | some message => (.ok .default, { ctx with assistantMessage := some message })
    | none =>
      (.ok .error,
        ctx.emit (.agentError (read.2.2.getD "LLM stream ended without Done event")))

def extractToolCalls (assistant : AssistantMessage) : List PendingToolCall :=
  assistant.content.zipIdx.filterMap fun
    | (.toolCall id name arguments _, index) => some ⟨index, id, name, arguments⟩
    | _ => none

def assistantEntry (assistant : AssistantMessage) : AgentMessage :=
  .assistant (assistant.responseId.getD "") assistant

def decideAfterAssistant : NodeResult :=
  match ctx.assistantMessage with
  | none => (.error "assistant message is not available", ctx)
  | some assistant =>
    let ctx := { ctx with messages := ctx.messages ++ [assistantEntry assistant] }
    match assistant.stopReason with
    | .stop | .length => (.ok .continueTurn, ctx)
    | .error =>
      (.ok .error, { ctx with shouldFinish := true }.emit
        (.agentError (assistant.errorMessage.getD "LLM error")))
    | .aborted =>
      (.ok .aborted, { ctx with shouldFinish := true }.emit (.agentError "aborted"))
    | .toolUse => (.ok .tools, { ctx with pendingToolCalls := extractToolCalls assistant })

/-- `should_stop_after_turn`; no value after a failed hook. -/
def shouldStopAfterTurn (answers : Answers) (ctx : AgentTurnContext) :
    Option Bool × AgentTurnContext :=
  match answers.shouldStopAfterTurn with
  | none => (some false, ctx)
  | some (.ok shouldStop) => (some shouldStop, ctx)
  | some (.error error) =>
    (none, { ctx with shouldFinish := true }.emit (.agentError error))

/-- `prepare_next_turn_or_error`: the action that ends the node early, if any. -/
def prepareNextTurnOrError : Option Action × AgentTurnContext :=
  match answers.prepareNextTurn with
  | none | some (.ok none) => (none, ctx)
  | some (.ok (some update)) =>
    (none, { ctx with
      messages := update.messages.getD ctx.messages
      config := { ctx.config with model := update.model.getD ctx.config.model } })
  | some (.error error) =>
    (some .error, { ctx with shouldFinish := true }.emit (.agentError error))

def finishTurn (assistant : AssistantMessage) (ctx : AgentTurnContext) : NodeResult :=
  (.ok .done, { ctx with shouldFinish := true, hasMoreQueuedInput := false }.emit
    (.agentDone assistant))

/-- `maybe_prepare_next_turn` after its call of `sync_live_queues`. -/
def maybePrepareNextTurn : NodeResult :=
  match ctx.assistantMessage with
  | none => (.error "assistant message is not available", ctx)
  | some assistant =>
    match assistant.stopReason with
    | .stop | .length =>
      match shouldStopAfterTurn answers ctx with
      | (none, ctx) => (.ok .error, ctx)
      | (some true, ctx) => finishTurn assistant ctx
      | (some false, ctx) =>
        match prepareNextTurnOrError answers ctx with
        | (some action, ctx) => (.ok action, ctx)
        | (none, ctx) =>
          if queuedInput ctx then
            (.ok .continueTurn, { ctx with
              toMailbox := ctx.toMailbox.deliverFollowUps ctx.config.followUpMode
              hasMoreQueuedInput := true
              shouldFinish := false })
          else finishTurn assistant ctx
    | .toolUse =>
      match shouldStopAfterTurn answers ctx with
      | (none, ctx) => (.ok .error, ctx)
      | (some true, ctx) => finishTurn assistant ctx
      | (some false, ctx) =>
        if ctx.toolResultsAllTerminate then finishTurn assistant ctx
        else
          match prepareNextTurnOrError answers ctx with
          | (some action, ctx) => (.ok action, ctx)
          | (none, ctx) =>
            (.ok .continueTurn,
              { ctx with shouldFinish := false, hasMoreQueuedInput := queuedInput ctx })
    | .error => (.ok .error, { ctx with shouldFinish := true })
    | .aborted => (.ok .aborted, { ctx with shouldFinish := true })

def findTool (tools : List AgentTool) (name : String) : Option AgentTool :=
  tools.find? fun tool => tool.name = name

def shouldUseSequentialTools (globalMode : ToolExecutionMode) (calls : List PendingToolCall)
    (tools : List AgentTool) : Bool :=
  globalMode = .sequential ||
    calls.any fun call => (findTool tools call.name).bind AgentTool.executionMode = some .sequential

def beforeToolResult : Option AgentToolResult :=
  match answers.beforeToolCall call, ctx.assistantMessage with
  | some outcome, some _ =>
    match outcome with
    | .ok (some result) =>
      if result.block then some (.error (result.reason.getD "blocked")) else none
    | .ok none => none
    | .error error => some (.error error)
  | _, _ => none

def executeTool (tool : Option AgentTool) (call : PendingToolCall) : AgentToolResult :=
  match tool with
  | some _ =>
    match answers.toolOutput call with
    | .ok output => .fromOutput output
    | .error error => .error error
  | none => .error ("unknown tool: " ++ call.name)

def applyAfterToolHook (result : AgentToolResult) : AgentToolResult :=
  match answers.afterToolCall call, ctx.assistantMessage with
  | some outcome, some _ =>
    match outcome with
    | .ok (some after) =>
      ⟨after.content.getD result.content, after.isError.getD result.isError,
        after.terminate.getD result.terminate⟩
    | .ok none => result
    | .error error => .error error
  | _, _ => result

/-- `execute_tool_with_updates`: its result, and what it emits. -/
def executeToolWithUpdates (tool : Option AgentTool) : AgentToolResult × List AgentEvent :=
  match tool with
  | some _ =>
    (match answers.toolOutput call with
      | .ok output => .fromOutput output
      | .error error => .error error,
      (answers.toolUpdates call).map (.toolCallUpdate call.id call.name))
  | none => (.error ("unknown tool: " ++ call.name), [])

/-- What a call comes to, in the one way and in the other. -/
def executeCall : ToolCallExecution where
  index := call.index
  toolCallId := call.id
  toolName := call.name
  result :=
    match beforeToolResult answers ctx call with
    | some result => result
    | none =>
      applyAfterToolHook answers ctx call (executeTool answers (findTool ctx.tools call.name) call)

def startEvent : AgentEvent :=
  .toolCallStart call.id call.name call.arguments

def endEvent (execution : ToolCallExecution) : AgentEvent :=
  .toolCallEnd execution.toolCallId execution.toolName execution.result

def updateEvents : List AgentEvent :=
  if (beforeToolResult answers ctx call).isNone && (findTool ctx.tools call.name).isSome then
    (answers.toolUpdates call).map (.toolCallUpdate call.id call.name)
  else []

/-- `sort_by_key(|execution| execution.index)`, a stable sort. -/
def sortByIndex (executions : List ToolCallExecution) : List ToolCallExecution :=
  executions.insertionSort fun first second => first.index ≤ second.index

def resultMessage (execution : ToolCallExecution) : AgentMessage :=
  .toolResult execution.toolCallId execution.toolCallId execution.toolName
    execution.result.isError execution.result.content

def appendToolResultMessages (messages : List AgentMessage)
    (executions : List ToolCallExecution) : List AgentMessage :=
  messages ++ (sortByIndex executions).map resultMessage

/-- One call of the sequential loop, between its start and its end. -/
def executeSequential : ToolCallExecution × List AgentEvent :=
  let ran :=
    match beforeToolResult answers ctx call with
    | some result => (result, [])
    | none =>
      let ran := executeToolWithUpdates answers call (findTool ctx.tools call.name)
      (applyAfterToolHook answers ctx call ran.1, ran.2)
  (⟨call.index, call.id, call.name, ran.1⟩, ran.2)

/-- The executions by index, and the ends as they come. -/
def collectParallelToolExecutions
    (prepared : List (PendingToolCall × Option AgentTool × Option AgentToolResult)) :
    List ToolCallExecution × List AgentEvent :=
  let finished := answers.finishOrder (prepared.map fun (call, tool, blocked) =>
    ⟨call.index, call.id, call.name,
      match blocked with
      | some result => result
      | none => applyAfterToolHook answers ctx call (executeTool answers tool call)⟩)
  (sortByIndex finished, finished.map endEvent)

def executeTools : NodeResult :=
  let pending := ctx.pendingToolCalls
  let ctx := { ctx with toolResultsAllTerminate := false, pendingToolCalls := [] }
  if pending.isEmpty then (.ok .continueProvider, ctx)
  else
    let ran :=
      if shouldUseSequentialTools ctx.config.toolExecution pending ctx.tools then
        (pending.map fun call => (executeSequential answers ctx call).1,
          pending.flatMap fun call =>
            let ran := executeSequential answers ctx call
            startEvent call :: ran.2 ++ [endEvent ran.1])
      else
        let collected := collectParallelToolExecutions answers ctx (pending.map fun call =>
          (call, findTool ctx.tools call.name, beforeToolResult answers ctx call))
        (collected.1, pending.map startEvent ++ collected.2)
    let executions := ran.1
    let ctx := ctx.emitAll ran.2
    (.ok .continueTurn, { ctx with
      toolResults := ctx.toolResults ++ executions.map ToolCallExecution.result
      messages := appendToolResultMessages ctx.messages executions
      toolResultsAllTerminate :=
        !executions.isEmpty && executions.all fun execution => execution.result.terminate })

/-- Both ways agree on what a call comes to. -/
@[simp] theorem executeSequential_eq : executeSequential answers ctx call =
    (executeCall answers ctx call, updateEvents answers ctx call) := by
  unfold executeSequential executeCall updateEvents
  cases beforeToolResult answers ctx call with
  | some result => rfl
  | none => cases findTool ctx.tools call.name <;> rfl

@[simp] theorem collectParallelToolExecutions_eq (pending : List PendingToolCall) :
    collectParallelToolExecutions answers ctx (pending.map fun call =>
        (call, findTool ctx.tools call.name, beforeToolResult answers ctx call)) =
      let finished := answers.finishOrder (pending.map (executeCall answers ctx))
      (sortByIndex finished, finished.map endEvent) := by
  simp only [collectParallelToolExecutions, List.map_map]
  rfl

end AgentTurn

end PiRust
