import PiRust.TransactionRuns
import PiRust.TurnContext

/- `record_agent_event` of `prompt.rs`: what a prompt writes of the events of its agent into the
transaction of its turn. -/
namespace PiRust.SessionTransaction

open SessionLog

def contentBlocksText (content : List ContentBlock) : String :=
  "\n".intercalate (content.map fun
    | .text text _ => text
    | .thinking thinking _ _ => thinking
    | .image _ mimeType => "[image:" ++ mimeType ++ "]"
    | .toolCall _ name _ _ => "[tool_call:" ++ name ++ "]")

def persistedToolResult (content : List ContentBlock) : PersistedToolResult :=
  .text (contentBlocksText content)

def persistedAssistantContentBlocks (content : List ContentBlock) : List PersistedContentBlock :=
  content.filterMap fun
    | .text text _ => some (.text text)
    | .thinking thinking thinkingSignature redacted =>
      some (.thinking thinking thinkingSignature redacted)
    | .image data mimeType => some (.image mimeType data)
    | .toolCall .. => none

/-- What the recorder reads and writes of a `PromptTurnContext`. -/
structure PromptTurnContext where
  transaction : Option TurnTransaction
  assistantSessionMessageId : Option String := none
  completedAssistantSessionMessageId : Option String := none
  toolSessionCallIds : StringMap String := []
  agentObservations : List AgentEvent := []

namespace PromptTurnContext

/-- A call on `transaction_mut_required()?`. -/
def onTransaction {α : Type}
    (act : TurnTransaction → Attempt TurnTransaction α)
    (context : PromptTurnContext) : Attempt PromptTurnContext α :=
  match context.transaction with
  | none => (context, .error (.session "prompt turn has no active transaction"))
  | some transaction =>
    let acted := act transaction
    ({ context with transaction := some acted.1 }, acted.2)

variable (supply : Supply)

def ensureAssistantSessionMessageStarted (context : PromptTurnContext) :
    Attempt PromptTurnContext String :=
  match context.assistantSessionMessageId with
  | some messageId => (context, .ok messageId)
  | none =>
    match context.onTransaction fun transaction => transaction.startAssistantMessage supply with
    | (context, .error error) => (context, .error error)
    | (context, .ok messageId) =>
      ({ context with
          assistantSessionMessageId := some messageId
          completedAssistantSessionMessageId := none }, .ok messageId)

def completeCurrentAssistantMessage (message : AssistantMessage) (context : PromptTurnContext) :
    Attempt PromptTurnContext Unit :=
  match context.ensureAssistantSessionMessageStarted supply with
  | (context, .error error) => (context, .error error)
  | (context, .ok messageId) =>
    match context.onTransaction (TurnTransaction.completeAssistantMessage supply messageId
        (persistedAssistantContentBlocks message.content) message.usage) with
    | (context, .error error) => (context, .error error)
    | (context, .ok ()) =>
      ({ context with
          assistantSessionMessageId := none
          completedAssistantSessionMessageId := some messageId }, .ok ())

/-- The arguments are an empty object where the event has none. -/
def ensureToolSessionCallStarted (agentToolCallId toolName : String) (arguments : Option Value)
    (context : PromptTurnContext) : Attempt PromptTurnContext String :=
  match StringMap.get context.toolSessionCallIds agentToolCallId with
  | some toolCallId => (context, .ok toolCallId)
  | none =>
    match context.onTransaction fun transaction =>
        transaction.recordToolStarted supply toolName (arguments.getD (.object [])) with
    | (context, .error error) => (context, .error error)
    | (context, .ok toolCallId) =>
      ({ context with
          toolSessionCallIds :=
            StringMap.insert context.toolSessionCallIds agentToolCallId toolCallId },
        .ok toolCallId)

def recordToolResultToTransaction (agentToolCallId toolName : String) (result : AgentToolResult)
    (context : PromptTurnContext) : Attempt PromptTurnContext Unit :=
  match context.ensureToolSessionCallStarted supply agentToolCallId toolName none with
  | (context, .error error) => (context, .error error)
  | (context, .ok sessionToolCallId) =>
    if result.isError then
      context.onTransaction (TurnTransaction.recordToolFailed supply sessionToolCallId
        (contentBlocksText result.content))
    else
      context.onTransaction (TurnTransaction.recordToolCompleted supply sessionToolCallId
        (persistedToolResult result.content))

def recordAssistantEventToTransaction (event : AssistantMessageEvent)
    (context : PromptTurnContext) : Attempt PromptTurnContext Unit :=
  match event with
  | .start .. | .textStart .. | .thinkingStart .. | .textDelta .. | .thinkingDelta ..
  | .toolcallStart .. | .toolcallDelta .. | .toolcallEnd .. =>
    match context.ensureAssistantSessionMessageStarted supply with
    | (context, .error error) => (context, .error error)
    | (context, .ok _) => (context, .ok ())
  | .done _ message => context.completeCurrentAssistantMessage supply message
  | .error _ message =>
    context.onTransaction (TurnTransaction.emitDiagnostic supply .error
      (message.errorMessage.getD "assistant stream failed"))
  | .textEnd .. | .thinkingEnd .. => (context, .ok ())

def recordAgentEventToTransaction (event : AgentEvent) (context : PromptTurnContext) :
    Attempt PromptTurnContext Unit :=
  if context.transaction.isNone then (context, .ok ())
  else
    match event with
    | .llmEvent event => context.recordAssistantEventToTransaction supply event
    | .toolCallStart toolCallId toolName arguments =>
      match context.ensureToolSessionCallStarted supply toolCallId toolName (some arguments) with
      | (context, .error error) => (context, .error error)
      | (context, .ok _) => (context, .ok ())
    | .toolCallUpdate toolCallId toolName update =>
      match context.ensureToolSessionCallStarted supply toolCallId toolName none with
      | (context, .error error) => (context, .error error)
      | (context, .ok sessionToolCallId) =>
        context.onTransaction fun transaction =>
          transaction.recordToolUpdated supply sessionToolCallId (contentBlocksText update.content)
    | .toolCallEnd toolCallId toolName result =>
      context.recordToolResultToTransaction supply toolCallId toolName result
    | .agentError error =>
      context.onTransaction (TurnTransaction.emitDiagnostic supply .error error)
    | .agentDone _ | .turnStart _ | .beforeProviderRequest _ | .sessionCompacted .. =>
      (context, .ok ())

def recordAgentEvent (event : AgentEvent) (context : PromptTurnContext) :
    Attempt PromptTurnContext Unit :=
  match context.recordAgentEventToTransaction supply event with
  | (context, .error error) => (context, .error error)
  | (context, .ok ()) =>
    ({ context with agentObservations := context.agentObservations ++ [event] }, .ok ())

def recordAgentEvents (supply : Supply) : List AgentEvent → PromptTurnContext →
    PromptTurnContext × List (Except SessionLog.CodingSessionError Unit)
  | [], context => (context, [])
  | event :: events, context =>
    let recorded := context.recordAgentEvent supply event
    let rest := recordAgentEvents supply events recorded.1
    (rest.1, recorded.2 :: rest.2)

end PromptTurnContext

end PiRust.SessionTransaction
