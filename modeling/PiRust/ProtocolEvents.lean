import PiRust.ProtocolTypes
import PiRust.Progress

/- `CodingProtocolEventAdapter`: the product events of a session, one by one, as protocol
events. -/
namespace PiRust.Protocol

structure CodingProtocolEventAdapter where
  api : String
  provider : String
  model : String
  messages : List StoredAgentMessage
  currentAssistant : Option AssistantMessage
  currentToolResults : List StoredAgentMessage
  assistantOpen : Bool

def profileKindToProtocol : CodingAgentProductEventProfileKind → String
  | .agent => "agent"
  | .team => "team"

def capabilityRevocationToProtocol : CodingAgentProductEventCapabilityRevocation → String
  | .futureOnly => "future_only"
  | .cancelMatchingOperations => "cancel_matching_operations"

def delegationFoldedBlock (context : CodingAgentDelegationEventContext) (status : String)
    (childOperationId summary : Option String) (isError : Bool) :
    ProtocolDelegationFoldedBlock where
  toolCallId := context.toolCallId
  targetKind := profileKindToProtocol context.targetKind
  targetId := context.targetId
  task := context.task
  status := status
  childOperationId := childOperationId
  summary := summary
  isError := isError

def CodingAgentDelegationEventContext.toProtocol (context : CodingAgentDelegationEventContext)
    (status : String) (childOperationId summary : Option String) (isError : Bool) :
    ProtocolDelegation where
  operationId := context.operationId
  turnId := context.turnId
  toolCallId := context.toolCallId
  requestingProfileId := context.requestingProfileId
  targetKind := profileKindToProtocol context.targetKind
  targetId := context.targetId
  task := context.task
  foldedBlock := delegationFoldedBlock context status childOperationId summary isError

def textContent (text : String) : List ContentBlock :=
  if text.isEmpty then [] else [.text text none]

/-- Adds to the last block where it is a text, and a block of its own otherwise; the index is
that of the block written to. -/
def appendTextContent (content : List ContentBlock) (text : String) : UInt32 × List ContentBlock :=
  match content.getLast? with
  | some (.text existing textSignature) =>
    (UInt32.ofNat (content.length - 1),
      content.dropLast ++ [.text (existing ++ text) textSignature])
  | _ => (UInt32.ofNat content.length, content ++ [.text text none])

def appendThinkingContent (content : List ContentBlock) (text : String) :
    UInt32 × List ContentBlock :=
  match content.getLast? with
  | some (.thinking thinking thinkingSignature redacted) =>
    (UInt32.ofNat (content.length - 1),
      content.dropLast ++ [.thinking (thinking ++ text) thinkingSignature redacted])
  | _ => (UInt32.ofNat content.length, content ++ [.thinking text none none])

def storedAssistant (message : AssistantMessage) : StoredAgentMessage :=
  .assistant message.content message.api (message.provider.getD "") message.model
    message.responseModel message.responseId message.usage message.stopReason
    message.errorMessage

def storedErrorAssistant (api provider model error : String) : StoredAgentMessage :=
  .assistant [] api provider model none none {} .error (some error)

namespace CodingProtocolEventAdapter

def newWithProvider (api provider model : String) : CodingProtocolEventAdapter where
  api := api
  provider := provider
  model := model
  messages := []
  currentAssistant := none
  currentToolResults := []
  assistantOpen := false

variable (adapter : CodingProtocolEventAdapter)

def assistantMessage (text : String) : AssistantMessage :=
  let message := AssistantMessage.empty adapter.api adapter.model
  let message :=
    if adapter.provider.isEmpty then message
    else { message with provider := some adapter.provider }
  if text.isEmpty then message else { message with content := textContent text }

/-- The current message, begun where there is none. -/
def ensureAssistant : AssistantMessage :=
  adapter.currentAssistant.getD (adapter.assistantMessage "")

def appendAssistantText (text : String) : UInt32 × AssistantMessage :=
  let message := adapter.ensureAssistant
  let appended := appendTextContent message.content text
  (appended.1, { message with content := appended.2 })

def appendAssistantThinking (text : String) : UInt32 × AssistantMessage :=
  let message := adapter.ensureAssistant
  let appended := appendThinkingContent message.content text
  (appended.1, { message with content := appended.2 })

/-- Opens the assistant message with `message`, where it is not open yet. -/
def messageStart (message : AssistantMessage) : List ProtocolEvent :=
  if adapter.assistantOpen then [] else [.messageStart (storedAssistant message)]

/-- `push` unless the list has the message. -/
def pushNew (messages : List StoredAgentMessage) (message : StoredAgentMessage) :
    List StoredAgentMessage :=
  if message ∈ messages then messages else messages ++ [message]

def finishCurrentTurn : CodingProtocolEventAdapter × List ProtocolEvent :=
  match adapter.currentAssistant with
  | none => (adapter, [])
  | some message =>
    let stored := storedAssistant message
    ({ adapter with
        currentAssistant := none
        messages := adapter.currentToolResults.foldl pushNew (pushNew adapter.messages stored)
        currentToolResults := []
        assistantOpen := false },
      [.messageEnd stored, .turnEnd stored adapter.currentToolResults])

def pushPromptFailedMessage (error : String) : CodingProtocolEventAdapter × List ProtocolEvent :=
  let message := storedErrorAssistant adapter.api adapter.provider adapter.model error
  let messages := adapter.messages ++ [message]
  ({ adapter with messages := messages },
    [.messageStart message, .messageEnd message, .turnEnd message [], .agentEnd messages])

def pushToolResult (toolCallId toolName text : String) (isError : Bool) :
    CodingProtocolEventAdapter × List ProtocolEvent :=
  let content := textContent text
  let toolResult := StoredAgentMessage.toolResult toolCallId toolName content isError
  ({ adapter with currentToolResults := adapter.currentToolResults ++ [toolResult] },
    [.toolExecutionEnd toolCallId toolName { content := content } isError,
      .messageStart toolResult, .messageEnd toolResult])

def compactionEvents (reason : CompactionReason) (summary firstKeptMessageId : String)
    (tokensBefore : UInt32) : List ProtocolEvent :=
  [.compactionStart reason,
    .compactionEnd reason (some { summary, firstKeptMessageId, tokensBefore }) false false none]

def pushMessage : CodingAgentMessageProductEvent →
    CodingProtocolEventAdapter × List ProtocolEvent
  | .started =>
    if adapter.assistantOpen then (adapter, [])
    else
      let message := adapter.ensureAssistant
      ({ adapter with currentAssistant := some message, assistantOpen := true },
        [.messageStart (storedAssistant message)])
  | .delta text =>
    let (contentIndex, message) := adapter.appendAssistantText text
    ({ adapter with currentAssistant := some message, assistantOpen := true },
      adapter.messageStart message ++
        [.messageUpdate (storedAssistant message) (.textDelta contentIndex text message)])
  | .thinkingDelta text =>
    let (contentIndex, message) := adapter.appendAssistantThinking text
    ({ adapter with currentAssistant := some message, assistantOpen := true },
      adapter.messageStart message ++
        [.messageUpdate (storedAssistant message) (.thinkingDelta contentIndex text message)])
  | .completed finalText =>
    let message := adapter.ensureAssistant
    let message :=
      if message.content.isEmpty && !finalText.isEmpty then
        { message with content := textContent finalText }
      else message
    ({ adapter with currentAssistant := some message, assistantOpen := true },
      adapter.messageStart message)

def pushTool (serde : Serde) : CodingAgentToolProductEvent →
    CodingProtocolEventAdapter × List ProtocolEvent
  | .started toolCallId name argumentsJson =>
    (adapter, [.toolExecutionStart toolCallId name ((serde.fromStr argumentsJson).getD .null)])
  | .updated toolCallId name message =>
    (adapter, [.toolExecutionUpdate toolCallId name { content := textContent message }])
  | .completed toolCallId name summary => adapter.pushToolResult toolCallId name summary false
  | .failed toolCallId name message => adapter.pushToolResult toolCallId name message true

def workflowEvents : CodingAgentWorkflowProductEvent → List ProtocolEvent
  | .operationRecovered operationId recoveryId reason =>
    [.operationRecovered operationId recoveryId reason]
  | .selfHealingEditStarted operationId path replacements =>
    [.selfHealingEditStart operationId path replacements]
  | .selfHealingEditRepairAttempted operationId path attempt replacements diagnostics
      checkOutput =>
      [.selfHealingEditRepairAttempt operationId path attempt replacements diagnostics checkOutput]
  | .selfHealingEditCompleted operationId path attempts firstChangedLine checkOutput =>
    [.selfHealingEditEnd operationId path attempts firstChangedLine checkOutput]
  | .selfHealingEditFailed operationId path error =>
    [.selfHealingEditError operationId path error]
  | _ => []

def delegationEvent : CodingAgentDelegationProductEvent → ProtocolEvent
  | .requested context =>
    .delegationRequested (context.toProtocol "requested" none (some "requested") false)
  | .rejected context reason =>
    .delegationRejected
      (context.toProtocol "rejected" none (some ("rejected: " ++ reason)) true) reason
  | .approved context =>
    .delegationApproved (context.toProtocol "approved" none (some "approved") false)
  | .confirmationRequired context reason =>
    .delegationConfirmationRequired
      (context.toProtocol "confirmation_required" none
        (some ("confirmation required: " ++ reason)) false) reason
  | .started context childOperationId =>
    .delegationStarted
      (context.toProtocol "running" (some childOperationId) (some "running") false)
      childOperationId
  | .completed context childOperationId finalText =>
    .delegationCompleted
      (context.toProtocol "completed" (some childOperationId)
        (some ("completed: " ++ finalText)) false) childOperationId finalText
  | .failed context childOperationId error =>
    .delegationFailed
      (context.toProtocol "failed" (some childOperationId) (some ("failed: " ++ error)) true)
      childOperationId error

def teamEvent : CodingAgentTeamProductEvent → ProtocolEvent
  | .started operationId teamId task => .agentTeamStart operationId teamId task
  | .memberStarted operationId childOperationId teamId profileId task =>
    .agentTeamMemberStart operationId childOperationId teamId profileId task
  | .memberCompleted operationId childOperationId teamId profileId finalText =>
    .agentTeamMemberEnd operationId childOperationId teamId profileId finalText
  | .completed operationId teamId finalText => .agentTeamEnd operationId teamId finalText
  | .failed operationId teamId error => .agentTeamError operationId teamId error
  | .aborted operationId teamId reason => .agentTeamAbort operationId teamId reason

def pushAgent : CodingAgentAgentProductEvent →
    CodingProtocolEventAdapter × List ProtocolEvent
  | .turnStarted =>
    let (adapter, events) := adapter.finishCurrentTurn
    (adapter, events ++ [.turnStart])
  | .providerRequestStarted provider model =>
    ({ adapter with provider := provider, model := model }, [])
  | .invocationStarted operationId childOperationId profileId task =>
    (adapter, [.agentInvocationStart operationId childOperationId profileId task])
  | .invocationCompleted operationId childOperationId profileId finalText =>
    (adapter, [.agentInvocationEnd operationId childOperationId profileId finalText])
  | .invocationFailed operationId childOperationId profileId error =>
    (adapter, [.agentInvocationError operationId childOperationId profileId error])
  | .invocationAborted operationId childOperationId profileId reason =>
    (adapter, [.agentInvocationAbort operationId childOperationId profileId reason])

def pushWorkflow : CodingAgentWorkflowProductEvent →
    CodingProtocolEventAdapter × List ProtocolEvent
  | .promptCompleted =>
    let (adapter, events) := adapter.finishCurrentTurn
    (adapter, events ++ [.agentEnd adapter.messages])
  | .promptFailed error => adapter.pushPromptFailedMessage error
  | .promptAborted reason => adapter.pushPromptFailedMessage reason
  | event => (adapter, workflowEvents event)

def pushTyped (serde : Serde) : CodingAgentProductEventKind →
    CodingProtocolEventAdapter × List ProtocolEvent
  | .agent event => adapter.pushAgent event
  | .message event => adapter.pushMessage event
  | .tool event => adapter.pushTool serde event
  | .runtime (.compactionCompleted summary firstKeptMessageId tokensBefore) =>
    (adapter, compactionEvents .threshold summary firstKeptMessageId tokensBefore)
  | .runtime .shutDown => (adapter, [])
  | .session (.compactionCompleted summary firstKeptMessageId tokensBefore) =>
    (adapter, compactionEvents .manual summary firstKeptMessageId tokensBefore)
  | .workflow event => adapter.pushWorkflow event
  | .profile (.defaultChanged profileId) => (adapter, [.defaultAgentProfileChanged profileId])
  | .capability generation revocation =>
    (adapter, [.capabilityChanged generation (capabilityRevocationToProtocol revocation)])
  | .delegation event => (adapter, [delegationEvent event])
  | .team event => (adapter, [teamEvent event])
  | .session .opened | .session .writePending | .session .writeCommitted
  | .session .writeSkipped | .diagnostic => (adapter, [])

/-- Events pushed one after the other, with everything that comes out. -/
def pushAll (serde : Serde) : List CodingAgentProductEventKind → CodingProtocolEventAdapter →
    CodingProtocolEventAdapter × List ProtocolEvent
  | [], adapter => (adapter, [])
  | event :: rest, adapter =>
    let first := adapter.pushTyped serde event
    let more := pushAll serde rest first.1
    (more.1, first.2 ++ more.2)

end CodingProtocolEventAdapter

end PiRust.Protocol
