import PiRust.AiTypes

/- The product events of a session and the protocol events that clients read. -/
namespace PiRust

mutual

def Value.same : Value → Value → Bool
  | .null, .null => true
  | .bool a, .bool b => a == b
  | .number a, .number b => a == b
  | .string a, .string b => a == b
  | .array as, .array bs => Value.sameItems as bs
  | .object as, .object bs => Value.sameFields as bs
  | _, _ => false

def Value.sameItems : List Value → List Value → Bool
  | [], [] => true
  | a :: as, b :: bs => a.same b && Value.sameItems as bs
  | _, _ => false

def Value.sameField : String × Value → String × Value → Bool
  | (key, a), (other, b) => key == other && a.same b

def Value.sameFields : List (String × Value) → List (String × Value) → Bool
  | [], [] => true
  | a :: as, b :: bs => Value.sameField a b && Value.sameFields as bs
  | _, _ => false

end

mutual

theorem Value.same_iff : (a b : Value) → (a.same b = true ↔ a = b)
  | .null, b => by cases b <;> simp [Value.same]
  | .bool _, b => by cases b <;> simp [Value.same]
  | .number _, b => by cases b <;> simp [Value.same]
  | .string _, b => by cases b <;> simp [Value.same]
  | .array as, .array bs => by simp [Value.same, Value.sameItems_iff as bs]
  | .array as, .null | .array as, .bool _ | .array as, .number _ | .array as, .string _
  | .array as, .object _ => by simp [Value.same]
  | .object as, .object bs => by simp [Value.same, Value.sameFields_iff as bs]
  | .object as, .null | .object as, .bool _ | .object as, .number _ | .object as, .string _
  | .object as, .array _ => by simp [Value.same]

theorem Value.sameItems_iff : (as bs : List Value) → (Value.sameItems as bs = true ↔ as = bs)
  | [], bs => by cases bs <;> simp [Value.sameItems]
  | a :: as, [] => by simp [Value.sameItems]
  | a :: as, b :: bs => by
      simp [Value.sameItems, Value.same_iff a b, Value.sameItems_iff as bs]

theorem Value.sameField_iff :
    (a b : String × Value) → (Value.sameField a b = true ↔ a = b)
  | (key, a), (other, b) => by simp [Value.sameField, Value.same_iff a b]

theorem Value.sameFields_iff :
    (as bs : List (String × Value)) → (Value.sameFields as bs = true ↔ as = bs)
  | [], bs => by cases bs <;> simp [Value.sameFields]
  | a :: as, [] => by simp [Value.sameFields]
  | a :: as, b :: bs => by
      simp [Value.sameFields, Value.sameField_iff a b, Value.sameFields_iff as bs]

end

instance : DecidableEq Value := fun a b => decidable_of_iff (a.same b = true) (a.same_iff b)

deriving instance DecidableEq for ContentBlock

namespace Protocol

/-- The two kinds of stored messages that the adapter makes. Their timestamps are all 0. -/
inductive StoredAgentMessage where
  | assistant (content : List ContentBlock) (api provider model : String)
      (responseModel responseId : Option String) (usage : Usage) (stopReason : StopReason)
      (errorMessage : Option String)
  | toolResult (toolCallId toolName : String) (content : List ContentBlock) (isError : Bool)
  deriving DecidableEq

inductive CodingAgentProductEventProfileKind where
  | agent
  | team
  deriving DecidableEq

inductive CodingAgentProductEventCapabilityRevocation where
  | futureOnly
  | cancelMatchingOperations
  deriving DecidableEq

inductive CodingAgentSessionProductEvent where
  | opened
  | writePending
  | writeCommitted
  | writeSkipped
  | compactionCompleted (summary firstKeptMessageId : String) (tokensBefore : UInt32)

inductive CodingAgentProfileProductEvent where
  | defaultChanged (profileId : String)

inductive CodingAgentAgentProductEvent where
  | invocationStarted (operationId childOperationId profileId task : String)
  | invocationCompleted (operationId childOperationId profileId finalText : String)
  | invocationFailed (operationId childOperationId profileId error : String)
  | invocationAborted (operationId childOperationId profileId reason : String)
  | turnStarted
  | providerRequestStarted (provider model : String)

inductive CodingAgentTeamProductEvent where
  | started (operationId teamId task : String)
  | memberStarted (operationId childOperationId teamId profileId task : String)
  | memberCompleted (operationId childOperationId teamId profileId finalText : String)
  | completed (operationId teamId finalText : String)
  | failed (operationId teamId error : String)
  | aborted (operationId teamId reason : String)

inductive CodingAgentMessageProductEvent where
  | started
  | delta (text : String)
  | thinkingDelta (text : String)
  | completed (finalText : String)

inductive CodingAgentToolProductEvent where
  | started (toolCallId name argumentsJson : String)
  | updated (toolCallId name message : String)
  | completed (toolCallId name summary : String)
  | failed (toolCallId name message : String)

inductive CodingAgentRuntimeProductEvent where
  | compactionCompleted (summary firstKeptMessageId : String) (tokensBefore : UInt32)
  | shutDown

structure CodingAgentDelegationEventContext where
  operationId : String
  turnId : String
  toolCallId : String
  requestingProfileId : String
  targetKind : CodingAgentProductEventProfileKind
  targetId : String
  task : String

inductive CodingAgentDelegationProductEvent where
  | requested (context : CodingAgentDelegationEventContext)
  | rejected (context : CodingAgentDelegationEventContext) (reason : String)
  | approved (context : CodingAgentDelegationEventContext)
  | confirmationRequired (context : CodingAgentDelegationEventContext) (reason : String)
  | started (context : CodingAgentDelegationEventContext) (childOperationId : String)
  | completed (context : CodingAgentDelegationEventContext) (childOperationId finalText : String)
  | failed (context : CodingAgentDelegationEventContext) (childOperationId error : String)

structure Replacement where
  oldText : String
  newText : String

structure CheckOutput where
  command : String
  stdout : String
  stderr : String
  exitCode : Int

inductive CodingAgentWorkflowProductEvent where
  | selfHealingEditStarted (operationId path : String) (replacements : Nat)
  | selfHealingEditRepairAttempted (operationId path : String) (attempt : Nat)
      (replacements : List Replacement) (diagnostics : List String)
      (checkOutput : Option CheckOutput)
  | selfHealingEditCompleted (operationId path : String) (attempts : Nat)
      (firstChangedLine : Option Nat) (checkOutput : Option CheckOutput)
  | selfHealingEditFailed (operationId path error : String)
  | promptStarted
  | promptCompleted
  | promptFailed (error : String)
  | promptAborted (reason : String)
  | operationRecovered (operationId recoveryId reason : String)

inductive CodingAgentProductEventKind where
  | session (event : CodingAgentSessionProductEvent)
  | profile (event : CodingAgentProfileProductEvent)
  | agent (event : CodingAgentAgentProductEvent)
  | team (event : CodingAgentTeamProductEvent)
  | message (event : CodingAgentMessageProductEvent)
  | tool (event : CodingAgentToolProductEvent)
  | runtime (event : CodingAgentRuntimeProductEvent)
  | delegation (event : CodingAgentDelegationProductEvent)
  | workflow (event : CodingAgentWorkflowProductEvent)
  | diagnostic
  | capability (generation : UInt64) (revocation : CodingAgentProductEventCapabilityRevocation)

inductive CompactionReason where
  | manual
  | threshold
  | overflow
  deriving DecidableEq

structure CompactionProtocolResult where
  summary : String
  firstKeptMessageId : String
  tokensBefore : UInt32
  details : Option Value := none

structure ToolExecutionResult where
  content : List ContentBlock
  terminate : Bool := false
  details : Option Value := none

structure ProtocolDelegationFoldedBlock where
  toolCallId : String
  targetKind : String
  targetId : String
  task : String
  status : String
  childOperationId : Option String
  summary : Option String
  isError : Bool

structure ProtocolDelegation where
  operationId : String
  turnId : String
  toolCallId : String
  requestingProfileId : String
  targetKind : String
  targetId : String
  task : String
  foldedBlock : ProtocolDelegationFoldedBlock

inductive ProtocolEvent where
  | turnStart
  | messageStart (message : StoredAgentMessage)
  | messageUpdate (message : StoredAgentMessage) (assistantMessageEvent : AssistantMessageEvent)
  | messageEnd (message : StoredAgentMessage)
  | toolExecutionStart (toolCallId toolName : String) (args : Value)
  | toolExecutionEnd (toolCallId toolName : String) (result : ToolExecutionResult)
      (isError : Bool)
  | toolExecutionUpdate (toolCallId toolName : String) (result : ToolExecutionResult)
  | turnEnd (message : StoredAgentMessage) (toolResults : List StoredAgentMessage)
  | compactionStart (reason : CompactionReason)
  | compactionEnd (reason : CompactionReason) (result : Option CompactionProtocolResult)
      (aborted willRetry : Bool) (errorMessage : Option String)
  | agentEnd (messages : List StoredAgentMessage)
  | defaultAgentProfileChanged (profileId : String)
  | selfHealingEditStart (operationId path : String) (replacements : Nat)
  | selfHealingEditRepairAttempt (operationId path : String) (attempt : Nat)
      (edits : List Replacement) (diagnostics : List String) (checkOutput : Option CheckOutput)
  | selfHealingEditEnd (operationId path : String) (attempts : Nat)
      (firstChangedLine : Option Nat) (checkOutput : Option CheckOutput)
  | selfHealingEditError (operationId path error : String)
  | delegationRequested (delegation : ProtocolDelegation)
  | delegationRejected (delegation : ProtocolDelegation) (reason : String)
  | delegationApproved (delegation : ProtocolDelegation)
  | delegationConfirmationRequired (delegation : ProtocolDelegation) (reason : String)
  | delegationStarted (delegation : ProtocolDelegation) (childOperationId : String)
  | delegationCompleted (delegation : ProtocolDelegation) (childOperationId finalText : String)
  | delegationFailed (delegation : ProtocolDelegation) (childOperationId error : String)
  | agentInvocationStart (operationId childOperationId profileId task : String)
  | agentInvocationEnd (operationId childOperationId profileId finalText : String)
  | agentInvocationError (operationId childOperationId profileId error : String)
  | agentInvocationAbort (operationId childOperationId profileId reason : String)
  | agentTeamStart (operationId teamId task : String)
  | agentTeamMemberStart (operationId childOperationId teamId profileId task : String)
  | agentTeamMemberEnd (operationId childOperationId teamId profileId finalText : String)
  | agentTeamEnd (operationId teamId finalText : String)
  | agentTeamError (operationId teamId error : String)
  | agentTeamAbort (operationId teamId reason : String)
  | capabilityChanged (generation : UInt64) (revocation : String)
  | operationRecovered (operationId recoveryId reason : String)

end Protocol

end PiRust
