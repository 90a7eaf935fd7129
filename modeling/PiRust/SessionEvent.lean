import PiRust.AiTypes

/- `session_log/event.rs`. Payloads that no modelled function reads are left out. -/
namespace PiRust.SessionLog

inductive ProfileKind where
  | agent
  | team
  deriving DecidableEq, Repr

inductive OperationKind where
  | prompt
  | manualCompaction
  | branchSummary
  | exportSession
  | pluginLoad
  | selfHealingEdit
  | other (name : String)
  deriving DecidableEq, Repr

inductive PersistedDelegationStatus where
  | requested
  | running
  | completed
  | failed
  | rejected
  | confirmationRequired
  deriving DecidableEq, Repr

inductive PersistedContentBlock where
  | text (text : String)
  | thinking (thinking : String) (thinkingSignature : Option String) (redacted : Option Bool)
  | image (mimeType data : String)
  deriving DecidableEq, Repr

inductive PersistedToolResult where
  | text (text : String)
  | json (value : Value)
  | error (message : String)

structure PersistedPluginDiagnostic where
  pluginId : Option String
  message : String
  deriving DecidableEq, Repr

inductive DiagnosticLevel where
  | debug
  | info
  | warn
  | error
  deriving DecidableEq, Repr

inductive SessionEventData where
  | sessionCreated (cwd : Option String)
  | sessionCloned
  | sessionForked
  | sessionCompactionStarted
  | sessionCompactionCompleted (summary firstKeptMessageId : String) (tokensBefore : UInt32)
  | branchSummaryCreated (summary sourceLeafId targetLeafId : String)
  | pluginLoadCompleted (diagnostics : List PersistedPluginDiagnostic)
  | delegationConfirmationRequested (sourceOperationId turnId toolCallId requestingProfileId : String)
      (targetKind : ProfileKind) (targetId task reason : String)
  | delegationConfirmationApproved (sourceOperationId toolCallId : String)
  | delegationConfirmationRejected (sourceOperationId toolCallId : String)
  | delegationFoldedUpdated (toolCallId requestingProfileId : String) (targetKind : ProfileKind)
      (targetId task : String) (status : PersistedDelegationStatus)
      (childOperationId summary : Option String)
  | operationStarted (operation : OperationKind)
  | operationCommitted (newLeafId : Option String)
  | operationAborted (reason : String)
  | operationFailed (errorCode message : String)
  | operationRecovered (reason recoveryId : String)
  | turnStarted
  | turnInputRecorded (content : List PersistedContentBlock)
  | messageStarted (messageId : String)
  | messageCompleted (messageId : String) (content : List PersistedContentBlock) (usage : Usage)
  | messageCancelled (messageId : String)
  | toolCallStarted (toolCallId name : String) (arguments : Value)
  | toolCallUpdated (toolCallId message : String)
  | toolCallCompleted (toolCallId : String) (result : PersistedToolResult)
  | toolCallFailed (toolCallId message : String)
  | toolCallCancelled (toolCallId reason : String)
  | selfHealingEditStarted
  | selfHealingEditRepairAttempted
  | selfHealingEditCompleted
  | diagnosticEmitted (level : DiagnosticLevel) (message : String)
  | metadataUpdated
  | activeLeafChanged (leafId : String)

structure SessionEventEnvelope where
  schema : String
  version : UInt32
  sessionId : String
  sessionSequence : Option UInt64
  eventId : String
  operationId : Option String
  turnId : Option String
  createdAt : String
  data : SessionEventData
  /-- The fields and the payloads that nothing modelled here reads. -/
  unread : String

def SessionEventData.isFinalMarker : SessionEventData → Bool
  | .operationCommitted _ | .operationAborted _ | .operationFailed _ _
  | .operationRecovered _ _ => true
  | _ => false

def isDelegationConfirmationEvent : SessionEventData → Bool
  | .delegationConfirmationRequested .. | .delegationConfirmationApproved ..
  | .delegationConfirmationRejected .. => true
  | _ => false

end PiRust.SessionLog
