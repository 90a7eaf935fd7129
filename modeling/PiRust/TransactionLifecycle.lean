import PiRust.Brackets
import PiRust.SessionRecord
import PiRust.Transition

/- `TurnTransaction` of `session_log/transaction.rs` with its open messages and tool calls,
over all of its calls and with appends and manifest writes that may fail. -/
namespace PiRust.SessionTransaction

open SessionLog

inductive TransactionState where
  | opened
  | committed
  | aborted
  | failed
  | inDoubt
  deriving DecidableEq, Repr

def TransactionState.asStr : TransactionState → String
  | .opened => "open"
  | .committed => "committed"
  | .aborted => "aborted"
  | .failed => "failed"
  | .inDoubt => "in_doubt"

/-- What the id generator and the clock hand out, in order, and the order in which a
`HashSet` is drained. -/
structure Supply where
  nextTurnId : String
  nextMessageId : Nat → String
  nextToolCallId : Nat → String
  nextEventId : Nat → String
  nowRfc3339 : Nat → String
  drain : List String → List String
  drain_perm : ∀ items, (drain items).Perm items

/-- Message ids and tool call ids are never handed out twice. -/
structure Supply.Fresh (supply : Supply) : Prop where
  messages : Function.Injective supply.nextMessageId
  toolCalls : Function.Injective supply.nextToolCallId

structure Drawn where
  messageIds : Nat := 0
  toolCallIds : Nat := 0
  eventIds : Nat := 0
  reads : Nat := 0

structure TurnTransaction where
  sessionId : String
  operationId : String
  turnId : String
  pendingEvents : List SessionEventEnvelope
  openMessages : List String
  openToolCalls : List String
  state : TransactionState
  drawn : Drawn
  own : ∀ event ∈ pendingEvents, event.operationId = some operationId ∧
    validateEventForSession event sessionId = .ok ()

/-- A transaction and the session that it writes to. -/
structure Turn where
  transaction : TurnTransaction
  record : SessionRecord

namespace TurnTransaction

/-- The envelope that `push_event` makes. -/
def envelope (supply : Supply) (data : SessionEventData) (transaction : TurnTransaction) :
    SessionEventEnvelope :=
  { (SessionEventEnvelope.new transaction.sessionId
      (supply.nextEventId transaction.drawn.eventIds)
      (supply.nowRfc3339 transaction.drawn.reads) data).withOperationId transaction.operationId with
    turnId := some transaction.turnId }

theorem envelope_valid (supply : Supply) (data : SessionEventData) (transaction : TurnTransaction) :
    validateEventForSession (transaction.envelope supply data) transaction.sessionId = .ok () := by
  simp [validateEventForSession, envelope, SessionEventEnvelope.new,
    SessionEventEnvelope.withOperationId]

def pushEvent (supply : Supply) (data : SessionEventData) (transaction : TurnTransaction) :
    TurnTransaction :=
  { transaction with
    pendingEvents := transaction.pendingEvents ++ [transaction.envelope supply data]
    drawn := { transaction.drawn with
      eventIds := transaction.drawn.eventIds + 1
      reads := transaction.drawn.reads + 1 }
    own := by
      intro event member
      rcases List.mem_append.mp member with old | new
      · exact transaction.own event old
      · rw [List.mem_singleton.mp new]
        exact ⟨rfl, envelope_valid supply data transaction⟩ }

def pushEvents (supply : Supply) (data : List SessionEventData) (transaction : TurnTransaction) :
    TurnTransaction :=
  data.foldl (fun transaction data => transaction.pushEvent supply data) transaction

/-- `begin_admitted_with_runtime_generation`. -/
def beginAdmitted (supply : Supply) (sessionId operationId : String)
    (operation : SessionLog.OperationKind) : TurnTransaction :=
  let transaction : TurnTransaction :=
    { sessionId := sessionId
      operationId := operationId
      turnId := supply.nextTurnId
      pendingEvents := []
      openMessages := []
      openToolCalls := []
      state := .opened
      drawn := {}
      own := List.forall_mem_nil _ }
  (transaction.pushEvent supply (.operationStarted operation)).pushEvent supply .turnStarted

def ensureOpen (transaction : TurnTransaction) : Except SessionLog.CodingSessionError Unit :=
  if transaction.state = .opened then .ok ()
  else .error (.session ("turn transaction is already finalized: " ++ transaction.state.asStr))

def ensureMessageOpen (messageId : String) (transaction : TurnTransaction) :
    Except SessionLog.CodingSessionError Unit :=
  if messageId ∈ transaction.openMessages then .ok ()
  else .error (.session ("assistant message is not open: " ++ messageId))

def ensureToolCallOpen (toolCallId : String) (transaction : TurnTransaction) :
    Except SessionLog.CodingSessionError Unit :=
  if toolCallId ∈ transaction.openToolCalls then .ok ()
  else .error (.session ("tool call is not open: " ++ toolCallId))

variable (supply : Supply)

def recordOpen (data : SessionEventData) (transaction : TurnTransaction) :
    Attempt TurnTransaction Unit :=
  match transaction.ensureOpen with
  | .error error => (transaction, .error error)
  | .ok () => (transaction.pushEvent supply data, .ok ())

def endAssistantMessage (messageId : String) (data : SessionEventData)
    (transaction : TurnTransaction) : Attempt TurnTransaction Unit :=
  match transaction.ensureOpen with
  | .error error => (transaction, .error error)
  | .ok () =>
    match transaction.ensureMessageOpen messageId with
    | .error error => (transaction, .error error)
    | .ok () =>
      ({ transaction with openMessages := transaction.openMessages.erase messageId }.pushEvent
        supply data, .ok ())

def endToolCall (toolCallId : String) (data : SessionEventData) (transaction : TurnTransaction) :
    Attempt TurnTransaction Unit :=
  match transaction.ensureOpen with
  | .error error => (transaction, .error error)
  | .ok () =>
    match transaction.ensureToolCallOpen toolCallId with
    | .error error => (transaction, .error error)
    | .ok () =>
      ({ transaction with openToolCalls := transaction.openToolCalls.erase toolCallId }.pushEvent
        supply data, .ok ())

def recordUserInput (content : List PersistedContentBlock) :=
  recordOpen supply (.turnInputRecorded content)

def startAssistantMessage (transaction : TurnTransaction) : Attempt TurnTransaction String :=
  match transaction.ensureOpen with
  | .error error => (transaction, .error error)
  | .ok () =>
    let messageId := supply.nextMessageId transaction.drawn.messageIds
    ({ transaction with
        openMessages := transaction.openMessages.insert messageId
        drawn := { transaction.drawn with
          messageIds := transaction.drawn.messageIds + 1 } }.pushEvent supply
      (.messageStarted messageId), .ok messageId)

def completeAssistantMessage (messageId : String) (content : List PersistedContentBlock)
    (usage : Usage) :=
  endAssistantMessage supply messageId (.messageCompleted messageId content usage)

def cancelAssistantMessage (messageId : String) :=
  endAssistantMessage supply messageId (.messageCancelled messageId)

def recordToolStarted (name : String) (arguments : Value) (transaction : TurnTransaction) :
    Attempt TurnTransaction String :=
  match transaction.ensureOpen with
  | .error error => (transaction, .error error)
  | .ok () =>
    let toolCallId := supply.nextToolCallId transaction.drawn.toolCallIds
    ({ transaction with
        openToolCalls := transaction.openToolCalls.insert toolCallId
        drawn := { transaction.drawn with
          toolCallIds := transaction.drawn.toolCallIds + 1 } }.pushEvent supply
      (.toolCallStarted toolCallId name arguments), .ok toolCallId)

def recordToolUpdated (toolCallId message : String) (transaction : TurnTransaction) :
    Attempt TurnTransaction Unit :=
  match transaction.ensureOpen with
  | .error error => (transaction, .error error)
  | .ok () =>
    match transaction.ensureToolCallOpen toolCallId with
    | .error error => (transaction, .error error)
    | .ok () => (transaction.pushEvent supply (.toolCallUpdated toolCallId message), .ok ())

def recordToolCompleted (toolCallId : String) (result : PersistedToolResult) :=
  endToolCall supply toolCallId (.toolCallCompleted toolCallId result)

def recordToolFailed (toolCallId message : String) :=
  endToolCall supply toolCallId (.toolCallFailed toolCallId message)

def recordToolCancelled (toolCallId reason : String) :=
  endToolCall supply toolCallId (.toolCallCancelled toolCallId reason)

def emitDiagnostic (level : DiagnosticLevel) (message : String) :=
  recordOpen supply (.diagnosticEmitted level message)

def recordSessionCompactionStarted :=
  recordOpen supply .sessionCompactionStarted

def recordSessionCompactionCompleted (summary firstKeptMessageId : String) (tokensBefore : UInt32)
    :=
  recordOpen supply (.sessionCompactionCompleted summary firstKeptMessageId tokensBefore)

def recordBranchSummaryCreated (summary sourceLeafId targetLeafId : String) :=
  recordOpen supply (.branchSummaryCreated summary sourceLeafId targetLeafId)

def recordPluginLoadCompleted (diagnostics : List PersistedPluginDiagnostic) :=
  recordOpen supply (.pluginLoadCompleted diagnostics)

def recordDelegationFoldedUpdate (toolCallId requestingProfileId : String)
    (targetKind : ProfileKind) (targetId task : String) (status : PersistedDelegationStatus)
    (childOperationId summary : Option String) :=
  recordOpen supply (.delegationFoldedUpdated toolCallId requestingProfileId targetKind targetId
    task status childOperationId summary)

def recordSelfHealingEditStarted := recordOpen supply .selfHealingEditStarted

def recordSelfHealingEditRepairAttempted :=
  recordOpen supply .selfHealingEditRepairAttempted

def recordSelfHealingEditCompleted :=
  recordOpen supply .selfHealingEditCompleted

def cancelOpenLifecycleEvents (reason : String) (transaction : TurnTransaction) : TurnTransaction :=
  let messages := supply.drain transaction.openMessages
  let transaction := { transaction with openMessages := [] }.pushEvents supply
    (messages.map fun messageId => .messageCancelled messageId)
  let toolCalls := supply.drain transaction.openToolCalls
  { transaction with openToolCalls := [] }.pushEvents supply
    (toolCalls.map fun toolCallId => .toolCallCancelled toolCallId reason)

end TurnTransaction

/-- `append_events`, where a write may fail before any byte of it is in the log. -/
def appendUnless (failure : Option String) (sessionId : String)
    (events : List SessionEventEnvelope) (record : SessionRecord) :
    SessionRecord × Except String Unit :=
  match failure with
  | some error => (record, .error error)
  | none => record.appendEvents sessionId events

namespace Turn

def flushPending (failure : Option String) (turn : Turn) : Attempt Turn Unit :=
  let appended := appendUnless failure turn.transaction.sessionId turn.transaction.pendingEvents
    turn.record
  match appended.2 with
  | .error error => (⟨turn.transaction, appended.1⟩, .error (.session error))
  | .ok () =>
    (⟨{ turn.transaction with
        pendingEvents := []
        own := List.forall_mem_nil _ }, appended.1⟩, .ok ())

/-- The end of `abort` and of `fail`. -/
def finish (state : TransactionState) (failure : Option String) (turn : Turn) : Attempt Turn Unit :=
  let flushed := turn.flushPending failure
  match flushed.2 with
  | .error error => (flushed.1, .error error)
  | .ok () => (⟨{ flushed.1.transaction with state := state }, flushed.1.record⟩, .ok ())

/-- The flush of `commit`, and the manifest write for a new leaf. -/
def finishCommit (supply : Supply) (newLeafId appendFailure manifestFailure : Option String)
    (turn : Turn) : Attempt Turn Unit :=
  let flushed := turn.flushPending appendFailure
  match flushed.2 with
  | .error error => (flushed.1, .error error)
  | .ok () =>
    let transaction := flushed.1.transaction
    match newLeafId with
    | none => (⟨{ transaction with state := .committed }, flushed.1.record⟩, .ok ())
    | some leafId =>
      let updated := flushed.1.record.updateManifest manifestFailure
        { updatedAt := some (supply.nowRfc3339 transaction.drawn.reads)
          activeLeafId := some (some leafId) }
      let read := { transaction.drawn with reads := transaction.drawn.reads + 1 }
      match updated.2 with
      | .error error =>
        (⟨{ transaction with drawn := read, state := .inDoubt }, updated.1⟩,
          .error (.partialCommit transaction.operationId error))
      | .ok () =>
        (⟨{ transaction with drawn := read, state := .committed }, updated.1⟩, .ok ())

def commit (supply : Supply) (newLeafId appendFailure manifestFailure : Option String)
    (turn : Turn) : Attempt Turn Unit :=
  match turn.transaction.ensureOpen with
  | .error error => (turn, .error error)
  | .ok () =>
    let transaction := turn.transaction.pushEvent supply (.operationCommitted newLeafId)
    Turn.finishCommit supply newLeafId appendFailure manifestFailure ⟨transaction, turn.record⟩

def abort (supply : Supply) (reason : String) (appendFailure : Option String) (turn : Turn) :
    Attempt Turn Unit :=
  match turn.transaction.ensureOpen with
  | .error error => (turn, .error error)
  | .ok () =>
    let transaction := (turn.transaction.cancelOpenLifecycleEvents supply reason).pushEvent supply
      (.operationAborted reason)
    Turn.finish .aborted appendFailure ⟨transaction, turn.record⟩

def fail (supply : Supply) (errorCode message : String) (appendFailure : Option String)
    (turn : Turn) : Attempt Turn Unit :=
  match turn.transaction.ensureOpen with
  | .error error => (turn, .error error)
  | .ok () =>
    let transaction := ((turn.transaction.cancelOpenLifecycleEvents supply "failed").pushEvent
      supply (.diagnosticEmitted .error message)).pushEvent supply
      (.operationFailed errorCode message)
    Turn.finish .failed appendFailure ⟨transaction, turn.record⟩

end Turn

/-- The calls on a transaction; a finalizer comes with the failures of its writes. -/
inductive Call where
  | recordUserInput (content : List PersistedContentBlock)
  | startAssistantMessage
  | completeAssistantMessage (messageId : String) (content : List PersistedContentBlock)
      (usage : Usage)
  | cancelAssistantMessage (messageId : String)
  | recordToolStarted (name : String) (arguments : Value)
  | recordToolUpdated (toolCallId message : String)
  | recordToolCompleted (toolCallId : String) (result : PersistedToolResult)
  | recordToolFailed (toolCallId message : String)
  | recordToolCancelled (toolCallId reason : String)
  | emitDiagnostic (level : DiagnosticLevel) (message : String)
  | recordSessionCompactionStarted
  | recordSessionCompactionCompleted (summary firstKeptMessageId : String) (tokensBefore : UInt32)
  | recordBranchSummaryCreated (summary sourceLeafId targetLeafId : String)
  | recordPluginLoadCompleted (diagnostics : List PersistedPluginDiagnostic)
  | recordDelegationFoldedUpdate (toolCallId requestingProfileId : String)
      (targetKind : ProfileKind) (targetId task : String) (status : PersistedDelegationStatus)
      (childOperationId summary : Option String)
  | recordSelfHealingEditStarted
  | recordSelfHealingEditRepairAttempted
  | recordSelfHealingEditCompleted
  | commit (newLeafId appendFailure manifestFailure : Option String)
  | abort (reason : String) (appendFailure : Option String)
  | fail (errorCode message : String) (appendFailure : Option String)

def recording {α : Type} (turn : Turn)
    (result : Attempt TurnTransaction α) : Attempt Turn Unit :=
  (⟨result.1, turn.record⟩, result.2.map fun _ => ())

def Call.apply (supply : Supply) (call : Call) (turn : Turn) : Attempt Turn Unit :=
  let transaction := turn.transaction
  match call with
  | .recordUserInput content => recording turn (transaction.recordUserInput supply content)
  | .startAssistantMessage => recording turn (transaction.startAssistantMessage supply)
  | .completeAssistantMessage messageId content usage =>
    recording turn (transaction.completeAssistantMessage supply messageId content usage)
  | .cancelAssistantMessage messageId =>
    recording turn (transaction.cancelAssistantMessage supply messageId)
  | .recordToolStarted name arguments =>
    recording turn (transaction.recordToolStarted supply name arguments)
  | .recordToolUpdated toolCallId message =>
    recording turn (transaction.recordToolUpdated supply toolCallId message)
  | .recordToolCompleted toolCallId result =>
    recording turn (transaction.recordToolCompleted supply toolCallId result)
  | .recordToolFailed toolCallId message =>
    recording turn (transaction.recordToolFailed supply toolCallId message)
  | .recordToolCancelled toolCallId reason =>
    recording turn (transaction.recordToolCancelled supply toolCallId reason)
  | .emitDiagnostic level message =>
    recording turn (transaction.emitDiagnostic supply level message)
  | .recordSessionCompactionStarted =>
    recording turn (transaction.recordSessionCompactionStarted supply)
  | .recordSessionCompactionCompleted summary firstKeptMessageId tokensBefore =>
    recording turn (transaction.recordSessionCompactionCompleted supply summary
      firstKeptMessageId tokensBefore)
  | .recordBranchSummaryCreated summary sourceLeafId targetLeafId =>
    recording turn (transaction.recordBranchSummaryCreated supply summary sourceLeafId targetLeafId)
  | .recordPluginLoadCompleted diagnostics =>
    recording turn (transaction.recordPluginLoadCompleted supply diagnostics)
  | .recordDelegationFoldedUpdate toolCallId requestingProfileId targetKind targetId task status
        childOperationId summary =>
      recording turn (transaction.recordDelegationFoldedUpdate supply toolCallId
        requestingProfileId targetKind targetId task status childOperationId summary)
  | .recordSelfHealingEditStarted =>
    recording turn (transaction.recordSelfHealingEditStarted supply)
  | .recordSelfHealingEditRepairAttempted =>
    recording turn (transaction.recordSelfHealingEditRepairAttempted supply)
  | .recordSelfHealingEditCompleted =>
    recording turn (transaction.recordSelfHealingEditCompleted supply)
  | .commit newLeafId appendFailure manifestFailure =>
    turn.commit supply newLeafId appendFailure manifestFailure
  | .abort reason appendFailure => turn.abort supply reason appendFailure
  | .fail errorCode message appendFailure => turn.fail supply errorCode message appendFailure

def Turn.run (supply : Supply) (calls : List Call) (turn : Turn) : Turn :=
  Transition.execute (fun call turn => (Call.apply supply call turn).1) calls turn

end PiRust.SessionTransaction
