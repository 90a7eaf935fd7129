import PiRust.TransactionLifecycle

/- What a run of calls on a transaction leaves in the log. -/
namespace PiRust.SessionTransaction

open SessionLog List

def messagePairing : Brackets.Pairing SessionEventData String where
  opens
    | .messageStarted messageId => some messageId
    | _ => none
  closes
    | .messageCompleted messageId _ _ | .messageCancelled messageId => some messageId
    | _ => none

def toolCallPairing : Brackets.Pairing SessionEventData String where
  opens
    | .toolCallStarted toolCallId _ _ => some toolCallId
    | _ => none
  closes
    | .toolCallCompleted toolCallId _ | .toolCallFailed toolCallId _
    | .toolCallCancelled toolCallId _ => some toolCallId
    | _ => none

/-- Data that neither opens nor closes. -/
structure Silent (pairing : Brackets.Pairing SessionEventData String) (data : SessionEventData) :
    Prop where
  opens : pairing.opens data = none
  closes : pairing.closes data = none

namespace TurnTransaction

def recorded (transaction : TurnTransaction) : List SessionEventData :=
  transaction.pendingEvents.map SessionEventEnvelope.data

section pushed

variable (supply : Supply) (data : SessionEventData) (transaction : TurnTransaction)

@[simp] theorem pushEvent_openMessages :
    (transaction.pushEvent supply data).openMessages = transaction.openMessages := rfl

@[simp] theorem pushEvent_openToolCalls :
    (transaction.pushEvent supply data).openToolCalls = transaction.openToolCalls := rfl

@[simp] theorem recorded_pushEvent :
    (transaction.pushEvent supply data).recorded = transaction.recorded ++ [data] := by
  simp only [recorded, pushEvent, map_append, map_cons, map_nil]
  rfl

end pushed

/-- Only the pending events differ. -/
structure SameLifecycle (before after : TurnTransaction) : Prop where
  state : after.state = before.state
  sessionId : after.sessionId = before.sessionId
  operationId : after.operationId = before.operationId
  openMessages : after.openMessages = before.openMessages
  openToolCalls : after.openToolCalls = before.openToolCalls
  messageIds : after.drawn.messageIds = before.drawn.messageIds
  toolCallIds : after.drawn.toolCallIds = before.drawn.toolCallIds

theorem pushEvents_spec (supply : Supply) (data : List SessionEventData)
    (transaction : TurnTransaction) :
    SameLifecycle transaction (transaction.pushEvents supply data) ∧
      (transaction.pushEvents supply data).recorded = transaction.recorded ++ data := by
  induction data generalizing transaction with
  | nil => exact ⟨⟨rfl, rfl, rfl, rfl, rfl, rfl, rfl⟩, (append_nil _).symm⟩
  | cons first data ih =>
    obtain ⟨same, recorded⟩ := ih (transaction.pushEvent supply first)
    refine ⟨⟨same.state, same.sessionId, same.operationId, same.openMessages,
      same.openToolCalls, same.messageIds, same.toolCallIds⟩, ?_⟩
    rw [append_cons, ← recorded_pushEvent supply first]
    exact recorded

theorem ensureOpen_ok {transaction : TurnTransaction} (running : transaction.state = .opened) :
    transaction.ensureOpen = .ok () := if_pos running

theorem ensureOpen_error {transaction : TurnTransaction} (final : transaction.state ≠ .opened) :
    transaction.ensureOpen = .error
      (.session ("turn transaction is already finalized: " ++ transaction.state.asStr)) :=
  if_neg final

/-- What a call records. -/
inductive Records (supply : Supply) (before : TurnTransaction) : TurnTransaction → Prop
  | refused : Records supply before before
  | plain {data : SessionEventData} (running : before.state = .opened)
      (message : Silent messagePairing data) (toolCall : Silent toolCallPairing data)
      (unfinished : data.isFinalMarker = false) :
      Records supply before (before.pushEvent supply data)
  | startedMessage (running : before.state = .opened) :
      Records supply before
        ({ before with
            openMessages := before.openMessages.insert
              (supply.nextMessageId before.drawn.messageIds)
            drawn := { before.drawn with
              messageIds := before.drawn.messageIds + 1 } }.pushEvent supply
          (.messageStarted (supply.nextMessageId before.drawn.messageIds)))
  | startedToolCall (running : before.state = .opened) (name : String) (arguments : Value) :
      Records supply before
        ({ before with
            openToolCalls := before.openToolCalls.insert
              (supply.nextToolCallId before.drawn.toolCallIds)
            drawn := { before.drawn with
              toolCallIds := before.drawn.toolCallIds + 1 } }.pushEvent supply
          (.toolCallStarted (supply.nextToolCallId before.drawn.toolCallIds) name arguments))
  | endedMessage {messageId : String} {data : SessionEventData} (running : before.state = .opened)
      (member : messageId ∈ before.openMessages) (opens : messagePairing.opens data = none)
      (closes : messagePairing.closes data = some messageId)
      (toolCall : Silent toolCallPairing data) (unfinished : data.isFinalMarker = false) :
      Records supply before
        ({ before with openMessages := before.openMessages.erase messageId }.pushEvent supply data)
  | endedToolCall {toolCallId : String} {data : SessionEventData}
      (running : before.state = .opened) (member : toolCallId ∈ before.openToolCalls)
      (opens : toolCallPairing.opens data = none)
      (closes : toolCallPairing.closes data = some toolCallId)
      (message : Silent messagePairing data) (unfinished : data.isFinalMarker = false) :
      Records supply before
        ({ before with openToolCalls := before.openToolCalls.erase toolCallId }.pushEvent supply data)

section records

variable {supply : Supply} {transaction : TurnTransaction} {data : SessionEventData}

theorem recordOpen_records (message : Silent messagePairing data)
    (toolCall : Silent toolCallPairing data) (unfinished : data.isFinalMarker = false) :
    Records supply transaction (transaction.recordOpen supply data).1 := by
  by_cases running : transaction.state = .opened
  · simp only [recordOpen, ensureOpen_ok running]
    exact .plain running message toolCall unfinished
  · simp only [recordOpen, ensureOpen_error running]
    exact .refused

theorem startAssistantMessage_records :
    Records supply transaction (transaction.startAssistantMessage supply).1 := by
  by_cases running : transaction.state = .opened
  · simp only [startAssistantMessage, ensureOpen_ok running]
    exact .startedMessage running
  · simp only [startAssistantMessage, ensureOpen_error running]
    exact .refused

theorem recordToolStarted_records (name : String) (arguments : Value) :
    Records supply transaction (transaction.recordToolStarted supply name arguments).1 := by
  by_cases running : transaction.state = .opened
  · simp only [recordToolStarted, ensureOpen_ok running]
    exact .startedToolCall running name arguments
  · simp only [recordToolStarted, ensureOpen_error running]
    exact .refused

theorem endAssistantMessage_records {messageId : String} (opens : messagePairing.opens data = none)
    (closes : messagePairing.closes data = some messageId)
    (toolCall : Silent toolCallPairing data) (unfinished : data.isFinalMarker = false) :
    Records supply transaction (transaction.endAssistantMessage supply messageId data).1 := by
  by_cases running : transaction.state = .opened
  · simp only [endAssistantMessage, ensureOpen_ok running]
    by_cases member : messageId ∈ transaction.openMessages
    · simp only [ensureMessageOpen, if_pos member]
      exact .endedMessage running member opens closes toolCall unfinished
    · simp only [ensureMessageOpen, if_neg member]
      exact .refused
  · simp only [endAssistantMessage, ensureOpen_error running]
    exact .refused

theorem endToolCall_records {toolCallId : String} (opens : toolCallPairing.opens data = none)
    (closes : toolCallPairing.closes data = some toolCallId)
    (message : Silent messagePairing data) (unfinished : data.isFinalMarker = false) :
    Records supply transaction (transaction.endToolCall supply toolCallId data).1 := by
  by_cases running : transaction.state = .opened
  · simp only [endToolCall, ensureOpen_ok running]
    by_cases member : toolCallId ∈ transaction.openToolCalls
    · simp only [ensureToolCallOpen, if_pos member]
      exact .endedToolCall running member opens closes message unfinished
    · simp only [ensureToolCallOpen, if_neg member]
      exact .refused
  · simp only [endToolCall, ensureOpen_error running]
    exact .refused

theorem recordToolUpdated_records (toolCallId message : String) :
    Records supply transaction (transaction.recordToolUpdated supply toolCallId message).1 := by
  by_cases running : transaction.state = .opened
  · simp only [recordToolUpdated, ensureOpen_ok running]
    by_cases member : toolCallId ∈ transaction.openToolCalls
    · simp only [ensureToolCallOpen, if_pos member]
      exact .plain running ⟨rfl, rfl⟩ ⟨rfl, rfl⟩ rfl
    · simp only [ensureToolCallOpen, if_neg member]
      exact .refused
  · simp only [recordToolUpdated, ensureOpen_error running]
    exact .refused

end records

end TurnTransaction

/-- The calls that finalize a transaction, with the failure of their append. -/
def Call.finalizer : Call → Option (Option String)
  | .commit _ appendFailure _ => some appendFailure
  | .abort _ appendFailure => some appendFailure
  | .fail _ _ appendFailure => some appendFailure
  | _ => none

variable {call : Call} {supply : Supply} {turn : Turn}

theorem Call.apply_records (supply : Supply) (turn : Turn) (records : call.finalizer = none) :
    (call.apply supply turn).1.record = turn.record ∧
      turn.transaction.Records supply (call.apply supply turn).1.transaction := by
  cases call with
  | startAssistantMessage => exact ⟨rfl, TurnTransaction.startAssistantMessage_records⟩
  | recordToolStarted name arguments =>
    exact ⟨rfl, TurnTransaction.recordToolStarted_records name arguments⟩
  | recordToolUpdated toolCallId message =>
    exact ⟨rfl, TurnTransaction.recordToolUpdated_records toolCallId message⟩
  | completeAssistantMessage | cancelAssistantMessage =>
    exact ⟨rfl, TurnTransaction.endAssistantMessage_records rfl rfl ⟨rfl, rfl⟩ rfl⟩
  | recordToolCompleted | recordToolFailed | recordToolCancelled =>
    exact ⟨rfl, TurnTransaction.endToolCall_records rfl rfl ⟨rfl, rfl⟩ rfl⟩
  | commit | abort | fail => cases records
  | _ => exact ⟨rfl, TurnTransaction.recordOpen_records ⟨rfl, rfl⟩ ⟨rfl, rfl⟩ rfl⟩

theorem TurnTransaction.Records.unchanged {before after : TurnTransaction}
    (records : before.Records supply after) (final : before.state ≠ .opened) : after = before := by
  cases records with
  | refused => rfl
  | _ => exact absurd ‹before.state = .opened› final

theorem Call.apply_refused {failure : Option String} (finalizer : call.finalizer = some failure)
    (final : turn.transaction.state ≠ .opened) :
    call.apply supply turn = (turn, .error (.session
      ("turn transaction is already finalized: " ++ turn.transaction.state.asStr))) := by
  cases call with
  | commit | abort | fail =>
    simp [Call.apply, Turn.commit, Turn.abort, Turn.fail, TurnTransaction.ensureOpen_error final]
  | _ => cases finalizer

theorem Call.apply_final (call : Call) (final : turn.transaction.state ≠ .opened) :
    (call.apply supply turn).1 = turn := by
  cases finalizer : call.finalizer with
  | none =>
    obtain ⟨same, effect⟩ := call.apply_records supply turn finalizer
    have unchanged := effect.unchanged final
    generalize (call.apply supply turn).1 = after at same unchanged
    obtain ⟨transaction, record⟩ := after
    rw [show transaction = turn.transaction from unchanged, show record = turn.record from same]
  | some failure => rw [Call.apply_refused finalizer final]

namespace TurnTransaction

variable (supply : Supply) (transaction : TurnTransaction)

theorem cancelOpenLifecycleEvents_spec (reason : String) :
    SameLifecycle { transaction with openMessages := [], openToolCalls := [] }
        (transaction.cancelOpenLifecycleEvents supply reason) ∧
      (transaction.cancelOpenLifecycleEvents supply reason).recorded = transaction.recorded ++
        ((supply.drain transaction.openMessages).map fun messageId =>
          .messageCancelled messageId) ++
        (supply.drain transaction.openToolCalls).map fun toolCallId =>
          .toolCallCancelled toolCallId reason := by
  obtain ⟨messages, recorded⟩ := pushEvents_spec supply
    ((supply.drain transaction.openMessages).map fun messageId => .messageCancelled messageId)
    { transaction with openMessages := [] }
  simp only [cancelOpenLifecycleEvents]
  generalize pushEvents supply _ { transaction with openMessages := [] } = middle at messages recorded
  obtain ⟨toolCalls, more⟩ := pushEvents_spec supply
    ((supply.drain middle.openToolCalls).map fun toolCallId => .toolCallCancelled toolCallId reason)
    { middle with openToolCalls := [] }
  refine ⟨⟨toolCalls.state.trans messages.state, toolCalls.sessionId.trans messages.sessionId,
    toolCalls.operationId.trans messages.operationId,
    toolCalls.openMessages.trans messages.openMessages, toolCalls.openToolCalls,
    toolCalls.messageIds.trans messages.messageIds,
    toolCalls.toolCallIds.trans messages.toolCallIds⟩, ?_⟩
  have front : TurnTransaction.recorded { middle with openToolCalls := [] } = middle.recorded := rfl
  rw [more, front, recorded, messages.openToolCalls]
  rfl

end TurnTransaction

/-- What a finalizer pushes before it flushes. -/
def Call.prepared (supply : Supply) (transaction : TurnTransaction) : Call → TurnTransaction
  | .commit newLeafId _ _ => transaction.pushEvent supply (.operationCommitted newLeafId)
  | .abort reason _ =>
    (transaction.cancelOpenLifecycleEvents supply reason).pushEvent supply
      (.operationAborted reason)
  | .fail errorCode message _ =>
    ((transaction.cancelOpenLifecycleEvents supply "failed").pushEvent supply
      (.diagnosticEmitted .error message)).pushEvent supply (.operationFailed errorCode message)
  | _ => transaction

section prepared

variable (supply : Supply) (transaction : TurnTransaction) {call : Call}

/-- The transaction of the same operation, in the same state. -/
structure SameOperation (before after : TurnTransaction) : Prop where
  state : after.state = before.state
  sessionId : after.sessionId = before.sessionId
  operationId : after.operationId = before.operationId

theorem Call.prepared_same : SameOperation transaction (call.prepared supply transaction) := by
  cases call with
  | abort reason =>
    obtain ⟨same, -⟩ := transaction.cancelOpenLifecycleEvents_spec supply reason
    exact ⟨same.state, same.sessionId, same.operationId⟩
  | fail =>
    obtain ⟨same, -⟩ := transaction.cancelOpenLifecycleEvents_spec supply "failed"
    exact ⟨same.state, same.sessionId, same.operationId⟩
  | _ => exact ⟨rfl, rfl, rfl⟩

theorem Call.prepared_markers {failure : Option String} (finalizer : call.finalizer = some failure) :
    (call.prepared supply transaction).recorded.countP SessionEventData.isFinalMarker =
      transaction.recorded.countP SessionEventData.isFinalMarker + 1 := by
  have cancelled (reason : String) :
      (transaction.cancelOpenLifecycleEvents supply reason).recorded.countP
        SessionEventData.isFinalMarker =
      transaction.recorded.countP SessionEventData.isFinalMarker := by
    have messages : ((supply.drain transaction.openMessages).map fun messageId =>
        SessionEventData.messageCancelled messageId).countP SessionEventData.isFinalMarker = 0 := by
      rw [countP_map]
      exact countP_eq_zero.mpr fun _ _ => Bool.false_ne_true
    have toolCalls : ((supply.drain transaction.openToolCalls).map fun toolCallId =>
        SessionEventData.toolCallCancelled toolCallId reason).countP
        SessionEventData.isFinalMarker = 0 := by
      rw [countP_map]
      exact countP_eq_zero.mpr fun _ _ => Bool.false_ne_true
    rw [(transaction.cancelOpenLifecycleEvents_spec supply reason).2, countP_append,
      countP_append, messages, toolCalls]
    rfl
  cases call with
  | commit => rw [Call.prepared, TurnTransaction.recorded_pushEvent, countP_append]; rfl
  | abort reason =>
    rw [Call.prepared, TurnTransaction.recorded_pushEvent, countP_append, cancelled]
    rfl
  | fail =>
    rw [Call.prepared, TurnTransaction.recorded_pushEvent, TurnTransaction.recorded_pushEvent,
      countP_append, countP_append, cancelled]
    rfl
  | _ => cases finalizer

end prepared

def appendFails (failure : Option String) (sessionId : String) (record : SessionRecord) : Bool :=
  failure.isSome || !(record.readEvents sessionId).isOk

section flush

variable {failure : Option String} (turn : Turn)

theorem flushPending_error {record : SessionRecord} {error : String}
    (appended : turn.record.appendEvents turn.transaction.sessionId
      turn.transaction.pendingEvents = (record, .error error)) :
    turn.flushPending none = (⟨turn.transaction, record⟩, .error (.session error)) := by
  simp [Turn.flushPending, appendUnless, appended]

theorem flushPending_ok {record : SessionRecord}
    (appended : turn.record.appendEvents turn.transaction.sessionId
      turn.transaction.pendingEvents = (record, .ok ())) :
    turn.flushPending none =
      (⟨{ turn.transaction with
          pendingEvents := []
          own := forall_mem_nil _ }, record⟩, .ok ()) := by
  simp [Turn.flushPending, appendUnless, appended]

theorem flushPending_fails
    (fails : appendFails failure turn.transaction.sessionId turn.record = true) :
    ∃ error, turn.flushPending failure = (turn, .error (.session error)) := by
  cases failure with
  | some error => exact ⟨error, rfl⟩
  | none =>
    simp only [appendFails, Option.isSome_none, Bool.false_or] at fails
    cases reads : turn.record.readEvents turn.transaction.sessionId with
    | error error =>
      exact ⟨error, flushPending_error turn (by simp [SessionRecord.appendEvents, reads])⟩
    | ok =>
      rw [reads] at fails
      cases fails

theorem flushPending_writes
    (writes : appendFails failure turn.transaction.sessionId turn.record = false) :
    turn.flushPending failure =
      (⟨{ turn.transaction with
          pendingEvents := []
          own := forall_mem_nil _ },
        { turn.record with
          events := turn.record.events ++
            stampEvents (nextAfter turn.record.events) turn.transaction.pendingEvents }⟩,
        .ok ()) := by
  simp only [appendFails, Bool.or_eq_false_iff, Option.isSome_eq_false_iff, Option.isNone_iff_eq_none]
    at writes
  obtain ⟨rfl, readable⟩ := writes
  cases reads : turn.record.readEvents turn.transaction.sessionId with
  | error error =>
    rw [reads] at readable
    cases readable
  | ok =>
    obtain ⟨rfl, own⟩ := SessionRecord.readEvents_own reads
    exact flushPending_ok turn (SessionRecord.appendEvents_ok own fun event member =>
      (turn.transaction.own event member).2)

end flush

section finalizers

variable (supply : Supply) {call : Call} {turn : Turn} {failure : Option String}

theorem Call.apply_fails (finalizer : call.finalizer = some failure)
    (running : turn.transaction.state = .opened)
    (fails : appendFails failure turn.transaction.sessionId turn.record = true) :
    ∃ error, call.apply supply turn =
      (⟨call.prepared supply turn.transaction, turn.record⟩, .error (.session error)) := by
  have same : SameOperation turn.transaction (call.prepared supply turn.transaction) :=
    Call.prepared_same supply turn.transaction
  rw [← same.sessionId] at fails
  obtain ⟨error, flushed⟩ := flushPending_fails
    ⟨call.prepared supply turn.transaction, turn.record⟩ fails
  refine ⟨error, ?_⟩
  cases call with
  | commit newLeafId appendFailure manifestFailure =>
    cases finalizer
    simp only [Call.prepared] at flushed
    simp [Call.apply, Turn.commit, TurnTransaction.ensureOpen_ok running, Turn.finishCommit,
      flushed, Call.prepared]
  | abort | fail =>
    cases finalizer
    simp only [Call.prepared] at flushed
    simp [Call.apply, Turn.abort, Turn.fail, TurnTransaction.ensureOpen_ok running, Turn.finish,
      flushed, Call.prepared]
  | _ => cases finalizer

/-- The pending events are in the log, and the transaction is over. -/
structure Finalized (prepared : TurnTransaction) (before after : Turn) : Prop where
  state : after.transaction.state ≠ .opened
  operationId : after.transaction.operationId = prepared.operationId
  events : after.record.events = before.record.events ++
    stampEvents (nextAfter before.record.events) prepared.pendingEvents

theorem Call.apply_writes (finalizer : call.finalizer = some failure)
    (running : turn.transaction.state = .opened)
    (writes : appendFails failure turn.transaction.sessionId turn.record = false) :
    Finalized (call.prepared supply turn.transaction) turn (call.apply supply turn).1 := by
  have same : SameOperation turn.transaction (call.prepared supply turn.transaction) :=
    Call.prepared_same supply turn.transaction
  rw [← same.sessionId] at writes
  have flushed := flushPending_writes ⟨call.prepared supply turn.transaction, turn.record⟩ writes
  cases call with
  | commit newLeafId appendFailure manifestFailure =>
    cases finalizer
    simp only [Call.prepared] at flushed
    simp only [Call.apply, Turn.commit, TurnTransaction.ensureOpen_ok running,
      Turn.finishCommit, flushed, Call.prepared]
    cases newLeafId with
    | none => exact ⟨(by decide : TransactionState.committed ≠ .opened), rfl, rfl⟩
    | some leafId =>
      simp only
      split
      · exact ⟨(by decide : TransactionState.inDoubt ≠ .opened), rfl, SessionRecord.updateManifest_events ..⟩
      · exact ⟨(by decide : TransactionState.committed ≠ .opened), rfl, SessionRecord.updateManifest_events ..⟩
  | abort | fail =>
    cases finalizer
    simp only [Call.prepared] at flushed
    simp only [Call.apply, Turn.abort, Turn.fail, TurnTransaction.ensureOpen_ok running,
      Turn.finish, flushed, Call.prepared]
    exact ⟨by simp, rfl, rfl⟩
  | _ => cases finalizer

end finalizers

/-- A finalizer on the open transaction whose append fails. -/
def Call.fails (call : Call) (turn : Turn) : Bool :=
  match call.finalizer with
  | none => false
  | some failure =>
    turn.transaction.state = .opened && appendFails failure turn.transaction.sessionId turn.record

/-- What a call does, by its outcome. -/
inductive Applied (supply : Supply) (call : Call) (before : Turn) : Turn → Prop
  | recorded {after : Turn} (quiet : call.fails before = false)
      (record : after.record = before.record)
      (records : before.transaction.Records supply after.transaction) :
      Applied supply call before after
  | failed {failure : Option String} (finalizer : call.finalizer = some failure)
      (running : before.transaction.state = .opened) (fails : call.fails before = true) :
      Applied supply call before ⟨call.prepared supply before.transaction, before.record⟩
  | written {after : Turn} {failure : Option String} (finalizer : call.finalizer = some failure)
      (running : before.transaction.state = .opened) (succeeds : call.fails before = false)
      (final : Finalized (call.prepared supply before.transaction) before after) :
      Applied supply call before after

theorem Call.applied (supply : Supply) (call : Call) (turn : Turn) :
    Applied supply call turn (call.apply supply turn).1 := by
  cases finalizer : call.finalizer with
  | none =>
    obtain ⟨record, records⟩ := call.apply_records supply turn finalizer
    exact .recorded (by simp [Call.fails, finalizer]) record records
  | some failure =>
    by_cases running : turn.transaction.state = .opened
    · cases fails : appendFails failure turn.transaction.sessionId turn.record with
      | true =>
        obtain ⟨error, result⟩ := call.apply_fails supply finalizer running fails
        rw [result]
        exact .failed finalizer running (by simp [Call.fails, finalizer, running, fails])
      | false =>
        exact .written finalizer running
          (by simp [Call.fails, finalizer, fails])
          (call.apply_writes supply finalizer running fails)
    · have quiet : call.fails turn = false := by
        simp [Call.fails, finalizer, running]
      rw [call.apply_final running]
      exact .recorded quiet rfl .refused

/-- The coarser transaction of the session log. -/
structure Abstracts (coarse : SessionLog.TurnTransaction) (transaction : TurnTransaction) : Prop where
  sessionId : coarse.sessionId = transaction.sessionId
  operationId : coarse.operationId = transaction.operationId
  turnId : coarse.turnId = transaction.turnId
  pendingEvents : coarse.pendingEvents = transaction.pendingEvents

theorem commit_abstracts {coarse : SessionLog.TurnTransaction}
    (abstracts : Abstracts coarse turn.transaction) (running : turn.transaction.state = .opened)
    (steady : ∀ reads, supply.nowRfc3339 (reads + 1) = supply.nowRfc3339 reads)
    (newLeafId manifestFailure : Option String) :
    coarse.commit newLeafId (supply.nextEventId turn.transaction.drawn.eventIds)
        (supply.nowRfc3339 turn.transaction.drawn.reads) manifestFailure turn.record =
      ((turn.commit supply newLeafId none manifestFailure).1.record,
        (turn.commit supply newLeafId none manifestFailure).2) := by
  have marker : coarse.envelope (supply.nextEventId turn.transaction.drawn.eventIds)
      (supply.nowRfc3339 turn.transaction.drawn.reads) (.operationCommitted newLeafId) =
      turn.transaction.envelope supply (.operationCommitted newLeafId) := by
    simp [SessionLog.TurnTransaction.envelope, TurnTransaction.envelope, abstracts.sessionId,
      abstracts.operationId, abstracts.turnId]
  simp only [SessionLog.TurnTransaction.commit, marker, abstracts.sessionId, abstracts.operationId,
    abstracts.pendingEvents, Turn.commit, TurnTransaction.ensureOpen_ok running, Turn.finishCommit]
  cases appended : turn.record.appendEvents turn.transaction.sessionId
      (turn.transaction.pendingEvents ++
        [turn.transaction.envelope supply (.operationCommitted newLeafId)]) with
  | mk record result =>
    cases result with
    | error error =>
      rw [flushPending_error
        ⟨turn.transaction.pushEvent supply (.operationCommitted newLeafId), turn.record⟩ appended]
    | ok =>
      rw [flushPending_ok
        ⟨turn.transaction.pushEvent supply (.operationCommitted newLeafId), turn.record⟩ appended]
      cases newLeafId with
      | none => rfl
      | some leafId =>
        have clock : supply.nowRfc3339 (turn.transaction.pushEvent supply
            (.operationCommitted (some leafId))).drawn.reads =
            supply.nowRfc3339 turn.transaction.drawn.reads := steady _
        simp only [clock]
        cases (record.updateManifest manifestFailure
          { updatedAt := some (supply.nowRfc3339 turn.transaction.drawn.reads)
            activeLeafId := some (some leafId) }).2 with
        | error error => rfl
        | ok => rfl

/-- How many final markers of an operation are in a log. -/
def finalMarkers (operationId : String) (events : List SessionEventEnvelope) : Nat :=
  events.countP fun event => event.data.isFinalMarker && event.operationId = some operationId

theorem finalMarkers_append (operationId : String) (events more : List SessionEventEnvelope) :
    finalMarkers operationId (events ++ more) =
      finalMarkers operationId events + finalMarkers operationId more :=
  countP_append

theorem finalMarkers_stampEvents (operationId : String) (nextSequence : UInt64)
    (events : List SessionEventEnvelope) :
    finalMarkers operationId (stampEvents nextSequence events) = finalMarkers operationId events := by
  let marks (event : SessionEventEnvelope) : Bool :=
    event.data.isFinalMarker && event.operationId = some operationId
  have same : (stampEvents nextSequence events).map marks = events.map marks :=
    stampEvents_map (fun _ _ => rfl) nextSequence events
  have counted (log : List SessionEventEnvelope) :
      finalMarkers operationId log = (log.map marks).countP id := by
    rw [countP_map]
    rfl
  rw [counted, counted, same]

theorem finalMarkers_pending (transaction : TurnTransaction) (operationId : String) :
    finalMarkers operationId transaction.pendingEvents =
      if operationId = transaction.operationId then
        transaction.recorded.countP SessionEventData.isFinalMarker else 0 := by
  split
  · rename_i same
    subst same
    rw [TurnTransaction.recorded, countP_map]
    refine countP_congr fun event member => ?_
    have own := (transaction.own event member).1
    simp [own]
  · rename_i other
    refine countP_eq_zero.mpr fun event member => ?_
    have own := (transaction.own event member).1
    simp [own, Ne.symm other]

theorem TurnTransaction.Records.markers {before after : TurnTransaction}
    (records : before.Records supply after) :
    SameOperation before after ∧ after.recorded.countP SessionEventData.isFinalMarker =
      before.recorded.countP SessionEventData.isFinalMarker := by
  cases records with
  | refused => exact ⟨⟨rfl, rfl, rfl⟩, rfl⟩
  | _ =>
    refine ⟨⟨rfl, rfl, rfl⟩, ?_⟩
    rw [TurnTransaction.recorded_pushEvent, countP_append, countP_singleton]
    simp_all [SessionEventData.isFinalMarker, TurnTransaction.recorded]

def failedFinalizers (supply : Supply) : List Call → Turn → Nat
  | [], _ => 0
  | call :: rest, turn =>
    (if call.fails turn then 1 else 0) + failedFinalizers supply rest (call.apply supply turn).1

/-- The final markers of the transaction's operation: in the log once it is finalized, and
among its pending events before. -/
structure Marked (operationId : String) (attempts : Nat) (turn : Turn) : Prop where
  operation : turn.transaction.operationId = operationId
  written : finalMarkers operationId turn.record.events =
    if turn.transaction.state = .opened then 0 else attempts + 1
  pending : turn.transaction.state = .opened →
    turn.transaction.recorded.countP SessionEventData.isFinalMarker = attempts

section marked

variable (supply : Supply) {turn : Turn} {operationId : String} {attempts : Nat}

theorem Call.apply_marked (call : Call) (marked : Marked operationId attempts turn) :
    Marked operationId (attempts + if call.fails turn then 1 else 0) (call.apply supply turn).1 := by
  have same : SameOperation turn.transaction (call.prepared supply turn.transaction) :=
    Call.prepared_same supply turn.transaction
  have own := same.operationId.trans marked.operation
  have applied := call.applied supply turn
  generalize (call.apply supply turn).1 = after at applied ⊢
  cases applied with
  | recorded quiet record records =>
    obtain ⟨unchanged, unmarked⟩ := records.markers
    rw [quiet]
    refine ⟨unchanged.operationId.trans marked.operation, ?_, fun running => ?_⟩
    · rw [record, unchanged.state]
      exact marked.written
    · exact unmarked.trans (marked.pending (unchanged.state.symm.trans running))
  | failed finalizer running fails =>
    rw [fails]
    refine ⟨own, ?_, fun _ => ?_⟩
    · rw [marked.written, if_pos running, if_pos (same.state.trans running)]
    · rw [Call.prepared_markers supply _ finalizer, marked.pending running]
      rfl
  | written finalizer running succeeds final =>
    rw [succeeds]
    refine ⟨final.operationId.trans own, ?_, fun reopened => absurd reopened final.state⟩
    rw [final.events, finalMarkers_append, finalMarkers_stampEvents, finalMarkers_pending,
      if_pos own.symm, Call.prepared_markers supply _ finalizer, marked.pending running,
      marked.written, if_pos running, if_neg final.state]
    exact Nat.zero_add _

theorem run_marked (calls : List Call) (marked : Marked operationId attempts turn) :
    Marked operationId (attempts + failedFinalizers supply calls turn) (turn.run supply calls) := by
  induction calls generalizing turn attempts with
  | nil => exact marked
  | cons call calls ih =>
    have rest := ih (call.apply_marked supply marked)
    rw [Nat.add_assoc] at rest
    exact rest

end marked

/-- A call that left the state of a transaction alone, what is pending in it and which of
its items are open. -/
structure Untouched (before after : TurnTransaction) : Prop where
  state : after.state = before.state
  pendingEvents : after.pendingEvents = before.pendingEvents
  openMessages : after.openMessages.Perm before.openMessages
  openToolCalls : after.openToolCalls.Perm before.openToolCalls

/-- One final marker for each operation at most, and no trace of a finalizer whose append
fails. -/
structure Retryable (supply : Supply) (calls : List Call) (start : Turn) : Prop where
  once : ∀ operationId, finalMarkers operationId (start.run supply calls).record.events ≤ 1
  untouched : ∀ earlier call later, calls = earlier ++ call :: later →
    call.fails (start.run supply earlier) = true →
    Untouched (start.run supply earlier).transaction
      (call.apply supply (start.run supply earlier)).1.transaction

theorem failedFinalizers_eq_zero (supply : Supply) (calls : List Call) (turn : Turn) :
    failedFinalizers supply calls turn = 0 ↔ ∀ earlier call later,
      calls = earlier ++ call :: later → call.fails (turn.run supply earlier) = false := by
  induction calls generalizing turn with
  | nil =>
    refine iff_of_true rfl fun earlier call later split => ?_
    cases earlier <;> cases split
  | cons call calls ih =>
    simp only [failedFinalizers, Nat.add_eq_zero_iff, ih]
    constructor
    · rintro ⟨first, rest⟩ earlier other later split
      cases earlier with
      | nil =>
        cases split
        cases fails : call.fails turn with
        | true => rw [fails] at first; cases first
        | false => exact fails
      | cons start earlier =>
        cases split
        exact rest earlier other later rfl
    · intro quiet
      refine ⟨?_, fun earlier other later split => ?_⟩
      · rw [show call.fails turn = false from quiet [] call calls rfl]
        rfl
      · exact quiet (call :: earlier) other later (by rw [split]; rfl)

theorem run_finalMarkers_other (supply : Supply) (calls : List Call) {operationId : String}
    (other : operationId ≠ turn.transaction.operationId) :
    finalMarkers operationId (turn.run supply calls).record.events =
      finalMarkers operationId turn.record.events := by
  induction calls generalizing turn with
  | nil => rfl
  | cons call calls ih =>
    have same : SameOperation turn.transaction (call.prepared supply turn.transaction) :=
      Call.prepared_same supply turn.transaction
    have applied := call.applied supply turn
    simp only [Turn.run, Transition.execute] at ih ⊢
    generalize (call.apply supply turn).1 = after at applied ⊢
    cases applied with
    | recorded quiet record records =>
      rw [ih (records.markers.1.operationId ▸ other), record]
    | failed finalizer running fails => exact ih (same.operationId ▸ other)
    | written finalizer running succeeds final =>
      have apart : operationId ≠ (call.prepared supply turn.transaction).operationId :=
        same.operationId ▸ other
      rw [ih (final.operationId ▸ apart), final.events, finalMarkers_append,
        finalMarkers_stampEvents, finalMarkers_pending, if_neg apart, Nat.add_zero]

/-- A finalizer whose append fails leaves a final marker among the pending events. -/
theorem Call.touches (call : Call) (fails : call.fails turn = true) :
    ¬ Untouched turn.transaction (call.apply supply turn).1.transaction := by
  intro untouched
  have applied := call.applied supply turn
  generalize (call.apply supply turn).1 = after at applied untouched
  cases applied with
  | recorded quiet =>
    rw [quiet] at fails
    cases fails
  | failed finalizer =>
    have kept : (call.prepared supply turn.transaction).recorded = turn.transaction.recorded :=
      congrArg (map SessionEventEnvelope.data) untouched.pendingEvents
    have more := Call.prepared_markers supply turn.transaction finalizer
    rw [kept] at more
    exact absurd more (Nat.succ_ne_self _).symm
  | written _ _ succeeds =>
    rw [succeeds] at fails
    cases fails

section retries

variable {supply : Supply} {sessionId operationId : String} {operation : SessionLog.OperationKind}
  {record : SessionRecord}

/-- A transaction that was just begun. -/
def Turn.begin (supply : Supply) (sessionId operationId : String)
    (operation : SessionLog.OperationKind) (record : SessionRecord) : Turn :=
  ⟨.beginAdmitted supply sessionId operationId operation, record⟩

theorem begin_marked (fresh : finalMarkers operationId record.events = 0) :
    Marked operationId 0 (.begin supply sessionId operationId operation record) :=
  ⟨rfl, fresh, fun _ => rfl⟩

theorem finalMarkers_run (calls : List Call) (fresh : finalMarkers operationId record.events = 0) :
    finalMarkers operationId
        ((Turn.begin supply sessionId operationId operation record).run supply calls).record.events =
      if ((Turn.begin supply sessionId operationId operation record).run supply
          calls).transaction.state = .opened then 0
      else failedFinalizers supply calls (.begin supply sessionId operationId operation record) + 1 := by
  rw [(run_marked supply calls (begin_marked fresh)).written, Nat.zero_add]

/-- A transaction is safe to retry exactly where nothing has to be retried. -/
theorem retryable_iff (calls : List Call) (fresh : finalMarkers operationId record.events = 0)
    (single : ∀ other, finalMarkers other record.events ≤ 1) :
    Retryable supply calls (.begin supply sessionId operationId operation record) ↔
      ∀ earlier call later, calls = earlier ++ call :: later →
        call.fails ((Turn.begin supply sessionId operationId operation record).run supply earlier) =
          false := by
  constructor
  · intro retryable earlier call later split
    cases fails : call.fails
      ((Turn.begin supply sessionId operationId operation record).run supply earlier) with
    | false => rfl
    | true => exact absurd (retryable.untouched earlier call later split fails) (call.touches fails)
  · intro quiet
    have none_failed := (failedFinalizers_eq_zero supply calls _).mpr quiet
    refine ⟨fun other => ?_, fun earlier call later split fails => ?_⟩
    · by_cases own : other = operationId
      · subst own
        rw [finalMarkers_run calls fresh, none_failed]
        split <;> omega
      · rw [run_finalMarkers_other supply calls own]
        exact single other
    · rw [quiet earlier call later split] at fails
      cases fails

end retries

def strokes (count : Nat) : String := String.ofList (replicate count 'i')

def sampleSupply : Supply where
  nextTurnId := "turn"
  nextMessageId := strokes
  nextToolCallId := strokes
  nextEventId := fun _ => "evt"
  nowRfc3339 := fun _ => "now"
  drain := fun items => items
  drain_perm := fun items => Perm.refl items

def sampleRecord : SessionRecord := ⟨.new "sess" "now" "default", []⟩

def sampleTurn : Turn := .begin sampleSupply "sess" "op" .prompt sampleRecord

/-- An abort whose append fails, and the same abort again. -/
theorem retried_abort_not_retryable :
    ¬ Retryable sampleSupply [.abort "stop" (some "No space left on device"), .abort "stop" none]
      sampleTurn := by
  intro retryable
  have twice : finalMarkers "op" (sampleTurn.run sampleSupply
      [.abort "stop" (some "No space left on device"), .abort "stop" none]).record.events = 2 := by
    decide
  have once := retryable.once "op"
  rw [twice] at once
  exact absurd once (by decide)

theorem retryable_commit : Retryable sampleSupply
    [.startAssistantMessage, .commit (some "leaf") none (some "Permission denied"), .abort "stop" none]
    sampleTurn := by
  have single : ∀ other, finalMarkers other sampleRecord.events ≤ 1 := fun _ => Nat.zero_le 1
  refine (retryable_iff _ rfl single).mpr ?_
  exact (failedFinalizers_eq_zero _ _ _).mp (by decide)

end PiRust.SessionTransaction
