import PiRust.ReplayConfirmations
import PiRust.SessionWrites
import PiRust.Transition

/- `delegation_confirmation_service.rs` and the queue of `delegation.rs`, over a persistent
session. -/
namespace PiRust.DelegationConfirmation

open SessionLog

structure DelegationRequest where
  operationId : String
  turnId : String
  toolCallId : String
  requestingProfileId : String
  targetKind : ProfileKind
  targetId : String
  task : String
  deriving DecidableEq

/-- `PendingDelegationConfirmationState`; of the prompt options, whether they have a runtime
snapshot. -/
structure PendingDelegationConfirmationState where
  request : DelegationRequest
  hasRuntime : Bool
  reason : String
  requestedAt : String
  deriving DecidableEq

def PendingDelegationConfirmationState.key (pending : PendingDelegationConfirmationState) :
    ConfirmationKey :=
  (pending.request.operationId, pending.request.toolCallId)

/-- What parses a timestamp, in nanoseconds. -/
structure Rfc3339 where
  parse : String → Option Int

def delegationConfirmationTtlHours : Int := 24

def delegationConfirmationIsExpired (rfc3339 : Rfc3339) (requestedAt now : String) : Bool :=
  match rfc3339.parse requestedAt with
  | none => false
  | some requestedAt =>
    match rfc3339.parse now with
    | none => false
    | some now => requestedAt + delegationConfirmationTtlHours * 3600000000000 ≤ now

def PendingDelegationConfirmationState.isActiveAt (rfc3339 : Rfc3339) (now : String)
    (pending : PendingDelegationConfirmationState) : Bool :=
  !delegationConfirmationIsExpired rfc3339 pending.requestedAt now

/-- `PendingDelegationConfirmationQueue`. -/
abbrev Queue := List PendingDelegationConfirmationState

namespace Queue

variable (rfc3339 : Rfc3339)

def keys (queue : Queue) : List ConfirmationKey :=
  queue.map PendingDelegationConfirmationState.key

def isDuplicate (pending : PendingDelegationConfirmationState) (queue : Queue) : Bool :=
  queue.any fun existing => existing.request.operationId = pending.request.operationId &&
    existing.request.toolCallId = pending.request.toolCallId

def names (operationId toolCallId now : String) (pending : PendingDelegationConfirmationState) :
    Bool :=
  pending.isActiveAt rfc3339 now && pending.request.operationId = operationId &&
    pending.request.toolCallId = toolCallId

def activePending (operationId toolCallId now : String) (queue : Queue) :
    Option PendingDelegationConfirmationState :=
  queue.find? (names rfc3339 operationId toolCallId now)

def removeActive (operationId toolCallId now : String) (queue : Queue) :
    Option PendingDelegationConfirmationState × Queue :=
  (queue.find? (names rfc3339 operationId toolCallId now),
    queue.eraseP (names rfc3339 operationId toolCallId now))

end Queue

inductive ServiceError where
  | config (message : String)
  | session (error : SessionLog.CodingSessionError)
  deriving DecidableEq

/-- What is emitted to the event service. -/
inductive Emission where
  | diagnostic (operationId message : String)
  | delegationConfirmationRequired (request : DelegationRequest) (reason : String)
  | delegationApproved (request : DelegationRequest)
  | delegationRejected (request : DelegationRequest) (reason : String)
  deriving DecidableEq

/-- How the log ends behind its events: with a line, with an event that lacks its line feed, or
with a line that does not parse, for the error that reading it gives. -/
inductive LogTail where
  | ended
  | unended
  | torn (error : String)
  deriving DecidableEq

def LogTail.error : LogTail → Option String
  | .torn error => some error
  | _ => none

/-- A `SessionService` over a log that may end inside a line. -/
structure LoggedService extends ServiceState where
  tail : LogTail := .ended

/-- How much of the line of an event gets into the log. -/
inductive LinePart where
  | nothing
  | piece
  | event
  | line
  deriving DecidableEq

/-- An append that fails. Its buffer is written once more when the writer is dropped and nothing
is taken back, so that any part of the line may be in the log. -/
structure AppendFailure where
  error : String
  written : LinePart

/-- `unparsed` is the error for a line that is a piece of an event, or two events. -/
structure Write where
  eventId : String
  now : String
  append : Option AppendFailure := none
  manifest : Option String := none
  unparsed : String := "failed to parse session event"

namespace LoggedService

/-- A line that does not parse comes after events that do. -/
def readEvents (service : LoggedService) : Except String (List SessionEventEnvelope) :=
  match service.record.readEvents service.handle.sessionId with
  | .error error => .error error
  | .ok events =>
    match service.tail.error with
    | some error => .error error
    | none => .ok events

def writeLine (unparsed : String) (event : SessionEventEnvelope) (part : LinePart)
    (service : LoggedService) : LoggedService :=
  match part, service.tail with
  | .nothing, _ | _, .torn _ => service
  | .piece, .ended => { service with tail := .torn unparsed }
  | .event, .ended =>
    { service with
      record.events := service.record.events ++ [event]
      tail := .unended }
  | .line, .ended => { service with record.events := service.record.events ++ [event] }
  -- What is written goes on the line of the last event.
  | _, .unended =>
    { service with
      record.events := service.record.events.dropLast
      tail := .torn unparsed }

/-- `append_events` of one event. -/
def appendEvent (write : Write) (event : SessionEventEnvelope) (service : LoggedService) :
    Attempt LoggedService Unit :=
  match service.readEvents with
  | .error error => (service, .error (.session error))
  | .ok before =>
    let event := event.withSessionSequence (nextAfter before)
    match validateEventForSession event service.handle.sessionId with
    | .error error => (service, .error (.session error))
    | .ok () =>
      match write.append with
      | some failure =>
        (service.writeLine write.unparsed event failure.written, .error (.session failure.error))
      | none => (service.writeLine write.unparsed event .line, .ok ())

end LoggedService

def appendDurableSessionEvent (write : Write) (operationId turnId : Option String)
    (data : SessionEventData) (service : LoggedService) : Attempt LoggedService Unit :=
  let sessionId := service.handle.sessionId
  let event := { SessionEventEnvelope.new sessionId write.eventId write.now data with
    operationId := operationId
    turnId := turnId }
  let appended := service.appendEvent write event
  match appended.2 with
  | .error error => (appended.1, .error error)
  | .ok () =>
    let updated := appended.1.record.updateManifest write.manifest { updatedAt := some write.now }
    match updated.2 with
    | .error error =>
      ({ appended.1 with record := updated.1 },
        .error (match operationId with
          | some operationId => .partialCommit operationId error
          | none => .session error))
    | .ok () =>
      let refreshed := ServiceState.refresh ⟨updated.1, appended.1.handle⟩
      (⟨refreshed.1, appended.1.tail⟩, refreshed.2)

/-- A coding session: the log on disk, the queue in memory, and what was emitted. -/
structure Session where
  service : LoggedService
  queue : Queue
  emitted : List Emission := []

def delegationRuntimeSeedFromPromptOptions (pending : PendingDelegationConfirmationState) :
    Except ServiceError Unit :=
  if pending.hasRuntime then .ok ()
  else .error (.config "delegation confirmation options do not include a runtime snapshot")

variable (write : Write) (pending : PendingDelegationConfirmationState) (session : Session)

def recordDelegationConfirmationRequested : Session × Except ServiceError Unit :=
  match delegationRuntimeSeedFromPromptOptions pending with
  | .error error => (session, .error error)
  | .ok () =>
    let request := pending.request
    let written := appendDurableSessionEvent write (some request.operationId)
      (some request.turnId) (.delegationConfirmationRequested request.operationId request.turnId
        request.toolCallId request.requestingProfileId request.targetKind request.targetId
        request.task pending.reason) session.service
    ({ session with service := written.1 }, written.2.mapError .session)

def recordDelegationConfirmationApproved : Session × Except ServiceError Unit :=
  let written := appendDurableSessionEvent write (some pending.request.operationId) none
    (.delegationConfirmationApproved pending.request.operationId pending.request.toolCallId)
    session.service
  ({ session with service := written.1 }, written.2.mapError .session)

def recordDelegationConfirmationRejected : Session × Except ServiceError Unit :=
  let written := appendDurableSessionEvent write (some pending.request.operationId) none
    (.delegationConfirmationRejected pending.request.operationId pending.request.toolCallId)
    session.service
  ({ session with service := written.1 }, written.2.mapError .session)

namespace Session

variable (rfc3339 : Rfc3339)

def activePending (operationId toolCallId now : String) (session : Session) :
    Except ServiceError PendingDelegationConfirmationState :=
  match session.queue.activePending rfc3339 operationId toolCallId now with
  | some pending => .ok pending
  | none => .error (.session (.input ("pending delegation confirmation not found: operation_id=" ++
      operationId ++ ", tool_call_id=" ++ toolCallId)))

def approvePending (write : Write) (operationId toolCallId now : String) (session : Session) :
    Session × Except ServiceError PendingDelegationConfirmationState :=
  match session.activePending rfc3339 operationId toolCallId now with
  | .error error => (session, .error error)
  | .ok pending =>
    let recorded := recordDelegationConfirmationApproved write pending session
    match recorded.2 with
    | .error error => (recorded.1, .error error)
    | .ok () =>
      let removed := Queue.removeActive rfc3339 operationId toolCallId now recorded.1.queue
      let pending := removed.1.getD pending
      ({ recorded.1 with
          queue := removed.2
          emitted := recorded.1.emitted ++ [.delegationApproved pending.request] },
        .ok pending)

def rejectPending (write : Write) (operationId toolCallId now reason : String)
    (session : Session) : Session × Except ServiceError Unit :=
  match session.activePending rfc3339 operationId toolCallId now with
  | .error error => (session, .error error)
  | .ok pending =>
    let reason := if trim reason = "" then "delegation rejected by user" else reason
    let recorded := recordDelegationConfirmationRejected write pending session
    match recorded.2 with
    | .error error => (recorded.1, .error error)
    | .ok () =>
      let removed := Queue.removeActive rfc3339 operationId toolCallId now recorded.1.queue
      let pending := removed.1.getD pending
      ({ recorded.1 with
          queue := removed.2
          emitted := recorded.1.emitted ++ [.delegationRejected pending.request reason] },
        .ok ())

def queuePending (emitConfirmationRequired : Bool) (session : Session) :
    Session × Except ServiceError Unit :=
  if Queue.isDuplicate pending session.queue then
    ({ session with
        emitted := session.emitted ++ [.diagnostic pending.request.operationId
          ("duplicate pending delegation confirmation ignored: operation_id=" ++
            pending.request.operationId ++ ", tool_call_id=" ++ pending.request.toolCallId)] },
      .ok ())
  else
    let recorded := recordDelegationConfirmationRequested write pending session
    match recorded.2 with
    | .error error => (recorded.1, .error error)
    | .ok () =>
      ({ recorded.1 with
          queue := recorded.1.queue ++ [pending]
          emitted :=
            if emitConfirmationRequired then
              recorded.1.emitted ++ [.delegationConfirmationRequired pending.request pending.reason]
            else recorded.1.emitted },
        .ok ())

/-- `adopt_pending`; every confirmation comes with the write that it takes. -/
def adoptPending : List (PendingDelegationConfirmationState × Write) → Session →
    Session × Except ServiceError Unit
  | [], session => (session, .ok ())
  | (pending, write) :: rest, session =>
    let queued := session.queuePending write pending false
    match queued.2 with
    | .error error => (queued.1, .error error)
    | .ok () => adoptPending rest queued.1

end Session

inductive Call where
  | queue (pending : PendingDelegationConfirmationState) (emitConfirmationRequired : Bool)
      (write : Write)
  | adopt (pendingConfirmations : List (PendingDelegationConfirmationState × Write))
  | approve (operationId toolCallId now : String) (write : Write)
  | reject (operationId toolCallId now reason : String) (write : Write)

def Call.apply (rfc3339 : Rfc3339) (call : Call) (session : Session) :
    Session × Except ServiceError Unit :=
  match call with
  | .queue pending emitConfirmationRequired write =>
    session.queuePending write pending emitConfirmationRequired
  | .adopt pendingConfirmations => session.adoptPending pendingConfirmations
  | .approve operationId toolCallId now write =>
    let approved := session.approvePending rfc3339 write operationId toolCallId now
    (approved.1, approved.2.map fun _ => ())
  | .reject operationId toolCallId now reason write =>
    session.rejectPending rfc3339 write operationId toolCallId now reason

def Session.run (rfc3339 : Rfc3339) (calls : List Call) (session : Session) : Session :=
  Transition.execute (fun call session => (Call.apply rfc3339 call session).1) calls session

end PiRust.DelegationConfirmation
