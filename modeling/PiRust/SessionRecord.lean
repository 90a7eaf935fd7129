import PiRust.TornAppend

/- `session_log/store.rs` and `session_log/transaction.rs` over the events that a log
reads as, with all the fields of `session.json`. -/
namespace PiRust.SessionLog

open List

structure StoredManifest extends SessionManifest where
  createdAt : String
  activeBranchId : Option String
  activeLeafId : Option String
  defaultAgentProfileId : String
  deriving DecidableEq, Repr

def sessionEventLogFile : String := "events.jsonl"

/-- `SessionManifest::new` and `with_default_agent_profile_id`. -/
def StoredManifest.new (sessionId createdAt defaultAgentProfileId : String) : StoredManifest where
  schema := sessionSchema
  version := sessionVersion
  sessionId := sessionId
  updatedAt := createdAt
  eventLog := sessionEventLogFile
  createdAt := createdAt
  activeBranchId := none
  activeLeafId := none
  defaultAgentProfileId := defaultAgentProfileId

structure ManifestPatch where
  updatedAt : Option String := none
  activeBranchId : Option (Option String) := none
  activeLeafId : Option (Option String) := none
  defaultAgentProfileId : Option String := none

def ManifestPatch.apply (patch : ManifestPatch) (manifest : StoredManifest) : StoredManifest :=
  { manifest with
    updatedAt := patch.updatedAt.getD manifest.updatedAt
    activeBranchId := patch.activeBranchId.getD manifest.activeBranchId
    activeLeafId := patch.activeLeafId.getD manifest.activeLeafId
    defaultAgentProfileId := patch.defaultAgentProfileId.getD manifest.defaultAgentProfileId }

inductive CodingSessionError where
  | session (message : String)
  | input (message : String)
  | partialCommit (operationId message : String)
  | provider (message : String)
  | tool (message : String)
  | unsupportedCapability (capability : String)
  deriving DecidableEq, Repr

/-- What a call leaves, and its answer. -/
abbrev Attempt (σ α : Type) := σ × Except CodingSessionError α

/-- The directory of a session: `session.json`, and its log as a list of events. -/
structure SessionRecord where
  manifest : StoredManifest
  events : List SessionEventEnvelope

def validateEvents (sessionId : String) : List SessionEventEnvelope → Except String Unit
  | [] => .ok ()
  | event :: rest =>
    match validateEventForSession event sessionId with
    | .error error => .error error
    | .ok () => validateEvents sessionId rest

/-- The events that the loop of `append_events` writes, and how it ends. -/
def acceptEvents (sessionId : String) :
    UInt64 → List SessionEventEnvelope → List SessionEventEnvelope × Except String Unit
  | _, [] => ([], .ok ())
  | nextSequence, event :: rest =>
    let event := event.withSessionSequence nextSequence
    match validateEventForSession event sessionId with
    | .error error => ([], .error error)
    | .ok () =>
      let later := acceptEvents sessionId (nextSequence + 1) rest
      (event :: later.1, later.2)

namespace SessionRecord

def openSession (record : SessionRecord) : Except String StoredManifest :=
  match validateManifest record.manifest.toSessionManifest with
  | .error error => .error error
  | .ok () => .ok record.manifest

def readEvents (sessionId : String) (record : SessionRecord) :
    Except String (List SessionEventEnvelope) :=
  match validateEvents sessionId record.events with
  | .error error => .error error
  | .ok () => .ok record.events

def appendEvents (sessionId : String) (events : List SessionEventEnvelope)
    (record : SessionRecord) : SessionRecord × Except String Unit :=
  match record.readEvents sessionId with
  | .error error => (record, .error error)
  | .ok before =>
    let accepted := acceptEvents sessionId (nextAfter before) events
    ({ record with events := record.events ++ accepted.1 }, accepted.2)

/-- `update_manifest`; `failure` is the error of a read or a write that goes wrong. -/
def updateManifest (failure : Option String) (patch : ManifestPatch) (record : SessionRecord) :
    SessionRecord × Except String Unit :=
  match failure with
  | some error => (record, .error error)
  | none =>
    let manifest := patch.apply record.manifest
    match validateManifest manifest.toSessionManifest with
    | .error error => (record, .error error)
    | .ok () => ({ record with manifest := manifest }, .ok ())

end SessionRecord

theorem ManifestPatch.apply_valid (patch : ManifestPatch) (manifest : StoredManifest) :
    validateManifest (patch.apply manifest).toSessionManifest =
      validateManifest manifest.toSessionManifest := rfl

theorem SessionRecord.updateManifest_events (failure : Option String) (patch : ManifestPatch)
    (record : SessionRecord) : (record.updateManifest failure patch).1.events = record.events := by
  unfold updateManifest
  split
  · rfl
  · simp only
    split <;> rfl

theorem SessionEventEnvelope.new_valid (sessionId eventId createdAt : String)
    (data : SessionEventData) :
    validateEventForSession (.new sessionId eventId createdAt data) sessionId = .ok () := by
  simp [validateEventForSession, SessionEventEnvelope.new]

section accepted

attribute [local simp] stampEvents acceptEvents validateEvents

variable {sessionId : String} {nextSequence : UInt64} {events : List SessionEventEnvelope}

theorem acceptEvents_prefix : (acceptEvents sessionId nextSequence events).1 <+:
    stampEvents nextSequence events := by
  induction events generalizing nextSequence with
  | nil => exact prefix_refl _
  | cons event events ih =>
    simp only [acceptEvents, stampEvents]
    cases validateEventForSession (event.withSessionSequence nextSequence) sessionId with
    | error error => exact nil_prefix
    | ok => exact (prefix_cons_inj _).mpr ih

theorem acceptEvents_ok (accepted : (acceptEvents sessionId nextSequence events).2 = .ok ()) :
    (acceptEvents sessionId nextSequence events).1 = stampEvents nextSequence events := by
  induction events generalizing nextSequence with
  | nil => rfl
  | cons event events ih =>
    simp only [acceptEvents, stampEvents] at accepted ⊢
    cases valid : validateEventForSession (event.withSessionSequence nextSequence) sessionId with
    | error error =>
      rw [valid] at accepted
      cases accepted
    | ok =>
      rw [valid] at accepted
      simp [ih accepted]

theorem acceptEvents_error {last : SessionEventEnvelope} {error : String}
    (failed : (acceptEvents sessionId nextSequence (events ++ [last])).2 = .error error) :
    (acceptEvents sessionId nextSequence (events ++ [last])).1 <+:
      stampEvents nextSequence events := by
  induction events generalizing nextSequence with
  | nil =>
    simp only [nil_append, acceptEvents] at failed ⊢
    cases valid : validateEventForSession (last.withSessionSequence nextSequence) sessionId with
    | error error => exact prefix_refl _
    | ok =>
      rw [valid] at failed
      cases failed
  | cons event events ih =>
    simp only [cons_append, acceptEvents, stampEvents] at failed ⊢
    cases valid : validateEventForSession (event.withSessionSequence nextSequence) sessionId with
    | error error => exact nil_prefix
    | ok =>
      rw [valid] at failed
      exact (prefix_cons_inj _).mpr (ih failed)

theorem forall_stampEvents {holds : SessionEventEnvelope → Prop}
    (blind : ∀ event sequence, holds event → holds (event.withSessionSequence sequence))
    (all : ∀ event ∈ events, holds event) : ∀ event ∈ stampEvents nextSequence events, holds event := by
  induction events generalizing nextSequence with
  | nil => exact all
  | cons event events ih =>
    intro stamped member
    rcases mem_cons.mp member with rfl | later
    · exact blind event nextSequence (all event (mem_cons_self ..))
    · exact ih (fun other inside => all other (mem_cons_of_mem _ inside)) stamped later

theorem acceptEvents_valid
    (valid : ∀ event ∈ events, validateEventForSession event sessionId = .ok ()) :
    acceptEvents sessionId nextSequence events = (stampEvents nextSequence events, .ok ()) := by
  induction events generalizing nextSequence with
  | nil => rfl
  | cons event events ih =>
    have first : validateEventForSession (event.withSessionSequence nextSequence) sessionId =
        .ok () := valid event (mem_cons_self ..)
    have rest : acceptEvents sessionId (nextSequence + 1) events =
        (stampEvents (nextSequence + 1) events, .ok ()) :=
      ih fun other inside => valid other (mem_cons_of_mem _ inside)
    simp [acceptEvents, stampEvents, first, rest]

theorem validateEvents_ok_iff :
    validateEvents sessionId events = .ok () ↔
      ∀ event ∈ events, validateEventForSession event sessionId = .ok () := by
  induction events with
  | nil => simp [validateEvents]
  | cons event events ih =>
    simp only [validateEvents, forall_mem_cons, ← ih]
    cases validateEventForSession event sessionId with
    | error error => simp
    | ok => simp

variable {record : SessionRecord}

theorem stampEvents_valid
    (valid : ∀ event ∈ events, validateEventForSession event sessionId = .ok ()) :
    ∀ event ∈ stampEvents nextSequence events, validateEventForSession event sessionId = .ok () :=
  forall_stampEvents (fun _ _ holds => holds) valid

theorem SessionRecord.readEvents_ok
    (own : ∀ event ∈ record.events, validateEventForSession event sessionId = .ok ()) :
    record.readEvents sessionId = .ok record.events := by
  simp [SessionRecord.readEvents, validateEvents_ok_iff.mpr own]

theorem SessionRecord.readEvents_own (reads : record.readEvents sessionId = .ok events) :
    events = record.events ∧
      ∀ event ∈ events, validateEventForSession event sessionId = .ok () := by
  unfold SessionRecord.readEvents at reads
  cases valid : validateEvents sessionId record.events with
  | error error =>
    rw [valid] at reads
    cases reads
  | ok =>
    rw [valid] at reads
    cases reads
    exact ⟨rfl, validateEvents_ok_iff.mp valid⟩

theorem SessionRecord.appendEvents_ok
    (own : ∀ event ∈ record.events, validateEventForSession event sessionId = .ok ())
    (valid : ∀ event ∈ events, validateEventForSession event sessionId = .ok ()) :
    record.appendEvents sessionId events =
      ({ record with events := record.events ++ stampEvents (nextAfter record.events) events },
        .ok ()) := by
  simp [SessionRecord.appendEvents, SessionRecord.readEvents_ok own, acceptEvents_valid valid]

end accepted

def isRecordable : SessionEventData → Bool
  | .sessionCreated _ | .sessionCloned | .sessionForked | .delegationConfirmationRequested ..
  | .delegationConfirmationApproved .. | .delegationConfirmationRejected ..
  | .operationCommitted _ | .operationAborted _ | .operationFailed .. | .operationRecovered ..
  | .metadataUpdated | .activeLeafChanged _ => false
  | _ => true

/-- An open `TurnTransaction`, with the session of its handle. -/
structure TurnTransaction where
  sessionId : String
  operationId : String
  turnId : String
  pendingEvents : List SessionEventEnvelope
  pending : ∀ event ∈ pendingEvents, event.operationId = some operationId ∧
    isRecordable event.data = true

namespace TurnTransaction

/-- The envelope that `push_event` makes. -/
def envelope (eventId createdAt : String) (data : SessionEventData) (transaction : TurnTransaction) :
    SessionEventEnvelope :=
  { (SessionEventEnvelope.new transaction.sessionId eventId createdAt data).withOperationId
      transaction.operationId with
    turnId := some transaction.turnId }

/-- `push_event` before the transaction is finalized. -/
def record (eventId createdAt : String) (data : SessionEventData) (recordable : isRecordable data)
    (transaction : TurnTransaction) : TurnTransaction :=
  { transaction with
    pendingEvents := transaction.pendingEvents ++ [transaction.envelope eventId createdAt data]
    pending := by
      intro event member
      rcases mem_append.mp member with old | new
      · exact transaction.pending event old
      · rw [mem_singleton.mp new]
        exact ⟨rfl, recordable⟩ }

/-- `begin_admitted_with_runtime_generation`. -/
def start (sessionId operationId turnId : String) (eventIds : String × String) (now : String)
    (operation : OperationKind) : TurnTransaction :=
  let empty : TurnTransaction :=
    ⟨sessionId, operationId, turnId, [], forall_mem_nil _⟩
  (empty.record eventIds.1 now (.operationStarted operation) rfl).record eventIds.2 now
    .turnStarted rfl

/-- `commit`. The manifest is only written for a new leaf. -/
def commit (newLeafId : Option String) (eventId now : String) (failure : Option String)
    (transaction : TurnTransaction) (record : SessionRecord) : Attempt SessionRecord Unit :=
  let events := transaction.pendingEvents ++
    [transaction.envelope eventId now (.operationCommitted newLeafId)]
  let appended := record.appendEvents transaction.sessionId events
  match appended.2 with
  | .error error => (appended.1, .error (.session error))
  | .ok () =>
    match newLeafId with
    | none => (appended.1, .ok ())
    | some leafId =>
      let updated := appended.1.updateManifest failure
        { updatedAt := some now, activeLeafId := some (some leafId) }
      match updated.2 with
      | .error error => (updated.1, .error (.partialCommit transaction.operationId error))
      | .ok () => (updated.1, .ok ())

end TurnTransaction

end PiRust.SessionLog
