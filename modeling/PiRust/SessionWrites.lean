import PiRust.SessionRecord

/- The writes of `session_service.rs`, and what they leave in the log and in
`session.json` of a session. -/
namespace PiRust.SessionLog

def committedLeafCutoff (events : List SessionEventEnvelope) (targetLeafId : String) : Option Nat :=
  events.findIdx? fun event =>
    match event.data with
    | .operationCommitted (some newLeafId) => newLeafId = targetLeafId
    | _ => false

def normalizeLeafId (value : String) : Except CodingSessionError String :=
  let trimmed := trim value
  if trimmed = "" then .error (.input "target leaf id must not be empty") else .ok trimmed

/-- A `SessionService`: what is stored, and the manifest in its handle. -/
structure ServiceState where
  record : SessionRecord
  handle : StoredManifest

namespace ServiceState

/-- `self.handle = self.store.open_session_id(..)?` at the end of a write. -/
def refresh (state : ServiceState) : Attempt ServiceState Unit :=
  match state.record.openSession with
  | .error error => (state, .error (.session error))
  | .ok manifest => ({ state with handle := manifest }, .ok ())

theorem refresh_eq {record : SessionRecord} (handle : StoredManifest)
    (valid : validateManifest record.manifest.toSessionManifest = .ok ()) :
    refresh ⟨record, handle⟩ = (⟨record, record.manifest⟩, .ok ()) := by
  simp [refresh, SessionRecord.openSession, valid]

/-- `create_with_id` for a new directory. -/
def create (sessionId eventId createdAt defaultAgentProfileId : String) (cwd : Option String) :
    ServiceState :=
  let manifest := StoredManifest.new sessionId createdAt defaultAgentProfileId
  let created := SessionEventEnvelope.new sessionId eventId createdAt (.sessionCreated cwd)
  { record := ((⟨manifest, []⟩ : SessionRecord).appendEvents sessionId [created]).1
    handle := manifest }

def setDefaultAgentProfileId (profileId now : String) (failure : Option String)
    (state : ServiceState) : Attempt ServiceState Unit :=
  let updated := state.record.updateManifest failure
    { updatedAt := some now, defaultAgentProfileId := some profileId }
  match updated.2 with
  | .error error => ({ state with record := updated.1 }, .error (.session error))
  | .ok () => refresh { state with record := updated.1 }

def switchActiveLeaf (targetLeafId operationId eventId now : String) (failure : Option String)
    (state : ServiceState) : Attempt ServiceState Unit :=
  match normalizeLeafId targetLeafId with
  | .error error => (state, .error error)
  | .ok targetLeafId =>
    let sessionId := state.handle.sessionId
    match state.record.readEvents sessionId with
    | .error error => (state, .error (.session error))
    | .ok events =>
      if (committedLeafCutoff events targetLeafId).isNone then
        (state, .error (.session ("leaf id not found in session: " ++ targetLeafId)))
      else
        let event := SessionEventEnvelope.new sessionId eventId now
          (.activeLeafChanged targetLeafId)
        let appended := state.record.appendEvents sessionId [event]
        match appended.2 with
        | .error error => ({ state with record := appended.1 }, .error (.session error))
        | .ok () =>
          let updated := appended.1.updateManifest failure
            { updatedAt := some now, activeLeafId := some (some targetLeafId) }
          match updated.2 with
          | .error error =>
            ({ state with record := updated.1 }, .error (.partialCommit operationId error))
          | .ok () => refresh { state with record := updated.1 }

def commitPromptTransaction (transaction : TurnTransaction) (newLeafId eventId now : String)
    (failure : Option String) (state : ServiceState) : Attempt ServiceState Unit :=
  let committed := transaction.commit (some newLeafId) eventId now failure state.record
  match committed.2 with
  | .error error => ({ state with record := committed.1 }, .error error)
  | .ok () => refresh { state with record := committed.1 }

/-- `commit_non_leaf_transaction`: manual compactions, branch summaries, plugin loads and
self-healing edits. -/
def commitNonLeafTransaction (transaction : TurnTransaction) (eventId now : String)
    (failure : Option String) (state : ServiceState) : Attempt ServiceState Unit :=
  let committed := transaction.commit none eventId now failure state.record
  match committed.2 with
  | .error error => ({ state with record := committed.1 }, .error error)
  | .ok () =>
    let updated := committed.1.updateManifest failure { updatedAt := some now }
    match updated.2 with
    | .error error =>
      ({ state with record := updated.1 }, .error (.partialCommit transaction.operationId error))
    | .ok () => refresh { state with record := updated.1 }

def interrupted (transaction : TurnTransaction) (written : Nat) (error : String)
    (state : ServiceState) : Attempt ServiceState Unit :=
  let appended := state.record.appendEvents transaction.sessionId
    (transaction.pendingEvents.take written)
  ({ state with record := appended.1 }, .error (.session error))

/-- `open`, with the startup recovery. -/
def reopen (values : Serde) (system : StartupSystem) (failure : Option String)
    (record : SessionRecord) : Attempt SessionRecord ServiceState :=
  match record.openSession with
  | .error error => (record, .error (.session error))
  | .ok manifest =>
    match record.readEvents manifest.sessionId with
    | .error error => (record, .error (.session error))
    | .ok events =>
      let inDoubt := (foldEvents values events).recoverySummary
      if inDoubt = [] then (record, .ok ⟨record, manifest⟩)
      else
        let appended := record.appendEvents manifest.sessionId
          (recoveryEvents system manifest.sessionId (recoveryMarkers system inDoubt))
        match appended.2 with
        | .error error => (appended.1, .error (.session error))
        | .ok () =>
          let updated := appended.1.updateManifest failure { updatedAt := some system.now }
          match updated.2 with
          | .error error => (updated.1, .error (.session error))
          | .ok () =>
            match updated.1.openSession with
            | .error error => (updated.1, .error (.session error))
            | .ok manifest => (updated.1, .ok ⟨updated.1, manifest⟩)

end ServiceState

inductive ServiceCall where
  | commitPrompt (transaction : TurnTransaction) (newLeafId eventId now : String)
      (failure : Option String)
  | commitNonLeaf (transaction : TurnTransaction) (eventId now : String) (failure : Option String)
  | switchActiveLeaf (targetLeafId operationId eventId now : String) (failure : Option String)
  | setDefaultAgentProfileId (profileId now : String) (failure : Option String)
  | interrupted (transaction : TurnTransaction) (written : Nat) (error : String)
  | reopen (system : StartupSystem) (failure : Option String)

/-- One call; an open that fails leaves what it has written, and the old handle. -/
def ServiceState.call (values : Serde) (call : ServiceCall) (state : ServiceState) :
    Attempt ServiceState Unit :=
  match call with
  | .commitPrompt transaction newLeafId eventId now failure =>
    state.commitPromptTransaction transaction newLeafId eventId now failure
  | .commitNonLeaf transaction eventId now failure =>
    state.commitNonLeafTransaction transaction eventId now failure
  | .switchActiveLeaf targetLeafId operationId eventId now failure =>
    state.switchActiveLeaf targetLeafId operationId eventId now failure
  | .setDefaultAgentProfileId profileId now failure =>
    state.setDefaultAgentProfileId profileId now failure
  | .interrupted transaction written error => state.interrupted transaction written error
  | .reopen system failure =>
    match ServiceState.reopen values system failure state.record with
    | (record, .error error) => ({ state with record := record }, .error error)
    | (_, .ok opened) => (opened, .ok ())

/-- The leaf that a call is to make the active one. -/
def ServiceCall.leaf : ServiceCall → Option String
  | .commitPrompt _ newLeafId _ _ _ => some newLeafId
  | .switchActiveLeaf targetLeafId _ _ _ _ => some (trim targetLeafId)
  | _ => none

/-- The move of the active leaf that a call records in the log, and whether
`session.json` takes it too. -/
def ServiceState.move (values : Serde) (call : ServiceCall) (state : ServiceState) :
    Option (String × Bool) :=
  match call.leaf, (state.call values call).2 with
  | some leaf, .ok () => some (leaf, true)
  | some leaf, .error (.partialCommit ..) => some (leaf, false)
  | _, _ => none

def ServiceState.run (values : Serde) : List ServiceCall → ServiceState → ServiceState
  | [], state => state
  | call :: rest, state => run values rest (state.call values call).1

/-- The moves of a run, in order. -/
def ServiceState.moves (values : Serde) : List ServiceCall → ServiceState → List (String × Bool)
  | [], _ => []
  | call :: rest, state =>
    (state.move values call).toList ++ moves values rest (state.call values call).1

end PiRust.SessionLog
