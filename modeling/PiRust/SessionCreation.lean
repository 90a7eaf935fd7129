import PiRust.SessionCopy

/- How a session comes to be on disk: `create_session`, `remove_session` and what
`SessionService` builds on them, with every call of the store that can fail. -/
namespace PiRust.SessionCreation

open SessionLog

/-- An event log. A failed write may leave a piece of a line at its end, with the error that
reading it gives. -/
structure LogFile where
  events : List SessionEventEnvelope
  torn : Option String

structure SessionDirectory where
  blobs : Bool := false
  index : Bool := false
  manifest : Option StoredManifest := none
  eventLog : Option LogFile := none

structure StoreRoot where
  path : String
  dirs : StringMap SessionDirectory

structure SessionHandle where
  name : String
  manifest : StoredManifest

/-- A write of events that fails after its first `kept` lines, and maybe inside the next. -/
structure AppendFault where
  error : String
  kept : Nat
  torn : Option String

structure RemoveFault where
  error : String
  keeps : SessionDirectory → SessionDirectory

/-- The calls of the store that fail. Those that one operation makes more than once are counted
from zero, as the failure injection of the store counts them. -/
structure StoreFaults where
  resolveRoot : Option String := none
  createRoot : Option String := none
  createDir : Option String := none
  createBlobs : Option String := none
  createIndex : Option String := none
  writeManifest : Option String := none
  createEventLog : Option String := none
  openSession : Nat → Option String := fun _ => none
  readEvents : Nat → Option String := fun _ => none
  appendEvents : Nat → Option AppendFault := fun _ => none
  updateManifest : Option String := none
  removeSession : Option RemoveFault := none

def displayError : SessionLog.CodingSessionError → String
  | .session message => "session error: " ++ message
  | .input message => "invalid input: " ++ message
  | .partialCommit operationId message =>
    "partial commit uncertainty for operation " ++ operationId ++ ": " ++ message
  | .provider message => "provider error: " ++ message
  | .tool message => "tool error: " ++ message
  | .unsupportedCapability capability => "unsupported capability: " ++ capability

inductive SessionCreateError where
  | create (error : SessionLog.CodingSessionError)
  | cleanupFailed (sessionId sessionDir : String)
      (createError cleanupError : SessionLog.CodingSessionError)

def SessionCreateError.toError : SessionCreateError → SessionLog.CodingSessionError
  | .create error => error
  | .cleanupFailed sessionId sessionDir createError cleanupError =>
    .session ("session initialization failed for " ++ sessionId ++ " at " ++ sessionDir ++ ": " ++
      displayError createError ++ "; cleanup failed: " ++ displayError cleanupError)

namespace StoreRoot

def put (root : StoreRoot) (name : String) (dir : SessionDirectory) : StoreRoot :=
  { root with dirs := StringMap.insert root.dirs name dir }

def sessionDir (root : StoreRoot) (name : String) : String := root.path ++ "/" ++ name

end StoreRoot

/-- `remove_session` and `remove_created_session_dir`. -/
def removeSession (faults : StoreFaults) (name : String) (root : StoreRoot) :
    Attempt StoreRoot Unit :=
  match faults.removeSession with
  | none => ({ root with dirs := StringMap.remove root.dirs name }, .ok ())
  | some fault =>
    match StringMap.get root.dirs name with
    | none => (root, .error (.session fault.error))
    | some dir => (root.put name (fault.keeps dir), .error (.session fault.error))

/-- The closure of `create_session`, in a new directory. -/
def initialization (faults : StoreFaults) (sessionDir : String) (manifest : StoredManifest) :
    Attempt SessionDirectory Unit :=
  match faults.createBlobs with
  | some error => ({}, .error (.session ("failed to create blobs directory for " ++
      manifest.sessionId ++ ": " ++ error)))
  | none =>
    match faults.createIndex with
    | some error => ({ blobs := true }, .error (.session ("failed to create index directory for "
        ++ manifest.sessionId ++ ": " ++ error)))
    | none =>
      match faults.writeManifest with
      | some error => ({ blobs := true, index := true }, .error (.session
          ("failed to write session manifest " ++ sessionDir ++ "/session.json: " ++ error)))
      | none =>
        match faults.createEventLog with
        | some error => ({ blobs := true, index := true, manifest := some manifest },
            .error (.session ("failed to create session event log " ++ sessionDir ++
              "/events.jsonl: " ++ error)))
        | none =>
          (⟨true, true, some manifest, some ⟨[], none⟩⟩, .ok ())

def createSession (faults : StoreFaults) (sessionId createdAt defaultAgentProfileId : String)
    (root : StoreRoot) : StoreRoot × Except SessionCreateError SessionHandle :=
  match normalizeSessionId sessionId with
  | .error error => (root, .error (.create (.session error)))
  | .ok name =>
    match faults.createRoot with
    | some error => (root, .error (.create (.session
        ("failed to create session log root " ++ root.path ++ ": " ++ error))))
    | none =>
      let dir := root.sessionDir name
      if (StringMap.get root.dirs name).isSome then
        (root, .error (.create (.session ("session directory already exists: " ++ dir))))
      else
        match faults.createDir with
        | some error => (root, .error (.create (.session
            ("failed to create session directory " ++ dir ++ ": " ++ error))))
        | none =>
          let manifest := StoredManifest.new name createdAt defaultAgentProfileId
          let initialized := initialization faults dir manifest
          let made := root.put name initialized.1
          match initialized.2 with
          | .ok () => (made, .ok ⟨name, manifest⟩)
          | .error createError =>
            let removed := removeSession faults name made
            match removed.2 with
            | .ok () => (removed.1, .error (.create createError))
            | .error cleanupError =>
              (removed.1, .error (.cleanupFailed name dir createError cleanupError))

/-- `open_session` on the directory of a name; `call` counts the calls before. -/
def openSession (faults : StoreFaults) (call : Nat) (name : String) (root : StoreRoot) :
    Except SessionLog.CodingSessionError SessionHandle :=
  match faults.openSession call with
  | some error => .error (.session error)
  | none =>
    match StringMap.get root.dirs name with
    | none => .error (.session ("failed to resolve session directory " ++ root.sessionDir name ++
        ": No such file or directory (os error 2)"))
    | some dir =>
      match dir.manifest with
      | none => .error (.session ("failed to read session manifest " ++ root.sessionDir name ++
          "/session.json: No such file or directory (os error 2)"))
      | some manifest =>
        match validateManifest manifest.toSessionManifest with
        | .error error => .error (.session error)
        | .ok () =>
          if dir.eventLog.isNone then
            .error (.session ("session event log is missing: " ++ root.sessionDir name ++
              "/" ++ manifest.eventLog))
          else .ok ⟨name, manifest⟩

def openSessionId (faults : StoreFaults) (call : Nat) (sessionId : String) (root : StoreRoot) :
    Except SessionLog.CodingSessionError SessionHandle :=
  match normalizeSessionId sessionId with
  | .error error => .error (.session error)
  | .ok name => openSession faults call name root

/-- The events of a log file; a torn line does not parse. -/
def LogFile.read (sessionId : String) (log : LogFile) :
    Except SessionLog.CodingSessionError (List SessionEventEnvelope) :=
  match validateEvents sessionId log.events with
  | .error error => .error (.session error)
  | .ok () =>
    match log.torn with
    | some error => .error (.session error)
    | none => .ok log.events

def readEvents (faults : StoreFaults) (call : Nat) (handle : SessionHandle) (root : StoreRoot) :
    Except SessionLog.CodingSessionError (List SessionEventEnvelope) :=
  match faults.readEvents call with
  | some error => .error (.session error)
  | none =>
    match (StringMap.get root.dirs handle.name).bind SessionDirectory.eventLog with
    | none => .error (.session ("failed to read session event log " ++
        root.sessionDir handle.name ++ "/" ++ handle.manifest.eventLog ++
        ": No such file or directory (os error 2)"))
    | some log => log.read handle.manifest.sessionId

/-- `append_events`: `call` counts the calls before. -/
def appendEvents (faults : StoreFaults) (call : Nat) (handle : SessionHandle)
    (batch : List SessionEventEnvelope) (root : StoreRoot) : Attempt StoreRoot Unit :=
  match StringMap.get root.dirs handle.name with
  | none => (root, .error (.session ("failed to read session event log " ++
      root.sessionDir handle.name ++ "/" ++ handle.manifest.eventLog)))
  | some dir =>
    match dir.eventLog with
    | none => (root, .error (.session ("failed to read session event log " ++
        root.sessionDir handle.name ++ "/" ++ handle.manifest.eventLog)))
    | some log =>
      match log.read handle.manifest.sessionId with
      | .error error => (root, .error error)
      | .ok before =>
        let accepted := acceptEvents handle.manifest.sessionId (nextAfter before) batch
        match faults.appendEvents call with
        | some fault =>
          let left : LogFile := ⟨before ++ accepted.1.take fault.kept, fault.torn⟩
          (root.put handle.name { dir with eventLog := some left }, .error (.session fault.error))
        | none =>
          let grown : LogFile := ⟨before ++ accepted.1, none⟩
          (root.put handle.name { dir with eventLog := some grown },
            match accepted.2 with
            | .error error => .error (.session error)
            | .ok () => .ok ())

def updateManifest (faults : StoreFaults) (handle : SessionHandle) (patch : ManifestPatch)
    (root : StoreRoot) : Attempt StoreRoot Unit :=
  match faults.updateManifest with
  | some error => (root, .error (.session error))
  | none =>
    match StringMap.get root.dirs handle.name with
    | none => (root, .error (.session ("failed to read session manifest " ++
        root.sessionDir handle.name ++ "/session.json")))
    | some dir =>
      match dir.manifest with
      | none => (root, .error (.session ("failed to read session manifest " ++
          root.sessionDir handle.name ++ "/session.json")))
      | some manifest =>
        let patched := patch.apply manifest
        match validateManifest patched.toSessionManifest with
        | .error error => (root, .error (.session error))
        | .ok () => (root.put handle.name { dir with manifest := some patched }, .ok ())

/-- What the generators and the clock hand out to an entry point of `SessionService`. -/
structure CreationSystem extends CopySystem where
  startup : StartupSystem

/-- What an entry point reads of `CodingAgentSessionOptions`. -/
structure SessionOptions where
  sessionId : Option String
  sessionPath : Option String
  cwd : Option String
  defaultAgentProfileId : Option String

def SessionOptions.profileId (options : SessionOptions) : String :=
  options.defaultAgentProfileId.getD "default"

def cleanupFailedSessionCopy (faults : StoreFaults) (handle : SessionHandle) (operationId : String)
    (copyError : SessionLog.CodingSessionError) (root : StoreRoot) :
    StoreRoot × SessionLog.CodingSessionError :=
  let removed := removeSession faults handle.name root
  match removed.2 with
  | .ok () => (removed.1, copyError)
  | .error cleanupError =>
    (removed.1, .partialCommit operationId ("session copy failed after creating " ++
      handle.manifest.sessionId ++ ": " ++ displayError copyError ++ "; cleanup failed: " ++
      displayError cleanupError))

/-- `create_with_id`; a copy passes the id of its operation. -/
def createWithId (faults : StoreFaults) (system : CreationSystem) (sessionId : String)
    (cwd : Option String) (defaultAgentProfileId : String) (copyOperationId : Option String)
    (root : StoreRoot) : Attempt StoreRoot SessionHandle :=
  let created := createSession faults sessionId system.now defaultAgentProfileId root
  match created.2 with
  | .error (.cleanupFailed sessionId sessionDir createError cleanupError) =>
    match copyOperationId with
    | some operationId =>
      (created.1, .error (.partialCommit operationId ("session copy failed while creating " ++
        sessionId ++ " at " ++ sessionDir ++ ": " ++ displayError createError ++
        "; cleanup failed: " ++ displayError cleanupError)))
    | none => (created.1, .error (SessionCreateError.cleanupFailed sessionId sessionDir
        createError cleanupError).toError)
  | .error error => (created.1, .error error.toError)
  | .ok handle =>
    let event := SessionEventEnvelope.new handle.manifest.sessionId (system.nextEventId 0)
      system.now (.sessionCreated cwd)
    let appended := appendEvents faults 0 handle [event] created.1
    match appended.2 with
    | .ok () => (appended.1, .ok handle)
    | .error error =>
      match copyOperationId with
      | some operationId =>
        let cleaned := cleanupFailedSessionCopy faults handle operationId error appended.1
        (cleaned.1, .error cleaned.2)
      | none => (appended.1, .error error)

/-- `normalize_session_id` of the service, with its label. -/
def normalizeSessionIdOption (value : String) : Except SessionLog.CodingSessionError String :=
  let trimmed := trim value
  if trimmed = "" then .error (.input "session id must not be empty") else .ok trimmed

variable (faults : StoreFaults)

def create (system : CreationSystem) (options : SessionOptions) (root : StoreRoot) :
    Attempt StoreRoot SessionHandle :=
  match faults.resolveRoot with
  | some error => (root, .error (.session error))
  | none =>
    let sessionId := match options.sessionId with
      | some sessionId => normalizeSessionIdOption sessionId
      | none => .ok system.targetSessionId
    match sessionId with
    | .error error => (root, .error error)
    | .ok sessionId =>
      createWithId faults system sessionId options.cwd options.profileId none root

/-- `apply_startup_recovery` of a service that was just opened. -/
def applyStartupRecovery (values : Serde) (system : StartupSystem) (handle : SessionHandle)
    (root : StoreRoot) : Attempt StoreRoot SessionHandle :=
  match readEvents faults 0 handle root with
  | .error error => (root, .error error)
  | .ok events =>
    let inDoubt := (foldEvents values events).recoverySummary
    if inDoubt = [] then (root, .ok handle)
    else
      let sessionId := handle.manifest.sessionId
      let markers := recoveryEvents system sessionId (recoveryMarkers system inDoubt)
      let appended := appendEvents faults 0 handle markers root
      match appended.2 with
      | .error error => (appended.1, .error error)
      | .ok () =>
        let updated := updateManifest faults handle { updatedAt := some system.now } appended.1
        match updated.2 with
        | .error error => (updated.1, .error error)
        | .ok () => (updated.1, openSessionId faults 1 sessionId updated.1)

/-- `open_or_create` of a session that is there. -/
def openExisting (values : Serde) (system : StartupSystem) (name : String) (root : StoreRoot) :
    Attempt StoreRoot SessionHandle :=
  match openSession faults 0 name root with
  | .error error => (root, .error error)
  | .ok handle => applyStartupRecovery faults values system handle root

def openOrCreate (values : Serde) (system : CreationSystem) (options : SessionOptions)
    (root : StoreRoot) : Attempt StoreRoot SessionHandle :=
  match options.sessionPath with
  | some _ =>
    (root, .error (.input "open-or-create requires a session id, not a session path"))
  | none =>
    match options.sessionId with
    | none => (root, .error (.input "open-or-create requires a session id"))
    | some sessionId =>
      match normalizeSessionIdOption sessionId with
      | .error error => (root, .error error)
      | .ok sessionId =>
        match faults.resolveRoot with
        | some error => (root, .error (.session error))
        | none =>
          match normalizeSessionId sessionId with
          | .error error => (root, .error (.session error))
          | .ok name =>
            if (StringMap.get root.dirs name).isSome then
              openExisting faults values system.startup name root
            else
              createWithId faults system sessionId options.cwd options.profileId none root

/-- The closure of `copy_to_new_session`, over the selected source events. -/
def fillCopy (system : CreationSystem) (kind : SessionCopyKind) (targetLeafId : String)
    (selected : List SessionEventEnvelope) (target : SessionHandle) (root : StoreRoot) :
    Attempt StoreRoot SessionHandle :=
  let sessionId := target.manifest.sessionId
  let provenance := SessionEventEnvelope.new sessionId (system.nextEventId 1) system.now
    kind.provenanceEvent
  let marked := appendEvents faults 1 target [provenance] root
  match marked.2 with
  | .error error => (marked.1, .error error)
  | .ok () =>
    let copied := appendEvents faults 2 target
      (copiedEvents system.toCopySystem sessionId selected) marked.1
    match copied.2 with
    | .error error => (copied.1, .error error)
    | .ok () =>
      let updated := updateManifest faults target
        { updatedAt := some system.now, activeLeafId := some (some targetLeafId) } copied.1
      match updated.2 with
      | .error error => (updated.1, .error error)
      | .ok () => (updated.1, openSessionId faults 0 sessionId updated.1)

/-- The second half of `copy_to_new_session`: the target is made and filled, and removed again
when that fails. -/
def publishCopy (system : CreationSystem) (kind : SessionCopyKind)
    (operationId targetLeafId : String) (cwd : Option String) (defaultAgentProfileId : String)
    (selected : List SessionEventEnvelope) (root : StoreRoot) : Attempt StoreRoot SessionHandle :=
  let created := createWithId faults system system.targetSessionId cwd defaultAgentProfileId
    (some operationId) root
  match created.2 with
  | .error error => (created.1, .error error)
  | .ok target =>
    let filled := fillCopy faults system kind targetLeafId selected target created.1
    match filled.2 with
    | .ok opened => (filled.1, .ok opened)
    | .error error =>
      let cleaned := cleanupFailedSessionCopy faults target operationId error filled.1
      (cleaned.1, .error cleaned.2)

def copyToNewSession (values : Serde) (system : CreationSystem) (kind : SessionCopyKind)
    (targetLeafId admittedOperationId : Option String) (handle : SessionHandle) (root : StoreRoot) :
    Attempt StoreRoot SessionHandle :=
  match resolveCopyTargetLeaf handle.manifest targetLeafId with
  | .error error => (root, .error error)
  | .ok targetLeafId =>
    match readEvents faults 0 handle root with
    | .error error => (root, .error error)
    | .ok sourceEvents =>
      match committedLeafCutoff sourceEvents targetLeafId with
      | none => (root,
          .error (.session ("leaf id not found in source session: " ++ targetLeafId)))
      | some cutoff =>
        match readEvents faults 1 handle root with
        | .error error => (root, .error error)
        | .ok replayed =>
          publishCopy faults system kind (admittedOperationId.getD system.operationId)
            targetLeafId (foldEvents values replayed).cwd
            handle.manifest.defaultAgentProfileId
            (selectedEvents sourceEvents cutoff targetLeafId) root

/-- The four ways to a session. -/
inductive Entry where
  | create (options : SessionOptions)
  | openOrCreate (options : SessionOptions)
  | fork (targetLeafId admittedOperationId : Option String) (handle : SessionHandle)
  | clone (handle : SessionHandle)

def Entry.run (values : Serde) (system : CreationSystem) (root : StoreRoot) :
    Entry → Attempt StoreRoot SessionHandle
  | .create options => SessionCreation.create faults system options root
  | .openOrCreate options => SessionCreation.openOrCreate faults values system options root
  | .fork targetLeafId admittedOperationId handle =>
    copyToNewSession faults values system .fork targetLeafId admittedOperationId handle root
  | .clone handle => copyToNewSession faults values system .clone none none handle root

end PiRust.SessionCreation
