import PiRust.Replay

/- `session_log/store.rs` and the startup recovery of `session_service.rs`, over one
session directory. -/
namespace PiRust.SessionLog

/-- The directory of a session: `session.json` as it parses, and the file that it
names as the event log. -/
structure SessionManifest where
  schema : String
  version : UInt32
  sessionId : String
  updatedAt : String
  eventLog : String
  deriving DecidableEq, Repr

structure SessionDir where
  root : String
  name : String
  manifest : SessionManifest
  eventLog : Option ByteArray

/-- What the store uses of `serde_json` on envelopes: `from_str` and `to_writer`. -/
structure EventSerde where
  fromStr : String → Except String SessionEventEnvelope
  toWriter : SessionEventEnvelope → String

def sessionSchema : String := "pi-rust.session"
def sessionVersion : UInt32 := 1
def eventSchema : String := "pi-rust.session.event"
def eventVersion : UInt32 := 2

def SessionEventEnvelope.new (sessionId eventId createdAt : String) (data : SessionEventData) :
    SessionEventEnvelope where
  schema := eventSchema
  version := eventVersion
  sessionId := sessionId
  sessionSequence := none
  eventId := eventId
  operationId := none
  turnId := none
  createdAt := createdAt
  data := data
  unread := ""

def SessionEventEnvelope.withSessionSequence (event : SessionEventEnvelope) (sequence : UInt64) :
    SessionEventEnvelope :=
  { event with sessionSequence := some sequence }

def SessionEventEnvelope.withOperationId (event : SessionEventEnvelope) (operationId : String) :
    SessionEventEnvelope :=
  { event with operationId := some operationId }

def SessionDir.path (dir : SessionDir) : String := dir.root ++ "/" ++ dir.name

/-- `validate_relative_manifest_path`: every component of the path is a plain name. -/
def validateRelativeManifestPath (path : String) : Except String Unit :=
  let cut := Framing.pieces '/' path.toList
  let components := cut.1 ++ [cut.2]
  if path = "" then .error "manifest event log path must not be empty"
  else if path.toList.head? = some '/' ∨ components.head? = some ['.'] ∨ ['.', '.'] ∈ components then
    .error ("manifest event log path must be relative and contained: " ++ path)
  else .ok ()

def validateManifest (manifest : SessionManifest) : Except String Unit :=
  if manifest.schema ≠ sessionSchema then
    .error ("unsupported session manifest schema: " ++ manifest.schema)
  else if manifest.version ≠ sessionVersion then
    .error ("unsupported session manifest version: " ++ toString manifest.version)
  else validateRelativeManifestPath manifest.eventLog

def eventLogPath (dir : SessionDir) (manifest : SessionManifest) : Except String String := do
  validateRelativeManifestPath manifest.eventLog
  return dir.path ++ "/" ++ manifest.eventLog

def normalizeSessionId (value : String) : Except String String :=
  let sessionId := trim value
  if sessionId = "" then .error "session id must not be empty"
  else if sessionId.toList.all fun c => c.isAlphanum || c == '_' || c == '-' then .ok sessionId
  else .error ("session id contains unsupported path characters: " ++ sessionId)

/-- `open_session`. The result is the manifest that the handle keeps. -/
def openSession (dir : SessionDir) : Except String SessionManifest := do
  validateManifest dir.manifest
  let path ← eventLogPath dir dir.manifest
  if dir.eventLog.isNone then throw ("session event log is missing: " ++ path)
  return dir.manifest

def openSessionId (sessionId : String) (dir : SessionDir) : Except String SessionManifest := do
  let sessionId ← normalizeSessionId sessionId
  if sessionId ≠ dir.name then
    throw ("failed to resolve session directory " ++ dir.root ++ "/" ++ sessionId ++
      ": No such file or directory (os error 2)")
  openSession dir

def validateEventForSession (event : SessionEventEnvelope) (sessionId : String) :
    Except String Unit :=
  if event.schema ≠ eventSchema then
    .error ("unsupported session event schema: " ++ event.schema)
  else if event.version ≠ eventVersion then
    .error ("unsupported session event version: " ++ toString event.version)
  else if event.sessionId ≠ sessionId then
    .error ("session event " ++ event.eventId ++ " belongs to " ++ event.sessionId ++
      ", expected " ++ sessionId)
  else .ok ()

/-- `fs::read_to_string` on the event log. -/
def readToString (path : String) (dir : SessionDir) : Except String String :=
  match dir.eventLog with
  | none => .error ("failed to read session event log " ++ path ++
      ": No such file or directory (os error 2)")
  | some bytes =>
    match String.fromUTF8? bytes with
    | none => .error ("failed to read session event log " ++ path ++
        ": stream did not contain valid UTF-8")
    | some content => .ok content

section serde

variable (serde : EventSerde)

/-- The loop over the lines of the log that `read_events` and `next_session_sequence`
share; an event without a sequence gets its position among the lines. -/
def readLines (path sessionId : String) :
    Nat → UInt64 → List String → Except String (List SessionEventEnvelope)
  | _, _, [] => .ok []
  | index, compatibilitySequence, line :: rest =>
    if trim line = "" then readLines path sessionId (index + 1) compatibilitySequence rest
    else
      match serde.fromStr line with
      | .error error => .error ("failed to parse session event at line " ++
          toString (index + 1) ++ " in " ++ path ++ ": " ++ error)
      | .ok event => do
          let sequence := event.sessionSequence.getD (compatibilitySequence + 1)
          let event := event.withSessionSequence sequence
          validateEventForSession event sessionId
          let later ← readLines path sessionId (index + 1) (compatibilitySequence + 1) rest
          return event :: later

def readEvents (manifest : SessionManifest) (dir : SessionDir) :
    Except String (List SessionEventEnvelope) := do
  let path ← eventLogPath dir manifest
  let content ← readToString path dir
  readLines serde path manifest.sessionId 0 0 (lines content)

def nextSessionSequence (manifest : SessionManifest) (dir : SessionDir) : Except String UInt64 := do
  let events ← readEvents serde manifest dir
  let last := events.foldl (fun last event => max last (event.sessionSequence.getD 0)) 0
  return last + 1

/-- The bytes that the loop of `append_events` hands to its writer, and how it ends.
What was written before an invalid event still reaches the file. -/
def writeEvents (sessionId : String) :
    UInt64 → List SessionEventEnvelope → String × Except String Unit
  | _, [] => ("", .ok ())
  | nextSequence, event :: rest =>
    let event := event.withSessionSequence nextSequence
    match validateEventForSession event sessionId with
    | .error error => ("", .error error)
    | .ok () =>
      let later := writeEvents sessionId (nextSequence + 1) rest
      (serde.toWriter event ++ "\n" ++ later.1, later.2)

def SessionDir.append (dir : SessionDir) (bytes : ByteArray) : SessionDir :=
  { dir with eventLog := dir.eventLog.map fun log => log ++ bytes }

def appendEvents (manifest : SessionManifest) (events : List SessionEventEnvelope)
    (dir : SessionDir) : SessionDir × Except String Unit :=
  match nextSessionSequence serde manifest dir with
  | .error error => (dir, .error error)
  | .ok nextSequence =>
    let written := writeEvents serde manifest.sessionId nextSequence events
    (dir.append written.1.toUTF8, written.2)

def replaySession (values : Serde) (manifest : SessionManifest) (dir : SessionDir) :
    Except String SessionReplay := do
  let events ← readEvents serde manifest dir
  return foldEvents values events

end serde

/-- `update_manifest` with a patch of `updated_at` alone. -/
def updateManifest (updatedAt : String) (dir : SessionDir) : SessionDir × Except String Unit :=
  let manifest := { dir.manifest with updatedAt := updatedAt }
  match validateManifest manifest with
  | .error error => (dir, .error error)
  | .ok () => ({ dir with manifest := manifest }, .ok ())

/-- What `SystemIdGenerator` and `SystemClock` hand out during a recovery. -/
structure StartupSystem where
  nextOperationId : Nat → String
  nextEventId : Nat → String
  now : String

structure StartupRecoveryMarker where
  operationId : String
  recoveryId : String
  reason : String
  deriving DecidableEq, Repr

def recoveryReason : String := "startup recovery marked incomplete operation in-doubt"

def recoveryMarkers (system : StartupSystem) (inDoubt : List String) : List StartupRecoveryMarker :=
  inDoubt.zipIdx.map fun entry =>
    { operationId := entry.1
      recoveryId := system.nextOperationId entry.2
      reason := recoveryReason }

def recoveryEvents (system : StartupSystem) (sessionId : String)
    (markers : List StartupRecoveryMarker) : List SessionEventEnvelope :=
  markers.zipIdx.map fun entry =>
    (SessionEventEnvelope.new sessionId (system.nextEventId entry.2) system.now
      (.operationRecovered entry.1.reason entry.1.recoveryId)).withOperationId entry.1.operationId

/-- `SessionService`, with the handle's copy of the manifest. -/
structure SessionService where
  manifest : SessionManifest
  startupRecoveryMarkers : List StartupRecoveryMarker

def applyStartupRecovery (serde : EventSerde) (values : Serde) (system : StartupSystem)
    (service : SessionService) (dir : SessionDir) : SessionDir × Except String SessionService :=
  match replaySession serde values service.manifest dir with
  | .error error => (dir, .error error)
  | .ok replay =>
    if replay.recoverySummary = [] then (dir, .ok service)
    else
      let markers := recoveryMarkers system replay.recoverySummary
      let events := recoveryEvents system service.manifest.sessionId markers
      let appended := appendEvents serde service.manifest events dir
      match appended.2 with
      | .error error => (appended.1, .error error)
      | .ok () =>
        let updated := updateManifest system.now appended.1
        match updated.2 with
        | .error error => (updated.1, .error error)
        | .ok () =>
          match openSessionId service.manifest.sessionId updated.1 with
          | .error error => (updated.1, .error error)
          | .ok manifest =>
            (updated.1, .ok
              { manifest := manifest
                startupRecoveryMarkers := service.startupRecoveryMarkers ++ markers })

/-- `SessionService::open`. -/
def openService (serde : EventSerde) (values : Serde) (system : StartupSystem)
    (dir : SessionDir) : SessionDir × Except String SessionService :=
  match openSession dir with
  | .error error => (dir, .error error)
  | .ok manifest => applyStartupRecovery serde values system ⟨manifest, []⟩ dir

def SessionService.replay (serde : EventSerde) (values : Serde) (service : SessionService)
    (dir : SessionDir) : Except String SessionReplay :=
  replaySession serde values service.manifest dir

end PiRust.SessionLog
