import PiRust.EventLog
import PiRust.ReplayRetention
import PiRust.ReplayStatus

/- A crash in the middle of `append_events`, and the next `SessionService::open`. -/
namespace PiRust.SessionLog

open List

theorem fromUTF8?_toUTF8 (text : String) : String.fromUTF8? text.toUTF8 = some text := by
  have valid : text.toUTF8.IsValidUTF8 := text.isValidUTF8
  rw [String.fromUTF8?, dif_pos valid]
  rfl

theorem toUTF8_of_fromUTF8? {bytes : ByteArray} {text : String}
    (decoded : String.fromUTF8? bytes = some text) : text.toUTF8 = bytes := by
  unfold String.fromUTF8? at decoded
  split at decoded
  · cases decoded
    rfl
  · cases decoded

theorem fromUTF8?_cut {content written text : String} {cut : Nat}
    (decoded : String.fromUTF8? (content.toUTF8 ++ written.toUTF8.extract 0 cut) = some text) :
    ∃ front : String, text = content ++ front ∧ front.toList <+: written.toList ∧
      front.toUTF8 = written.toUTF8.extract 0 cut := by
  have bytes := toUTF8_of_fromUTF8? decoded
  have before : content.toList <+: text.toList := by
    refine isPrefix_of_utf8Encode_append_eq_utf8Encode (written.toUTF8.extract 0 cut) ?_
    rw [String.utf8Encode_toList, String.utf8Encode_toList]
    exact bytes.symm
  obtain ⟨rest, split⟩ := before
  have joined : text = content ++ String.ofList rest := by
    apply String.toList_inj.mp
    rw [String.toList_append, String.toList_ofList, split]
  have own : (String.ofList rest).toUTF8 = written.toUTF8.extract 0 cut := by
    rw [joined] at bytes
    exact (ByteArray.append_right_inj content.toUTF8).mp
      ((String.toByteArray_append).symm.trans bytes)
  refine ⟨String.ofList rest, joined, ?_, own⟩
  have whole : (String.ofList rest).toUTF8 ++ written.toUTF8.extract cut written.toUTF8.size =
      written.toUTF8 := by
    rw [own, ByteArray.extract_append_extract, Nat.min_eq_left (Nat.zero_le cut)]
    exact ByteArray.extract_zero_max_size
  refine isPrefix_of_utf8Encode_append_eq_utf8Encode
    (written.toUTF8.extract cut written.toUTF8.size) ?_
  rw [String.utf8Encode_toList, String.utf8Encode_toList]
  exact whole

def stampEvents : UInt64 → List SessionEventEnvelope → List SessionEventEnvelope
  | _, [] => []
  | nextSequence, event :: rest =>
    event.withSessionSequence nextSequence :: stampEvents (nextSequence + 1) rest

theorem stampEvents_map {β : Type} {read : SessionEventEnvelope → β}
    (blind : ∀ event sequence, read (event.withSessionSequence sequence) = read event)
    (nextSequence : UInt64) (events : List SessionEventEnvelope) :
    (stampEvents nextSequence events).map read = events.map read := by
  induction events generalizing nextSequence with
  | nil => rfl
  | cons event events ih =>
    rw [stampEvents, map_cons, map_cons, blind, ih]

/-- The sequence that `next_session_sequence` finds after some events. -/
def nextAfter (events : List SessionEventEnvelope) : UInt64 :=
  events.foldl (fun last event => max last (event.sessionSequence.getD 0)) 0 + 1

/-- The lines that a startup recovery adds after some events. -/
def recoveryLines (values : Serde) (system : StartupSystem) (sessionId : String)
    (events : List SessionEventEnvelope) : List SessionEventEnvelope :=
  stampEvents (nextAfter events) (recoveryEvents system sessionId
    (recoveryMarkers system (foldEvents values events).recoverySummary))

/-- The directory after a crash that let the first `cut` bytes of an append through. -/
def tornAppend (serde : EventSerde) (manifest : SessionManifest)
    (events : List SessionEventEnvelope) (cut : Nat) (dir : SessionDir) : SessionDir :=
  match nextSessionSequence serde manifest dir with
  | .error _ => dir
  | .ok nextSequence =>
    dir.append ((writeEvents serde manifest.sessionId nextSequence events).1.toUTF8.extract 0 cut)

/-- The operation was started and has no final marker. -/
def InDoubt (events : List SessionEventEnvelope) (operationId : String) : Prop :=
  isStarted events operationId = true ∧ operationId ∉ finalizedOperationIds events

/-- A session as the store keeps it: whole lines that read as `events`. -/
structure ValidSession (serde : EventSerde) (dir : SessionDir) (content : String)
    (events : List SessionEventEnvelope) : Prop where
  manifest : validateManifest dir.manifest = .ok ()
  named : normalizeSessionId dir.manifest.sessionId = .ok dir.name
  log : dir.eventLog = some content.toUTF8
  ended : content = "" ∨ content.toList.getLast? = some '\n'
  reads : readEvents serde dir.manifest dir = .ok events

/-- The session opens, its log starts with the events it had before, and its replay
shows their finalized operations as finalized. Their items are unchanged unless an
event that became visible later is itself about them. -/
def Recovers (serde : EventSerde) (values : Serde) (system : StartupSystem)
    (before : List SessionEventEnvelope) (dir : SessionDir) : Prop :=
  ∃ reopened service replay later,
    openService serde values system dir = (reopened, .ok service) ∧
    service.replay serde values reopened = .ok replay ∧
    readEvents serde service.manifest reopened = .ok (before ++ later) ∧
    (∀ operationId ∈ finalizedOperationIds before,
      ∃ status, replay.operationStatus operationId = some status ∧ status ≠ .inDoubt) ∧
    (Undisturbed before later →
      Sublist (foldEvents values before).transcript replay.transcript)

/-- The bytes that got through end with a line, or lack only its line feed while no
operation is in doubt. -/
def CleanCut (serde : EventSerde) (before stored : List SessionEventEnvelope) (cut : Nat) : Prop :=
  ∃ whole rest, stored = whole ++ rest ∧
    ((jsonLines serde stored).toUTF8.extract 0 cut = (jsonLines serde whole).toUTF8 ∨
      ∃ last, rest.head? = some last ∧
        (jsonLines serde stored).toUTF8.extract 0 cut =
          (jsonLines serde whole ++ serde.toWriter last).toUTF8 ∧
        ∀ operationId, ¬ InDoubt (before ++ whole ++ [last]) operationId)

theorem inDoubt_iff (events : List SessionEventEnvelope) (operationId : String) :
    InDoubt events operationId ↔ statusOf events operationId = some .inDoubt := by
  unfold InDoubt
  by_cases finalized : operationId ∈ finalizedOperationIds events
  · obtain ⟨status, known, settled⟩ := statusOf_finalized finalized
    simp [finalized, known, settled]
  · have none : finalStatuses events operationId = [] := by
      refine filterMap_eq_nil_iff.mpr fun event inside => ?_
      by_cases named : event.operationId = some operationId
      · rw [if_pos named, ← Option.not_isSome_iff_eq_none, finalStatus_isSome]
        exact fun final => finalized ((mem_finalizedOperationIds events operationId).mpr
          ⟨event, inside, final, named⟩)
      · rw [if_neg named]
    unfold statusOf
    rw [none]
    cases isStarted events operationId <;> simp [finalized]

section serde

variable {serde : EventSerde}
variable {added before events : List SessionEventEnvelope} {dir torn : SessionDir}
  {manifest : SessionManifest} {content sessionId : String}

theorem writeEvents_ok {nextSequence : UInt64}
    (written : (writeEvents serde sessionId nextSequence events).2 = .ok ()) :
    (writeEvents serde sessionId nextSequence events).1 =
        jsonLines serde (stampEvents nextSequence events) ∧
      ∀ event ∈ stampEvents nextSequence events, event.sessionSequence.isSome = true ∧
        validateEventForSession event sessionId = .ok () := by
  induction events generalizing nextSequence with
  | nil => exact ⟨rfl, forall_mem_nil _⟩
  | cons event events ih =>
    simp only [writeEvents] at written ⊢
    cases valid : validateEventForSession (event.withSessionSequence nextSequence) sessionId with
    | error error =>
      rw [valid] at written
      cases written
    | ok =>
      rw [valid] at written
      obtain ⟨text, later⟩ := ih written
      refine ⟨by simp [text, stampEvents, jsonLines], fun other inside => ?_⟩
      rcases mem_cons.mp inside with rfl | rest
      · exact ⟨rfl, valid⟩
      · exact later other rest

theorem prefix_jsonLines {front : List Char} (cut : front <+: (jsonLines serde events).toList) :
    ∃ whole rest part, events = whole ++ rest ∧
      front = (jsonLines serde whole).toList ++ part ∧
      (part = [] ∨ ∃ last, rest.head? = some last ∧ part ≠ [] ∧
        part <+: (serde.toWriter last).toList) := by
  induction events generalizing front with
  | nil => exact ⟨[], [], [], rfl, by simpa [jsonLines] using cut, .inl rfl⟩
  | cons event events ih =>
    simp only [jsonLines, String.toList_append] at cut
    by_cases inLine : front <+: (serde.toWriter event).toList
    · refine ⟨[], event :: events, front, rfl, rfl, ?_⟩
      by_cases empty : front = []
      · exact .inl empty
      · exact .inr ⟨event, rfl, empty, inLine⟩
    · have longer : (serde.toWriter event).toList ++ "\n".toList <+: front := by
        rcases prefix_or_prefix_of_prefix cut (prefix_append _ _) with short | long
        · rcases prefix_concat_iff.mp short with same | inside
          · rw [same]
            exact prefix_rfl
          · exact absurd inside inLine
        · exact long
      obtain ⟨back, rfl⟩ := longer
      have rest : back <+: (jsonLines serde events).toList := by
        simpa [append_assoc, prefix_append_right_inj] using cut
      obtain ⟨whole, later, part, rfl, rfl, shape⟩ := ih rest
      refine ⟨event :: whole, later, part, rfl, ?_, shape⟩
      simp [jsonLines]

theorem validateManifest_path (valid : validateManifest manifest = .ok ()) :
    validateRelativeManifestPath manifest.eventLog = .ok () := by
  unfold validateManifest at valid
  split at valid
  · cases valid
  · split at valid
    · cases valid
    · exact valid

theorem readEvents_eq (path : validateRelativeManifestPath manifest.eventLog = .ok ())
    (log : dir.eventLog = some content.toUTF8) :
    readEvents serde manifest dir = readLines serde (dir.path ++ "/" ++ manifest.eventLog)
      manifest.sessionId 0 0 (lines content) := by
  simp only [readEvents, eventLogPath, path, readToString, log, fromUTF8?_toUTF8, bind,
    Except.bind, pure, Except.pure]

theorem ended_pieces (ended : content = "" ∨ content.toList.getLast? = some '\n') :
    (Framing.pieces '\n' content.toList).2 = [] := by
  rcases ended with rfl | last
  · rfl
  · obtain ⟨front, same⟩ := getLast?_eq_some_iff.mp last
    rw [same]
    exact Framing.pieces_ended '\n' front

/-- The directory with a longer log. -/
structure Grown (dir torn : SessionDir) (content more : String) : Prop where
  path : torn.path = dir.path
  sessionId : torn.manifest.sessionId = dir.manifest.sessionId
  eventLog : torn.manifest.eventLog = dir.manifest.eventLog
  log : torn.eventLog = some (content ++ more).toUTF8

theorem append_grown (log : dir.eventLog = some content.toUTF8) (more : String) :
    Grown dir (dir.append more.toUTF8) content more where
  path := rfl
  sessionId := rfl
  eventLog := rfl
  log := by
    rw [SessionDir.append, log]
    exact congrArg some String.toByteArray_append.symm

section

variable (session : ValidSession serde dir content before)
include session

theorem readEvents_added (stored : ∀ event ∈ added, Stored serde dir.manifest.sessionId event)
    {part : String} (grown : Grown dir torn content (jsonLines serde added ++ part)) :
    ∃ index sequence, readEvents serde torn.manifest torn =
      (readLines serde (dir.path ++ "/" ++ dir.manifest.eventLog) dir.manifest.sessionId index
        sequence (lines part)).map (before ++ added ++ ·) := by
  have valid := validateManifest_path session.manifest
  have reads := session.reads
  rw [readEvents_eq valid session.log] at reads
  obtain ⟨index, sequence, after⟩ := readLines_append _ _ reads
  obtain ⟨last, next, rest⟩ := readLines_append _ _
    (readLines_stored (dir.path ++ "/" ++ dir.manifest.eventLog) _ stored index sequence)
  refine ⟨last, next, ?_⟩
  rw [readEvents_eq (by rw [grown.eventLog]; exact valid) grown.log, grown.path, grown.sessionId,
    grown.eventLog,
    lines_append (ended_pieces session.ended),
    lines_jsonLines fun event inside => (stored event inside).faithful, after, rest]
  cases readLines serde (dir.path ++ "/" ++ dir.manifest.eventLog) dir.manifest.sessionId last next
    (lines part) with
  | error error => rfl
  | ok events => simp [Except.map, append_assoc]

theorem readEvents_whole (stored : ∀ event ∈ added, Stored serde dir.manifest.sessionId event)
    (grown : Grown dir torn content (jsonLines serde added)) :
    readEvents serde torn.manifest torn = .ok (before ++ added) := by
  have ended : Grown dir torn content (jsonLines serde added ++ "") := by
    rw [String.append_empty]
    exact grown
  obtain ⟨index, sequence, reads⟩ := readEvents_added session stored ended
  rw [reads, lines_empty]
  simp [readLines, Except.map, append_nil]

theorem readEvents_unended {last : SessionEventEnvelope}
    (stored : ∀ event ∈ added ++ [last], Stored serde dir.manifest.sessionId event)
    (grown : Grown dir torn content (jsonLines serde added ++ serde.toWriter last)) :
    readEvents serde torn.manifest torn = .ok (before ++ added ++ [last]) := by
  have own := stored last (mem_append_right _ (mem_singleton.mpr rfl))
  obtain ⟨index, sequence, reads⟩ := readEvents_added session
    (fun event inside => stored event (mem_append_left _ inside)) grown
  have nonempty : serde.toWriter last ≠ "" := by
    intro empty
    have opens := own.faithful.opens
    rw [empty] at opens
    cases opens
  have alone : ∀ event ∈ [last], Stored serde dir.manifest.sessionId event := by
    intro event inside
    rw [mem_singleton.mp inside]
    exact own
  have line := readLines_stored (dir.path ++ "/" ++ dir.manifest.eventLog) _ alone index sequence
  rw [reads, lines_unfinished own.faithful.oneLine nonempty]
  simp only [map_cons, map_nil] at line
  rw [line]
  rfl

theorem readEvents_spoiled (stored : ∀ event ∈ added, Stored serde dir.manifest.sessionId event)
    {part line : String} {rest : List String} (cut : lines part = line :: rest)
    (visible : trim line ≠ "") (broken : ∃ error, serde.fromStr line = .error error)
    (grown : Grown dir torn content (jsonLines serde added ++ part)) :
    ∃ error, readEvents serde torn.manifest torn = .error error := by
  obtain ⟨index, sequence, reads⟩ := readEvents_added session stored grown
  obtain ⟨error, failed⟩ := broken
  rw [reads, cut, readLines, if_neg visible, failed]
  exact ⟨_, rfl⟩

end

theorem nextSessionSequence_eq (reads : readEvents serde manifest dir = .ok events) :
    nextSessionSequence serde manifest dir = .ok (nextAfter events) := by
  simp [nextSessionSequence, reads, bind, Except.bind, pure, Except.pure, nextAfter]

theorem writeEvents_valid {nextSequence : UInt64}
    (valid : ∀ event ∈ events, validateEventForSession event sessionId = .ok ()) :
    (writeEvents serde sessionId nextSequence events).2 = .ok () := by
  induction events generalizing nextSequence with
  | nil => rfl
  | cons event events ih =>
    have first : validateEventForSession (event.withSessionSequence nextSequence) sessionId =
        .ok () := valid event (mem_cons_self ..)
    simp only [writeEvents, first]
    exact ih fun other inside => valid other (mem_cons_of_mem _ inside)

theorem recoveryEvents_valid (system : StartupSystem) (sessionId : String)
    (markers : List StartupRecoveryMarker) :
    ∀ event ∈ recoveryEvents system sessionId markers,
      validateEventForSession event sessionId = .ok () := by
  intro event inside
  obtain ⟨entry, _, rfl⟩ := mem_map.mp inside
  simp [validateEventForSession, SessionEventEnvelope.new, SessionEventEnvelope.withOperationId]

theorem recoveryLines_stored {values : Serde} {system : StartupSystem}
    (faithful : ∀ event ∈ recoveryLines values system sessionId events, serde.Faithful event) :
    ∀ event ∈ recoveryLines values system sessionId events, Stored serde sessionId event := by
  intro event inside
  have written : (writeEvents serde sessionId (nextAfter events) (recoveryEvents system sessionId
      (recoveryMarkers system (foldEvents values events).recoverySummary))).2 = .ok () :=
    writeEvents_valid (recoveryEvents_valid system sessionId _)
  obtain ⟨sequenced, valid⟩ := (writeEvents_ok written).2 event inside
  exact ⟨faithful event inside, sequenced, valid⟩

theorem openSession_ok (valid : validateManifest dir.manifest = .ok ()) {bytes : ByteArray}
    (log : dir.eventLog = some bytes) : openSession dir = .ok dir.manifest := by
  simp [openSession, valid, eventLogPath, validateManifest_path valid, log, bind, Except.bind,
    pure, Except.pure]

variable {values : Serde} {system : StartupSystem}
variable {bytes : ByteArray}

theorem openService_error (valid : validateManifest dir.manifest = .ok ())
    (log : dir.eventLog = some bytes)
    (broken : ∃ error, readEvents serde dir.manifest dir = .error error) :
    ∃ error, openService serde values system dir = (dir, .error error) := by
  obtain ⟨error, failed⟩ := broken
  refine ⟨error, ?_⟩
  simp [openService, openSession_ok valid log, applyStartupRecovery, replaySession, failed, bind,
    Except.bind]

theorem openService_settled (valid : validateManifest dir.manifest = .ok ())
    (log : dir.eventLog = some bytes) (reads : readEvents serde dir.manifest dir = .ok events)
    (settled : (foldEvents values events).recoverySummary = []) :
    openService serde values system dir = (dir, .ok ⟨dir.manifest, []⟩) := by
  simp [openService, openSession_ok valid log, applyStartupRecovery, replaySession, reads, bind,
    Except.bind, pure, Except.pure, settled]

def recoveredDir (serde : EventSerde) (values : Serde) (system : StartupSystem)
    (events : List SessionEventEnvelope) (dir : SessionDir) : SessionDir :=
  { dir.append
      (jsonLines serde (recoveryLines values system dir.manifest.sessionId events)).toUTF8 with
    manifest := { dir.manifest with updatedAt := system.now } }

theorem updateManifest_ok {updatedAt : String}
    (valid : validateManifest { dir.manifest with updatedAt := updatedAt } = .ok ()) :
    updateManifest updatedAt dir =
      ({ dir with manifest := { dir.manifest with updatedAt := updatedAt } }, .ok ()) := by
  unfold updateManifest
  simp [valid]

theorem openService_recovers (valid : validateManifest dir.manifest = .ok ())
    (named : normalizeSessionId dir.manifest.sessionId = .ok dir.name)
    (log : dir.eventLog = some bytes) (reads : readEvents serde dir.manifest dir = .ok events)
    (doubtful : (foldEvents values events).recoverySummary ≠ []) :
    openService serde values system dir =
      (recoveredDir serde values system events dir,
        .ok ⟨(recoveredDir serde values system events dir).manifest,
          recoveryMarkers system (foldEvents values events).recoverySummary⟩) := by
  have written : (writeEvents serde dir.manifest.sessionId (nextAfter events)
      (recoveryEvents system dir.manifest.sessionId
        (recoveryMarkers system (foldEvents values events).recoverySummary))).2 = .ok () :=
    writeEvents_valid (recoveryEvents_valid system _ _)
  have appended : appendEvents serde dir.manifest (recoveryEvents system dir.manifest.sessionId
      (recoveryMarkers system (foldEvents values events).recoverySummary)) dir =
      (dir.append (jsonLines serde
        (recoveryLines values system dir.manifest.sessionId events)).toUTF8, .ok ()) := by
    simp only [appendEvents, nextSessionSequence_eq reads, written, (writeEvents_ok written).1]
    rfl
  have patched : validateManifest (recoveredDir serde values system events dir).manifest =
      .ok () := valid
  have updated : updateManifest system.now (dir.append (jsonLines serde
      (recoveryLines values system dir.manifest.sessionId events)).toUTF8) =
        (recoveredDir serde values system events dir, .ok ()) :=
    updateManifest_ok patched
  have reopened : openSessionId dir.manifest.sessionId
      (recoveredDir serde values system events dir) =
        .ok (recoveredDir serde values system events dir).manifest := by
    have opened : openSession (recoveredDir serde values system events dir) =
        .ok (recoveredDir serde values system events dir).manifest :=
      openSession_ok patched (by rw [recoveredDir, SessionDir.append, log]; rfl)
    have sameName : (recoveredDir serde values system events dir).name = dir.name := rfl
    simp [openSessionId, named, sameName, opened, bind, Except.bind, ne_eq, not_true_eq_false]
  simp only [openService, openSession_ok valid log, applyStartupRecovery, replaySession, reads,
    bind, Except.bind, pure, Except.pure, doubtful, if_false, appended, updated, reopened,
    nil_append]

theorem recoverySummary_eq_nil (values : Serde) (events : List SessionEventEnvelope) :
    (foldEvents values events).recoverySummary = [] ↔
      ∀ operationId, ¬ InDoubt events operationId := by
  simp [eq_nil_iff_forall_not_mem, mem_recoverySummary, inDoubt_iff]

theorem Recovers.of_open {later : List SessionEventEnvelope} {reopened : SessionDir}
    {service : SessionService}
    (opened : openService serde values system dir = (reopened, .ok service))
    (reads : readEvents serde service.manifest reopened = .ok (before ++ later)) :
    Recovers serde values system before dir := by
  refine ⟨reopened, service, foldEvents values (before ++ later), later, opened, ?_, reads,
    fun operationId finalized => ?_, foldEvents_retains values before later⟩
  · simp [SessionService.replay, replaySession, reads, bind, Except.bind, pure, Except.pure]
  · rw [operationStatus_foldEvents]
    refine statusOf_finalized ?_
    unfold finalizedOperationIds at finalized ⊢
    rw [filterMap_append]
    exact mem_append_left _ finalized

theorem not_recovers_of_error
    (failed : ∃ error, openService serde values system dir = (dir, .error error)) :
    ¬ Recovers serde values system before dir := by
  rintro ⟨reopened, service, replay, later, opened, _⟩
  obtain ⟨error, result⟩ := failed
  rw [result] at opened
  cases opened

variable {dir : SessionDir} {content : String} {before added : List SessionEventEnvelope}

theorem recoveredDir_grown (log : dir.eventLog = some content.toUTF8) (more : String)
    (events : List SessionEventEnvelope) :
    Grown dir (recoveredDir serde values system events (dir.append more.toUTF8)) content
      (more ++ jsonLines serde (recoveryLines values system dir.manifest.sessionId events)) where
  path := rfl
  sessionId := rfl
  eventLog := rfl
  log := by
    rw [recoveredDir, SessionDir.append, SessionDir.append, log, ← String.append_assoc]
    simp

theorem recovers_whole (session : ValidSession serde dir content before)
    (stored : ∀ event ∈ added, Stored serde dir.manifest.sessionId event)
    (recovered : ∀ event ∈ recoveryLines values system dir.manifest.sessionId (before ++ added),
      serde.Faithful event) :
    Recovers serde values system before (dir.append (jsonLines serde added).toUTF8) := by
  have grown := append_grown session.log (jsonLines serde added)
  have valid : validateManifest (dir.append (jsonLines serde added).toUTF8).manifest = .ok () :=
    session.manifest
  have reads := readEvents_whole session stored grown
  by_cases settled : (foldEvents values (before ++ added)).recoverySummary = []
  · exact Recovers.of_open (openService_settled valid grown.log reads settled) reads
  · have marked := recoveryLines_stored recovered
    have again : Grown dir (recoveredDir serde values system (before ++ added)
        (dir.append (jsonLines serde added).toUTF8)) content
        (jsonLines serde (added ++
          recoveryLines values system dir.manifest.sessionId (before ++ added))) := by
      rw [jsonLines_append]
      exact recoveredDir_grown session.log _ _
    have reread := readEvents_whole session (fun event inside => by
      rcases mem_append.mp inside with old | new
      · exact stored event old
      · exact marked event new) again
    exact Recovers.of_open (openService_recovers valid session.named grown.log reads settled) reread

theorem recoveryLines_ne_nil (doubtful : (foldEvents values events).recoverySummary ≠ []) :
    ∃ marker rest, recoveryLines values system sessionId events = marker :: rest := by
  obtain ⟨first, others, same⟩ := exists_cons_of_ne_nil doubtful
  unfold recoveryLines
  rw [same]
  exact ⟨_, _, rfl⟩

theorem recovers_unended_iff (session : ValidSession serde dir content before)
    {last : SessionEventEnvelope}
    (stored : ∀ event ∈ added ++ [last], Stored serde dir.manifest.sessionId event)
    (recovered : ∀ event ∈ recoveryLines values system dir.manifest.sessionId
      (before ++ added ++ [last]), serde.Faithful event) :
    Recovers serde values system before
        (dir.append (jsonLines serde added ++ serde.toWriter last).toUTF8) ↔
      ∀ operationId, ¬ InDoubt (before ++ added ++ [last]) operationId := by
  have grown := append_grown session.log (jsonLines serde added ++ serde.toWriter last)
  have valid : validateManifest
      (dir.append (jsonLines serde added ++ serde.toWriter last).toUTF8).manifest = .ok () :=
    session.manifest
  have reads := readEvents_unended session stored grown
  rw [← recoverySummary_eq_nil values]
  constructor
  · rintro ⟨reopened, service, replay, later, opened, _, reread, _⟩
    by_contra doubtful
    -- The first marker of the recovery lands on the line of the last event.
    rw [openService_recovers valid session.named grown.log reads doubtful] at opened
    cases opened
    obtain ⟨marker, rest, lead⟩ : ∃ marker rest, recoveryLines values system
        dir.manifest.sessionId (before ++ added ++ [last]) = marker :: rest :=
      recoveryLines_ne_nil doubtful
    have faithful := (stored last (mem_append_right _ (mem_singleton.mpr rfl))).faithful
    have marked := recovered marker (by rw [lead]; exact mem_cons_self ..)
    obtain ⟨tail, opens⟩ := marked.brace
    have again : Grown dir (recoveredDir serde values system (before ++ added ++ [last])
        (dir.append (jsonLines serde added ++ serde.toWriter last).toUTF8)) content
        (jsonLines serde added ++ (serde.toWriter last ++ jsonLines serde (marker :: rest))) := by
      rw [← lead, ← String.append_assoc]
      exact recoveredDir_grown session.log _ _
    have glued : lines (serde.toWriter last ++ jsonLines serde (marker :: rest)) =
        (serde.toWriter last ++ serde.toWriter marker) :: lines (jsonLines serde rest) := by
      have whole : '\n' ∉ (serde.toWriter last ++ serde.toWriter marker).toList := by
        rw [String.toList_append, mem_append]
        exact fun inside => inside.elim faithful.oneLine marked.oneLine
      have plain : (serde.toWriter last ++ serde.toWriter marker).toList.getLast? ≠ some '\r' := by
        rw [String.toList_append, getLast?_append, marked.closes, Option.some_or]
        decide
      have cut := lines_line whole plain (jsonLines serde rest)
      simpa only [jsonLines, String.append_assoc] using cut
    have broken : ∃ error, serde.fromStr (serde.toWriter last ++ serde.toWriter marker) =
        .error error := by
      rw [opens, ← String.append_assoc]
      exact faithful.alone tail
    obtain ⟨error, failed⟩ := readEvents_spoiled session
      (fun event inside => stored event (mem_append_left _ inside)) glued
      (faithful.visible _) broken again
    rw [failed] at reread
    cases reread
  · intro settled
    rw [append_assoc] at reads settled
    exact Recovers.of_open (openService_settled valid grown.log reads settled) reads

theorem readEvents_undecodable (path : validateRelativeManifestPath manifest.eventLog = .ok ())
    {bytes : ByteArray} (log : torn.eventLog = some bytes)
    (decoded : String.fromUTF8? bytes = none) :
    ∃ error, readEvents serde manifest torn = .error error := by
  simp only [readEvents, eventLogPath, path, readToString, log, decoded, bind, Except.bind, pure,
    Except.pure]
  exact ⟨_, rfl⟩

theorem not_recovers_cut (session : ValidSession serde dir content before)
    {last : SessionEventEnvelope}
    (stored : ∀ event ∈ added ++ [last], Stored serde dir.manifest.sessionId event)
    {part : String} (nonempty : part ≠ "") (inLine : part.toList <+: (serde.toWriter last).toList)
    (incomplete : part ≠ serde.toWriter last) :
    ¬ Recovers serde values system before (dir.append (jsonLines serde added ++ part).toUTF8) := by
  have faithful := (stored last (mem_append_right _ (mem_singleton.mpr rfl))).faithful
  have grown := append_grown session.log (jsonLines serde added ++ part)
  have whole : '\n' ∉ part.toList := fun inside => faithful.oneLine (inLine.subset inside)
  have visible : trim part ≠ "" := by
    obtain ⟨back, split⟩ := inLine
    have opens := faithful.opens
    have filled : part.toList ≠ [] := fun empty => nonempty (String.toList_inj.mp empty)
    rw [← split, head?_append_of_ne_nil _ filled] at opens
    exact trim_ne_empty opens (by decide)
  have spoiled := readEvents_spoiled session
    (fun event inside => stored event (mem_append_left _ inside))
    (lines_unfinished whole nonempty) visible (faithful.torn part inLine nonempty incomplete) grown
  exact not_recovers_of_error (openService_error session.manifest grown.log spoiled)

theorem tornAppend_eq (session : ValidSession serde dir content before)
    {batch : List SessionEventEnvelope}
    (accepted : (appendEvents serde dir.manifest batch dir).2 = .ok ()) (cut : Nat) :
    tornAppend serde dir.manifest batch cut dir =
        dir.append ((jsonLines serde (stampEvents (nextAfter before) batch)).toUTF8.extract 0 cut) ∧
      ∀ event ∈ stampEvents (nextAfter before) batch, event.sessionSequence.isSome = true ∧
        validateEventForSession event dir.manifest.sessionId = .ok () := by
  have sequence := nextSessionSequence_eq session.reads
  have written : (writeEvents serde dir.manifest.sessionId (nextAfter before) batch).2 = .ok () := by
    simpa only [appendEvents, sequence] using accepted
  refine ⟨?_, (writeEvents_ok written).2⟩
  simp [tornAppend, sequence, (writeEvents_ok written).1]

/-- After a crash in the middle of an append the session recovers exactly when the
bytes that got through form a clean cut. -/
theorem tornAppend_recovers_iff {batch : List SessionEventEnvelope}
    (session : ValidSession serde dir content before)
    (accepted : (appendEvents serde dir.manifest batch dir).2 = .ok ())
    (faithful : ∀ event ∈ stampEvents (nextAfter before) batch, serde.Faithful event)
    (recovered : ∀ whole, whole <+: stampEvents (nextAfter before) batch →
      ∀ event ∈ recoveryLines values system dir.manifest.sessionId (before ++ whole),
        serde.Faithful event)
    (cut : Nat) :
    Recovers serde values system before (tornAppend serde dir.manifest batch cut dir) ↔
      CleanCut serde before (stampEvents (nextAfter before) batch) cut := by
  obtain ⟨torn, valid⟩ := tornAppend_eq session accepted cut
  rw [torn]
  have stored : ∀ event ∈ stampEvents (nextAfter before) batch,
      Stored serde dir.manifest.sessionId event := fun event inside =>
    ⟨faithful event inside, (valid event inside).1, (valid event inside).2⟩
  have log : (dir.append ((jsonLines serde (stampEvents (nextAfter before) batch)).toUTF8.extract
      0 cut)).eventLog = some (content.toUTF8 ++
        (jsonLines serde (stampEvents (nextAfter before) batch)).toUTF8.extract 0 cut) := by
    rw [SessionDir.append, session.log]
    rfl
  generalize stampEvents (nextAfter before) batch = events at *
  constructor
  · intro recovers
    cases decoded : String.fromUTF8? (content.toUTF8 ++
        (jsonLines serde events).toUTF8.extract 0 cut) with
    | none =>
      -- The cut splits a character, and the log is no longer a text.
      refine absurd recovers (not_recovers_of_error (openService_error session.manifest log ?_))
      exact readEvents_undecodable (validateManifest_path session.manifest) log decoded
    | some text =>
      obtain ⟨front, rfl, shorter, bytes⟩ := fromUTF8?_cut decoded
      obtain ⟨whole, rest, part, split, shape, piece⟩ := prefix_jsonLines shorter
      have named : front = jsonLines serde whole ++ String.ofList part := by
        apply String.toList_inj.mp
        rw [shape, String.toList_append, String.toList_ofList]
      rcases piece with rfl | ⟨last, first, nonempty, inLine⟩
      · refine ⟨whole, rest, split, .inl ?_⟩
        rw [← bytes, named, String.ofList_nil, String.append_empty]
      · obtain ⟨others, same⟩ := head?_eq_some_iff.mp first
        have upto : whole ++ [last] <+: events := ⟨others, by simp [split, same]⟩
        have kept : ∀ event ∈ whole ++ [last], Stored serde dir.manifest.sessionId event :=
          fun event member => stored event (upto.subset member)
        rw [← bytes, named] at recovers
        by_cases complete : String.ofList part = serde.toWriter last
        · -- Only the line feed is missing.
          rw [complete] at recovers named
          refine ⟨whole, rest, split, .inr ⟨last, first, by rw [← bytes, named], ?_⟩⟩
          refine (recovers_unended_iff session kept ?_).mp recovers
          rw [append_assoc]
          exact recovered _ upto
        · have filled : String.ofList part ≠ "" := fun empty => nonempty (by
            rw [← String.toList_ofList (l := part), empty]
            rfl)
          rw [← String.toList_ofList (l := part)] at inLine
          exact absurd recovers (not_recovers_cut session kept filled inLine complete)
  · rintro ⟨whole, rest, split, ending⟩
    have inside (more : List SessionEventEnvelope) (front : more <+: events) :
        ∀ event ∈ more, Stored serde dir.manifest.sessionId event :=
      fun event member => stored event (front.subset member)
    rcases ending with line | ⟨last, first, line, settled⟩
    · have front : whole <+: events := ⟨rest, split.symm⟩
      rw [line]
      exact recovers_whole session (inside whole front) (recovered whole front)
    · obtain ⟨others, same⟩ := head?_eq_some_iff.mp first
      have front : whole ++ [last] <+: events := ⟨others, by simp [split, same]⟩
      rw [line]
      refine (recovers_unended_iff session (inside _ front) ?_).mpr settled
      rw [append_assoc]
      exact recovered _ front

end serde

section sample

def sampleEvent (eventId : String) (sequence : UInt64) (operationId : String)
    (data : SessionEventData) : SessionEventEnvelope :=
  ((SessionEventEnvelope.new "sess" eventId "now" data).withOperationId operationId).withSessionSequence
    sequence

def sampleStarted : SessionEventEnvelope := sampleEvent "a" 1 "op_1" (.operationStarted .prompt)
def sampleCommitted : SessionEventEnvelope := sampleEvent "b" 2 "op_1" (.operationCommitted none)
def sampleNext : SessionEventEnvelope := sampleEvent "c" 3 "op_2" (.operationStarted .prompt)
def sampleRecovered : SessionEventEnvelope :=
  sampleEvent "d" 4 "op_2" (.operationRecovered recoveryReason "r")

def sampleEvents : List SessionEventEnvelope :=
  [sampleStarted, sampleCommitted, sampleNext, sampleRecovered]

def sampleSerde : EventSerde where
  toWriter event := "\x7b" ++ event.eventId ++ "\x7d"
  fromStr text :=
    match sampleEvents.find? fun event => decide ("\x7b" ++ event.eventId ++ "\x7d" = text) with
    | some event => .ok event
    | none => .error "EOF while parsing an object"

def sampleValues : Serde := .silent

def sampleSystem : StartupSystem := ⟨fun _ => "r", fun _ => "d", "now"⟩

def sampleDir : SessionDir where
  root := "/sessions"
  name := "sess"
  manifest := ⟨sessionSchema, sessionVersion, "sess", "now", "events.jsonl"⟩
  eventLog := some (jsonLines sampleSerde [sampleStarted, sampleCommitted]).toUTF8

theorem sampleSerde_length {event : SessionEventEnvelope} (known : event ∈ sampleEvents) :
    (sampleSerde.toWriter event).toList.length = 3 := by
  simp only [sampleEvents, mem_cons, not_mem_nil, or_false] at known
  rcases known with rfl | rfl | rfl | rfl <;> decide

theorem sampleSerde_other {text : String} (length : text.toList.length ≠ 3) :
    ∃ error, sampleSerde.fromStr text = .error error := by
  have missing : sampleEvents.find? (fun event => decide ("\x7b" ++ event.eventId ++ "\x7d" = text)) =
      none := by
    rw [find?_eq_none]
    intro event known same
    have written : sampleSerde.toWriter event = text := of_decide_eq_true same
    exact length (by rw [← written, sampleSerde_length known])
  exact ⟨"EOF while parsing an object", by simp [sampleSerde, missing]⟩

theorem sampleSerde_faithful {event : SessionEventEnvelope} (known : event ∈ sampleEvents) :
    sampleSerde.Faithful event := by
  have size := sampleSerde_length known
  have torn : ∀ front : String, front.toList <+: (sampleSerde.toWriter event).toList →
      front ≠ "" → front ≠ sampleSerde.toWriter event →
      ∃ error, sampleSerde.fromStr front = .error error := by
    intro front shorter _ other
    refine sampleSerde_other fun same => other (String.toList_inj.mp ?_)
    exact shorter.eq_of_length (by rw [same, size])
  have alone : ∀ rest : String, ∃ error,
      sampleSerde.fromStr (sampleSerde.toWriter event ++ "\x7b" ++ rest) = .error error := by
    intro rest
    refine sampleSerde_other ?_
    simp only [String.toList_append, length_append, size]
    have brace : "\x7b".toList.length = 1 := by decide
    omega
  simp only [sampleEvents, mem_cons, not_mem_nil, or_false] at known
  rcases known with rfl | rfl | rfl | rfl <;>
    exact ⟨rfl, by decide, by decide, by decide, torn, alone⟩

theorem sampleDir_valid :
    ValidSession sampleSerde sampleDir (jsonLines sampleSerde [sampleStarted, sampleCommitted])
      [sampleStarted, sampleCommitted] where
  manifest := rfl
  named := rfl
  log := rfl
  ended := .inr (by decide)
  reads := rfl

/-- A crash after two of the four bytes of the next line: the session is valid before,
and does not open afterwards. -/
theorem tornAppend_loses_session :
    ValidSession sampleSerde sampleDir (jsonLines sampleSerde [sampleStarted, sampleCommitted])
      [sampleStarted, sampleCommitted] ∧
    (appendEvents sampleSerde sampleDir.manifest [sampleNext] sampleDir).2 = .ok () ∧
    (∀ event ∈ sampleEvents, sampleSerde.Faithful event) ∧
    ¬ Recovers sampleSerde sampleValues sampleSystem [sampleStarted, sampleCommitted]
      (tornAppend sampleSerde sampleDir.manifest [sampleNext] 2 sampleDir) := by
  refine ⟨sampleDir_valid, rfl, fun event known => sampleSerde_faithful known, ?_⟩
  have stored : ∀ event ∈ [] ++ [sampleNext], Stored sampleSerde "sess" event := by
    intro event inside
    rw [mem_singleton.mp inside]
    exact ⟨sampleSerde_faithful (by simp [sampleEvents]), rfl, rfl⟩
  have torn : tornAppend sampleSerde sampleDir.manifest [sampleNext] 2 sampleDir =
      sampleDir.append (jsonLines sampleSerde [] ++ String.ofList ['{', 'c']).toUTF8 := rfl
  rw [torn]
  exact not_recovers_cut sampleDir_valid stored (by decide) (by decide) (by decide)

theorem sampleRecovered_lines {events : List SessionEventEnvelope}
    (upto : events <+: [sampleNext]) :
    ∀ event ∈ recoveryLines sampleValues sampleSystem "sess"
      ([sampleStarted, sampleCommitted] ++ events), event ∈ sampleEvents := by
  have cases : events = [] ∨ events = [sampleNext] := by
    rcases prefix_cons_iff.mp upto with rfl | ⟨rest, rfl, nothing⟩
    · exact .inl rfl
    · exact .inr (by rw [prefix_nil.mp nothing])
  rcases cases with rfl | rfl
  · have settled : (foldEvents sampleValues
        ([sampleStarted, sampleCommitted] ++ [])).recoverySummary = [] := mergeSort_nil
    intro event inside
    rw [recoveryLines, settled] at inside
    cases inside
  · have doubtful : (foldEvents sampleValues
        ([sampleStarted, sampleCommitted] ++ [sampleNext])).recoverySummary = ["op_2"] :=
      mergeSort_singleton _
    intro event inside
    rw [recoveryLines, doubtful] at inside
    have only : event = sampleRecovered := mem_singleton.mp inside
    rw [only]
    simp [sampleEvents]

/-- The same append, let through whole: the next operation is recovered. -/
theorem tornAppend_recovers_whole :
    Recovers sampleSerde sampleValues sampleSystem [sampleStarted, sampleCommitted]
      (tornAppend sampleSerde sampleDir.manifest [sampleNext] 4 sampleDir) := by
  refine (tornAppend_recovers_iff sampleDir_valid rfl (fun event inside => ?_)
    (fun whole upto event inside => ?_) 4).mpr ?_
  · have only : event = sampleNext := mem_singleton.mp inside
    rw [only]
    exact sampleSerde_faithful (by simp [sampleEvents])
  · exact sampleSerde_faithful (sampleRecovered_lines upto event inside)
  · exact ⟨[sampleNext], [], rfl, .inl rfl⟩

end sample

end PiRust.SessionLog
