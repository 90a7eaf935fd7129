import PiRust.ReplayItems
import PiRust.ActiveLeaf

/- `clone_current` and `fork_current` of `session_service.rs`. -/
namespace PiRust.SessionLog

open List

/-- The root directory of the sessions, by the names of their directories. -/
structure SessionRoot where
  path : String
  sessions : StringMap SessionRecord

inductive SessionCopyKind where
  | clone
  | fork
  deriving DecidableEq, Repr

def SessionCopyKind.provenanceEvent : SessionCopyKind → SessionEventData
  | .clone => .sessionCloned
  | .fork => .sessionForked

/-- What the generators and the clock hand out during a copy. -/
structure CopySystem where
  operationId : String
  targetSessionId : String
  nextEventId : Nat → String
  now : String

def resolveCopyTargetLeaf (manifest : StoredManifest) :
    Option String → Except CodingSessionError String
  | some targetLeafId => normalizeLeafId targetLeafId
  | none =>
    match manifest.activeLeafId with
    | some activeLeafId => .ok activeLeafId
    | none => .error (.session "session has no committed active leaf")

def branchSummaryOperationIdsForTarget (events : List SessionEventEnvelope)
    (targetLeafId : String) : List String :=
  events.filterMap fun event =>
    match event.data with
    | .branchSummaryCreated _ _ summaryTargetLeafId =>
      if summaryTargetLeafId = targetLeafId then event.operationId else none
    | _ => none

def shouldCopyBranchSummaryOperation (targetLeafId : String) (operationIds : List String)
    (event : SessionEventEnvelope) : Bool :=
  match event.operationId with
  | some operationId => operationId ∈ operationIds
  | none =>
    match event.data with
    | .branchSummaryCreated _ _ summaryTargetLeafId => summaryTargetLeafId = targetLeafId
    | _ => false

def shouldCopySourceEvent (event : SessionEventEnvelope) : Bool :=
  match event.data with
  | .sessionCreated _ | .sessionCloned | .sessionForked => false
  | _ => true

/-- The parent of an event, which is cleared too, is among what nothing modelled reads. -/
def rewriteEventForSession (targetSessionId eventId : String) (event : SessionEventEnvelope) :
    SessionEventEnvelope :=
  { event with
    sessionId := targetSessionId
    eventId := eventId }

def selectedEvents (events : List SessionEventEnvelope) (cutoff : Nat) (targetLeafId : String) :
    List SessionEventEnvelope :=
  let later := events.drop (cutoff + 1)
  events.take (cutoff + 1) ++ later.filter (shouldCopyBranchSummaryOperation targetLeafId
    (branchSummaryOperationIdsForTarget later targetLeafId))

def copiedEvents (system : CopySystem) (targetSessionId : String)
    (events : List SessionEventEnvelope) : List SessionEventEnvelope :=
  (events.filter shouldCopySourceEvent).zipIdx.map fun entry =>
    rewriteEventForSession targetSessionId (system.nextEventId (entry.2 + 2)) entry.1

/-- What `copy_to_new_session` does once the target exists. -/
def fillCopy (system : CopySystem) (kind : SessionCopyKind) (targetLeafId : String)
    (events : List SessionEventEnvelope) (failure : Option String) (target : SessionRecord) :
    SessionRecord × Except String StoredManifest :=
  let sessionId := target.manifest.sessionId
  let provenance := SessionEventEnvelope.new sessionId (system.nextEventId 1) system.now
    kind.provenanceEvent
  let marked := target.appendEvents sessionId [provenance]
  match marked.2 with
  | .error error => (marked.1, .error error)
  | .ok () =>
    let copied := marked.1.appendEvents sessionId (copiedEvents system sessionId events)
    match copied.2 with
    | .error error => (copied.1, .error error)
    | .ok () =>
      let updated := copied.1.updateManifest failure
        { updatedAt := some system.now, activeLeafId := some (some targetLeafId) }
      match updated.2 with
      | .error error => (updated.1, .error error)
      | .ok () => (updated.1, updated.1.openSession)

/-- `create_with_id` for a copy, in a root without the session. -/
def createCopy (system : CopySystem) (name : String) (cwd : Option String)
    (defaultAgentProfileId : String) : SessionRecord × Except String Unit :=
  let created := SessionEventEnvelope.new name (system.nextEventId 0) system.now
    (.sessionCreated cwd)
  (⟨StoredManifest.new name system.now defaultAgentProfileId, []⟩ : SessionRecord).appendEvents name
    [created]

/-- `cleanup_failed_session_copy`; `failure` is the error of a removal that goes wrong. -/
def cleanupFailedSessionCopy (system : CopySystem) (name : String) (target : SessionRecord)
    (copyError : String) (failure : Option String) (root : SessionRoot) :
    SessionRoot × CodingSessionError :=
  match failure with
  | none => (root, .session copyError)
  | some cleanupError =>
    ({ root with sessions := StringMap.insert root.sessions name target },
      .partialCommit system.operationId ("session copy failed after creating " ++ name ++ ": " ++
        copyError ++ "; cleanup failed: " ++ cleanupError))

/-- `copy_to_new_session`. `failure` is the error of a manifest update that goes wrong,
`cleanup` that of the removal which then follows. -/
def copyToNewSession (values : Serde) (system : CopySystem) (kind : SessionCopyKind)
    (targetLeafId : Option String) (failure cleanup : Option String) (handle : StoredManifest)
    (root : SessionRoot) : Attempt SessionRoot ServiceState :=
  match resolveCopyTargetLeaf handle targetLeafId with
  | .error error => (root, .error error)
  | .ok targetLeafId =>
    match StringMap.get root.sessions handle.sessionId with
    | none => (root, .error (.session ("failed to read session event log " ++ root.path ++ "/" ++
        handle.sessionId ++ "/" ++ handle.eventLog)))
    | some source =>
      match source.readEvents handle.sessionId with
      | .error error => (root, .error (.session error))
      | .ok sourceEvents =>
        match committedLeafCutoff sourceEvents targetLeafId with
        | none => (root,
            .error (.session ("leaf id not found in source session: " ++ targetLeafId)))
        | some cutoff =>
          let replay := foldEvents values sourceEvents
          match normalizeSessionId system.targetSessionId with
          | .error error => (root, .error (.session error))
          | .ok name =>
            if (StringMap.get root.sessions name).isSome then
              (root, .error (.session ("session directory already exists: " ++
                root.path ++ "/" ++ name)))
            else
              let created := createCopy system name replay.cwd
                handle.defaultAgentProfileId
              match created.2 with
              | .error error =>
                let cleaned := cleanupFailedSessionCopy system name created.1 error
                  cleanup root
                (cleaned.1, .error cleaned.2)
              | .ok () =>
                let filled := fillCopy system kind targetLeafId
                  (selectedEvents sourceEvents cutoff targetLeafId) failure created.1
                match filled.2 with
                | .error error =>
                  let cleaned := cleanupFailedSessionCopy system name filled.1 error
                    cleanup root
                  (cleaned.1, .error cleaned.2)
                | .ok manifest =>
                  ({ root with
                      sessions := StringMap.insert root.sessions name filled.1 },
                    .ok ⟨filled.1, manifest⟩)

def cloneCurrent (values : Serde) (system : CopySystem) (failure cleanup : Option String)
    (handle : StoredManifest) (root : SessionRoot) : Attempt SessionRoot ServiceState :=
  copyToNewSession values system .clone none failure cleanup handle root

def forkCurrent (values : Serde) (system : CopySystem) (targetLeafId : Option String)
    (failure cleanup : Option String) (handle : StoredManifest) (root : SessionRoot) :
    Attempt SessionRoot ServiceState :=
  copyToNewSession values system .fork targetLeafId failure cleanup handle root

/-- What the fold reads of an event that a copy keeps. -/
structure Alike (event copied : SessionEventEnvelope) : Prop where
  data : copied.data = event.data
  turnId : copied.turnId = event.turnId
  operationId : copied.operationId = event.operationId

namespace Alike

variable {event copied : SessionEventEnvelope} {events copies : List SessionEventEnvelope}

theorem isReplayed (alike : Alike event copied) (finalized : List String) :
    isReplayed finalized copied = isReplayed finalized event := by
  unfold SessionLog.isReplayed
  rw [alike.operationId, alike.data]

theorem leafMove (alike : Alike event copied) : leafMove copied = leafMove event := by
  unfold SessionLog.leafMove
  rw [alike.data]

theorem finalized (alike : Forall₂ Alike events copies) :
    finalizedOperationIds copies = finalizedOperationIds events := by
  induction alike with
  | nil => rfl
  | cons first rest ih =>
    unfold finalizedOperationIds at ih ⊢
    rw [filterMap_cons, filterMap_cons, first.data, first.operationId, ih]

theorem replayedMoves (alike : Forall₂ Alike events copies) (finalized : List String) :
    (copies.filter (SessionLog.isReplayed finalized)).filterMap SessionLog.leafMove =
      (events.filter (SessionLog.isReplayed finalized)).filterMap SessionLog.leafMove := by
  induction alike with
  | nil => rfl
  | cons first rest ih =>
    rw [filter_cons, filter_cons, first.isReplayed finalized]
    split
    · rw [filterMap_cons, filterMap_cons, first.leafMove, ih]
    · exact ih

theorem story {keep : SessionEventEnvelope → Bool} {finalized others : List String}
    (alike : Forall₂ Alike (events.filter keep) copies)
    (kept : ∀ event ∈ events, keep event = true →
      SessionLog.isReplayed others event = SessionLog.isReplayed finalized event ∨
        touchesItems event.data = false)
    (dropped : ∀ event ∈ events, keep event = false →
      SessionLog.isReplayed finalized event = true → touchesItems event.data = false) :
    SameStory finalized others events copies := by
  induction events generalizing copies with
  | nil =>
    cases alike
    exact .nil
  | cons event events ih =>
    have laterKept := fun other member => kept other (mem_cons_of_mem event member)
    have laterDropped := fun other member => dropped other (mem_cons_of_mem event member)
    cases keeps : keep event with
    | true =>
      rw [filter_cons_of_pos keeps] at alike
      cases alike with
      | cons first rest =>
        have shown := kept event (mem_cons_self ..) keeps
        rw [← first.isReplayed others] at shown
        exact .both first.data first.turnId shown (ih rest laterKept laterDropped)
    | false =>
      rw [filter_cons_of_neg (by rw [keeps]; exact Bool.false_ne_true)] at alike
      exact .left (dropped event (mem_cons_self ..) keeps) (ih alike laterKept laterDropped)

end Alike

theorem copiedEvents_alike (system : CopySystem) (targetSessionId : String)
    (events : List SessionEventEnvelope) (nextSequence : UInt64) :
    Forall₂ Alike (events.filter shouldCopySourceEvent)
      (stampEvents nextSequence (copiedEvents system targetSessionId events)) := by
  have pass (kept : List SessionEventEnvelope) (start : Nat) (sequence : UInt64) :
      Forall₂ Alike kept (stampEvents sequence ((kept.zipIdx start).map fun entry =>
        rewriteEventForSession targetSessionId (system.nextEventId (entry.2 + 2)) entry.1)) := by
    induction kept generalizing start sequence with
    | nil => exact .nil
    | cons event kept ih => exact .cons ⟨rfl, rfl, rfl⟩ (ih (start + 1) (sequence + 1))
  exact pass _ 0 nextSequence

theorem shouldCopySourceEvent_quiet {event : SessionEventEnvelope}
    (dropped : shouldCopySourceEvent event = false) :
    touchesItems event.data = false ∧ event.data.isFinalMarker = false ∧ leafMove event = none := by
  unfold shouldCopySourceEvent at dropped
  unfold leafMove
  revert dropped
  cases event.data <;> intro dropped <;> first | exact ⟨rfl, rfl, rfl⟩ | cases dropped

def copyEvents (system : CopySystem) (kind : SessionCopyKind) (name : String)
    (cwd : Option String) (events : List SessionEventEnvelope) : List SessionEventEnvelope :=
  stampEvents 1
    (SessionEventEnvelope.new name (system.nextEventId 0) system.now (.sessionCreated cwd) ::
      SessionEventEnvelope.new name (system.nextEventId 1) system.now kind.provenanceEvent ::
      copiedEvents system name events)

section copyEvents

variable (system : CopySystem) (kind : SessionCopyKind) (name : String) (cwd : Option String)
  (events : List SessionEventEnvelope)

theorem provenance_quiet : touchesItems kind.provenanceEvent = false ∧
    kind.provenanceEvent.isFinalMarker = false := by
  cases kind <;> exact ⟨rfl, rfl⟩

theorem copyEvents_finalized :
    finalizedOperationIds (copyEvents system kind name cwd events) =
      finalizedOperationIds events := by
  have copies := Alike.finalized (copiedEvents_alike system name events 3)
  have kept : finalizedOperationIds (events.filter shouldCopySourceEvent) =
      finalizedOperationIds events := by
    unfold finalizedOperationIds
    rw [filterMap_filter]
    apply filterMap_congr
    intro event _
    by_cases copied : shouldCopySourceEvent event = true
    · rw [if_pos copied]
    · have plain := (shouldCopySourceEvent_quiet (by simpa using copied)).2.1
      rw [if_neg copied, plain]
      rfl
  rw [← kept, ← copies]
  cases kind <;> rfl

theorem copyEvents_transcript (values : Serde) :
    (foldEvents values (copyEvents system kind name cwd events)).transcript =
      (foldEvents values events).transcript := by
  have story : SameStory (finalizedOperationIds events) (finalizedOperationIds events) events
      (copyEvents system kind name cwd events) :=
    .right (fun _ => rfl) (.right (fun _ => (provenance_quiet kind).1)
      (Alike.story (copiedEvents_alike system name events 3) (fun _ _ _ => .inl rfl)
        fun _ _ dropped _ => (shouldCopySourceEvent_quiet dropped).1))
  have finalized := copyEvents_finalized system kind name cwd events
  exact SameStory.transcript (by rw [finalized]; exact story) values

theorem copyEvents_activeLeafId (values : Serde) :
    (foldEvents values (copyEvents system kind name cwd events)).activeLeafId =
      (foldEvents values events).activeLeafId := by
  rw [foldEvents_activeLeafId, foldEvents_activeLeafId, copyEvents_finalized]
  have copies := Alike.replayedMoves (copiedEvents_alike system name events 3)
    (finalizedOperationIds events)
  have kept : ((events.filter shouldCopySourceEvent).filter
      (isReplayed (finalizedOperationIds events))).filterMap leafMove =
      (events.filter (isReplayed (finalizedOperationIds events))).filterMap leafMove := by
    rw [filter_filter, filterMap_filter, filterMap_filter]
    apply filterMap_congr
    intro event _
    by_cases copied : shouldCopySourceEvent event = true
    · simp [copied]
    · have still := (shouldCopySourceEvent_quiet (by simpa using copied)).2.2
      simp [copied, still]
  unfold lastMove
  rw [← kept, ← copies]
  cases kind <;> rfl

end copyEvents

end PiRust.SessionLog
