import PiRust.SessionWrites

/- The active leaf of a session, in its log and in `session.json`. -/
namespace PiRust.SessionLog

open List

section replayed

variable (serde : Serde)

theorem foldEvent_activeLeafId (finalized : List String) (builder : ReplayBuilder)
    (event : SessionEventEnvelope) :
    (foldEvent serde finalized builder event).activeLeafId =
      if isReplayed finalized event then (leafMove event).or builder.activeLeafId
      else builder.activeLeafId := by
  have same : ((builder.observeSessionId event).observeOperationStatus event).core =
      builder.core := by
    rw [ReplayBuilder.core_observeOperationStatus, ReplayBuilder.core_observeSessionId]
  have observed : ((builder.observeSessionId event).observeOperationStatus event).activeLeafId =
      builder.activeLeafId := by
    rw [← ReplayBuilder.core_activeLeafId, same, ReplayBuilder.core_activeLeafId]
  unfold foldEvent
  by_cases replayed : isReplayed finalized event = true
  · rw [if_pos replayed, if_pos replayed, ReplayBuilder.applyEvent_activeLeafId, observed]
  · rw [if_neg replayed, if_neg replayed, observed]

def lastMove (events : List SessionEventEnvelope) : Option String :=
  (events.filterMap leafMove).getLast?

theorem lastMove_append (events more : List SessionEventEnvelope) :
    lastMove (events ++ more) = (lastMove more).or (lastMove events) := by
  unfold lastMove
  rw [filterMap_append, getLast?_append]

theorem foldl_foldEvent_activeLeafId (finalized : List String)
    (events : List SessionEventEnvelope) :
    (events.foldl (foldEvent serde finalized) {}).activeLeafId =
      lastMove (events.filter (isReplayed finalized)) := by
  induction events using reverseRecOn with
  | nil => rfl
  | append_singleton events event ih =>
    rw [foldl_append, foldl_cons, foldl_nil, foldEvent_activeLeafId, ih,
      filter_append, lastMove_append]
    by_cases replayed : isReplayed finalized event = true
    · rw [if_pos replayed, filter_cons_of_pos replayed]
      unfold lastMove
      cases moved : leafMove event <;> simp [moved]
    · rw [if_neg replayed, filter_cons_of_neg replayed]
      rfl

theorem foldl_warn_activeLeafId (messages : String → String) (operationIds : List String)
    (builder : ReplayBuilder) :
    (operationIds.foldl (fun (builder : ReplayBuilder) operationId =>
      builder.warn (messages operationId)) builder).activeLeafId = builder.activeLeafId := by
  rw [← ReplayBuilder.core_activeLeafId, core_foldl_warn, ReplayBuilder.core_activeLeafId]

theorem foldEvents_activeLeafId (events : List SessionEventEnvelope) :
    (foldEvents serde events).activeLeafId =
      lastMove (events.filter (isReplayed (finalizedOperationIds events))) := by
  have warned := foldl_warn_activeLeafId
    (fun operationId => "operation " ++ operationId ++
      " has no final marker and was omitted from replay")
    (incompleteOperationIds events (finalizedOperationIds events))
    (events.foldl (foldEvent serde (finalizedOperationIds events)) {})
  exact warned.trans (foldl_foldEvent_activeLeafId serde _ events)

end replayed

def Immediate (event : SessionEventEnvelope) : Prop :=
  leafMove event ≠ none → event.data.isFinalMarker = true ∨ event.operationId = none

variable {events : List SessionEventEnvelope}

theorem isReplayed_of_immediate {event : SessionEventEnvelope} (member : event ∈ events)
    (immediate : Immediate event) (moves : leafMove event ≠ none) :
    isReplayed (finalizedOperationIds events) event = true := by
  unfold isReplayed
  cases named : event.operationId with
  | none => rfl
  | some operationId =>
    have final : event.data.isFinalMarker = true := by
      rcases immediate moves with marker | unnamed
      · exact marker
      · rw [named] at unnamed
        cases unnamed
    have finalized : operationId ∈ finalizedOperationIds events :=
      (mem_finalizedOperationIds events operationId).mpr ⟨event, member, final, named⟩
    simp [finalized]

theorem lastMove_filter {shown : SessionEventEnvelope → Bool}
    (moves : ∀ event ∈ events, leafMove event ≠ none → shown event = true) :
    lastMove (events.filter shown) = lastMove events := by
  unfold lastMove
  rw [filterMap_filter]
  congr 1
  apply filterMap_congr
  intro event member
  by_cases kept : shown event = true
  · rw [if_pos kept]
  · rw [if_neg kept]
    by_cases moved : leafMove event = none
    · exact moved.symm
    · exact absurd (moves event member moved) kept

theorem foldEvents_activeLeafId_of_immediate (serde : Serde)
    (immediate : ∀ event ∈ events, Immediate event) :
    (foldEvents serde events).activeLeafId = lastMove events := by
  rw [foldEvents_activeLeafId]
  exact lastMove_filter fun event member moves =>
    isReplayed_of_immediate member (immediate event member) moves

theorem stampEvents_filterMap (nextSequence : UInt64) (events : List SessionEventEnvelope) :
    (stampEvents nextSequence events).filterMap leafMove = events.filterMap leafMove := by
  have same : (stampEvents nextSequence events).map leafMove = events.map leafMove :=
    stampEvents_map (fun _ _ => rfl) nextSequence events
  have read (log : List SessionEventEnvelope) :
      log.filterMap leafMove = (log.map leafMove).filterMap id := by
    rw [filterMap_map]
    rfl
  rw [read, read, same]

theorem stampEvents_immediate {nextSequence : UInt64}
    (immediate : ∀ event ∈ events, Immediate event) :
    ∀ event ∈ stampEvents nextSequence events, Immediate event :=
  forall_stampEvents (fun _ _ holds => holds) immediate

theorem SessionRecord.appendEvents_cases (sessionId : String) (batch : List SessionEventEnvelope)
    (record : SessionRecord) :
    ∃ nextSequence added, added <+: stampEvents nextSequence batch ∧
      (record.appendEvents sessionId batch).1 = { record with events := record.events ++ added } ∧
      ((record.appendEvents sessionId batch).2 = .ok () →
        added = stampEvents nextSequence batch) := by
  unfold SessionRecord.appendEvents
  cases record.readEvents sessionId with
  | error error => exact ⟨0, [], nil_prefix, by simp, nofun⟩
  | ok before =>
    exact ⟨nextAfter before, _, acceptEvents_prefix, rfl, acceptEvents_ok⟩

theorem SessionRecord.appendEvents_error {sessionId error : String}
    {pending : List SessionEventEnvelope} {last : SessionEventEnvelope} {record : SessionRecord}
    (failed : (record.appendEvents sessionId (pending ++ [last])).2 = .error error) :
    ∃ nextSequence added, added <+: stampEvents nextSequence pending ∧
      (record.appendEvents sessionId (pending ++ [last])).1 =
        { record with events := record.events ++ added } := by
  unfold SessionRecord.appendEvents at failed ⊢
  cases reads : record.readEvents sessionId with
  | error error => exact ⟨0, [], nil_prefix, by simp⟩
  | ok before =>
    rw [reads] at failed
    exact ⟨nextAfter before, _, acceptEvents_error failed, rfl⟩

theorem SessionRecord.updateManifest_cases {record : SessionRecord}
    (valid : validateManifest record.manifest.toSessionManifest = .ok ())
    (failure : Option String) (patch : ManifestPatch) :
    (∃ error, record.updateManifest failure patch = (record, .error error)) ∨
      ∃ updated, record.updateManifest failure patch = (updated, .ok ()) ∧
        updated.events = record.events ∧ updated.manifest = patch.apply record.manifest ∧
        validateManifest updated.manifest.toSessionManifest = .ok () := by
  unfold SessionRecord.updateManifest
  cases failure with
  | some error => exact .inl ⟨error, rfl⟩
  | none =>
    right
    simp only [ManifestPatch.apply_valid, valid]
    exact ⟨_, rfl, rfl, rfl, valid⟩

/-- The active leaf in `session.json` after a move or none. -/
def leafAfter (before : Option String) : Option (String × Bool) → Option String
  | some (leaf, true) => some leaf
  | _ => before

/-- What a call leaves behind: the manifest stays valid, the log gains events of which the
last that moves the active leaf is the recorded move, and the manifest gains the leaf
of a move that it takes. -/
structure Outcome (before after : SessionRecord) (move : Option (String × Bool)) : Prop where
  valid : validateManifest after.manifest.toSessionManifest = .ok ()
  events : ∃ added, after.events = before.events ++ added ∧
    (∀ event ∈ added, Immediate event) ∧ lastMove added = move.map Prod.fst
  leaf : after.manifest.activeLeafId = leafAfter before.manifest.activeLeafId move

section outcome

variable {record : SessionRecord} {sessionId : String} {batch : List SessionEventEnvelope}

theorem Outcome.unchanged (valid : validateManifest record.manifest.toSessionManifest = .ok ()) :
    Outcome record record none where
  valid := valid
  events := ⟨[], by simp, by simp, rfl⟩
  leaf := rfl

theorem lastMove_eq_none (still : ∀ event ∈ events, leafMove event = none) :
    lastMove events = none := by
  have none : events.filterMap leafMove = [] := filterMap_eq_nil_iff.mpr still
  rw [lastMove, none, getLast?_nil]

theorem still_of_stamped {nextSequence : UInt64} (still : ∀ event ∈ batch, leafMove event = none) :
    ∀ event ∈ stampEvents nextSequence batch, leafMove event = none :=
  forall_stampEvents (fun _ _ holds => holds) still

theorem immediate_of_still {event : SessionEventEnvelope} (still : leafMove event = none) :
    Immediate event := fun moves => absurd still moves

section

variable (valid : validateManifest record.manifest.toSessionManifest = .ok ())
include valid

theorem Outcome.added (still : ∀ event ∈ batch, leafMove event = none) {nextSequence : UInt64}
    {added : List SessionEventEnvelope} (front : added <+: stampEvents nextSequence batch) :
    Outcome record { record with events := record.events ++ added } none := by
  have quiet : ∀ event ∈ added, leafMove event = none := fun event member =>
    still_of_stamped still event (front.subset member)
  exact ⟨valid, ⟨added, rfl, fun event member => immediate_of_still (quiet event member),
    lastMove_eq_none quiet⟩, rfl⟩

theorem Outcome.append (still : ∀ event ∈ batch, leafMove event = none) :
    Outcome record (record.appendEvents sessionId batch).1 none := by
  obtain ⟨nextSequence, added, front, same, -⟩ :=
    SessionRecord.appendEvents_cases sessionId batch record
  rw [same]
  exact Outcome.added valid still front

variable {pending : List SessionEventEnvelope} {last : SessionEventEnvelope}

theorem Outcome.appendMove {leaf : String} (still : ∀ event ∈ pending, leafMove event = none)
    (moves : leafMove last = some leaf) (immediate : Immediate last)
    (accepted : (record.appendEvents sessionId (pending ++ [last])).2 = .ok ()) :
    Outcome record (record.appendEvents sessionId (pending ++ [last])).1 (some (leaf, false)) := by
  obtain ⟨nextSequence, added, -, same, whole⟩ :=
    SessionRecord.appendEvents_cases sessionId (pending ++ [last]) record
  have added_eq := whole accepted
  have nothing : pending.filterMap leafMove = [] := filterMap_eq_nil_iff.mpr still
  rw [same, added_eq]
  refine ⟨valid, ⟨_, rfl, ?_, ?_⟩, rfl⟩
  · apply stampEvents_immediate
    intro event member
    rcases mem_append.mp member with old | new
    · exact immediate_of_still (still event old)
    · rw [mem_singleton.mp new]
      exact immediate
  · unfold lastMove
    rw [stampEvents_filterMap, filterMap_append, nothing]
    simp [moves]

theorem Outcome.appendMove_failed {error : String}
    (still : ∀ event ∈ pending, leafMove event = none)
    (failed : (record.appendEvents sessionId (pending ++ [last])).2 = .error error) :
    Outcome record (record.appendEvents sessionId (pending ++ [last])).1 none := by
  obtain ⟨nextSequence, added, front, same⟩ := SessionRecord.appendEvents_error failed
  rw [same]
  exact Outcome.added valid still front

end

variable {before after updated : SessionRecord}

theorem Outcome.update {move : Option (String × Bool)} (earlier : Outcome before after move)
    (events : updated.events = after.events)
    (valid : validateManifest updated.manifest.toSessionManifest = .ok ())
    (leaf : updated.manifest.activeLeafId = after.manifest.activeLeafId) :
    Outcome before updated move := by
  refine ⟨valid, ?_, leaf.trans earlier.leaf⟩
  rw [events]
  exact earlier.events

theorem Outcome.take {leaf : String} (earlier : Outcome before after (some (leaf, false)))
    (events : updated.events = after.events)
    (valid : validateManifest updated.manifest.toSessionManifest = .ok ())
    (taken : updated.manifest.activeLeafId = some leaf) :
    Outcome before updated (some (leaf, true)) := by
  refine ⟨valid, ?_, taken⟩
  rw [events]
  exact earlier.events

end outcome

namespace ServiceState

variable {state : ServiceState}

variable (transaction : TurnTransaction)

theorem pending_still : ∀ event ∈ transaction.pendingEvents, leafMove event = none := by
  intro event member
  have recordable := (transaction.pending event member).2
  unfold leafMove
  revert recordable
  cases event.data <;> intro recordable <;> first | rfl | cases recordable

def moved (leaf : String) : Except CodingSessionError Unit → Option (String × Bool)
  | .ok () => some (leaf, true)
  | .error (.partialCommit ..) => some (leaf, false)
  | .error _ => none

theorem commit_leaf_outcome (leafId eventId now : String) (failure : Option String)
    {record : SessionRecord} (valid : validateManifest record.manifest.toSessionManifest = .ok ()) :
    Outcome record (transaction.commit (some leafId) eventId now failure record).1
      (moved leafId (transaction.commit (some leafId) eventId now failure record).2) := by
  have still := pending_still transaction
  simp only [TurnTransaction.commit]
  cases appended : (record.appendEvents transaction.sessionId (transaction.pendingEvents ++
      [transaction.envelope eventId now (.operationCommitted (some leafId))])).2 with
  | error error => exact Outcome.appendMove_failed valid still appended
  | ok =>
    have moves : leafMove (transaction.envelope eventId now (.operationCommitted (some leafId))) =
        some leafId := rfl
    have earlier := Outcome.appendMove valid still moves (fun _ => .inl rfl) appended
    rcases SessionRecord.updateManifest_cases earlier.valid failure
        { updatedAt := some now, activeLeafId := some (some leafId) } with
      ⟨error, failed⟩ | ⟨updated, taken, events, manifest, stays⟩
    · simp only [failed]
      exact earlier
    · simp only [taken]
      exact earlier.take events stays (by rw [manifest]; rfl)

theorem commitPrompt_outcome (leafId eventId now : String) (failure : Option String)
    (valid : validateManifest state.record.manifest.toSessionManifest = .ok ()) :
    Outcome state.record
      (state.commitPromptTransaction transaction leafId eventId now failure).1.record
      (moved leafId (state.commitPromptTransaction transaction leafId eventId now failure).2) := by
  have committed := commit_leaf_outcome transaction leafId eventId now failure valid
  simp only [commitPromptTransaction]
  cases finished : (transaction.commit (some leafId) eventId now failure state.record).2 with
  | error error =>
    rw [finished] at committed
    exact committed
  | ok =>
    rw [finished] at committed
    rw [refresh_eq state.handle committed.valid]
    exact committed

theorem commitNonLeaf_outcome (eventId now : String) (failure : Option String)
    (valid : validateManifest state.record.manifest.toSessionManifest = .ok ()) :
    Outcome state.record (state.commitNonLeafTransaction transaction eventId now failure).1.record
      none := by
  have still : ∀ event ∈ transaction.pendingEvents ++
      [transaction.envelope eventId now (.operationCommitted none)], leafMove event = none := by
    intro event member
    rcases mem_append.mp member with old | new
    · exact pending_still transaction event old
    · rw [mem_singleton.mp new]
      rfl
  have appended : Outcome state.record (state.record.appendEvents transaction.sessionId
      (transaction.pendingEvents ++
        [transaction.envelope eventId now (.operationCommitted none)])).1 none :=
    Outcome.append valid still
  simp only [commitNonLeafTransaction, TurnTransaction.commit]
  cases finished : (state.record.appendEvents transaction.sessionId (transaction.pendingEvents ++
      [transaction.envelope eventId now (.operationCommitted none)])).2 with
  | error error => exact appended
  | ok =>
    rcases SessionRecord.updateManifest_cases appended.valid failure
        { updatedAt := some now } with
      ⟨error, failed⟩ | ⟨updated, taken, events, manifest, stays⟩
    · simp only [failed]
      exact appended
    · simp only [taken]
      rw [refresh_eq state.handle stays]
      exact appended.update events stays (by rw [manifest]; rfl)

theorem switch_outcome (targetLeafId operationId eventId now : String) (failure : Option String)
    (valid : validateManifest state.record.manifest.toSessionManifest = .ok ()) :
    Outcome state.record
      (state.switchActiveLeaf targetLeafId operationId eventId now failure).1.record
      (moved (trim targetLeafId)
        (state.switchActiveLeaf targetLeafId operationId eventId now failure).2) := by
  have nothing : ∀ event ∈ ([] : List SessionEventEnvelope), leafMove event = none := by simp
  have moves : leafMove (SessionEventEnvelope.new state.handle.sessionId eventId now
      (.activeLeafChanged (trim targetLeafId))) = some (trim targetLeafId) := rfl
  simp only [switchActiveLeaf, normalizeLeafId]
  by_cases empty : trim targetLeafId = ""
  · simp only [empty, if_true]
    exact Outcome.unchanged valid
  simp only [empty, if_false]
  cases state.record.readEvents state.handle.sessionId with
  | error error => exact Outcome.unchanged valid
  | ok events =>
    by_cases unknown : (committedLeafCutoff events (trim targetLeafId)).isNone = true
    · simp only [unknown, if_true]
      exact Outcome.unchanged valid
    simp only [unknown, Bool.false_eq_true, if_false]
    cases appended : (state.record.appendEvents state.handle.sessionId
        [SessionEventEnvelope.new state.handle.sessionId eventId now
          (.activeLeafChanged (trim targetLeafId))]).2 with
    | error error =>
      exact Outcome.appendMove_failed valid nothing appended
    | ok =>
      have earlier := Outcome.appendMove valid nothing moves (fun _ => .inr rfl) appended
      rcases SessionRecord.updateManifest_cases earlier.valid failure
          { updatedAt := some now, activeLeafId := some (some (trim targetLeafId)) } with
        ⟨error, failed⟩ | ⟨updated, taken, events, manifest, stays⟩
      · simp only [nil_append] at failed
        simp only [failed]
        exact earlier
      · simp only [nil_append] at taken
        simp only [taken]
        rw [refresh_eq state.handle stays]
        exact earlier.take events stays (by rw [manifest]; rfl)

theorem setDefault_outcome (profileId now : String) (failure : Option String)
    (valid : validateManifest state.record.manifest.toSessionManifest = .ok ()) :
    Outcome state.record (state.setDefaultAgentProfileId profileId now failure).1.record none := by
  simp only [setDefaultAgentProfileId]
  rcases SessionRecord.updateManifest_cases valid failure
      { updatedAt := some now, defaultAgentProfileId := some profileId } with
    ⟨error, failed⟩ | ⟨updated, taken, events, manifest, stays⟩
  · simp only [failed]
    exact Outcome.unchanged valid
  · simp only [taken]
    rw [refresh_eq state.handle stays]
    exact (Outcome.unchanged valid).update events stays (by rw [manifest]; rfl)

theorem interrupted_outcome (written : Nat) (error : String)
    (valid : validateManifest state.record.manifest.toSessionManifest = .ok ()) :
    Outcome state.record (state.interrupted transaction written error).1.record none :=
  Outcome.append valid fun event member =>
    pending_still transaction event (take_subset _ _ member)

theorem recoveryEvents_still (system : StartupSystem) (sessionId : String)
    (markers : List StartupRecoveryMarker) :
    ∀ event ∈ recoveryEvents system sessionId markers, leafMove event = none := by
  intro event member
  obtain ⟨entry, -, rfl⟩ := mem_map.mp member
  rfl

theorem reopen_outcome (values : Serde) (system : StartupSystem) (failure : Option String)
    {record : SessionRecord}
    (valid : validateManifest record.manifest.toSessionManifest = .ok ()) :
    Outcome record (reopen values system failure record).1 none ∧
      ∀ opened, (reopen values system failure record).2 = .ok opened →
        opened.record = (reopen values system failure record).1 ∧
          opened.handle = opened.record.manifest := by
  simp only [reopen, SessionRecord.openSession, valid]
  cases record.readEvents record.manifest.sessionId with
  | error error => exact ⟨Outcome.unchanged valid, fun _ failed => by cases failed⟩
  | ok events =>
    by_cases settled : (foldEvents values events).recoverySummary = []
    · simp only [settled, if_true]
      refine ⟨Outcome.unchanged valid, fun opened same => ?_⟩
      cases same
      exact ⟨rfl, rfl⟩
    simp only [settled, if_false]
    have appended : Outcome record (record.appendEvents record.manifest.sessionId
        (recoveryEvents system record.manifest.sessionId
          (recoveryMarkers system (foldEvents values events).recoverySummary))).1 none :=
      Outcome.append valid (recoveryEvents_still system record.manifest.sessionId
        (recoveryMarkers system (foldEvents values events).recoverySummary))
    cases (record.appendEvents record.manifest.sessionId
        (recoveryEvents system record.manifest.sessionId
          (recoveryMarkers system (foldEvents values events).recoverySummary))).2 with
    | error error => exact ⟨appended, fun _ failed => by cases failed⟩
    | ok =>
      rcases SessionRecord.updateManifest_cases appended.valid failure
          { updatedAt := some system.now } with
        ⟨error, failed⟩ | ⟨updated, taken, events, manifest, stays⟩
      · simp only [failed]
        exact ⟨appended, fun _ failed => by cases failed⟩
      · simp only [taken, stays]
        refine ⟨appended.update events stays (by rw [manifest]; rfl), fun opened same => ?_⟩
        cases same
        exact ⟨rfl, rfl⟩

theorem move_eq (values : Serde) (call : ServiceCall) (state : ServiceState) :
    state.move values call = call.leaf.bind fun leaf => moved leaf (state.call values call).2 := by
  unfold move
  cases call.leaf with
  | none => rfl
  | some leaf =>
    cases (state.call values call).2 with
    | ok => rfl
    | error error => cases error <;> rfl

theorem call_outcome (values : Serde) (call : ServiceCall)
    (valid : validateManifest state.record.manifest.toSessionManifest = .ok ()) :
    Outcome state.record (state.call values call).1.record (state.move values call) := by
  rw [move_eq]
  cases call with
  | commitPrompt transaction newLeafId eventId now failure =>
    simp only [call]
    exact commitPrompt_outcome transaction newLeafId eventId now failure valid
  | commitNonLeaf transaction eventId now failure =>
    simp only [call]
    exact commitNonLeaf_outcome transaction eventId now failure valid
  | switchActiveLeaf targetLeafId operationId eventId now failure =>
    simp only [call]
    exact switch_outcome targetLeafId operationId eventId now failure valid
  | setDefaultAgentProfileId profileId now failure =>
    simp only [call]
    exact setDefault_outcome profileId now failure valid
  | interrupted transaction written error =>
    simp only [call]
    exact interrupted_outcome transaction written error valid
  | reopen system failure =>
    obtain ⟨outcome, handed⟩ := reopen_outcome values system failure valid
    simp only [call]
    cases result : reopen values system failure state.record with
    | mk record answer =>
      rw [result] at outcome handed
      cases answer with
      | error error => exact outcome
      | ok opened =>
        obtain ⟨same, -⟩ := handed opened rfl
        have outcome : Outcome state.record opened.record none := by
          rw [same]
          exact outcome
        exact outcome

end ServiceState

/-- The leaf of the last move that `session.json` took. -/
def storedLeaf (moves : List (String × Bool)) : Option String :=
  ((moves.filter Prod.snd).getLast?).map Prod.fst

def loggedLeaf (moves : List (String × Bool)) : Option String :=
  moves.getLast?.map Prod.fst

/-- The moves of a run, in the log and in the manifest. -/
structure Tracks (record : SessionRecord) (moves : List (String × Bool)) : Prop where
  valid : validateManifest record.manifest.toSessionManifest = .ok ()
  immediate : ∀ event ∈ record.events, Immediate event
  logged : lastMove record.events = loggedLeaf moves
  stored : record.manifest.activeLeafId = storedLeaf moves

theorem Tracks.outcome {before after : SessionRecord} {moves : List (String × Bool)}
    {move : Option (String × Bool)} (tracks : Tracks before moves)
    (outcome : Outcome before after move) : Tracks after (moves ++ move.toList) := by
  obtain ⟨valid, ⟨added, events, immediate, moved⟩, leaf⟩ := outcome
  refine ⟨valid, fun event member => ?_, ?_, ?_⟩
  · rw [events] at member
    rcases mem_append.mp member with old | new
    · exact tracks.immediate event old
    · exact immediate event new
  · rw [events, lastMove_append, moved, tracks.logged]
    unfold loggedLeaf
    cases move <;> simp
  · rw [leaf, tracks.stored]
    unfold storedLeaf
    cases move with
    | none => simp [leafAfter]
    | some entry =>
      obtain ⟨moved, taken⟩ := entry
      cases taken <;> simp [leafAfter]

theorem Tracks.run (values : Serde) (calls : List ServiceCall) {state : ServiceState}
    {moves : List (String × Bool)} (tracks : Tracks state.record moves) :
    Tracks (state.run values calls).record (moves ++ state.moves values calls) := by
  induction calls generalizing state moves with
  | nil =>
    rw [ServiceState.moves, append_nil]
    exact tracks
  | cons call calls ih =>
    have step := tracks.outcome (ServiceState.call_outcome values call tracks.valid)
    have rest := ih step
    rw [append_assoc] at rest
    exact rest

theorem create_tracks (sessionId eventId createdAt defaultAgentProfileId : String)
    (cwd : Option String) :
    Tracks (ServiceState.create sessionId eventId createdAt defaultAgentProfileId cwd).record [] := by
  have valid : validateManifest
      (StoredManifest.new sessionId createdAt defaultAgentProfileId).toSessionManifest = .ok () := by
    have path : validateRelativeManifestPath sessionEventLogFile = .ok () := rfl
    simp [validateManifest, StoredManifest.new, path]
  have empty : Tracks ⟨StoredManifest.new sessionId createdAt defaultAgentProfileId, []⟩ [] :=
    ⟨valid, forall_mem_nil _, rfl, rfl⟩
  exact empty.outcome (Outcome.append valid fun event member => by
    rw [mem_singleton.mp member]
    rfl)

theorem storedLeaf_eq_iff (moves : List (String × Bool)) :
    storedLeaf moves = loggedLeaf moves ↔
      ∀ leaf, moves.getLast? = some (leaf, false) → storedLeaf moves = some leaf := by
  unfold loggedLeaf
  induction moves using reverseRecOn with
  | nil => simp [storedLeaf]
  | append_singleton moves last =>
    obtain ⟨leaf, taken⟩ := last
    cases taken <;> simp [storedLeaf]

/-- Once a session opens again after any of its writes, whichever manifest updates
failed, its replay has the leaf of the last move in the log and its manifest the leaf
of the last move that the manifest took. -/
theorem reopened_active_leaf (values : Serde)
    (sessionId eventId createdAt defaultAgentProfileId : String) (cwd : Option String)
    (calls : List ServiceCall) (system : StartupSystem) (failure : Option String)
    {opened : ServiceState}
    (success : (ServiceState.reopen values system failure ((ServiceState.create sessionId eventId
      createdAt defaultAgentProfileId cwd).run values calls).record).2 = .ok opened) :
    let moves := (ServiceState.create sessionId eventId createdAt defaultAgentProfileId cwd).moves
      values calls
    opened.handle = opened.record.manifest ∧
      (foldEvents values opened.record.events).activeLeafId = loggedLeaf moves ∧
      opened.record.manifest.activeLeafId = storedLeaf moves ∧
      (opened.record.manifest.activeLeafId =
          (foldEvents values opened.record.events).activeLeafId ↔
        ∀ leaf, moves.getLast? = some (leaf, false) → storedLeaf moves = some leaf) := by
  intro moves
  have start := create_tracks sessionId eventId createdAt defaultAgentProfileId cwd
  have reached := start.run values calls
  obtain ⟨outcome, handed⟩ := ServiceState.reopen_outcome values system failure reached.valid
  obtain ⟨same, handle⟩ := handed opened success
  have final := reached.outcome outcome
  rw [← same, Option.toList_none, append_nil, nil_append] at final
  have replayed : (foldEvents values opened.record.events).activeLeafId = loggedLeaf moves := by
    rw [foldEvents_activeLeafId_of_immediate values final.immediate]
    exact final.logged
  refine ⟨handle, replayed, final.stored, ?_⟩
  rw [replayed, final.stored]
  exact storedLeaf_eq_iff moves

section partialCommit

def sampleState : ServiceState := ServiceState.create "s" "e" "t" "default" none

def promptCall (failure : Option String) : ServiceCall :=
  .commitPrompt (TurnTransaction.start "s" "op_1" "turn_1" ("a", "b") "t" .prompt) "leaf_1" "c" "t"
    failure

def failingCalls : List ServiceCall :=
  [promptCall none, .setDefaultAgentProfileId "coder" "t" (some "full"),
    .switchActiveLeaf " leaf_1 " "op_2" "d" "t" (some "full")]

def sampleOpened (calls : List ServiceCall) : ServiceState :=
  ⟨(sampleState.run sampleValues calls).record,
    (sampleState.run sampleValues calls).record.manifest⟩

theorem reopen_settled {record : SessionRecord}
    (valid : validateManifest record.manifest.toSessionManifest = .ok ())
    (reads : record.readEvents record.manifest.sessionId = .ok record.events)
    (values : Serde) (system : StartupSystem) (failure : Option String)
    (settled : ∀ entry ∈ (foldEvents values record.events).operationStatuses, entry.2 ≠ .inDoubt) :
    (ServiceState.reopen values system failure record).2 = .ok ⟨record, record.manifest⟩ := by
  have none : (foldEvents values record.events).recoverySummary = [] := by
    unfold SessionReplay.recoverySummary
    rw [filter_eq_nil_iff.mpr (by simpa using settled)]
    simp
  simp [ServiceState.reopen, SessionRecord.openSession, valid, reads, none]

theorem reopened_active_leaf_failing :
    (sampleOpened failingCalls).record.manifest.activeLeafId =
      (foldEvents sampleValues (sampleOpened failingCalls).record.events).activeLeafId := by
  have opens : (ServiceState.reopen sampleValues sampleSystem none
      (sampleState.run sampleValues failingCalls).record).2 = .ok (sampleOpened failingCalls) := by
    refine reopen_settled rfl rfl sampleValues sampleSystem none ?_
    decide
  have stored : storedLeaf (sampleState.moves sampleValues failingCalls) = some "leaf_1" := by
    decide
  have last : (sampleState.moves sampleValues failingCalls).getLast? = some ("leaf_1", false) := by
    decide
  refine (reopened_active_leaf sampleValues "s" "e" "t" "default" none failingCalls sampleSystem
    none opens).2.2.2.mpr fun leaf moved => ?_
  have same : some ("leaf_1", false) = some (leaf, false) := last.symm.trans moved
  cases same
  exact stored

/-- A prompt whose manifest update fails: the replay has its leaf, the manifest none. -/
theorem partial_commit_splits_leaf :
    ∃ opened, (ServiceState.reopen sampleValues sampleSystem none
        (sampleState.run sampleValues [promptCall (some "full")]).record).2 = .ok opened ∧
      opened.handle.activeLeafId ≠ (foldEvents sampleValues opened.record.events).activeLeafId := by
  refine ⟨sampleOpened [promptCall (some "full")],
    reopen_settled rfl rfl sampleValues sampleSystem none ?_, ?_⟩
  · decide
  · decide

end partialCommit

end PiRust.SessionLog
