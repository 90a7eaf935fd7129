import PiRust.CopiedHistory

/- What the logs that the session service writes have in common: the leaves that their events
move to. -/
namespace PiRust.SessionLog

open List

abbrev Mark := Option String × SessionEventData

def mark (event : SessionEventEnvelope) : Mark := (event.operationId, event.data)

def startOf (operationId : String) (mark : Mark) : Option OperationKind :=
  match mark.2 with
  | .operationStarted operation => if mark.1 = some operationId then some operation else none
  | _ => none

def committedLeaf : Mark → Option String
  | (_, .operationCommitted newLeafId) => newLeafId
  | _ => none

def startedKind (marks : List Mark) (operationId : String) : Option OperationKind :=
  (marks.filterMap (startOf operationId)).getLast?

def committedLeaves (marks : List Mark) : List String := marks.filterMap committedLeaf

def Backed (before : List Mark) : Mark → Prop
  | (operationId, .operationCommitted (some _)) =>
    ∃ owner, operationId = some owner ∧ startedKind before owner = some .prompt
  | (operationId, .activeLeafChanged leafId) =>
    operationId = none ∧ leafId ∈ committedLeaves before
  | _ => True

/-- Only prompts commit leaves, and the active leaf changes to committed ones. -/
def Grounded (marks : List Mark) : Prop :=
  ∀ before mark, before ++ [mark] <+: marks → Backed before mark

section marks

variable {marks more before : List Mark} {last : Mark}

theorem startedKind_append (marks more : List Mark) (operationId : String) :
    startedKind (marks ++ more) operationId =
      (startedKind more operationId).or (startedKind marks operationId) := by
  unfold startedKind
  rw [filterMap_append, getLast?_append]

theorem committedLeaves_append (marks more : List Mark) :
    committedLeaves (marks ++ more) = committedLeaves marks ++ committedLeaves more :=
  filterMap_append

theorem Backed.after (backed : Backed before last) (earlier : List Mark) :
    Backed (earlier ++ before) last := by
  obtain ⟨operationId, data⟩ := last
  cases data with
  | operationCommitted newLeafId =>
    cases newLeafId with
    | none => trivial
    | some leafId =>
      obtain ⟨owner, same, kind⟩ := backed
      refine ⟨owner, same, ?_⟩
      rw [startedKind_append, kind, Option.some_or]
  | activeLeafChanged leafId =>
    refine ⟨backed.1, ?_⟩
    rw [committedLeaves_append]
    exact mem_append_right _ backed.2
  | _ => trivial

theorem grounded_nil : Grounded [] := by
  intro before last front
  have short := front.length_le
  rw [length_append, length_singleton, length_nil] at short
  exact absurd short (Nat.not_succ_le_zero _)

theorem Grounded.front (grounded : Grounded more) (front : marks <+: more) : Grounded marks :=
  fun before last inside => grounded before last (inside.trans front)

theorem grounded_concat : Grounded (marks ++ [last]) ↔ Grounded marks ∧ Backed marks last := by
  constructor
  · intro grounded
    exact ⟨grounded.front (prefix_append _ _), grounded marks last prefix_rfl⟩
  · intro parts before other front
    rcases prefix_concat_iff.mp front with whole | inside
    · obtain ⟨same, final⟩ := append_inj' whole rfl
      rw [same, singleton_inj.mp final]
      exact parts.2
    · exact parts.1 before other inside

theorem Grounded.append (first : Grounded marks) (second : Grounded more) :
    Grounded (marks ++ more) := by
  induction more using reverseRecOn with
  | nil =>
    rw [append_nil]
    exact first
  | append_singleton more last ih =>
    obtain ⟨grounded, backed⟩ := grounded_concat.mp second
    rw [← append_assoc]
    exact grounded_concat.mpr ⟨ih grounded, backed.after marks⟩

end marks

section events

variable {events : List SessionEventEnvelope} {event : SessionEventEnvelope}

theorem backed_of_still (before : List Mark) (still : leafMove event = none) :
    Backed before (mark event) := by
  unfold leafMove at still
  unfold mark
  revert still
  cases event.data with
  | operationCommitted newLeafId =>
    intro still
    rw [show newLeafId = none from still]
    trivial
  | activeLeafChanged => exact nofun
  | _ => exact fun _ => trivial

theorem grounded_of_still (still : ∀ event ∈ events, leafMove event = none) :
    Grounded (events.map mark) := by
  induction events using reverseRecOn with
  | nil => exact grounded_nil
  | append_singleton events event ih =>
    rw [map_append]
    exact grounded_concat.mpr ⟨ih fun other member => still other (mem_append_left _ member),
      backed_of_still _ (still event (mem_append_right _ (mem_singleton_self event)))⟩

variable {keep : SessionEventEnvelope → Bool}

theorem startedKind_filter {operationId : String}
    (kept : ∀ event ∈ events, startOf operationId (mark event) ≠ none → keep event = true) :
    startedKind ((events.filter keep).map mark) operationId =
      startedKind (events.map mark) operationId := by
  unfold startedKind
  rw [filterMap_map, filterMap_map, filterMap_filter]
  congr 1
  refine filterMap_congr fun event member => ?_
  split
  · rfl
  · next dropped =>
    by_cases starts : startOf operationId (mark event) = none
    · exact starts.symm
    · exact absurd (kept event member starts) dropped

theorem committedLeaves_filter
    (kept : ∀ event ∈ events, committedLeaf (mark event) ≠ none → keep event = true) :
    committedLeaves ((events.filter keep).map mark) = committedLeaves (events.map mark) := by
  unfold committedLeaves
  rw [filterMap_map, filterMap_map, filterMap_filter]
  refine filterMap_congr fun event member => ?_
  split
  · rfl
  · next dropped =>
    by_cases commits : committedLeaf (mark event) = none
    · exact commits.symm
    · exact absurd (kept event member commits) dropped

/-- Whoever keeps an event keeps what it rests on. -/
structure Backing (keep : SessionEventEnvelope → Bool) : Prop where
  starts : ∀ event leafId, keep event = true → event.data = .operationCommitted (some leafId) →
    ∀ owner, event.operationId = some owner →
      ∀ other, startOf owner (mark other) ≠ none → keep other = true
  commits : ∀ event leafId, keep event = true → event.data = .activeLeafChanged leafId →
    event.operationId = none → ∀ other, committedLeaf (mark other) ≠ none → keep other = true

theorem Backed.filter {front : List Mark} (backing : Backing keep) (kept : keep event = true)
    (backed : Backed (front ++ events.map mark) (mark event)) :
    Backed (front ++ (events.filter keep).map mark) (mark event) := by
  have marked : mark event = (event.operationId, event.data) := rfl
  rw [marked] at backed ⊢
  cases data : event.data with
  | operationCommitted newLeafId =>
    cases newLeafId with
    | none => trivial
    | some leafId =>
      rw [data] at backed
      obtain ⟨owner, named, kind⟩ := backed
      refine ⟨owner, named, ?_⟩
      rw [startedKind_append] at kind ⊢
      rw [startedKind_filter fun other _ => backing.starts event leafId kept data owner named other]
      exact kind
  | activeLeafChanged leafId =>
    rw [data] at backed
    refine ⟨backed.1, ?_⟩
    rw [committedLeaves_append, committedLeaves_filter fun other _ =>
      backing.commits event leafId kept data backed.1 other, ← committedLeaves_append]
    exact backed.2
  | _ => trivial

theorem grounded_filter {front : List Mark} (backing : Backing keep)
    (grounded : Grounded (front ++ events.map mark)) :
    Grounded (front ++ (events.filter keep).map mark) := by
  induction events using reverseRecOn with
  | nil => exact grounded
  | append_singleton events event ih =>
    rw [map_append, ← append_assoc] at grounded
    obtain ⟨earlier, backed⟩ := grounded_concat.mp grounded
    rw [filter_append]
    by_cases kept : keep event = true
    · rw [filter_cons_of_pos kept, filter_nil, map_append, ← append_assoc]
      exact grounded_concat.mpr ⟨ih earlier, backed.filter backing kept⟩
    · rw [filter_cons_of_neg kept, filter_nil, append_nil]
      exact ih earlier

end events

/-- A transaction of an operation, as it grows. -/
inductive Begun (operation : OperationKind) : TurnTransaction → Prop
  | start (sessionId operationId turnId : String) (eventIds : String × String) (now : String) :
      Begun operation (.start sessionId operationId turnId eventIds now operation)
  | record {transaction : TurnTransaction} (begun : Begun operation transaction)
      (eventId createdAt : String) {data : SessionEventData} (recordable : isRecordable data)
      (once : isOperationStarted data = false) :
      Begun operation (transaction.record eventId createdAt data recordable)

/-- The services commit leaves with the transactions of prompts. -/
def ServiceCall.Sound : ServiceCall → Prop
  | .commitPrompt transaction .. => Begun .prompt transaction
  | _ => True

/-- The sessions that come of runs of the service. What is appended besides the calls are the
records of delegation confirmations and the ends of operations that fail or are aborted, and what
is appended before an error counts as well. -/
inductive Reached (values : Serde) : SessionRecord → Prop
  | created (sessionId eventId createdAt defaultAgentProfileId : String) (cwd : Option String) :
      Reached values
        (ServiceState.create sessionId eventId createdAt defaultAgentProfileId cwd).record
  | called {state : ServiceState} (reached : Reached values state.record) (call : ServiceCall)
      (sound : call.Sound) : Reached values (state.call values call).1.record
  | appended {record : SessionRecord} (reached : Reached values record) (sessionId : String)
      (batch : List SessionEventEnvelope) (still : ∀ event ∈ batch, leafMove event = none) :
      Reached values (record.appendEvents sessionId batch).1
  | copied {root : SessionRoot} (sessions : ∀ name record,
        StringMap.get root.sessions name = some record → Reached values record)
      (system : CopySystem) (kind : SessionCopyKind) (targetLeafId failure cleanup : Option String)
      (handle : StoredManifest) {name : String} {record : SessionRecord}
      (stored : StringMap.get (copyToNewSession values system kind targetLeafId failure cleanup
        handle root).1.sessions name = some record) : Reached values record

section runs

variable {record : SessionRecord} {batch : List SessionEventEnvelope} {sessionId : String}

def SessionRecord.Grounded (record : SessionRecord) : Prop :=
  SessionLog.Grounded (record.events.map mark)

theorem begun_startedKind {operation : OperationKind} {transaction : TurnTransaction}
    (begun : Begun operation transaction) :
    startedKind (transaction.pendingEvents.map mark) transaction.operationId = some operation := by
  induction begun with
  | start sessionId operationId =>
    show startedKind [(some operationId, .operationStarted operation),
      (some operationId, .turnStarted)] operationId = _
    simp only [startedKind, startOf, filterMap_cons, filterMap_nil, if_true]
    rfl
  | @record transaction begun eventId createdAt data recordable once ih =>
    have added : (transaction.record eventId createdAt data recordable).pendingEvents.map mark =
        transaction.pendingEvents.map mark ++ [(some transaction.operationId, data)] := by
      rw [TurnTransaction.record, map_append]
      rfl
    have other : startedKind [(some transaction.operationId, data)] transaction.operationId =
        none := by
      cases data with
      | operationStarted => cases once
      | _ => rfl
    rw [added, startedKind_append]
    show Option.or (startedKind [(some transaction.operationId, data)]
      transaction.operationId) (startedKind _ transaction.operationId) = _
    rw [other, ih, Option.none_or]

theorem appendEvents_grounded
    (whole : SessionLog.Grounded (record.events.map mark ++ batch.map mark)) :
    (record.appendEvents sessionId batch).1.Grounded := by
  obtain ⟨nextSequence, added, front, same, -⟩ :=
    SessionRecord.appendEvents_cases sessionId batch record
  have stamped : (stampEvents nextSequence batch).map mark = batch.map mark :=
    stampEvents_map (fun _ _ => rfl) nextSequence batch
  have written : added.map mark <+: batch.map mark := by
    rw [← stamped]
    exact front.map mark
  rw [same]
  show SessionLog.Grounded ((record.events ++ added).map mark)
  rw [map_append]
  exact whole.front ((prefix_append_right_inj _).mpr written)

theorem SessionRecord.Grounded.appendStill (grounded : record.Grounded)
    (still : ∀ event ∈ batch, leafMove event = none) :
    (record.appendEvents sessionId batch).1.Grounded :=
  appendEvents_grounded (grounded.append (grounded_of_still still))

theorem SessionRecord.Grounded.updateManifest (grounded : record.Grounded)
    (failure : Option String) (patch : ManifestPatch) :
    (record.updateManifest failure patch).1.Grounded := by
  unfold SessionRecord.Grounded
  rw [SessionRecord.updateManifest_events]
  exact grounded

theorem commit_grounded {newLeafId : Option String} (transaction : TurnTransaction)
    (eventId now : String) (failure : Option String) (grounded : record.Grounded)
    (begun : newLeafId = none ∨ Begun .prompt transaction) :
    (transaction.commit newLeafId eventId now failure record).1.Grounded := by
  have pending : SessionLog.Grounded (transaction.pendingEvents.map mark) :=
    grounded_of_still (ServiceState.pending_still transaction)
  have whole : SessionLog.Grounded ((transaction.pendingEvents ++
      [transaction.envelope eventId now (.operationCommitted newLeafId)]).map mark) := by
    rw [map_append]
    refine grounded_concat.mpr ⟨pending, ?_⟩
    cases newLeafId with
    | none => trivial
    | some leafId =>
      exact ⟨transaction.operationId, rfl, begun_startedKind (begun.resolve_left nofun)⟩
  have appended : (record.appendEvents transaction.sessionId (transaction.pendingEvents ++
      [transaction.envelope eventId now (.operationCommitted newLeafId)])).1.Grounded :=
    appendEvents_grounded (grounded.append whole)
  simp only [TurnTransaction.commit]
  split
  · exact appended
  · cases newLeafId with
    | none => exact appended
    | some leafId =>
      have updated := appended.updateManifest failure
        { updatedAt := some now, activeLeafId := some (some leafId) }
      dsimp only
      split
      · exact updated
      · exact updated

variable {state : ServiceState}

theorem refresh_record (state : ServiceState) : state.refresh.1.record = state.record := by
  unfold ServiceState.refresh
  split <;> rfl

theorem commitPrompt_grounded {transaction : TurnTransaction} (begun : Begun .prompt transaction)
    (newLeafId eventId now : String) (failure : Option String) (grounded : state.record.Grounded) :
    (state.commitPromptTransaction transaction newLeafId eventId now failure).1.record.Grounded := by
  have committed : (transaction.commit (some newLeafId) eventId now failure
      state.record).1.Grounded :=
    commit_grounded transaction eventId now failure grounded (.inr begun)
  simp only [ServiceState.commitPromptTransaction]
  split
  · exact committed
  · rw [refresh_record]
    exact committed

theorem commitNonLeaf_grounded (transaction : TurnTransaction) (eventId now : String)
    (failure : Option String) (grounded : state.record.Grounded) :
    (state.commitNonLeafTransaction transaction eventId now failure).1.record.Grounded := by
  have committed : (transaction.commit none eventId now failure state.record).1.Grounded :=
    commit_grounded transaction eventId now failure grounded (.inl rfl)
  have updated := committed.updateManifest failure { updatedAt := some now }
  simp only [ServiceState.commitNonLeafTransaction]
  split
  · exact committed
  · split
    · exact updated
    · rw [refresh_record]
      exact updated

theorem readEvents_events {events : List SessionEventEnvelope}
    (reads : record.readEvents sessionId = .ok events) : events = record.events := by
  unfold SessionRecord.readEvents at reads
  split at reads
  · cases reads
  · exact (Except.ok.inj reads).symm

theorem committedLeafCutoff_committed {events : List SessionEventEnvelope} {leafId : String}
    (known : (committedLeafCutoff events leafId).isSome) :
    leafId ∈ committedLeaves (events.map mark) := by
  obtain ⟨cutoff, found⟩ := Option.isSome_iff_exists.mp known
  obtain ⟨event, placed, commits⟩ := committedLeafCutoff_spec found
  refine mem_filterMap.mpr ⟨mark event, mem_map_of_mem (mem_of_getElem? placed), ?_⟩
  rw [mark, commits]
  rfl

theorem switch_grounded (targetLeafId operationId eventId now : String) (failure : Option String)
    (grounded : state.record.Grounded) :
    (state.switchActiveLeaf targetLeafId operationId eventId now failure).1.record.Grounded := by
  unfold ServiceState.switchActiveLeaf
  split
  · exact grounded
  next leafId _ =>
  dsimp only
  split
  · exact grounded
  next events reads =>
  split
  · exact grounded
  next known =>
  have log : events = state.record.events := readEvents_events reads
  have committed : leafId ∈ committedLeaves (state.record.events.map mark) := by
    rw [← log]
    refine committedLeafCutoff_committed ?_
    rw [← Option.not_isNone, Bool.not_eq_true']
    exact eq_false_of_ne_true known
  have appended : (state.record.appendEvents state.handle.sessionId
      [SessionEventEnvelope.new state.handle.sessionId eventId now
        (.activeLeafChanged leafId)]).1.Grounded :=
    appendEvents_grounded (grounded_concat.mpr ⟨grounded, rfl, committed⟩)
  have updated := appended.updateManifest failure
    { updatedAt := some now, activeLeafId := some (some leafId) }
  split
  · exact appended
  · split
    · exact updated
    · rw [refresh_record]
      exact updated

theorem setDefault_grounded (profileId now : String) (failure : Option String)
    (grounded : state.record.Grounded) :
    (state.setDefaultAgentProfileId profileId now failure).1.record.Grounded := by
  have updated := grounded.updateManifest failure
    { updatedAt := some now, defaultAgentProfileId := some profileId }
  unfold ServiceState.setDefaultAgentProfileId
  dsimp only
  split
  · exact updated
  · rw [refresh_record]
    exact updated

theorem interrupted_grounded (transaction : TurnTransaction) (written : Nat) (error : String)
    (grounded : state.record.Grounded) :
    (state.interrupted transaction written error).1.record.Grounded :=
  grounded.appendStill fun event member =>
    ServiceState.pending_still transaction event (take_subset _ _ member)

theorem reopen_grounded (values : Serde) (system : StartupSystem) (failure : Option String)
    (grounded : record.Grounded) :
    (ServiceState.reopen values system failure record).1.Grounded ∧
      ∀ opened, (ServiceState.reopen values system failure record).2 = .ok opened →
        opened.record.Grounded := by
  have refused : ∀ error : SessionLog.CodingSessionError, ∀ opened : ServiceState,
      (Except.error error : Except SessionLog.CodingSessionError ServiceState) = .ok opened →
        opened.record.Grounded := by
    intro error opened same
    cases same
  unfold ServiceState.reopen
  split
  · exact ⟨grounded, refused _⟩
  next manifest _ =>
  split
  · exact ⟨grounded, refused _⟩
  next events _ =>
  dsimp only
  have appended : (record.appendEvents manifest.sessionId (recoveryEvents system
      manifest.sessionId (recoveryMarkers system
        (foldEvents values events).recoverySummary))).1.Grounded :=
    grounded.appendStill (ServiceState.recoveryEvents_still system manifest.sessionId
      (recoveryMarkers system (foldEvents values events).recoverySummary))
  have updated := appended.updateManifest failure { updatedAt := some system.now }
  split
  · refine ⟨grounded, fun opened same => ?_⟩
    cases same
    exact grounded
  split
  · exact ⟨appended, refused _⟩
  split
  · exact ⟨updated, refused _⟩
  split
  · exact ⟨updated, refused _⟩
  · refine ⟨updated, fun opened same => ?_⟩
    cases same
    exact updated

theorem call_grounded (values : Serde) {call : ServiceCall} (sound : call.Sound)
    (grounded : state.record.Grounded) : (state.call values call).1.record.Grounded := by
  cases call with
  | commitPrompt transaction newLeafId eventId now failure =>
    exact commitPrompt_grounded sound newLeafId eventId now failure grounded
  | commitNonLeaf transaction eventId now failure =>
    exact commitNonLeaf_grounded transaction eventId now failure grounded
  | switchActiveLeaf targetLeafId operationId eventId now failure =>
    exact switch_grounded targetLeafId operationId eventId now failure grounded
  | setDefaultAgentProfileId profileId now failure =>
    exact setDefault_grounded profileId now failure grounded
  | interrupted transaction written error =>
    exact interrupted_grounded transaction written error grounded
  | reopen system failure =>
    obtain ⟨failed, opens⟩ := reopen_grounded values system failure grounded
    simp only [ServiceState.call]
    split
    · next left error same =>
      rw [same] at failed
      exact failed
    · next left opened same =>
      exact opens opened (congrArg Prod.snd same)

end runs

section copies

variable {events : List SessionEventEnvelope} {record : SessionRecord}

theorem summaries_backing (leafId : String) (operationIds : List String) :
    Backing (shouldCopyBranchSummaryOperation leafId operationIds) := by
  constructor
  · intro event _ kept _ owner named other starts
    unfold shouldCopyBranchSummaryOperation at kept ⊢
    rw [named] at kept
    unfold mark startOf at starts
    split at starts
    · have own : other.operationId = some owner := by
        by_contra different
        exact starts (if_neg different)
      rw [own]
      exact kept
    · exact absurd rfl starts
  · intro event _ kept data unnamed
    unfold shouldCopyBranchSummaryOperation at kept
    rw [unnamed, data] at kept
    cases kept

theorem source_backing : Backing shouldCopySourceEvent := by
  constructor
  · intro _ _ _ _ owner _ other starts
    unfold mark at starts
    unfold shouldCopySourceEvent
    revert starts
    cases other.data with
    | sessionCreated | sessionCloned | sessionForked => exact fun starts => absurd rfl starts
    | _ => exact fun _ => rfl
  · intro _ _ _ _ _ other commits
    unfold mark at commits
    unfold shouldCopySourceEvent
    revert commits
    cases other.data with
    | sessionCreated | sessionCloned | sessionForked => exact fun commits => absurd rfl commits
    | _ => exact fun _ => rfl

theorem selectedEvents_grounded (cutoff : Nat) (leafId : String)
    (grounded : Grounded (events.map mark)) :
    Grounded ((selectedEvents events cutoff leafId).map mark) := by
  rw [← take_append_drop (cutoff + 1) events, map_append] at grounded
  unfold selectedEvents
  rw [map_append]
  exact grounded_filter (summaries_backing leafId _) grounded

theorem copiedEvents_grounded (system : CopySystem) (targetSessionId : String)
    (grounded : Grounded (events.map mark)) :
    Grounded ((copiedEvents system targetSessionId events).map mark) := by
  have same : (copiedEvents system targetSessionId events).map mark =
      (events.filter shouldCopySourceEvent).map mark := by
    unfold copiedEvents
    rw [map_map]
    have marks : mark ∘ (fun entry : SessionEventEnvelope × Nat =>
        rewriteEventForSession targetSessionId (system.nextEventId (entry.2 + 2)) entry.1) =
        mark ∘ Prod.fst := rfl
    rw [marks, ← map_map, zipIdx_map_fst]
  rw [same]
  have whole : Grounded ([] ++ events.map mark) := grounded
  exact grounded_filter source_backing whole

theorem fillCopy_grounded (system : CopySystem) (kind : SessionCopyKind) (leafId : String)
    (failure : Option String) (selected : Grounded (events.map mark)) (grounded : record.Grounded) :
    (fillCopy system kind leafId events failure record).1.Grounded := by
  have marked : (record.appendEvents record.manifest.sessionId
      [SessionEventEnvelope.new record.manifest.sessionId (system.nextEventId 1) system.now
        kind.provenanceEvent]).1.Grounded := by
    refine grounded.appendStill fun event member => ?_
    rw [mem_singleton.mp member]
    cases kind with
    | clone => rfl
    | fork => rfl
  have copied : ((record.appendEvents record.manifest.sessionId
      [SessionEventEnvelope.new record.manifest.sessionId (system.nextEventId 1) system.now
        kind.provenanceEvent]).1.appendEvents record.manifest.sessionId
          (copiedEvents system record.manifest.sessionId events)).1.Grounded :=
    appendEvents_grounded (marked.append (copiedEvents_grounded system record.manifest.sessionId selected))
  have updated := copied.updateManifest failure
    { updatedAt := some system.now, activeLeafId := some (some leafId) }
  unfold fillCopy
  dsimp only
  split
  · exact marked
  split
  · exact copied
  split
  · exact updated
  · exact updated

theorem createCopy_grounded (system : CopySystem) (name : String) (cwd : Option String)
    (defaultAgentProfileId : String) :
    (createCopy system name cwd defaultAgentProfileId).1.Grounded := by
  have empty : (⟨StoredManifest.new name system.now defaultAgentProfileId, []⟩ :
      SessionRecord).Grounded := grounded_nil
  refine empty.appendStill fun event member => ?_
  rw [mem_singleton.mp member]
  rfl

def SessionRoot.Grounded (root : SessionRoot) : Prop :=
  ∀ name record, StringMap.get root.sessions name = some record → record.Grounded

variable {root : SessionRoot}

theorem SessionRoot.Grounded.insert (sessions : root.Grounded) (grounded : record.Grounded)
    (name : String) :
    SessionRoot.Grounded { root with sessions := StringMap.insert root.sessions name record } := by
  intro other found stored
  dsimp only at stored
  rw [StringMap.get_insert] at stored
  split at stored
  · rw [← Option.some.inj stored]
    exact grounded
  · exact sessions other found stored

theorem cleanup_grounded (sessions : root.Grounded) (system : CopySystem) (name copyError : String)
    (failure : Option String) (grounded : record.Grounded) :
    (cleanupFailedSessionCopy system name record copyError failure root).1.Grounded := by
  cases failure with
  | none => exact sessions
  | some error => exact sessions.insert grounded name

theorem copyToNewSession_grounded (sessions : root.Grounded) (values : Serde) (system : CopySystem)
    (kind : SessionCopyKind) (targetLeafId failure cleanup : Option String)
    (handle : StoredManifest) :
    (copyToNewSession values system kind targetLeafId failure cleanup handle root).1.Grounded := by
  unfold copyToNewSession
  split
  · exact sessions
  next leafId _ =>
  split
  · exact sessions
  next source found =>
  split
  · exact sessions
  next events reads =>
  split
  · exact sessions
  next cutoff _ =>
  dsimp only
  split
  · exact sessions
  next name _ =>
  split
  · exact sessions
  have log : events = source.events := readEvents_events reads
  have selected : Grounded ((selectedEvents events cutoff leafId).map mark) := by
    rw [log]
    exact selectedEvents_grounded cutoff leafId (sessions _ _ found)
  have created := createCopy_grounded system name (foldEvents values events).cwd
    handle.defaultAgentProfileId
  have filled := fillCopy_grounded system kind leafId failure selected created
  split
  · exact cleanup_grounded sessions system name _ cleanup created
  split
  · exact cleanup_grounded sessions system name _ cleanup filled
  · exact sessions.insert filled name

end copies

theorem Reached.grounded {values : Serde} {record : SessionRecord} (reached : Reached values record) :
    record.Grounded := by
  induction reached with
  | created sessionId eventId createdAt defaultAgentProfileId cwd =>
    have empty : (⟨StoredManifest.new sessionId createdAt defaultAgentProfileId, []⟩ :
        SessionRecord).Grounded := grounded_nil
    refine empty.appendStill fun event member => ?_
    rw [mem_singleton.mp member]
    rfl
  | called reached call sound ih => exact call_grounded values sound ih
  | appended reached sessionId batch still ih => exact ih.appendStill still
  | copied sessions system kind targetLeafId failure cleanup handle stored ih =>
    exact copyToNewSession_grounded ih values system kind targetLeafId failure cleanup handle _ _
      stored

end PiRust.SessionLog
