import PiRust.CopiedHistory
import PiRust.SessionCreation

/- What the ways to a session leave on disk, whichever calls of the store fail. -/
namespace PiRust

open List

theorem isWhitespace_of_alphanum {c : Char} (plain : c.isAlphanum = true) :
    isWhitespace c = false := by
  have range : (48 ≤ c.toNat ∧ c.toNat ≤ 57) ∨ (65 ≤ c.toNat ∧ c.toNat ≤ 90) ∨
      (97 ≤ c.toNat ∧ c.toNat ≤ 122) := by
    change (decide (65 ≤ c.val ∧ c.val ≤ 90) || decide (97 ≤ c.val) && decide (c.val ≤ 122) ||
      decide (48 ≤ c.val) && decide (c.val ≤ 57)) = true at plain
    simp only [Bool.or_eq_true, Bool.and_eq_true, decide_eq_true_eq,
      UInt32.le_iff_toNat_le] at plain
    change ((65 ≤ c.toNat ∧ c.toNat ≤ 90) ∨ (97 ≤ c.toNat ∧ c.toNat ≤ 122)) ∨
      (48 ≤ c.toNat ∧ c.toNat ≤ 57) at plain
    omega
  unfold isWhitespace
  simp only [Bool.or_eq_false_iff, Bool.and_eq_false_iff, decide_eq_false_iff_not]
  omega

theorem trim_eq_self {text : String} (visible : ∀ c ∈ text.toList, isWhitespace c = false) :
    trim text = text := by
  have kept (chars : List Char) (plain : ∀ c ∈ chars, isWhitespace c = false) :
      chars.dropWhile isWhitespace = chars := by
    cases chars with
    | nil => rfl
    | cons c rest => rw [dropWhile_cons_of_neg (by simp [plain c (mem_cons_self ..)])]
  unfold trim
  rw [kept _ visible, kept _ fun c member => visible c (mem_reverse.mp member),
    reverse_reverse, String.ofList_toList]

namespace SessionLog

theorem normalizeSessionId_normal {value name : String}
    (normalized : normalizeSessionId value = .ok name) : normalizeSessionId name = .ok name := by
  unfold normalizeSessionId at normalized
  by_cases empty : trim value = ""
  · simp only [empty, if_true] at normalized
    cases normalized
  · by_cases plain : (trim value).toList.all fun c => c.isAlphanum || c == '_' || c == '-'
    · simp only [empty, if_false, plain, if_true] at normalized
      cases normalized
      have same : trim (trim value) = trim value := by
        refine trim_eq_self fun c member => ?_
        have allowed := all_eq_true.mp plain c member
        simp only [Bool.or_eq_true, beq_iff_eq] at allowed
        rcases allowed with (letter | rfl) | rfl
        · exact isWhitespace_of_alphanum letter
        · decide
        · decide
      simp [normalizeSessionId, same, empty, plain]
    · simp only [empty, if_false, plain] at normalized
      cases normalized

end SessionLog

namespace SessionCreation

open SessionLog

def isSessionCreated : SessionEventData → Bool
  | .sessionCreated _ => true
  | _ => false

def hasCreated (events : List SessionEventEnvelope) : Bool :=
  events.any fun event => isSessionCreated event.data

/-- A manifest, and a whole log with the event of the creation. -/
structure SessionDirectory.Complete (dir : SessionDirectory) : Prop where
  manifest : dir.manifest.isSome = true
  created : ∃ log, dir.eventLog = some log ∧ log.torn = none ∧ hasCreated log.events = true

def LeavesNothing (before after : StoreRoot) : Prop :=
  ∀ name, StringMap.get before.dirs name = none → StringMap.get after.dirs name = none

/-- The error tells that a directory could not be removed, after a step of its initialization or
of a copy had failed. -/
def ReportsCleanup (faults : StoreFaults) (error : SessionLog.CodingSessionError) : Prop :=
  ∃ fault, faults.removeSession = some fault ∧
    ((∃ sessionId sessionDir manifest createError,
      (initialization faults sessionDir manifest).2 = .error createError ∧
      error = (SessionCreateError.cleanupFailed sessionId sessionDir createError
        (.session fault.error)).toError) ∨
    ∃ operationId message, error = .partialCommit operationId
      (message ++ "; cleanup failed: " ++ displayError (.session fault.error)))

/-- A complete session, or an error and nothing left, or an error that tells what is left. -/
def Atomic (faults : StoreFaults) (before : StoreRoot)
    (outcome : Attempt StoreRoot SessionHandle) : Prop :=
  match outcome.2 with
  | .ok handle => ∃ dir, StringMap.get outcome.1.dirs handle.name = some dir ∧ dir.Complete
  | .error error => LeavesNothing before outcome.1 ∨ ReportsCleanup faults error

def Touches (name : String) (before after : StoreRoot) : Prop :=
  ∀ other, other ≠ name → StringMap.get after.dirs other = StringMap.get before.dirs other

section outcomes

-- Outcomes are compared, and no id is normalized for it.
attribute [local irreducible] normalizeSessionId

section steps

variable {faults : StoreFaults} {name : String} {before middle after root : StoreRoot}

theorem Touches.refl : Touches name root root := fun _ _ => rfl

theorem Touches.trans (first : Touches name before middle) (second : Touches name middle after) :
    Touches name before after := fun other apart => (second other apart).trans (first other apart)

theorem touches_put (dir : SessionDirectory) : Touches name root (root.put name dir) := by
  intro other apart
  rw [StoreRoot.put, StringMap.get_insert, if_neg apart]

@[simp] theorem get_put (dir : SessionDirectory) :
    StringMap.get (root.put name dir).dirs name = some dir := by
  rw [StoreRoot.put, StringMap.get_insert, if_pos rfl]

theorem removeSession_cases (faults : StoreFaults) (touched : Touches name before after) :
    (removeSession faults name after).2 = .ok () ∧
        LeavesNothing before (removeSession faults name after).1 ∨
      ∃ fault, faults.removeSession = some fault ∧
        (removeSession faults name after).2 = .error (.session fault.error) := by
  cases fails : faults.removeSession with
  | none =>
    refine .inl ⟨by simp [removeSession, fails], fun other absent => ?_⟩
    simp only [removeSession, fails, StringMap.get_remove]
    by_cases same : other = name
    · rw [if_pos same]
    · rw [if_neg same, touched other same, absent]
  | some fault =>
    refine .inr ⟨fault, rfl, ?_⟩
    unfold removeSession
    rw [fails]
    cases StringMap.get after.dirs name <;> rfl

theorem cleanup_atomic (faults : StoreFaults) (touched : Touches name before after)
    (error : SessionLog.CodingSessionError) (operationId : String) {handle : SessionHandle}
    (named : handle.name = name) :
    Atomic faults before
      ((cleanupFailedSessionCopy faults handle operationId error after).1,
        .error (cleanupFailedSessionCopy faults handle operationId error after).2) := by
  subst named
  rcases removeSession_cases faults touched with ⟨removed, nothing⟩ | ⟨fault, fails, kept⟩
  · refine .inl ?_
    simp only [cleanupFailedSessionCopy, removed]
    exact nothing
  · refine .inr ⟨fault, fails, .inr ⟨operationId, "session copy failed after creating " ++
      handle.manifest.sessionId ++ ": " ++ displayError error, ?_⟩⟩
    simp [cleanupFailedSessionCopy, kept]

end steps

section calls

attribute [local simp] readEvents appendEvents updateManifest openSession

variable {faults : StoreFaults} {root : StoreRoot} {handle : SessionHandle} {call : Nat}
  {batch : List SessionEventEnvelope}

theorem hasCreated_append (events more : List SessionEventEnvelope) :
    hasCreated (events ++ more) = (hasCreated events || hasCreated more) := any_append

variable {events : List SessionEventEnvelope} {log : LogFile} {dir : SessionDirectory}

theorem complete_iff (held : dir.eventLog = some log) (whole : log.torn = none) :
    dir.Complete ↔ dir.manifest.isSome = true ∧ hasCreated log.events = true := by
  constructor
  · rintro ⟨manifest, other, same, _, created⟩
    rw [held] at same
    cases same
    exact ⟨manifest, created⟩
  · rintro ⟨manifest, created⟩
    exact ⟨manifest, log, held, whole, created⟩

theorem LogFile.read_ok_iff {sessionId : String} :
    log.read sessionId = .ok events ↔
      events = log.events ∧ log.torn = none ∧ validateEvents sessionId log.events = .ok () := by
  unfold LogFile.read
  cases validateEvents sessionId log.events with
  | error error => simp
  | ok =>
    cases log.torn with
    | some error => simp
    | none => simp [eq_comm]

theorem readEvents_ok (reads : readEvents faults call handle root = .ok events) :
    ∃ dir log, StringMap.get root.dirs handle.name = some dir ∧ dir.eventLog = some log ∧
      log.read handle.manifest.sessionId = .ok events := by
  unfold readEvents at reads
  split at reads
  · cases reads
  · split at reads
    · cases reads
    · rename_i log found
      obtain ⟨dir, found, held⟩ := Option.bind_eq_some_iff.mp found
      exact ⟨dir, log, found, held, reads⟩

theorem readEvents_works (reads : readEvents faults call handle root = .ok events) :
    faults.readEvents call = none := by
  unfold readEvents at reads
  split at reads
  · cases reads
  · assumption

theorem appendEvents_touches :
    Touches handle.name root (appendEvents faults call handle batch root).1 := by
  unfold appendEvents
  repeat' split
  all_goals first | exact .refl | exact touches_put _

theorem appendEvents_ok (appended : (appendEvents faults call handle batch root).2 = .ok ()) :
    faults.appendEvents call = none ∧ ∃ dir log, StringMap.get root.dirs handle.name = some dir ∧
      dir.eventLog = some log ∧ log.torn = none ∧
      (appendEvents faults call handle batch root).1 = root.put handle.name { dir with
        eventLog := some ⟨log.events ++ stampEvents (nextAfter log.events) batch, none⟩ } := by
  unfold appendEvents at appended ⊢
  split at appended
  · cases appended
  rename_i dir found
  split at appended
  · cases appended
  rename_i log held
  split at appended
  · cases appended
  rename_i before read
  dsimp only at appended
  split at appended
  · cases appended
  rename_i fails
  obtain ⟨rfl, whole, _⟩ := LogFile.read_ok_iff.mp read
  simp only [fails]
  refine ⟨trivial, dir, log, found, held, whole, ?_⟩
  cases ended : (acceptEvents handle.manifest.sessionId (nextAfter log.events) batch).2 with
  | error error =>
    rw [ended] at appended
    cases appended
  | ok => simp [acceptEvents_ok ended]

theorem appendEvents_succeeds (found : StringMap.get root.dirs handle.name = some dir)
    (held : dir.eventLog = some log) (whole : log.torn = none)
    (own : validateEvents handle.manifest.sessionId log.events = .ok ())
    (valid : ∀ event ∈ batch, validateEventForSession event handle.manifest.sessionId = .ok ())
    (works : faults.appendEvents call = none) :
    (appendEvents faults call handle batch root).2 = .ok () := by
  have read : log.read handle.manifest.sessionId = .ok log.events :=
    LogFile.read_ok_iff.mpr ⟨rfl, whole, own⟩
  simp [appendEvents, found, held, read, works, acceptEvents_valid valid]

theorem updateManifest_succeeds {manifest : StoredManifest}
    (found : StringMap.get root.dirs handle.name = some dir) (held : dir.manifest = some manifest)
    (valid : validateManifest manifest.toSessionManifest = .ok ())
    (works : faults.updateManifest = none) (patch : ManifestPatch) :
    (updateManifest faults handle patch root).2 = .ok () := by
  simp [updateManifest, works, found, held, ManifestPatch.apply_valid, valid]

theorem updateManifest_touches (patch : ManifestPatch) :
    Touches handle.name root (updateManifest faults handle patch root).1 := by
  simp only [updateManifest]
  repeat' split
  all_goals first | exact .refl | exact touches_put _

theorem updateManifest_ok {patch : ManifestPatch}
    (updated : (updateManifest faults handle patch root).2 = .ok ()) :
    faults.updateManifest = none ∧ ∃ dir manifest,
      StringMap.get root.dirs handle.name = some dir ∧ dir.manifest = some manifest ∧
      (updateManifest faults handle patch root).1 = root.put handle.name
        { dir with manifest := some (patch.apply manifest) } := by
  unfold updateManifest at updated ⊢
  split at updated
  · cases updated
  rename_i fails
  split at updated
  · cases updated
  rename_i dir found
  split at updated
  · cases updated
  rename_i manifest held
  dsimp only at updated
  split at updated
  · cases updated
  · rename_i valid
    simp only [valid]
    exact ⟨fails, dir, manifest, found, held, rfl⟩

theorem openSession_ok_iff {name : String} :
    openSession faults call name root = .ok handle ↔ faults.openSession call = none ∧
      handle.name = name ∧ ∃ dir, StringMap.get root.dirs name = some dir ∧
        dir.manifest = some handle.manifest ∧
        validateManifest handle.manifest.toSessionManifest = .ok () ∧
        dir.eventLog.isSome = true := by
  unfold openSession
  cases faults.openSession call with
  | some error => simp
  | none =>
    cases StringMap.get root.dirs name with
    | none => simp
    | some dir =>
      cases held : dir.manifest with
      | none => simp [held]
      | some manifest =>
        cases valid : validateManifest manifest.toSessionManifest with
        | error error =>
          simp only [held, valid]
          constructor
          · rintro ⟨⟩
          · rintro ⟨-, -, _, ⟨⟩, same, known, -⟩
            rw [held] at same
            cases same
            rw [valid] at known
            cases known
        | ok =>
          simp only [held, valid]
          cases log : dir.eventLog with
          | none => simp [log]
          | some file =>
            constructor
            · rintro ⟨⟩
              exact ⟨trivial, rfl, dir, rfl, held, valid, by rw [log]; rfl⟩
            · rintro ⟨-, rfl, _, ⟨⟩, same, -, -⟩
              rw [held] at same
              cases same
              rfl

end calls

section records

variable {faults : StoreFaults} {root : StoreRoot} {handle : SessionHandle} {name : String}
  {record : SessionRecord}

/-- The directory of a session whose files are whole. -/
def SessionDirectory.of (record : SessionRecord) : SessionDirectory :=
  ⟨true, true, some record.manifest, some ⟨record.events, none⟩⟩

/-- What comes of a record, as what comes of the root that holds it. -/
def StoreRoot.holding {α : Type} (root : StoreRoot) (name : String)
    (done : SessionRecord × Except String α) : Attempt StoreRoot α :=
  (root.put name (.of done.1), done.2.mapError .session)

theorem put_put (first second : SessionDirectory) :
    (root.put name first).put name second = root.put name second := by
  simp [StoreRoot.put, StringMap.insert, StringMap.remove, filter_filter]

theorem appendEvents_of {call : Nat} (written : faults.appendEvents call = none)
    {batch : List SessionEventEnvelope} :
    appendEvents faults call handle batch (root.put handle.name (.of record)) =
      root.holding handle.name (record.appendEvents handle.manifest.sessionId batch) := by
  simp only [appendEvents, get_put, SessionDirectory.of, LogFile.read, SessionRecord.appendEvents,
    SessionRecord.readEvents, written]
  cases validateEvents handle.manifest.sessionId record.events with
  | error error => rfl
  | ok =>
    simp only [put_put]
    cases (acceptEvents handle.manifest.sessionId (nextAfter record.events) batch).2 <;>
      simp [StoreRoot.holding, SessionDirectory.of, Except.mapError]

theorem updateManifest_of {patch : ManifestPatch} :
    updateManifest faults handle patch (root.put handle.name (.of record)) =
      root.holding handle.name (record.updateManifest faults.updateManifest patch) := by
  unfold updateManifest SessionRecord.updateManifest
  cases faults.updateManifest with
  | some error => rfl
  | none =>
    simp only [get_put, SessionDirectory.of, put_put]
    cases validateManifest (patch.apply record.manifest).toSessionManifest <;> rfl

/-- A copy is filled in its directory as it is in its record, whatever its manifest update does. -/
theorem fillCopy_of {system : CreationSystem} {kind : SessionCopyKind} {targetLeafId : String}
    {selected : List SessionEventEnvelope}
    (normal : normalizeSessionId record.manifest.sessionId = .ok name)
    (written : ∀ call, faults.appendEvents call = none) (opens : faults.openSession 0 = none) :
    fillCopy faults system kind targetLeafId selected ⟨name, record.manifest⟩
        (root.put name (.of record)) =
      let done := root.holding name (SessionLog.fillCopy system.toCopySystem kind targetLeafId
        selected faults.updateManifest record)
      (done.1, done.2.map (⟨name, ·⟩)) := by
  have opened (record' : SessionRecord) :
      openSessionId faults 0 record.manifest.sessionId (root.put name (.of record')) =
        (record'.openSession.mapError .session).map (⟨name, ·⟩) := by
    rw [openSessionId, normal]
    unfold openSession SessionRecord.openSession
    rw [opens]
    dsimp only
    rw [get_put]
    dsimp only [SessionDirectory.of]
    generalize validateManifest _ = valid
    cases valid <;> rfl
  simp only [fillCopy, SessionLog.fillCopy, StoreRoot.holding,
    @appendEvents_of faults root ⟨name, record.manifest⟩ _ _ (written _)]
  generalize record.appendEvents _ _ = marked
  obtain ⟨marked, _ | _⟩ := marked
  · rfl
  dsimp only [Except.mapError]
  generalize marked.appendEvents _ _ = copied
  obtain ⟨copied, _ | _⟩ := copied
  · rfl
  dsimp only
  rw [@updateManifest_of faults root ⟨name, record.manifest⟩]
  simp only [StoreRoot.holding]
  generalize copied.updateManifest _ _ = patched
  obtain ⟨patched, _ | _⟩ := patched
  · rfl
  dsimp only [Except.mapError]
  rw [opened]
  rfl

end records

/-- The steps inside a new directory. -/
structure StoreFaults.Initializes (faults : StoreFaults) : Prop where
  blobs : faults.createBlobs = none
  index : faults.createIndex = none
  manifest : faults.writeManifest = none
  eventLog : faults.createEventLog = none

/-- `create_session` makes the directory: the id names a free one, and no step fails. -/
structure Creates (faults : StoreFaults) (sessionId : String) (root : StoreRoot) (name : String) :
    Prop where
  named : normalizeSessionId sessionId = .ok name
  missing : StringMap.get root.dirs name = none
  root : faults.createRoot = none
  dir : faults.createDir = none
  steps : faults.Initializes

def newDirectory (name createdAt defaultAgentProfileId : String)
    (events : List SessionEventEnvelope) : SessionDirectory :=
  ⟨true, true, some (.new name createdAt defaultAgentProfileId), some ⟨events, none⟩⟩

section creation

variable {faults : StoreFaults} {sessionId : String} {root : StoreRoot} {name : String}

theorem initialization_ok (steps : faults.Initializes) (sessionDir : String)
    (manifest : StoredManifest) : initialization faults sessionDir manifest =
      (⟨true, true, some manifest, some ⟨[], none⟩⟩, .ok ()) := by
  simp [initialization, steps.blobs, steps.index, steps.manifest, steps.eventLog]

theorem initialization_error (broken : ¬ faults.Initializes) (sessionDir : String)
    (manifest : StoredManifest) :
    ∃ error, (initialization faults sessionDir manifest).2 = .error error := by
  unfold initialization
  cases blobs : faults.createBlobs with
  | some error => exact ⟨_, rfl⟩
  | none =>
    cases index : faults.createIndex with
    | some error => exact ⟨_, rfl⟩
    | none =>
      cases written : faults.writeManifest with
      | some error => exact ⟨_, rfl⟩
      | none =>
        cases eventLog : faults.createEventLog with
        | some error => exact ⟨_, rfl⟩
        | none => exact absurd ⟨blobs, index, written, eventLog⟩ broken

theorem createSession_made (creates : Creates faults sessionId root name)
    (createdAt defaultAgentProfileId : String) :
    createSession faults sessionId createdAt defaultAgentProfileId root =
      (root.put name (newDirectory name createdAt defaultAgentProfileId []),
        .ok ⟨name, .new name createdAt defaultAgentProfileId⟩) := by
  simp [createSession, creates.named, creates.root, creates.missing, creates.dir,
    initialization_ok creates.steps, newDirectory]

theorem createSession_failed (broken : ¬ ∃ name, Creates faults sessionId root name)
    (createdAt defaultAgentProfileId : String) :
    ∃ error, (createSession faults sessionId createdAt defaultAgentProfileId root).2 =
        .error error ∧
      (LeavesNothing root (createSession faults sessionId createdAt defaultAgentProfileId root).1 ∨
        ∃ name dir manifest createError fault, faults.removeSession = some fault ∧
          (initialization faults dir manifest).2 = .error createError ∧
          error = .cleanupFailed name dir createError (.session fault.error)) := by
  have untouched : LeavesNothing root root := fun _ missing => missing
  unfold createSession
  split
  · exact ⟨_, rfl, .inl untouched⟩
  rename_i name named
  split
  · exact ⟨_, rfl, .inl untouched⟩
  rename_i rooted
  dsimp only
  split
  · exact ⟨_, rfl, .inl untouched⟩
  rename_i missing
  split
  · exact ⟨_, rfl, .inl untouched⟩
  rename_i made
  have steps : ¬ faults.Initializes := fun steps =>
    broken ⟨name, named, by simpa using missing, rooted, made, steps⟩
  obtain ⟨createError, failed⟩ := initialization_error steps (root.sessionDir name)
    (.new name createdAt defaultAgentProfileId)
  have touched : Touches name root (root.put name (initialization faults
      (root.sessionDir name) (.new name createdAt defaultAgentProfileId)).1) := touches_put _
  simp only [failed]
  rcases removeSession_cases faults touched with ⟨removed, nothing⟩ | ⟨fault, fails, kept⟩
  · simp only [removed]
    exact ⟨_, rfl, .inl nothing⟩
  · simp only [kept]
    exact ⟨_, rfl, .inr ⟨name, _, _, createError, fault, fails, failed, rfl⟩⟩

theorem createWithId_failed (broken : ¬ ∃ name, Creates faults sessionId root name)
    (system : CreationSystem) (cwd : Option String) (defaultAgentProfileId : String)
    (copyOperationId : Option String) :
    ∃ error, (createWithId faults system sessionId cwd defaultAgentProfileId copyOperationId
        root).2 = .error error ∧
      Atomic faults root (createWithId faults system sessionId cwd defaultAgentProfileId
        copyOperationId root) := by
  obtain ⟨error, failed, outcome⟩ := createSession_failed broken system.now defaultAgentProfileId
  rcases outcome with nothing | ⟨name, dir, manifest, createError, fault, fails, begun, rfl⟩
  · cases error with
    | create error =>
      simp only [createWithId, failed]
      exact ⟨_, rfl, .inl nothing⟩
    | cleanupFailed name dir createError cleanupError =>
      cases copyOperationId with
      | none =>
        simp only [createWithId, failed]
        exact ⟨_, rfl, .inl nothing⟩
      | some operationId =>
        simp only [createWithId, failed]
        exact ⟨_, rfl, .inl nothing⟩
  · cases copyOperationId with
    | none =>
      simp only [createWithId, failed]
      exact ⟨_, rfl, .inr ⟨fault, fails, .inl ⟨name, dir, manifest, createError, begun, rfl⟩⟩⟩
    | some operationId =>
      simp only [createWithId, failed]
      exact ⟨_, rfl, .inr ⟨fault, fails, .inr ⟨operationId, _, rfl⟩⟩⟩

def createdEvent (system : CreationSystem) (name : String) (cwd : Option String) :
    SessionEventEnvelope :=
  (SessionEventEnvelope.new name (system.nextEventId 0) system.now
    (.sessionCreated cwd)).withSessionSequence 1

theorem appendEvents_first (faults : StoreFaults) (system : CreationSystem) (cwd : Option String)
    (defaultAgentProfileId : String) (root : StoreRoot) (name : String) :
    appendEvents faults 0 ⟨name, .new name system.now defaultAgentProfileId⟩
        [.new name (system.nextEventId 0) system.now (.sessionCreated cwd)]
        (root.put name (newDirectory name system.now defaultAgentProfileId [])) =
      match faults.appendEvents 0 with
      | some fault =>
        (root.put name { newDirectory name system.now defaultAgentProfileId [] with
            eventLog := some ⟨[createdEvent system name cwd].take fault.kept, fault.torn⟩ },
          .error (.session fault.error))
      | none =>
        (root.put name (newDirectory name system.now defaultAgentProfileId
          [createdEvent system name cwd]), .ok ()) := by
  have accepted : acceptEvents name 1 [SessionEventEnvelope.new name (system.nextEventId 0)
      system.now (.sessionCreated cwd)] = ([createdEvent system name cwd], .ok ()) :=
    acceptEvents_valid fun event member => by
      rw [mem_singleton.mp member]
      exact SessionEventEnvelope.new_valid ..
  have first : nextAfter [] = 1 := rfl
  cases faulted : faults.appendEvents 0 <;>
    simp [appendEvents, get_put, newDirectory, LogFile.read, validateEvents,
      StoredManifest.new_sessionId, first, accepted, faulted, put_put]

section

variable (creates : Creates faults sessionId root name)
include creates

theorem createWithId_made (written : faults.appendEvents 0 = none) (system : CreationSystem)
    (cwd : Option String) (defaultAgentProfileId : String) (copyOperationId : Option String) :
    createWithId faults system sessionId cwd defaultAgentProfileId copyOperationId root =
      (root.put name (newDirectory name system.now defaultAgentProfileId
        [createdEvent system name cwd]), .ok ⟨name, .new name system.now defaultAgentProfileId⟩) := by
  simp [createWithId, createSession_made creates, StoredManifest.new_sessionId,
    appendEvents_first, written]

theorem createWithId_lost {fault : AppendFault} (lost : faults.appendEvents 0 = some fault)
    (system : CreationSystem) (cwd : Option String) (defaultAgentProfileId : String) :
    ∃ dir, createWithId faults system sessionId cwd defaultAgentProfileId none root =
      (root.put name dir, .error (.session fault.error)) := by
  simp only [createWithId, createSession_made creates, StoredManifest.new_sessionId,
    appendEvents_first, lost]
  exact ⟨_, rfl⟩

theorem createWithId_cleans {fault : AppendFault} (lost : faults.appendEvents 0 = some fault)
    (system : CreationSystem) (cwd : Option String) (defaultAgentProfileId operationId : String) :
    ∃ error, (createWithId faults system sessionId cwd defaultAgentProfileId (some operationId)
        root).2 = .error error ∧
      Atomic faults root (createWithId faults system sessionId cwd defaultAgentProfileId
        (some operationId) root) := by
  simp only [createWithId, createSession_made creates, StoredManifest.new_sessionId,
    appendEvents_first, lost]
  exact ⟨_, rfl, cleanup_atomic faults (touches_put _) _ operationId rfl⟩

end

def Abandons (faults : StoreFaults) (sessionId : String) (root : StoreRoot) : Prop :=
  (∃ name, Creates faults sessionId root name) ∧ (faults.appendEvents 0).isSome = true

theorem createWithId_atomic_iff (system : CreationSystem) (cwd : Option String)
    (defaultAgentProfileId : String) :
    Atomic faults root (createWithId faults system sessionId cwd defaultAgentProfileId none root) ↔
      ¬ Abandons faults sessionId root := by
  by_cases creates : ∃ name, Creates faults sessionId root name
  · obtain ⟨name, creates⟩ := creates
    cases written : faults.appendEvents 0 with
    | none =>
      have kept : ¬ Abandons faults sessionId root := fun abandons => by
        have lost := abandons.2
        rw [written] at lost
        cases lost
      refine ⟨fun _ => kept, fun _ => ?_⟩
      rw [createWithId_made creates written]
      exact ⟨_, get_put _, rfl, _, rfl, rfl, rfl⟩
    | some fault =>
      have abandons : Abandons faults sessionId root := ⟨⟨name, creates⟩, by rw [written]; rfl⟩
      refine ⟨fun atomic => ?_, fun kept => absurd abandons kept⟩
      obtain ⟨dir, outcome⟩ := createWithId_lost creates written system cwd defaultAgentProfileId
      rw [outcome] at atomic
      rcases atomic with nothing | ⟨_, _, ⟨_, _, manifest, createError, begun, _⟩ | ⟨_, _, other⟩⟩
      · have left := nothing name creates.missing
        rw [get_put] at left
        cases left
      · -- Only a failed initialization is reported so, and this one has succeeded.
        rw [initialization_ok creates.steps] at begun
        cases begun
      · cases other
  · refine ⟨fun _ abandons => creates abandons.1, fun _ => ?_⟩
    obtain ⟨_, _, atomic⟩ := createWithId_failed creates system cwd defaultAgentProfileId none
    exact atomic

end creation

def CompleteAt (root : StoreRoot) (name : String) : Prop :=
  ∃ dir, StringMap.get root.dirs name = some dir ∧ dir.Complete

section copies

variable {faults : StoreFaults} {root : StoreRoot} {handle : SessionHandle} {call : Nat}
variable {batch : List SessionEventEnvelope} {sessionId : String} {opened : SessionHandle}

theorem appendEvents_completeAt_iff
    (appended : (appendEvents faults call handle batch root).2 = .ok ()) {dir : SessionDirectory}
    {log : LogFile} (found : StringMap.get root.dirs handle.name = some dir)
    (held : dir.eventLog = some log) :
    CompleteAt (appendEvents faults call handle batch root).1 handle.name ↔
      dir.manifest.isSome = true ∧
        (hasCreated log.events = true ∨
          hasCreated (stampEvents (nextAfter log.events) batch) = true) := by
  obtain ⟨_, _, _, same, known, _, after⟩ := appendEvents_ok appended
  rw [found] at same
  cases same
  rw [held] at known
  cases known
  unfold CompleteAt
  rw [after]
  simp only [get_put, Option.some.injEq, exists_eq_left']
  rw [complete_iff rfl rfl, hasCreated_append, Bool.or_eq_true]

theorem appendEvents_completeAt (appended : (appendEvents faults call handle batch root).2 = .ok ())
    (complete : CompleteAt root handle.name) :
    CompleteAt (appendEvents faults call handle batch root).1 handle.name := by
  obtain ⟨dir, found, manifest, log, held, _, created⟩ := complete
  exact (appendEvents_completeAt_iff appended found held).mpr ⟨manifest, .inl created⟩

theorem updateManifest_completeAt_iff {patch : ManifestPatch}
    (updated : (updateManifest faults handle patch root).2 = .ok ()) :
    CompleteAt (updateManifest faults handle patch root).1 handle.name ↔
      CompleteAt root handle.name := by
  obtain ⟨_, dir, manifest, found, held, after⟩ := updateManifest_ok updated
  unfold CompleteAt
  rw [after, found]
  simp only [get_put, Option.some.injEq, exists_eq_left']
  constructor
  · rintro ⟨_, created⟩
    exact ⟨by rw [held]; rfl, created⟩
  · rintro ⟨_, created⟩
    exact ⟨rfl, created⟩

theorem openSessionId_name {name : String} (named : normalizeSessionId sessionId = .ok name)
    (reopened : openSessionId faults call sessionId root = .ok opened) : opened.name = name := by
  simp only [openSessionId, named] at reopened
  exact (openSession_ok_iff.mp reopened).2.1

theorem openSessionId_works (reopened : openSessionId faults call sessionId root = .ok opened) :
    faults.openSession call = none := by
  unfold openSessionId at reopened
  split at reopened
  · cases reopened
  · exact (openSession_ok_iff.mp reopened).1

variable (system : CreationSystem) (kind : SessionCopyKind) (targetLeafId : String)
  (selected : List SessionEventEnvelope)

theorem fillCopy_touches : Touches handle.name root
    (fillCopy faults system kind targetLeafId selected handle root).1 := by
  simp only [fillCopy]
  split
  · exact appendEvents_touches
  · split
    · exact appendEvents_touches.trans appendEvents_touches
    · split
      · exact (appendEvents_touches.trans appendEvents_touches).trans (updateManifest_touches _)
      · exact (appendEvents_touches.trans appendEvents_touches).trans (updateManifest_touches _)

theorem fillCopy_complete {opened : SessionHandle}
    (named : normalizeSessionId handle.manifest.sessionId = .ok handle.name)
    (complete : CompleteAt root handle.name)
    (filled : (fillCopy faults system kind targetLeafId selected handle root).2 = .ok opened) :
    CompleteAt (fillCopy faults system kind targetLeafId selected handle root).1 opened.name := by
  simp only [fillCopy] at filled ⊢
  split at filled
  · cases filled
  · rename_i marked
    have first := appendEvents_completeAt marked complete
    split at filled
    · cases filled
    · rename_i copied
      have second := appendEvents_completeAt copied first
      split at filled
      · cases filled
      · rename_i updated
        rw [openSessionId_name named filled]
        exact (updateManifest_completeAt_iff updated).mpr second

theorem publishCopy_atomic (operationId : String) (cwd : Option String)
    (defaultAgentProfileId : String) :
    Atomic faults root (publishCopy faults system kind operationId targetLeafId cwd
      defaultAgentProfileId selected root) := by
  -- A target that could not be made is what `create_with_id` leaves.
  have unmade (failed : ∃ error, (createWithId faults system system.targetSessionId cwd
        defaultAgentProfileId (some operationId) root).2 = .error error ∧
      Atomic faults root (createWithId faults system system.targetSessionId cwd
        defaultAgentProfileId (some operationId) root)) :
      Atomic faults root (publishCopy faults system kind operationId targetLeafId cwd
        defaultAgentProfileId selected root) := by
    obtain ⟨error, failed, atomic⟩ := failed
    unfold Atomic at atomic ⊢
    rw [failed] at atomic
    simp only [publishCopy, failed]
    exact atomic
  by_cases creates : ∃ name, Creates faults system.targetSessionId root name
  · obtain ⟨name, creates⟩ := creates
    cases written : faults.appendEvents 0 with
    | some fault =>
      exact unmade (createWithId_cleans creates written system cwd defaultAgentProfileId
        operationId)
    | none =>
      obtain ⟨target, made, created, named, fresh, complete⟩ : ∃ target made,
          createWithId faults system system.targetSessionId cwd defaultAgentProfileId
            (some operationId) root = (made, .ok target) ∧
          normalizeSessionId target.manifest.sessionId = .ok target.name ∧
          Touches target.name root made ∧ CompleteAt made target.name :=
        ⟨_, _, createWithId_made creates written system cwd defaultAgentProfileId _,
          normalizeSessionId_normal creates.named, touches_put _, _, get_put _, rfl, _, rfl, rfl, rfl⟩
      simp only [publishCopy, created]
      cases filled : (fillCopy faults system kind targetLeafId selected target made).2 with
      | ok opened =>
        exact fillCopy_complete system kind targetLeafId selected named complete filled
      | error error =>
        exact cleanup_atomic faults
          (fresh.trans (fillCopy_touches system kind targetLeafId selected)) error
          operationId rfl
  · exact unmade (createWithId_failed creates system cwd defaultAgentProfileId (some operationId))

theorem copyToNewSession_atomic (values : Serde)
    (requested admittedOperationId : Option String) :
    Atomic faults root (copyToNewSession faults values system kind requested admittedOperationId
      handle root) := by
  have untouched : LeavesNothing root root := fun _ missing => missing
  unfold copyToNewSession
  split
  · exact .inl untouched
  · split
    · exact .inl untouched
    · split
      · exact .inl untouched
      · split
        · exact .inl untouched
        · exact publishCopy_atomic ..

end copies

/-- A session directory whose manifest names it. -/
def StoreRoot.Named (root : StoreRoot) : Prop :=
  ∀ name dir manifest, StringMap.get root.dirs name = some dir → dir.manifest = some manifest →
    normalizeSessionId manifest.sessionId = .ok name

/-- An existing session opens: it is readable, and what its recovery has to write is written. -/
structure Opens (faults : StoreFaults) (values : Serde) (dir : SessionDirectory)
    (manifest : StoredManifest) (log : LogFile) : Prop where
  stored : dir.manifest = some manifest
  valid : validateManifest manifest.toSessionManifest = .ok ()
  eventLog : dir.eventLog = some log
  whole : log.torn = none
  own : validateEvents manifest.sessionId log.events = .ok ()
  opened : faults.openSession 0 = none
  read : faults.readEvents 0 = none
  recovers : (foldEvents values log.events).recoverySummary = [] ∨
    faults.appendEvents 0 = none ∧ faults.updateManifest = none ∧ faults.openSession 1 = none

section existing

variable {faults : StoreFaults} {values : Serde} {system : StartupSystem} {name : String}
  {root : StoreRoot} {dir : SessionDirectory} {handle : SessionHandle}

theorem applyStartupRecovery_touches :
    Touches handle.name root (applyStartupRecovery faults values system handle root).1 := by
  simp only [applyStartupRecovery]
  split
  · exact .refl
  · split
    · exact .refl
    · split
      · exact appendEvents_touches
      · split
        · exact appendEvents_touches.trans (updateManifest_touches _)
        · exact appendEvents_touches.trans (updateManifest_touches _)

theorem openExisting_touches :
    Touches name root (openExisting faults values system name root).1 := by
  unfold openExisting
  cases opened : openSession faults 0 name root with
  | error error => exact .refl
  | ok handle =>
    obtain ⟨_, rfl, _⟩ := openSession_ok_iff.mp opened
    exact applyStartupRecovery_touches

theorem hasCreated_recovery (sessionId : String) (next : UInt64)
    (markers : List StartupRecoveryMarker) :
    hasCreated (stampEvents next (recoveryEvents system sessionId markers)) = false := by
  have plain : ∀ event ∈ stampEvents next (recoveryEvents system sessionId markers),
      isSessionCreated event.data = false := by
    refine forall_stampEvents (fun _ _ holds => holds) fun event member => ?_
    obtain ⟨entry, _, rfl⟩ := mem_map.mp member
    rfl
  exact any_eq_false.mpr fun event member => by rw [plain event member]; decide

theorem openExisting_opens (system : StartupSystem) {manifest : StoredManifest} {log : LogFile}
    (named : normalizeSessionId manifest.sessionId = .ok name)
    (found : StringMap.get root.dirs name = some dir)
    (opens : Opens faults values dir manifest log) :
    ∃ opened, (openExisting faults values system name root).2 = .ok opened ∧
      opened.name = name ∧
      (CompleteAt (openExisting faults values system name root).1 name ↔ dir.Complete) := by
  have opened : openSession faults 0 name root = .ok ⟨name, manifest⟩ :=
    openSession_ok_iff.mpr ⟨opens.opened, rfl, dir, found, opens.stored, opens.valid,
      by rw [opens.eventLog]; rfl⟩
  have read : log.read manifest.sessionId = .ok log.events :=
    LogFile.read_ok_iff.mpr ⟨rfl, opens.whole, opens.own⟩
  have reads : readEvents faults 0 ⟨name, manifest⟩ root = .ok log.events := by
    simp [readEvents, opens.read, found, opens.eventLog, read]
  have same : CompleteAt root name ↔ dir.Complete := by
    simp [CompleteAt, found, exists_eq_left']
  simp only [openExisting, opened, applyStartupRecovery, reads]
  by_cases settled : (foldEvents values log.events).recoverySummary = []
  · rw [if_pos settled]
    exact ⟨_, rfl, rfl, same⟩
  · rw [if_neg settled]
    obtain ⟨appends, updates, reopens⟩ := opens.recovers.resolve_left settled
    have valid := recoveryEvents_valid system manifest.sessionId
      (recoveryMarkers system (foldEvents values log.events).recoverySummary)
    have plain (next : UInt64) : hasCreated (stampEvents next (recoveryEvents system
        manifest.sessionId (recoveryMarkers system
          (foldEvents values log.events).recoverySummary))) = false := hasCreated_recovery ..
    generalize recoveryEvents system manifest.sessionId _ = markers at valid plain ⊢
    have appended : (appendEvents faults 0 ⟨name, manifest⟩ markers root).2 = .ok () :=
      appendEvents_succeeds found opens.eventLog opens.whole opens.own valid appends
    have complete := appendEvents_completeAt_iff appended found opens.eventLog
    rw [plain, Bool.false_eq_true, or_false, ← complete_iff opens.eventLog opens.whole] at complete
    obtain ⟨grown, known, kept, logged⟩ : ∃ grown,
        StringMap.get (appendEvents faults 0 ⟨name, manifest⟩ markers root).1.dirs name =
          some grown ∧ grown.manifest = some manifest ∧ grown.eventLog.isSome = true := by
      obtain ⟨_, _, _, same, _, _, after⟩ := appendEvents_ok appended
      simp only [found, Option.some.injEq] at same
      subst same
      rw [after]
      exact ⟨_, get_put _, opens.stored, rfl⟩
    have updated : (updateManifest faults ⟨name, manifest⟩ { updatedAt := some system.now }
        (appendEvents faults 0 ⟨name, manifest⟩ markers root).1).2 = .ok () :=
      updateManifest_succeeds known kept opens.valid updates _
    obtain ⟨opened, reopened⟩ : ∃ opened, openSessionId faults 1 manifest.sessionId
        (updateManifest faults ⟨name, manifest⟩ { updatedAt := some system.now }
          (appendEvents faults 0 ⟨name, manifest⟩ markers root).1).1 = .ok opened := by
      obtain ⟨_, _, _, same, held, after⟩ := updateManifest_ok updated
      simp only [known, Option.some.injEq] at same
      subst same
      rw [kept] at held
      cases held
      rw [after, openSessionId, named]
      exact ⟨⟨name, _⟩, openSession_ok_iff.mpr ⟨reopens, rfl, _, get_put _, rfl,
        opens.valid, logged⟩⟩
    simp only [appended, updated]
    exact ⟨opened, reopened, openSessionId_name named reopened,
      (updateManifest_completeAt_iff updated).trans complete⟩

theorem openExisting_ok {opened : SessionHandle}
    (found : StringMap.get root.dirs name = some dir)
    (ok : (openExisting faults values system name root).2 = .ok opened) :
    ∃ manifest log, Opens faults values dir manifest log := by
  unfold openExisting at ok
  cases begun : openSession faults 0 name root with
  | error error =>
    rw [begun] at ok
    cases ok
  | ok handle =>
    obtain ⟨works, rfl, _, same, stored, valid, _⟩ := openSession_ok_iff.mp begun
    rw [found] at same
    cases same
    simp only [begun, applyStartupRecovery] at ok
    cases reads : readEvents faults 0 handle root with
    | error error =>
      rw [reads] at ok
      cases ok
    | ok events =>
      obtain ⟨_, log, same, held, read⟩ := readEvents_ok reads
      rw [found] at same
      cases same
      obtain ⟨rfl, whole, own⟩ := LogFile.read_ok_iff.mp read
      refine ⟨handle.manifest, log, stored, valid, held, whole, own, works,
        readEvents_works reads, ?_⟩
      by_cases settled : (foldEvents values log.events).recoverySummary = []
      · exact .inl settled
      · simp only [reads, settled, if_false] at ok
        refine .inr ?_
        split at ok
        · cases ok
        · rename_i appended
          split at ok
          · cases ok
          · rename_i updated
            exact ⟨(appendEvents_ok appended).1, (updateManifest_ok updated).1,
              openSessionId_works ok⟩

theorem openExisting_atomic_iff (named : root.Named)
    (found : StringMap.get root.dirs name = some dir) :
    Atomic faults root (openExisting faults values system name root) ↔
      ∀ manifest log, Opens faults values dir manifest log → dir.Complete := by
  cases outcome : (openExisting faults values system name root).2 with
  | ok opened =>
    obtain ⟨manifest, log, opens⟩ := openExisting_ok found outcome
    obtain ⟨other, same, called, complete⟩ := openExisting_opens system
      (named name dir manifest found opens.stored) found opens
    rw [outcome] at same
    cases same
    unfold Atomic
    rw [outcome]
    simp only [called]
    exact complete.trans ⟨fun holds _ _ _ => holds, fun holds => holds manifest log opens⟩
  | error error =>
    unfold Atomic
    rw [outcome]
    refine ⟨fun _ manifest log opens => ?_, fun _ => .inl fun other missing => ?_⟩
    · obtain ⟨_, opened, _⟩ := openExisting_opens system
        (named name dir manifest found opens.stored) found opens
      rw [outcome] at opened
      cases opened
    · by_cases same : other = name
      · rw [same, found] at missing
        cases missing
      · rw [openExisting_touches other same, missing]

end existing

/-- The session id that `create` or `open_or_create` goes on with. -/
def Entry.target (faults : StoreFaults) (system : CreationSystem) : Entry → Option String
  | .create options =>
    if faults.resolveRoot.isSome then none
    else
      match options.sessionId with
      | none => some system.targetSessionId
      | some sessionId => (normalizeSessionIdOption sessionId).toOption
  | .openOrCreate options =>
    if faults.resolveRoot.isSome ∨ options.sessionPath.isSome then none
    else options.sessionId.bind fun sessionId => (normalizeSessionIdOption sessionId).toOption
  | .fork .. | .clone _ => none

def Entry.opensExisting : Entry → Bool
  | .openOrCreate _ => true
  | _ => false

/-- What `create` and `open_or_create` need: the first event of a session that they make is
written, and a session that is opened instead has its own. -/
def Entry.Safe (faults : StoreFaults) (values : Serde) (system : CreationSystem)
    (root : StoreRoot) (entry : Entry) : Prop :=
  ∀ sessionId, entry.target faults system = some sessionId →
    ¬ Abandons faults sessionId root ∧
      (entry.opensExisting = true → ∀ name dir manifest log,
        normalizeSessionId sessionId = .ok name → StringMap.get root.dirs name = some dir →
        Opens faults values dir manifest log → dir.Complete)

section entries

variable {faults : StoreFaults} {values : Serde} {system : CreationSystem} {root : StoreRoot}

theorem reached_atomic_iff (named : root.Named) (sessionId : String) (cwd : Option String)
    (profileId : String) :
    Atomic faults root
        (match normalizeSessionId sessionId with
        | .error error => (root, .error (.session error))
        | .ok name =>
          if (StringMap.get root.dirs name).isSome then
            openExisting faults values system.startup name root
          else createWithId faults system sessionId cwd profileId none root) ↔
      ¬ Abandons faults sessionId root ∧ ∀ name dir manifest log,
        normalizeSessionId sessionId = .ok name → StringMap.get root.dirs name = some dir →
        Opens faults values dir manifest log → dir.Complete := by
  cases normal : normalizeSessionId sessionId with
  | error error =>
    refine ⟨fun _ => ⟨?_, ?_⟩, fun _ => .inl fun _ missing => missing⟩
    · rintro ⟨⟨name, creates⟩, _⟩
      have same := creates.named
      rw [normal] at same
      cases same
    · intro name dir manifest log same
      cases same
  | ok name =>
    cases found : StringMap.get root.dirs name with
    | none =>
      simp only [found, Option.isSome_none, Bool.false_eq_true, if_false, createWithId_atomic_iff]
      refine ⟨fun kept => ⟨kept, ?_⟩, fun safe => safe.1⟩
      rintro other dir manifest log ⟨⟩ same
      rw [found] at same
      cases same
    | some dir =>
      simp only [found, Option.isSome_some, if_true]
      rw [openExisting_atomic_iff named found]
      constructor
      · intro holds
        refine ⟨?_, ?_⟩
        · rintro ⟨⟨other, creates⟩, _⟩
          have same := creates.named
          rw [normal] at same
          cases same
          have missing := creates.missing
          rw [found] at missing
          cases missing
        · rintro other other' manifest log ⟨⟩ same
          rw [found] at same
          cases same
          exact holds manifest log
      · rintro ⟨_, holds⟩ manifest log
        exact holds name dir manifest log rfl found

theorem Entry.safe_of_none {entry : Entry} (stops : entry.target faults system = none) :
    entry.Safe faults values system root := by
  intro sessionId target
  rw [stops] at target
  cases target

theorem atomic_iff_of_none {entry : Entry} (stops : entry.target faults system = none)
    (error : SessionLog.CodingSessionError) :
    Atomic faults root (root, .error error) ↔ entry.Safe faults values system root :=
  ⟨fun _ => Entry.safe_of_none stops, fun _ => .inl fun _ missing => missing⟩

theorem create_atomic_iff (options : SessionOptions) :
    Atomic faults root (create faults system options root) ↔
      (Entry.create options).Safe faults values system root := by
  cases resolved : faults.resolveRoot with
  | some error =>
    simp only [create, resolved]
    exact atomic_iff_of_none (by simp [Entry.target, resolved]) _
  | none =>
    have safe_iff (sessionId : String)
        (target : (Entry.create options).target faults system = some sessionId) :
        (Entry.create options).Safe faults values system root ↔
          ¬ Abandons faults sessionId root := by
      unfold Entry.Safe
      rw [target]
      simp [Entry.opensExisting]
    cases requested : options.sessionId with
    | none =>
      simp only [create, resolved, requested]
      rw [safe_iff system.targetSessionId (by simp [Entry.target, resolved, requested])]
      exact createWithId_atomic_iff ..
    | some value =>
      cases normal : normalizeSessionIdOption value with
      | error error =>
        simp only [create, resolved, requested, normal]
        exact atomic_iff_of_none
          (by simp [Entry.target, resolved, requested, normal, Except.toOption]) _
      | ok sessionId =>
        simp only [create, resolved, requested, normal]
        rw [safe_iff sessionId
          (by simp [Entry.target, resolved, requested, normal, Except.toOption])]
        exact createWithId_atomic_iff ..

theorem openOrCreate_atomic_iff (named : root.Named) (options : SessionOptions) :
    Atomic faults root (openOrCreate faults values system options root) ↔
      (Entry.openOrCreate options).Safe faults values system root := by
  cases path : options.sessionPath with
  | some path =>
    simp only [openOrCreate, path]
    exact atomic_iff_of_none (by simp [Entry.target, path]) _
  | none =>
    cases requested : options.sessionId with
    | none =>
      simp only [openOrCreate, path, requested]
      exact atomic_iff_of_none (by simp [Entry.target, path, requested]) _
    | some value =>
      cases normal : normalizeSessionIdOption value with
      | error error =>
        simp only [openOrCreate, path, requested, normal]
        exact atomic_iff_of_none
          (by simp [Entry.target, path, requested, normal, Except.toOption]) _
      | ok sessionId =>
        cases resolved : faults.resolveRoot with
        | some error =>
          simp only [openOrCreate, path, requested, normal, resolved]
          exact atomic_iff_of_none (by simp [Entry.target, resolved]) _
        | none =>
          have target : (Entry.openOrCreate options).target faults system = some sessionId := by
            simp [Entry.target, path, requested, normal, resolved, Except.toOption]
          simp only [openOrCreate, path, requested, normal, resolved]
          unfold Entry.Safe
          simp only [target, Option.some.injEq, forall_eq', Entry.opensExisting, forall_const]
          exact reached_atomic_iff named sessionId options.cwd options.profileId

/-- Every way to a session leaves a complete one, or nothing, or tells that it could not remove
what it made, exactly when the two that do not copy are safe. -/
theorem run_atomic_iff (named : root.Named) (entry : Entry) :
    Atomic faults root (entry.run faults values system root) ↔
      entry.Safe faults values system root := by
  cases entry with
  | create options => exact create_atomic_iff options
  | openOrCreate options => exact openOrCreate_atomic_iff named options
  | fork targetLeafId admittedOperationId handle =>
    exact ⟨fun _ => Entry.safe_of_none rfl, fun _ => copyToNewSession_atomic ..⟩
  | clone handle =>
    exact ⟨fun _ => Entry.safe_of_none rfl, fun _ => copyToNewSession_atomic ..⟩

end entries

end outcomes

section sample

def sampleSystem : CreationSystem :=
  ⟨⟨"op", "sess_2", fun _ => "e", "now"⟩, SessionLog.sampleSystem⟩

def sampleOptions : SessionOptions := ⟨some "sess", none, none, none⟩

def sampleRoot : StoreRoot := ⟨"/sessions", []⟩

def fullDisk : StoreFaults :=
  { appendEvents := fun call =>
      if call = 0 then some ⟨"No space left on device (os error 28)", 0, none⟩ else none }

def leftDir : SessionDirectory := newDirectory "sess" "now" "default" []

def leftRoot : StoreRoot := ⟨"/sessions", [("sess", leftDir)]⟩

theorem sampleRoot_named : sampleRoot.Named := by
  intro name dir manifest found
  cases found

theorem leftRoot_named : leftRoot.Named := by
  intro name dir manifest found held
  have own : name = "sess" := by
    by_contra apart
    simp [leftRoot, StringMap.get, Ne.symm apart] at found
  subst own
  cases found
  cases held
  rfl

def badSector : StoreFaults := { readEvents := fun _ => some "Input/output error (os error 5)" }

/-- The log of a session without its first event does not read: `open_or_create` fails, and the
directory is left as it was. -/
theorem openOrCreate_atomic : Atomic badSector leftRoot
    ((Entry.openOrCreate sampleOptions).run badSector sampleValues sampleSystem leftRoot) := by
  refine (run_atomic_iff leftRoot_named (.openOrCreate sampleOptions)).mpr fun sessionId _ => ?_
  refine ⟨fun abandons => ?_, fun _ name dir manifest log _ _ opens => ?_⟩
  · cases abandons.2
  · cases opens.read

/-- The first event does not fit on the disk: `create` fails and leaves its directory, and the
next `open_or_create` opens it as a session that was never created. -/
theorem create_abandons :
    sampleRoot.Named ∧
    ¬ Atomic fullDisk sampleRoot
      ((Entry.create sampleOptions).run fullDisk sampleValues sampleSystem sampleRoot) ∧
    ¬ Atomic {} ((Entry.create sampleOptions).run fullDisk sampleValues sampleSystem sampleRoot).1
      ((Entry.openOrCreate sampleOptions).run {} sampleValues sampleSystem
        ((Entry.create sampleOptions).run fullDisk sampleValues sampleSystem sampleRoot).1) := by
  refine ⟨sampleRoot_named, fun atomic => ?_, ?_⟩
  · have safe : (Entry.create sampleOptions).Safe fullDisk sampleValues sampleSystem sampleRoot :=
      (create_atomic_iff sampleOptions).mp atomic
    exact (safe "sess" rfl).1 ⟨⟨"sess", rfl, rfl, rfl, rfl, rfl, rfl, rfl, rfl⟩, rfl⟩
  · have opens : Opens {} sampleValues leftDir (.new "sess" "now" "default") ⟨[], none⟩ :=
      ⟨rfl, rfl, rfl, rfl, rfl, rfl, rfl, .inl mergeSort_nil⟩
    have found : StringMap.get leftRoot.dirs "sess" = some leftDir := rfl
    intro atomic
    have complete : leftDir.Complete := (openExisting_atomic_iff leftRoot_named found).mp atomic _ _ opens
    obtain ⟨_, _, ⟨⟩, _, created⟩ := complete
    cases created

end sample

end SessionCreation

end PiRust
