import PiRust.Replay

/- Which events of a log the transcript and the leaves of its replay come from. -/
namespace PiRust.SessionLog

open List

namespace ReplayBuilder

variable (serde : Serde) (event : SessionEventEnvelope) (builder : ReplayBuilder)

def core : ReplayBuilder :=
  { builder with
    sessionId := none
    diagnostics := []
    pendingDelegationConfirmations := []
    operationStatuses := [] }

@[simp] theorem core_core : builder.core.core = builder.core := rfl
@[simp] theorem core_cwd : builder.core.cwd = builder.cwd := rfl
@[simp] theorem core_activeLeafId : builder.core.activeLeafId = builder.activeLeafId := rfl
@[simp] theorem core_transcript : builder.core.transcript = builder.transcript := rfl
@[simp] theorem core_leaves : builder.core.leaves = builder.leaves := rfl
@[simp] theorem core_messageIndices : builder.core.messageIndices = builder.messageIndices := rfl
@[simp] theorem core_toolIndices : builder.core.toolIndices = builder.toolIndices := rfl
@[simp] theorem core_delegationIndices :
    builder.core.delegationIndices = builder.delegationIndices := rfl
@[simp] theorem core_operationKinds : builder.core.operationKinds = builder.operationKinds := rfl
@[simp] theorem core_operationTranscriptStarts :
    builder.core.operationTranscriptStarts = builder.operationTranscriptStarts := rfl
@[simp] theorem core_usage : builder.core.usage = builder.usage := rfl

@[simp] theorem core_diagnose (level : DiagnosticLevel) (message : String) :
    (builder.diagnose level message).core = builder.core := rfl

@[simp] theorem core_warn (message : String) : (builder.warn message).core = builder.core := rfl

@[simp] theorem core_setStatus (operationId : String) (status : OperationReplayStatus) :
    (builder.setStatus operationId status).core = builder.core := rfl

@[simp] theorem core_observeSessionId : (builder.observeSessionId event).core = builder.core := by
  unfold observeSessionId
  split
  · rfl
  · split <;> rfl

@[simp] theorem core_observeOperationStatus :
    (builder.observeOperationStatus event).core = builder.core := by
  unfold observeOperationStatus
  split
  · rfl
  · split
    · split <;> rfl
    all_goals rfl

@[simp] theorem core_addPendingDelegationConfirmation
    (pending : ReplayPendingDelegationConfirmation) :
    (builder.addPendingDelegationConfirmation pending).core = builder.core := by
  unfold addPendingDelegationConfirmation
  split <;> rfl

@[simp] theorem core_resolvePendingDelegationConfirmation (sourceOperationId toolCallId : String) :
    (builder.resolvePendingDelegationConfirmation sourceOperationId toolCallId).core =
      builder.core := by
  unfold resolvePendingDelegationConfirmation
  split <;> rfl

theorem core_changeItem (index : Option Nat) (change : TranscriptItem → Option TranscriptItem) :
    builder.core.changeItem index change = (builder.changeItem index change).map core := by
  cases index with
  | none => rfl
  | some index =>
    simp only [changeItem, Option.bind_some, core_transcript]
    cases builder.transcript[index]? with
    | none => rfl
    | some item =>
      simp only [Option.bind_some]
      cases change item <;> rfl

variable (toolCallId : String)

theorem core_changeToolSummary (change : String → String) :
    builder.core.changeToolSummary toolCallId change =
      (builder.changeToolSummary toolCallId change).map core :=
  core_changeItem builder _ _

theorem core_setToolStatus (status : ToolCallStatus) :
    builder.core.setToolStatus toolCallId status =
      (builder.setToolStatus toolCallId status).map core :=
  core_changeItem builder _ _

theorem core_completeMessage (messageId : String) (content : List PersistedContentBlock) :
    builder.core.completeMessage messageId content =
      (builder.completeMessage messageId content).map core :=
  core_changeItem builder _ _

theorem core_setMessageStatus (messageId : String) (status : MessageStatus) :
    builder.core.setMessageStatus messageId status =
      (builder.setMessageStatus messageId status).map core :=
  core_changeItem builder _ _

theorem core_getD_warn (changed : Option ReplayBuilder) (fallback : ReplayBuilder)
    (message : String) :
    ((changed.map core).getD (fallback.core.warn message)).core =
      (changed.getD (fallback.warn message)).core := by
  cases changed <;> rfl

theorem core_finishTool (status : ToolCallStatus) (summary warning : String) :
    (builder.core.finishTool toolCallId status summary warning).core =
      (builder.finishTool toolCallId status summary warning).core := by
  unfold finishTool
  rw [core_setToolStatus]
  cases builder.setToolStatus toolCallId status with
  | none => rfl
  | some set =>
    simp only [Option.map_some, core_changeToolSummary]
    cases set.changeToolSummary toolCallId fun _ => summary <;> rfl

theorem core_recordPromptLeaf (leafId : String) :
    builder.core.recordPromptLeaf event leafId = (builder.recordPromptLeaf event leafId).core := by
  unfold recordPromptLeaf
  cases event.operationId with
  | none => rfl
  | some operationId =>
    by_cases prompt : StringMap.get builder.operationKinds operationId = some .prompt
    · simp only [core_operationKinds, ne_eq, prompt, not_true_eq_false, if_false]
      rfl
    · simp [core_operationKinds, prompt]

theorem core_applyDelegationFoldedUpdate (item : TranscriptItem) :
    builder.core.applyDelegationFoldedUpdate toolCallId item =
      (builder.applyDelegationFoldedUpdate toolCallId item).core := by
  unfold applyDelegationFoldedUpdate
  simp only [core_delegationIndices, core_toolIndices]
  split
  · rfl
  · split <;> rfl

theorem core_indexItem (entry : TranscriptItem × Nat) :
    builder.core.indexItem entry = (builder.indexItem entry).core := by
  unfold indexItem
  split <;> rfl

theorem core_rebuildIndices : builder.core.rebuildIndices = builder.rebuildIndices.core := by
  have indexed (entries : List (TranscriptItem × Nat)) (start : ReplayBuilder) :
      entries.foldl (fun builder entry => builder.indexItem entry) start.core =
        (entries.foldl (fun builder entry => builder.indexItem entry) start).core := by
    induction entries generalizing start with
    | nil => rfl
    | cons entry entries ih =>
      simp only [foldl_cons, core_indexItem]
      exact ih _
  exact indexed builder.transcript.zipIdx
    { builder with messageIndices := [], toolIndices := [], delegationIndices := [] }

theorem core_applyCompactionCompleted (summary firstKeptMessageId : String)
    (tokensBefore : UInt32) :
    (builder.core.applyCompactionCompleted summary firstKeptMessageId tokensBefore).core =
      (builder.applyCompactionCompleted summary firstKeptMessageId tokensBefore).core := by
  unfold applyCompactionCompleted
  simp only [core_transcript]
  split
  · rfl
  · rename_i firstKeptIndex _
    have rebuilt := core_rebuildIndices { builder with
      transcript := .compactionSummary summary firstKeptMessageId tokensBefore ::
        builder.transcript.drop firstKeptIndex }
    exact (congrArg core rebuilt).trans (core_core _)

theorem core_applyEvent :
    (builder.core.applyEvent serde event).core = (builder.applyEvent serde event).core := by
  unfold applyEvent
  cases event.data
  case sessionCreated | pluginLoadCompleted | branchSummaryCreated => rfl
  case operationStarted => cases event.operationId <;> rfl
  case sessionCompactionCompleted =>
    exact core_applyCompactionCompleted
      { builder with usage := { builder.usage with lastContextTokens := none } } _ _ _
  case delegationConfirmationRequested => simp [core_addPendingDelegationConfirmation, core_core]
  case delegationConfirmationApproved | delegationConfirmationRejected =>
    simp [core_resolvePendingDelegationConfirmation, core_core]
  case delegationFoldedUpdated => simp [core_applyDelegationFoldedUpdate, core_core]
  case operationCommitted newLeafId =>
    cases newLeafId with
    | none => rfl
    | some newLeafId => simp only [core_recordPromptLeaf]; rfl
  case messageCompleted messageId content usage =>
    have completed := core_completeMessage (builder.recordAssistantUsage usage) messageId content
    change core (((builder.recordAssistantUsage usage).core.completeMessage _ _).getD
      (warn _ (builder.recordAssistantUsage usage).core)) = _
    rw [completed]
    exact core_getD_warn _ _ _
  case messageCancelled =>
    simp only [core_setMessageStatus]
    exact core_getD_warn _ _ _
  case toolCallUpdated =>
    simp only [core_changeToolSummary]
    exact core_getD_warn _ _ _
  case toolCallCompleted | toolCallFailed | toolCallCancelled =>
    exact core_finishTool _ _ _ _ _
  all_goals rfl

theorem core_applyEvent_confirmation
    (confirmation : isDelegationConfirmationEvent event.data = true) :
    (builder.applyEvent serde event).core = builder.core := by
  unfold applyEvent
  revert confirmation
  cases event.data <;> simp [isDelegationConfirmationEvent]

end ReplayBuilder

def shapes (finalized : List String) (event : SessionEventEnvelope) : Bool :=
  isReplayed finalized event && !isDelegationConfirmationEvent event.data

section fold

open ReplayBuilder

variable (serde : Serde)

theorem core_foldEvent (finalized : List String) (builder : ReplayBuilder)
    (event : SessionEventEnvelope) :
    (foldEvent serde finalized builder event).core =
      if shapes finalized event then (builder.core.applyEvent serde event).core
      else builder.core := by
  have observed : ((builder.observeSessionId event).observeOperationStatus event).core =
      builder.core := by
    rw [core_observeOperationStatus, core_observeSessionId]
  unfold foldEvent shapes
  by_cases replayed : isReplayed finalized event = true
  · by_cases confirmation : isDelegationConfirmationEvent event.data = true
    · simp [replayed, confirmation, core_applyEvent_confirmation]
    · have applied := core_applyEvent serde event
        ((builder.observeSessionId event).observeOperationStatus event)
      rw [observed] at applied
      simp [replayed, confirmation, applied]
  · simp [replayed]

theorem core_foldl_foldEvent (finalized : List String) (events : List SessionEventEnvelope)
    (builder : ReplayBuilder) :
    (events.foldl (foldEvent serde finalized) builder).core =
      (events.filter (shapes finalized)).foldl
        (fun core event => (core.applyEvent serde event).core) builder.core := by
  induction events generalizing builder with
  | nil => rfl
  | cons event events ih =>
    rw [foldl_cons, ih, core_foldEvent]
    by_cases shaping : shapes finalized event = true
    · simp [shaping]
    · simp [shaping]

theorem core_foldl_warn (messages : String → String) (operationIds : List String)
    (builder : ReplayBuilder) :
    (operationIds.foldl (fun (builder : ReplayBuilder) operationId =>
      builder.warn (messages operationId)) builder).core = builder.core := by
  induction operationIds generalizing builder with
  | nil => rfl
  | cons operationId operationIds ih => rw [foldl_cons, ih, core_warn]

end fold

def foldedCore (serde : Serde) (events : List SessionEventEnvelope) : ReplayBuilder :=
  (events.foldl (foldEvent serde (finalizedOperationIds events)) {}).core

theorem foldEvents_shown (serde : Serde) (events : List SessionEventEnvelope) :
    (foldEvents serde events).transcript = (foldedCore serde events).transcript ∧
      (foldEvents serde events).leaves = (foldedCore serde events).leaves := by
  have warned := core_foldl_warn
    (fun operationId => "operation " ++ operationId ++
      " has no final marker and was omitted from replay")
    (incompleteOperationIds events (finalizedOperationIds events))
    (events.foldl (foldEvent serde (finalizedOperationIds events)) {})
  have transcripts := congrArg ReplayBuilder.transcript warned
  have leaves := congrArg ReplayBuilder.leaves warned
  exact ⟨transcripts, leaves⟩

theorem mem_finalizedOperationIds (events : List SessionEventEnvelope) (operationId : String) :
    operationId ∈ finalizedOperationIds events ↔
      ∃ marker ∈ events, marker.data.isFinalMarker = true ∧
        marker.operationId = some operationId := by
  simp only [finalizedOperationIds, mem_filterMap]
  constructor
  · rintro ⟨marker, inside, named⟩
    by_cases final : marker.data.isFinalMarker = true
    · exact ⟨marker, inside, final, by simpa [final] using named⟩
    · simp [final] at named
  · rintro ⟨marker, inside, final, named⟩
    exact ⟨marker, inside, by simp [final, named]⟩

theorem isFinalMarker_not_confirmation (data : SessionEventData)
    (final : data.isFinalMarker = true) : isDelegationConfirmationEvent data = false := by
  revert final
  cases data <;> simp [SessionEventData.isFinalMarker, isDelegationConfirmationEvent]

variable {events : List SessionEventEnvelope}

theorem shapes_of_final {marker : SessionEventEnvelope} (inside : marker ∈ events)
    (final : marker.data.isFinalMarker = true) :
    shapes (finalizedOperationIds events) marker = true := by
  have plain := isFinalMarker_not_confirmation marker.data final
  cases named : marker.operationId with
  | none => simp [shapes, isReplayed, named, plain]
  | some operationId =>
    have finalized : operationId ∈ finalizedOperationIds events :=
      (mem_finalizedOperationIds events operationId).mpr ⟨marker, inside, final, named⟩
    simp [shapes, isReplayed, named, plain, finalized]

theorem shapes_congr {finalized others : List String}
    (same : ∀ operationId, operationId ∈ finalized ↔ operationId ∈ others) :
    shapes finalized = shapes others := by
  funext event
  unfold shapes isReplayed
  cases event.operationId with
  | none => rfl
  | some operationId => simp [same operationId]

theorem foldedCore_filter (serde : Serde) (events : List SessionEventEnvelope)
    (keep : SessionEventEnvelope → Bool)
    (kept : ∀ event ∈ events, shapes (finalizedOperationIds events) event = true →
      keep event = true) :
    foldedCore serde (events.filter keep) = foldedCore serde events := by
  have same (operationId : String) :
      operationId ∈ finalizedOperationIds (events.filter keep) ↔
        operationId ∈ finalizedOperationIds events := by
    simp only [mem_finalizedOperationIds, mem_filter]
    constructor
    · rintro ⟨marker, ⟨inside, _⟩, final, named⟩
      exact ⟨marker, inside, final, named⟩
    · rintro ⟨marker, inside, final, named⟩
      exact ⟨marker, ⟨inside, kept marker inside (shapes_of_final inside final)⟩, final, named⟩
  have shaping : (events.filter keep).filter (shapes (finalizedOperationIds events)) =
      events.filter (shapes (finalizedOperationIds events)) := by
    rw [filter_filter]
    refine filter_congr fun event inside => ?_
    by_cases shaped : shapes (finalizedOperationIds events) event = true
    · simp [shaped, kept event inside shaped]
    · simp [shaped]
  unfold foldedCore
  rw [core_foldl_foldEvent, core_foldl_foldEvent, shapes_congr same, shaping]

section

variable (events : List SessionEventEnvelope) (event : SessionEventEnvelope)
include events event

def isFinalized : Bool :=
  events.any fun marker =>
    marker.data.isFinalMarker && decide (marker.operationId = event.operationId)

/-- No operation, or an operation that is no longer in doubt. -/
def isSettled : Bool :=
  event.operationId.isNone || isFinalized events event

/-- The events of a log that its replay is to show. -/
def isVisible : Bool :=
  event.operationId.isNone || isDelegationConfirmationEvent event.data || isFinalized events event

end

theorem isSettled_of_shapes {event : SessionEventEnvelope}
    (shaping : shapes (finalizedOperationIds events) event = true) :
    isSettled events event = true := by
  have parts : isReplayed (finalizedOperationIds events) event = true ∧
      isDelegationConfirmationEvent event.data = false := by
    simpa [shapes] using shaping
  have replayed := parts.1
  unfold isReplayed at replayed
  cases named : event.operationId with
  | none => simp [isSettled, named]
  | some operationId =>
    have finalized : operationId ∈ finalizedOperationIds events := by
      simpa [named, parts.2] using replayed
    have marked : isFinalized events event = true := by
      simpa [isFinalized, named] using (mem_finalizedOperationIds events operationId).mp finalized
    simp [isSettled, marked]

theorem isVisible_of_isSettled {event : SessionEventEnvelope}
    (settled : isSettled events event = true) : isVisible events event = true := by
  simp only [isSettled, Bool.or_eq_true] at settled
  simp only [isVisible, Bool.or_eq_true]
  rcases settled with free | finalized
  · exact .inl (.inl free)
  · exact .inr finalized

/-- The transcript and the leaves of a log cut at any event are those of the events
that are visible there, and of the settled events alone: no event of an operation
that the cut leaves in doubt has a part in them. -/
theorem foldEvents_take_visible (serde : Serde) (log : List SessionEventEnvelope) (cut : Nat) :
    ((foldEvents serde (log.take cut)).transcript =
        (foldEvents serde ((log.take cut).filter (isVisible (log.take cut)))).transcript ∧
      (foldEvents serde (log.take cut)).leaves =
        (foldEvents serde ((log.take cut).filter (isVisible (log.take cut)))).leaves) ∧
    ((foldEvents serde (log.take cut)).transcript =
        (foldEvents serde ((log.take cut).filter (isSettled (log.take cut)))).transcript ∧
      (foldEvents serde (log.take cut)).leaves =
        (foldEvents serde ((log.take cut).filter (isSettled (log.take cut)))).leaves) := by
  have visible := foldedCore_filter serde (log.take cut) (isVisible (log.take cut))
    fun event _ shaping => isVisible_of_isSettled (isSettled_of_shapes shaping)
  have settled := foldedCore_filter serde (log.take cut) (isSettled (log.take cut))
    fun event _ shaping => isSettled_of_shapes shaping
  simp [foldEvents_shown, visible, settled]

end PiRust.SessionLog
